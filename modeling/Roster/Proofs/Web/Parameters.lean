import Roster.Proofs.Number.Literal
import Roster.Web.Parameters

/-!
# Query parameters read back

The parameters that are written of a request stand for that request (`request_ofRequestPadded`),
whatever blanks stand around the numbers. This needs that no text of the request is empty, which
would count as not given, and that its names can be told apart once they are joined
(`Request.IsWritable`).

- **Numbers** (`word32?_around`), also between blanks.
- **Names** (`columnNames_joined`): cut at the commas between them.
- **Members** (`lookup_name`): shapes and directions by their names.
-/

namespace Roster

open Number Text

/-! ## Numbers -/

private theorem trim_naturalText (n : Nat) : trim (naturalText n) = naturalText n :=
  trim_eq_self_of_forall fun _ hc => isBlank_of_isDigit (isDigit_of_mem_naturalText hc)

namespace Web

/-- Blanks before a text and after it. -/
structure Padding where
  before : List Char
  after : List Char
  isBlank_before : ∀ c ∈ before, isBlank c = true
  isBlank_after : ∀ c ∈ after, isBlank c = true

/-- A text between blanks. -/
def Padding.around (padding : Padding) (text : String) : String :=
  String.ofList (padding.before ++ text.toList ++ padding.after)

/-- No blanks. -/
def Padding.none : Padding :=
  ⟨[], [], by simp, by simp⟩

theorem Padding.around_none (text : String) : Padding.none.around text = text := by
  simp [around, none]

/-- A number is read back, whatever blanks stand around it. -/
theorem word32?_around (padding : Padding) (n : UInt32) :
    word32? (padding.around (word32Text n)) = some n := by
  rw [word32?, Padding.around, String.toList_ofList, trim_append_right padding.isBlank_after,
    trim_append_left padding.isBlank_before, word32Text, String.toList_ofList, trim_naturalText,
    naturalBelow?_naturalText n.toNat_lt, Option.map_some, UInt32.ofNat_toNat]

theorem numberOf_around (name : String) (padding : Padding) (n : Option UInt32) :
    numberOf name (n.map fun n => padding.around (word32Text n)) = .ok n := by
  cases n with
  | none => rfl
  | some n => rw [Option.map_some, numberOf, word32?_around]

theorem numberOf_word32Text (name : String) (n : Option UInt32) :
    numberOf name (n.map word32Text) = .ok n := by
  have h := numberOf_around name .none n
  simpa only [Padding.around_none] using h

end Web

/-! ## Names -/

/-- Names with commas between them. -/
def joinedNames (names : List String) : String :=
  String.ofList ([','].intercalate (names.map String.toList))

/-- Whether joined names can be told apart: none has a comma in it or a blank at an end, and they
are not the single empty name, of which nothing is written. -/
structure AreJoinable (names : List String) : Prop where
  ne_nil : names ≠ []
  ne_empty : names ≠ [""]
  comma_notMem : ∀ name ∈ names, ',' ∉ name.toList
  trim_eq : ∀ name ∈ names, trim name.toList = name.toList

variable {names : List String}

theorem columnNames_joined (h : AreJoinable names) : columnNames (joinedNames names) = names := by
  have hcomma : ∀ cs ∈ names.map String.toList, ',' ∉ cs := by
    simpa using h.comma_notMem
  have hne : names.map String.toList ≠ [] := by
    simpa using h.ne_nil
  rw [columnNames, joinedNames, String.toList_ofList, List.splitOn_intercalate ',' hcomma hne,
    List.map_map]
  refine (List.map_congr_left fun name hname => ?_).trans (List.map_id names)
  rw [Function.comp_apply, h.trim_eq name hname, String.ofList_toList, id_eq]

private theorem joinedNames_ne_empty (h : AreJoinable names) : joinedNames names ≠ "" := by
  intro hempty
  have hnil : [','].intercalate (names.map String.toList) = [] :=
    String.ofList_eq_empty_iff.mp hempty
  rcases intercalate_singleton_eq_nil hnil with hnames | hnames
  · exact h.ne_nil (List.map_eq_nil_iff.mp hnames)
  · obtain ⟨name, rfl, hname⟩ := List.map_eq_singleton_iff.mp hnames
    exact h.ne_empty (by rw [String.toList_eq_nil_iff.mp hname])

/-! ## Requests -/

theorem Shape.lookup_name (shape : Shape) : byName.lookup shape.name = some shape := by
  cases shape <;> rfl

theorem Direction.lookup_name (direction : Direction) :
    byName.lookup direction.name = some direction := by
  cases direction <;> rfl

/-- Whether a request can be told from the parameters that are written of it: no text is empty, and
the names of the columns can be joined. -/
structure Request.IsWritable (q : Request) : Prop where
  search : q.search ≠ some ""
  filters : q.filters ≠ some ""
  sortBy : q.sortBy ≠ some ""
  columns : ∀ names, q.columns = some names → AreJoinable names

namespace Web

theorem given_of_ne {text : Option String} (h : text ≠ some "") : given text = text := by
  cases text with
  | none => rfl
  | some s =>
    have hs : s.isEmpty = false := Bool.eq_false_iff.mpr fun hempty =>
      h (congrArg some (String.isEmpty_iff.mp hempty))
    rw [given, Option.filter_some, if_pos (by rw [hs]; rfl)]

theorem shapeOf_name (shape : Shape) : shapeOf (some shape.name) = .ok shape := by
  rw [shapeOf, Shape.lookup_name]

theorem directionOf_name (direction : Direction) :
    directionOf (some direction.name) = .ok direction := by
  rw [directionOf, Direction.lookup_name]

/-- The parameters of a request, with blanks around its numbers. -/
def DataParameters.ofRequestPadded (page limit : Padding) (q : Request) : DataParameters :=
  { ofRequest q with
    page := q.page.map fun n => page.around (word32Text n)
    limit := q.limit.map fun n => limit.around (word32Text n) }

/-- The request that parameters stand for, where all of them can be read. -/
theorem DataParameters.request_eq_ok {p : DataParameters} {page limit : Option UInt32}
    {direction : Direction} {shape : Shape} (hpage : numberOf "page" p.page = .ok page)
    (hlimit : numberOf "limit" p.limit = .ok limit)
    (hdirection : directionOf p.sortOrder = .ok direction)
    (hshape : shapeOf p.format = .ok shape) :
    p.request = .ok {
      columns := (given p.columns).map columnNames
      page, limit
      search := given p.search
      filters := given p.filters
      sortBy := given p.sortBy
      direction, shape } := by
  rw [request, hpage, hlimit, hdirection, hshape]
  rfl

theorem columnNames_given_joined {columns : Option (List String)}
    (h : ∀ names, columns = some names → AreJoinable names) :
    (given (columns.map joinedNames)).map columnNames = columns := by
  cases columns with
  | none => rfl
  | some names =>
    have hnames := h names rfl
    have hgiven : some (joinedNames names) ≠ some "" := fun heq =>
      joinedNames_ne_empty hnames (Option.some.inj heq)
    rw [Option.map_some, given_of_ne hgiven, Option.map_some, columnNames_joined hnames]

/-- **What is written of a request is read as that request**, with any blanks around its numbers. -/
theorem DataParameters.request_ofRequestPadded {q : Request} (h : q.IsWritable)
    (page limit : Padding) : (ofRequestPadded page limit q).request = .ok q := by
  have hrequest := request_eq_ok (p := ofRequestPadded page limit q)
    (numberOf_around "page" page q.page) (numberOf_around "limit" limit q.limit)
    (directionOf_name q.direction) (shapeOf_name q.shape)
  have hcolumns : (given (ofRequestPadded page limit q).columns).map columnNames = q.columns :=
    columnNames_given_joined h.columns
  rw [hrequest, hcolumns]
  simp only [ofRequestPadded, ofRequest, given_of_ne h.search, given_of_ne h.filters,
    given_of_ne h.sortBy]

/-- A request with empty names, the greatest page and a limit between blanks. -/
def paddedRequest : Request :=
  { columns := some ["id", "", ""], page := some 4294967295, limit := some 7, search := some " , "
    direction := .descending, shape := .flat }

/-- A tab before a number and a wide blank after it. -/
def wideBlanks : Padding :=
  ⟨['\t'], ['\u3000'], List.forall_mem_singleton.mpr (by decide),
    List.forall_mem_singleton.mpr (by decide)⟩

theorem DataParameters.request_paddedRequest :
    paddedRequest.IsWritable ∧
      ofRequestPadded .none wideBlanks paddedRequest
        = { columns := some "id,,", page := some "4294967295", limit := some "\t7\u3000"
            search := some " , ", sortOrder := some "desc", format := some "flat" } ∧
      (ofRequestPadded .none wideBlanks paddedRequest).request = .ok paddedRequest := by
  have hwritable : paddedRequest.IsWritable := by
    refine ⟨by decide, by decide, by decide, ?_⟩
    intro names hnames
    obtain rfl : ["id", "", ""] = names := Option.some.inj hnames
    exact ⟨by decide, by decide, by decide, by decide⟩
  exact ⟨hwritable, by decide, request_ofRequestPadded hwritable .none wideBlanks⟩

end Web

end Roster
