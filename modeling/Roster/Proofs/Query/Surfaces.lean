import Roster.Proofs.Command.Options
import Roster.Proofs.Json.Decoding
import Roster.Proofs.Web.Parameters
import Roster.Service

/-!
# The surfaces for requests agree

The same texts (`QueryTexts`) can be given as words of a command line, as parameters of a query, and
as the JSON of the request that is made of them. Whichever way they are given, the same answer is
given or the same page is refused: `Service.surfaces_agree`.

- **Empty texts** (`answer_withoutEmpty`): the parameters drop an empty search, filter expression or
  sort key and the command line does not. Either way nothing is left out and nothing is moved.
- **Command line** (`read_words`) and **parameters** (`request_parameters`): the requests that are
  made of the texts.
- **JSON** (`Request.decodes_json`): a request is read back from what is written of it.
-/

namespace Roster

open Fields Web

/-! ## Empty texts -/

/-- What takes the empty text for none does not notice whether it is dropped. -/
theorem apply_given {β : Type} {f : Option String → β} (h : f (some "") = f none)
    (text : Option String) : f (given text) = f text := by
  by_cases hempty : text = some ""
  · rw [hempty]
    exact h.symm
  · rw [given_of_ne hempty]

private theorem applySearch_empty (records : List Record) :
    applySearch (some "") records = applySearch none records := rfl

private theorem applyFilters_empty (records : List Record) :
    applyFilters (some "") records = applyFilters none records := by
  have hnone : Constraint.ofExpression "" = [] := by decide
  simp [applyFilters, applyConstraints, hnone]

private theorem applySort_empty (d : Direction) (records : List Record) :
    applySort (some "") d records = applySort none d records := rfl

namespace Request

/-- A request without its empty texts. -/
def withoutEmpty (q : Request) : Request :=
  { q with search := given q.search, filters := given q.filters, sortBy := given q.sortBy }

theorem select_withoutEmpty (q : Request) (records : List Record) :
    q.withoutEmpty.select records = q.select records := by
  have hsearch : applySearch (given q.search) records = applySearch q.search records :=
    apply_given (f := fun text => applySearch text records) (applySearch_empty records) q.search
  have hfilters (found : List Record) :
      applyFilters (given q.filters) found = applyFilters q.filters found :=
    apply_given (f := fun text => applyFilters text found) (applyFilters_empty found) q.filters
  have hsort (kept : List Record) :
      applySort (given q.sortBy) q.direction kept = applySort q.sortBy q.direction kept :=
    apply_given (f := fun text => applySort text q.direction kept)
      (applySort_empty q.direction kept) q.sortBy
  rw [select, select, withoutEmpty, hsearch, hfilters, hsort]

end Request

theorem answer_withoutEmpty (records : List Record) (q : Request) :
    answer records q.withoutEmpty = answer records q := by
  rw [answer, q.select_withoutEmpty records]
  rfl

theorem Service.answerChecked_withoutEmpty (s : Service) (q : Request) :
    s.answerChecked q.withoutEmpty = s.answerChecked q := by
  rw [answerChecked, answerChecked, answer, answer_withoutEmpty]
  rfl

/-! ## JSON -/

namespace Request

open Decoder Json

theorem decodes_json (q : Request) : Decodes decoder q.json q := by
  have hword : ∀ n : Option UInt32,
      Decodes (optional uint32) (Json.optional (fun n => .nat n.toNat) n) n :=
    decodes_optional decodes_uint32 (by simp [Json.nat, Json.int])
  have htext : ∀ s : Option String, Decodes (optional string) (Json.optional .string s) s :=
    decodes_optional decodes_string (by simp)
  have hnames : ∀ names : Option (List String),
      Decodes (optional (list string)) (Json.optional .strings names) names :=
    decodes_optional decodes_strings (by simp [Json.strings])
  have hfields : Fills _ _ ({} : Request) q :=
    .read (decodes_field (hnames q.columns) "columns" (fun r x => { r with columns := x }) _) <|
    .read (decodes_field (hword q.page) "page" (fun r x => { r with page := x }) _) <|
    .read (decodes_field (hword q.limit) "limit" (fun r x => { r with limit := x }) _) <|
    .read (decodes_field (htext q.search) "search" (fun r x => { r with search := x }) _) <|
    .read (decodes_field (htext q.filters) "filters" (fun r x => { r with filters := x }) _) <|
    .read (decodes_field (htext q.sortBy) "sort_by" (fun r x => { r with sortBy := x }) _) <|
    .read (decodes_field (decodes_member q.direction.lookup_name) "sort_order"
      (fun r x => { r with direction := x }) _) <|
    .read (decodes_field (decodes_member q.shape.lookup_name) "format"
      (fun r x => { r with shape := x }) _) <|
    .nil q
  exact decodes_record (by decide) hfields

theorem isExact_json (q : Request) : IsExact q.json := by
  have hword : ∀ n : UInt32, IsExact (.nat n.toNat) := fun n =>
    isExact_nat (Nat.lt_trans n.toNat_lt (by decide))
  refine .object fun field hfield => ?_
  simp only [List.mem_cons, List.not_mem_nil, or_false] at hfield
  rcases hfield with rfl | rfl | rfl | rfl | rfl | rfl | rfl | rfl
  · exact isExact_optional isExact_strings q.columns
  · exact isExact_optional hword q.page
  · exact isExact_optional hword q.limit
  · exact isExact_optional .string q.search
  · exact isExact_optional .string q.filters
  · exact isExact_optional .string q.sortBy
  · exact .string q.direction.name
  · exact .string q.shape.name

/-- A request is read from its JSON text. -/
theorem ofTextStart_json (q : Request) : decoder.ofTextStart q.json.compact = .ok q :=
  ofTextStart_compact q.isExact_json q.decodes_json

end Request

/-! ## Texts -/

/-- What a query is made of, as it is typed. -/
structure QueryTexts where
  columns : Option String
  page : Option UInt32
  limit : Option UInt32
  search : Option String
  filters : Option String
  sortBy : Option String
  direction : Direction
  shape : Shape

namespace QueryTexts

/-- The texts as parameters of a query. -/
def parameters (t : QueryTexts) : DataParameters where
  columns := t.columns
  page := t.page.map word32Text
  limit := t.limit.map word32Text
  search := t.search
  filters := t.filters
  sortBy := t.sortBy
  sortOrder := some t.direction.name
  format := some t.shape.name

/-- The options of a command line with the texts that are their values. -/
def options (t : QueryTexts) : List (String × Option String) := [
  ("columns", t.columns),
  ("page", t.page.map word32Text),
  ("limit", t.limit.map word32Text),
  ("search", t.search),
  ("filters", t.filters),
  ("sort-by", t.sortBy),
  ("sort-order", some t.direction.name),
  ("format", some t.shape.name)]

/-- The options that have a value. -/
def givenOptions (t : QueryTexts) : List (String × String) :=
  Fields.filterMap id t.options

/-- The texts as words of a command line. -/
def words (t : QueryTexts) : List String :=
  "query" :: t.givenOptions.map fun field => Command.optionWord field.1 field.2

/-- The request that is made of the texts, empty ones included. -/
def request (t : QueryTexts) : Request where
  columns := (given t.columns).map columnNames
  page := t.page
  limit := t.limit
  search := t.search
  filters := t.filters
  sortBy := t.sortBy
  direction := t.direction
  shape := t.shape

theorem request_parameters (t : QueryTexts) :
    t.parameters.request = .ok t.request.withoutEmpty :=
  DataParameters.request_eq_ok (numberOf_word32Text "page" t.page)
    (numberOf_word32Text "limit" t.limit) (directionOf_name t.direction) (shapeOf_name t.shape)

/-! ## The command line -/

private theorem nodup_options (t : QueryTexts) : (keys t.options).Nodup := by
  have hkeys : keys t.options = ["columns", "page", "limit", "search", "filters", "sort-by",
      "sort-order", "format"] := rfl
  rw [hkeys]
  decide

private theorem nodup_givenOptions (t : QueryTexts) : (keys t.givenOptions).Nodup :=
  t.nodup_options.sublist (keys_filterMap_sublist id t.options)

theorem takes_options (t : QueryTexts) : ∀ field ∈ t.options, ∀ value, field.2 = some value →
    (Command.level "query").Takes field.1 value := by
  intro field hfield value hvalue
  simp only [options, List.mem_cons, List.not_mem_nil, or_false] at hfield
  rcases hfield with rfl | rfl | rfl | rfl | rfl | rfl | rfl | rfl <;> dsimp only at hvalue ⊢
  · exact Command.takes_text (by decide)
  · obtain ⟨n, -, rfl⟩ := Option.map_eq_some_iff.mp hvalue
    exact Command.takes_word32 (by decide) n
  · obtain ⟨n, -, rfl⟩ := Option.map_eq_some_iff.mp hvalue
    exact Command.takes_word32 (by decide) n
  · exact Command.takes_text (by decide)
  · exact Command.takes_text (by decide)
  · exact Command.takes_text (by decide)
  · obtain rfl := Option.some.inj hvalue
    exact Command.takes_member (by decide) t.direction.lookup_name
  · obtain rfl := Option.some.inj hvalue
    exact Command.takes_member (by decide) t.shape.lookup_name

theorem takes_givenOptions (t : QueryTexts) :
    ∀ field ∈ t.givenOptions, (Command.level "query").Takes field.1 field.2 := by
  intro field hfield
  obtain ⟨⟨name, value⟩, hmem, hmap⟩ := List.mem_filterMap.mp hfield
  obtain ⟨given, hgiven, rfl⟩ := Option.map_eq_some_iff.mp hmap
  exact t.takes_options (name, value) hmem given hgiven

/-- The arguments that the words give to the command. -/
def arguments (t : QueryTexts) : Command.Arguments :=
  .ofOptions t.givenOptions

theorem value?_arguments (t : QueryTexts) (name : String) :
    t.arguments.value? name = (get? name t.options).bind id := by
  rw [arguments, Command.Arguments.value?_ofOptions t.nodup_givenOptions, givenOptions,
    get?_filterMap t.nodup_options]

theorem request_arguments (t : QueryTexts) : t.arguments.request = t.request := by
  have hpage : t.arguments.word32? "page" = t.page :=
    Command.Arguments.word32?_eq (t.value?_arguments "page")
  have hlimit : t.arguments.word32? "limit" = t.limit :=
    Command.Arguments.word32?_eq (t.value?_arguments "limit")
  have hdirection : t.arguments.member "sort-order" Direction.byName .ascending = t.direction :=
    Command.Arguments.member_eq (t.value?_arguments "sort-order") t.direction.lookup_name
  have hshape : t.arguments.member "format" Shape.byName .nested = t.shape :=
    Command.Arguments.member_eq (t.value?_arguments "format") t.shape.lookup_name
  rw [Command.Arguments.request, hpage, hlimit, hdirection, hshape, t.value?_arguments "columns",
    t.value?_arguments "search", t.value?_arguments "filters", t.value?_arguments "sort-by"]
  rfl

/-- The words of a command line are read as the query of the request that is made of the texts. -/
theorem read_words (t : QueryTexts) :
    Invocation.read t.words = .ok ⟨none, none, .query t.request .table⟩ := by
  have hread : Command.Arguments.read (Command.level "query")
      (t.givenOptions.map fun field => Command.optionWord field.1 field.2)
        = .ok (t.arguments, none) :=
    Command.Arguments.read_options ⟨rfl, rfl, by decide⟩ t.nodup_givenOptions t.takes_givenOptions
  have hcommand : t.arguments.command "query" = .query t.request .table := by
    rw [← t.request_arguments, Command.Arguments.command, Command.Arguments.member,
      t.value?_arguments "output"]
    rfl
  rw [words, Command.read_command (by decide) hread, hcommand, t.value?_arguments "config",
    t.value?_arguments "data"]
  rfl

end QueryTexts

/-- **The surfaces agree.** The same texts are read as a request from the words of a command line,
from the parameters of a query and from the JSON of either request, and all these requests get the
same answer, or are refused for the same reason. -/
theorem Service.surfaces_agree (s : Service) (t : QueryTexts) :
    ∃ typed linked : Request,
      Invocation.read t.words = .ok ⟨none, none, .query typed .table⟩ ∧
      t.parameters.request = .ok linked ∧
      s.answerChecked linked = s.answerChecked typed ∧
      ∀ q, q = typed ∨ q = linked → ∃ posted,
        Request.decoder.ofTextStart q.json.compact = .ok posted ∧
          s.answerChecked posted = s.answerChecked typed := by
  have hanswer := s.answerChecked_withoutEmpty t.request
  refine ⟨t.request, t.request.withoutEmpty, t.read_words, t.request_parameters, hanswer,
    fun q hq => ⟨q, q.ofTextStart_json, ?_⟩⟩
  rcases hq with rfl | rfl
  · rfl
  · exact hanswer

end Roster
