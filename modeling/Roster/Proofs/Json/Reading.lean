import Roster.Json.Reader
import Roster.Proofs.Json.Literals
import Roster.Proofs.Number.Literal

/-!
# JSON texts read back

A value whose numbers are integers of 64 bits (`IsExact`) is read from its text on one line:
`read_compact`.

- **Runs** (`Reads`): what the reader makes of a beginning of a text, whatever it has read before.
  Runs are put together (`Reads.trans`) out of single steps (`Reads.of_step?`).
- **Values** (`ReadsValue`): a value is read wherever one is asked for. For an array and an object
  this follows from their parts (`reads_items`, `reads_fields`).
-/

namespace Roster.Json

open Number

variable {outer : List Container} {e : Expectation} {rest : List Char}

/-! ## Runs -/

/-- Whether the reader, from one state, takes events from the beginning of a text and is then in
another state before the rest. No more steps are taken than there are characters. -/
def Reads (start : ReaderState) (cs : List Char) (events : List JsonEvent) (stop : ReaderState)
    (rest : List Char) : Prop :=
  ∃ steps, steps + rest.length ≤ cs.length ∧ ∀ more done,
    readSteps (more + steps) start done cs = readSteps more stop (events.reverse ++ done) rest

theorem Reads.trans {start next stop : ReaderState} {cs mid : List Char}
    {first second : List JsonEvent} (h : Reads start cs first next mid)
    (h' : Reads next mid second stop rest) : Reads start cs (first ++ second) stop rest := by
  obtain ⟨steps, hlength, hrun⟩ := h
  obtain ⟨steps', hlength', hrun'⟩ := h'
  refine ⟨steps' + steps, by omega, fun more done => ?_⟩
  rw [← Nat.add_assoc, hrun, hrun', List.reverse_append, List.append_assoc]

/-- One step, at a text that does not start with a space. -/
theorem Reads.of_step? {start stop : ReaderState} {cs : List Char} {event : Option JsonEvent}
    (hopen : start.expected = .separator → start.containers ≠ [])
    (hspace : cs.dropWhile isSpace = cs) (hstep : step? start cs = some (event, stop, rest))
    (hlength : rest.length < cs.length) : Reads start cs event.toList stop rest := by
  refine ⟨1, by omega, fun more done => ?_⟩
  have hgo : ¬ (start.expected == .separator && start.containers.isEmpty) = true := by
    rw [Bool.and_eq_true, beq_iff_eq, List.isEmpty_iff]
    exact fun h => hopen h.1 h.2
  rw [readSteps, if_neg hgo, hspace, hstep]
  cases event <;> rfl

/-- One step, at a mark that is not a space. -/
theorem Reads.of_mark {start stop : ReaderState} {mark : Char} {event : Option JsonEvent}
    (hopen : start.containers ≠ []) (hmark : isSpace mark = false)
    (hstep : step? start (mark :: rest) = some (event, stop, rest)) :
    Reads start (mark :: rest) event.toList stop rest :=
  Reads.of_step? (fun _ => hopen)
    (List.dropWhile_cons_of_neg (Bool.eq_false_iff.mp hmark)) hstep (Nat.lt_succ_self _)

/-- A value starts with no space, and with no bracket that closes an array. -/
private theorem valueStep?_ne_none {cs : List Char} (h : valueStep? outer cs ≠ none) :
    cs.dropWhile isSpace = cs ∧ ∀ rest, cs ≠ ']' :: rest := by
  cases cs with
  | nil => exact absurd rfl h
  | cons c cs =>
    have hspace : ¬ isSpace c = true := by
      intro hc
      simp only [isSpace, Bool.or_eq_true, beq_iff_eq] at hc
      rcases hc with ((rfl | rfl) | rfl) | rfl <;> exact h rfl
    refine ⟨List.dropWhile_cons_of_neg hspace, fun rest heq => ?_⟩
    obtain ⟨rfl, rfl⟩ := List.cons.inj heq
    exact h rfl

/-- A value may start where one is asked for, also as the first one of an array. -/
theorem Reads.of_valueStep? {stop : ReaderState} {cs : List Char} {event : JsonEvent}
    (he : e = .value ∨ e = .firstItem)
    (hstep : valueStep? outer cs = some (some event, stop, rest))
    (hlength : rest.length < cs.length) : Reads ⟨outer, e⟩ cs [event] stop rest := by
  obtain ⟨hspace, hbracket⟩ := valueStep?_ne_none (hstep ▸ Option.some_ne_none _)
  have hsame : step? ⟨outer, e⟩ cs = valueStep? outer cs := by
    rcases he with rfl | rfl
    · rfl
    · rw [step?.eq_def]
      split <;> simp_all
  have hopen : e = .separator → outer ≠ [] := by
    rintro rfl
    rcases he with he | he <;> cases he
  have hrun : Reads ⟨outer, e⟩ cs (some event).toList stop rest :=
    Reads.of_step? hopen hspace (hsame.trans hstep) hlength
  exact hrun

/-! ## Values -/

/-- Whether a value is read wherever one is asked for. -/
def ReadsValue (j : Json) : Prop :=
  ∀ (outer : List Container) (e : Expectation) (rest : List Char), e = .value ∨ e = .firstItem →
    EndsNumber rest → Reads ⟨outer, e⟩ (compactText j ++ rest) j.events ⟨outer, .separator⟩ rest

private theorem endsNumber_nil : EndsNumber [] := by
  simp [EndsNumber]

private theorem endsNumber_cons {c : Char} (h : c ∈ [',', ']', '}']) (rest : List Char) :
    EndsNumber (c :: rest) := by
  intro d hd
  obtain rfl : c = d := by simpa using hd
  simp only [List.mem_cons, List.not_mem_nil, or_false] at h
  rcases h with rfl | rfl | rfl <;> decide

theorem readsValue_null : ReadsValue .null := by
  intro outer e rest he _
  exact Reads.of_valueStep? he (by simp [valueStep?, compactText, List.isPrefixOf?])
    (by simp [compactText]; omega)

theorem readsValue_bool (b : Bool) : ReadsValue (.bool b) := by
  intro outer e rest he _
  cases b with
  | false =>
    exact Reads.of_valueStep? he (by simp [valueStep?, compactText, List.isPrefixOf?])
      (by simp [compactText]; omega)
  | true =>
    exact Reads.of_valueStep? he (by simp [valueStep?, compactText, List.isPrefixOf?])
      (by simp [compactText]; omega)

private theorem length_lt_length_stringText_append (s : String) (rest : List Char) :
    rest.length < (stringText s ++ rest).length := by
  simp [stringText]
  omega

theorem readsValue_string (s : String) : ReadsValue (.string s) := by
  intro outer e rest he _
  have htext : compactText (.string s) ++ rest
      = '"' :: (s.toList.flatMap escape ++ '"' :: rest) := by
    simp [compactText, stringText]
  refine Reads.of_valueStep? he ?_ (length_lt_length_stringText_append s rest)
  rw [htext]
  simp [valueStep?, literal?_flatMap_escape]

/-- A minus sign or a digit starts a number. -/
theorem valueStep?_numeral {c : Char} (hc : c = '-' ∨ c.isDigit = true) (outer : List Container)
    (cs : List Char) :
    valueStep? outer (c :: cs)
      = (numeral? (c :: cs)).map fun (n, rest) =>
          (some (.number n), ⟨outer, .separator⟩, rest) := by
  have hne : ∀ d ∈ ['[', '{', '"'], c ≠ d := by
    rintro d hd rfl
    simp only [List.mem_cons, List.not_mem_nil, or_false] at hd
    rcases hd with rfl | rfl | rfl <;> exact absurd hc (by decide)
  rw [valueStep?, if_neg (hne '[' (by simp)), if_neg (hne '{' (by simp)),
    if_neg (hne '"' (by simp)), if_pos hc]

theorem readsValue_integer {n : Int} (hn : IsWord n) : ReadsValue (.number (.integer n)) := by
  intro outer e rest he hrest
  have hnumeral := numeral?_integerText_append hn hrest
  have htext : compactText (.number (.integer n)) = integerText n := rfl
  have hne : integerText n ≠ [] := by
    unfold integerText
    split
    · exact List.cons_ne_nil _ _
    · exact naturalText_ne_nil _
  obtain ⟨c, cs, hcs⟩ := List.exists_cons_of_ne_nil hne
  -- The first character tells the reader that a number begins.
  have hc : c = '-' ∨ c.isDigit = true := isDigit_of_mem_integerText (hcs ▸ List.mem_cons_self)
  rw [htext, hcs, List.cons_append]
  rw [hcs, List.cons_append] at hnumeral
  have hlength : rest.length < (c :: (cs ++ rest)).length := by
    rw [List.length_cons, List.length_append]
    omega
  refine Reads.of_valueStep? he ?_ hlength
  rw [valueStep?_numeral hc, hnumeral]
  rfl

/-! ## Arrays and objects -/

theorem reads_endArray (he : e = .separator ∨ e = .firstItem) (outer : List Container)
    (rest : List Char) :
    Reads ⟨.array :: outer, e⟩ (']' :: rest) [.endArray] ⟨outer, .separator⟩ rest := by
  have hstep : step? ⟨.array :: outer, e⟩ (']' :: rest)
      = some (some .endArray, ⟨outer, .separator⟩, rest) := by
    rcases he with rfl | rfl <;> rfl
  exact Reads.of_mark (List.cons_ne_nil _ _) rfl hstep

theorem reads_endObject (he : e = .separator ∨ e = .firstKey) (outer : List Container)
    (rest : List Char) :
    Reads ⟨.object :: outer, e⟩ ('}' :: rest) [.endObject] ⟨outer, .separator⟩ rest := by
  have hstep : step? ⟨.object :: outer, e⟩ ('}' :: rest)
      = some (some .endObject, ⟨outer, .separator⟩, rest) := by
    rcases he with rfl | rfl <;> rfl
  exact Reads.of_mark (List.cons_ne_nil _ _) rfl hstep

/-- The items of an array are read up to its end, if each of them is read. -/
theorem reads_items {items : List Json} (hne : items ≠ []) (h : ∀ item ∈ items, ReadsValue item)
    (he : e = .value ∨ e = .firstItem) (outer : List Container) (rest : List Char) :
    Reads ⟨.array :: outer, e⟩ (compactItems items ++ ']' :: rest)
      (itemEvents items ++ [.endArray]) ⟨outer, .separator⟩ rest := by
  induction items generalizing e with
  | nil => exact absurd rfl hne
  | cons item items ih =>
    obtain ⟨hitem, hitems⟩ := List.forall_mem_cons.mp h
    rw [itemEvents, List.append_assoc]
    -- The last item is followed by the bracket, any other one by a comma.
    cases items with
    | nil =>
      exact (hitem _ e _ he (endsNumber_cons (by simp) rest)).trans
        (reads_endArray (.inl rfl) outer rest)
    | cons next items =>
      have hcomma : Reads ⟨.array :: outer, .separator⟩
          (',' :: (compactItems (next :: items) ++ ']' :: rest)) (none : Option JsonEvent).toList
          ⟨.array :: outer, .value⟩ (compactItems (next :: items) ++ ']' :: rest) :=
        Reads.of_mark (List.cons_ne_nil _ _) rfl rfl
      have htext : compactItems (item :: next :: items) ++ ']' :: rest
          = compactText item ++ ',' :: (compactItems (next :: items) ++ ']' :: rest) := by
        simp [compactItems]
      rw [htext]
      exact (hitem _ e _ he (endsNumber_cons (by simp) _)).trans
        (hcomma.trans (ih (List.cons_ne_nil next items) hitems (.inl rfl)))

theorem readsValue_array {items : List Json} (h : ∀ item ∈ items, ReadsValue item) :
    ReadsValue (.array items) := by
  intro outer e rest he _
  have htext : compactText (.array items) ++ rest = '[' :: (compactItems items ++ ']' :: rest) := by
    simp [compactText]
  have hopen : Reads ⟨outer, e⟩ ('[' :: (compactItems items ++ ']' :: rest)) [.startArray]
      ⟨.array :: outer, .firstItem⟩ (compactItems items ++ ']' :: rest) :=
    Reads.of_valueStep? he rfl (by simp)
  rw [htext, events, List.cons_append]
  by_cases hne : items = []
  · subst hne
    exact hopen.trans (reads_endArray (.inr rfl) outer rest)
  · exact hopen.trans (reads_items hne h (.inr rfl) outer rest)

/-- A name is read with its colon, also the first one of an object. -/
theorem reads_key (he : e = .nextKey ∨ e = .firstKey) (key : String) (outer : List Container)
    (rest : List Char) :
    Reads ⟨outer, e⟩ (stringText key ++ ':' :: rest) [.key (some key)] ⟨outer, .value⟩ rest := by
  have htext : stringText key ++ ':' :: rest
      = '"' :: (key.toList.flatMap escape ++ '"' :: ':' :: rest) := by
    simp [stringText]
  have hstep : step? ⟨outer, e⟩ ('"' :: (key.toList.flatMap escape ++ '"' :: ':' :: rest))
      = some (some (.key (some key)), ⟨outer, .colon⟩, ':' :: rest) := by
    have hkey : keyStep? outer ('"' :: (key.toList.flatMap escape ++ '"' :: ':' :: rest))
        = some (some (.key (some key)), ⟨outer, .colon⟩, ':' :: rest) := by
      rw [keyStep?, literal?_flatMap_escape]
      rfl
    rcases he with rfl | rfl
    · exact hkey
    · -- Where the first name is expected the object may also end, but not with a quotation mark.
      rw [step?.eq_def]
      split <;> simp_all
  have hname : Reads ⟨outer, e⟩ (stringText key ++ ':' :: rest)
      (some (JsonEvent.key (some key))).toList ⟨outer, .colon⟩ (':' :: rest) := by
    refine Reads.of_step? ?_ (by rw [htext]; rfl) (by rw [htext]; exact hstep)
      (length_lt_length_stringText_append key _)
    rintro rfl
    rcases he with he | he <;> cases he
  have hcolon : Reads ⟨outer, .colon⟩ (':' :: rest) (none : Option JsonEvent).toList
      ⟨outer, .value⟩ rest :=
    Reads.of_step? (by simp) rfl rfl (by simp)
  exact hname.trans hcolon

/-- The fields of an object are read up to its end, if each of their values is read. -/
theorem reads_fields {fields : List (String × Json)} (hne : fields ≠ [])
    (h : ∀ field ∈ fields, ReadsValue field.2) (he : e = .nextKey ∨ e = .firstKey)
    (outer : List Container) (rest : List Char) :
    Reads ⟨.object :: outer, e⟩ (compactFields fields ++ '}' :: rest)
      (fieldEvents fields ++ [.endObject]) ⟨outer, .separator⟩ rest := by
  induction fields generalizing e with
  | nil => exact absurd rfl hne
  | cons field fields ih =>
    obtain ⟨key, value⟩ := field
    obtain ⟨hvalue, hfields⟩ := List.forall_mem_cons.mp h
    rw [fieldEvents, List.cons_append, List.cons_append, List.append_assoc]
    -- The last field is followed by the brace, any other one by a comma.
    cases fields with
    | nil =>
      have htext : compactFields [(key, value)] ++ '}' :: rest
          = stringText key ++ ':' :: (compactText value ++ '}' :: rest) := by
        simp [compactFields]
      rw [htext]
      exact (reads_key he key _ _).trans
        ((hvalue _ .value _ (.inl rfl) (endsNumber_cons (by simp) rest)).trans
          (reads_endObject (.inl rfl) outer rest))
    | cons next fields =>
      have hcomma : Reads ⟨.object :: outer, .separator⟩
          (',' :: (compactFields (next :: fields) ++ '}' :: rest)) (none : Option JsonEvent).toList
          ⟨.object :: outer, .nextKey⟩ (compactFields (next :: fields) ++ '}' :: rest) :=
        Reads.of_mark (List.cons_ne_nil _ _) rfl rfl
      have htext : compactFields ((key, value) :: next :: fields) ++ '}' :: rest
          = stringText key ++ ':' :: (compactText value
              ++ ',' :: (compactFields (next :: fields) ++ '}' :: rest)) := by
        simp [compactFields]
      rw [htext]
      exact (reads_key he key _ _).trans
        ((hvalue _ .value _ (.inl rfl) (endsNumber_cons (by simp) _)).trans
          (hcomma.trans (ih (List.cons_ne_nil next fields) hfields (.inl rfl))))

theorem readsValue_object {fields : List (String × Json)}
    (h : ∀ field ∈ fields, ReadsValue field.2) : ReadsValue (.object fields) := by
  intro outer e rest he _
  have htext : compactText (.object fields) ++ rest
      = '{' :: (compactFields fields ++ '}' :: rest) := by
    simp [compactText]
  have hopen : Reads ⟨outer, e⟩ ('{' :: (compactFields fields ++ '}' :: rest)) [.startObject]
      ⟨.object :: outer, .firstKey⟩ (compactFields fields ++ '}' :: rest) :=
    Reads.of_valueStep? he rfl (by simp)
  rw [htext, events, List.cons_append]
  by_cases hne : fields = []
  · subst hne
    exact hopen.trans (reads_endObject (.inr rfl) outer rest)
  · exact hopen.trans (reads_fields hne h (.inr rfl) outer rest)

/-! ## Whole texts -/

/-- Values whose numbers are integers of 64 bits. -/
inductive IsExact : Json → Prop
  | null : IsExact .null
  | bool (b : Bool) : IsExact (.bool b)
  | integer {n : Int} (h : IsWord n) : IsExact (.number (.integer n))
  | string (s : String) : IsExact (.string s)
  | array {items : List Json} (h : ∀ item ∈ items, IsExact item) : IsExact (.array items)
  | object {fields : List (String × Json)} (h : ∀ field ∈ fields, IsExact field.2) :
    IsExact (.object fields)

theorem IsExact.readsValue {j : Json} (h : IsExact j) : ReadsValue j := by
  induction h with
  | null => exact readsValue_null
  | bool b => exact readsValue_bool b
  | integer h => exact readsValue_integer h
  | string s => exact readsValue_string s
  | array _ ih => exact readsValue_array ih
  | object _ ih => exact readsValue_object ih

/-- From its text on one line the events of a value are read, and nothing is left. -/
theorem read_compact {j : Json} (h : IsExact j) : read j.compact = ⟨j.events, some []⟩ := by
  obtain ⟨steps, hlength, hrun⟩ := h.readsValue [] .value [] (.inl rfl) endsNumber_nil
  rw [List.append_nil] at hlength hrun
  obtain ⟨more, hmore⟩ : ∃ more, (compactText j).length + 1 = more + 1 + steps :=
    ⟨(compactText j).length - steps, by simp at hlength; omega⟩
  rw [read, compact, String.toList_ofList, hmore, hrun, readSteps]
  simp

end Roster.Json
