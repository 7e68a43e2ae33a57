import Roster.Proofs.Column.Selection
import Roster.Proofs.Store.Index
import Roster.Query.Answer
import Roster.Record.Sample

/-!
# Answers with chosen columns

An answer depends on requested names only through the columns that they choose and, in its own list of
names, through the names themselves (`answer_of_same_columns`). This is said of names that are there: a
request without names leaves the choice open, whereas unknown names alone choose no column.

`columns_of_names` joins what names choose with what restated names leave unchanged.
-/

namespace Roster

variable {names other : List String}

private theorem Request.names?_of_ne_nil (q : Request) (hne : names ≠ []) :
    { q with columns := some names }.names? = some names := by
  have hnames : names.isEmpty = false := by simpa using hne
  simp [names?, hnames]

private theorem Request.chosen?_of_ne_nil (q : Request) (hne : names ≠ []) :
    { q with columns := some names }.chosen? = some ((Column.selection names).map Prod.fst) := by
  rw [chosen?, names?_of_ne_nil q hne]
  rfl

example :
    ({ columns := some ["", "nickname"] } : Request).chosen? = some [] ∧
      ({ columns := some [] } : Request).chosen? = none := by decide

/-- Names that choose the same columns have the same answer, but for the names in it. -/
theorem answer_of_same_columns (records : List Record) (q : Request) (hne : names ≠ [])
    (hother : other ≠ [])
    (hsame : (Column.selection other).map Prod.fst = (Column.selection names).map Prod.fst) :
    answer records { q with columns := some other }
      = { answer records { q with columns := some names } with columns := other } := by
  have hselect (columns : Option (List String)) :
      { q with columns := columns }.select records = q.select records := rfl
  simp only [answer, Request.chosen?_of_ne_nil q hne, Request.chosen?_of_ne_nil q hother,
    Request.names?_of_ne_nil q hother, hsame, hselect]
  rfl

/-- **What requested names choose.** Names choose the columns that one of them names, each once, with the
spelling of its first mention and in the order of first mentions; these spellings by themselves choose
the same. So names that are no column's, further mentions of a column and other spellings change nothing
in the answers to requests with names, except for the names that an answer gives back. -/
theorem columns_of_names (names : List String) :
    ((Column.selection names).map Prod.fst).Nodup ∧
    (∀ c, c ∈ (Column.selection names).map Prod.fst ↔
      ∃ name ∈ names, Column.ofName? name = some c) ∧
    (∀ c spelling, (c, spelling) ∈ Column.selection names ↔
      names.find? c.hasName = some spelling) ∧
    ((Column.selection names).Pairwise fun first second =>
      names.findIdx first.1.hasName < names.findIdx second.1.hasName) ∧
    Column.selection ((Column.selection names).map Prod.snd) = Column.selection names ∧
    ∀ (store : Store) (q : Request) (other : List String), names ≠ [] →
      Relation.ReflTransGen Column.Restates names other →
        answer store.records { q with columns := some other }
          = { answer store.records { q with columns := some names } with columns := other } := by
  refine ⟨Column.nodup_map_fst_selection names, fun _ => Column.mem_map_fst_selection_iff,
    fun _ _ => Column.mem_selection_iff, Column.pairwise_selection names,
    Column.selection_map_snd names, fun store q other hne hrestates => ?_⟩
  exact answer_of_same_columns store.records q hne (Column.ne_nil_of_restates hrestates hne)
    (Column.map_fst_selection_of_restates hrestates)

/-- The second page of the sample records, by city and company. -/
theorem columns_of_names_samples :
    ∃ store, Store.ofRecords sampleRecords "samples" = .ok store ∧
      ["city", "company.name"] ≠ ([] : List String) ∧
      Relation.ReflTransGen Column.Restates ["city", "company.name"]
        ["", "address.city", "nickname", "company_name", "city"] ∧
      (answer store.records
        { columns := some ["", "address.city", "nickname", "company_name", "city"],
          page := some 2, limit := some 3 }).data
        = (answer store.records
          { columns := some ["city", "company.name"], page := some 2, limit := some 3 }).data := by
  obtain ⟨store, hstore, -⟩ := Store.exists_ofRecords_samples "samples"
  have hne : ["city", "company.name"] ≠ ([] : List String) := by decide
  have hempty : Column.Restates ["city", "company.name"] ["", "city", "company.name"] :=
    .unknown [] ["city", "company.name"] (by decide)
  have hpath : Column.Restates ["", "city", "company.name"] ["", "address.city", "company.name"] :=
    .respell [""] ["company.name"] (c := .city) (by decide) (by decide)
  have hunknown : Column.Restates ["", "address.city", "company.name"]
      ["", "address.city", "nickname", "company.name"] :=
    .unknown ["", "address.city"] ["company.name"] (by decide)
  have hflat : Column.Restates ["", "address.city", "nickname", "company.name"]
      ["", "address.city", "nickname", "company_name"] :=
    .respell ["", "address.city", "nickname"] [] (c := .companyName) (by decide) (by decide)
  have hagain : Column.Restates ["", "address.city", "nickname", "company_name"]
      ["", "address.city", "nickname", "company_name", "city"] :=
    .again ["", "address.city", "nickname", "company_name"] [] (c := .city) (.tail _ (.head _))
      (by decide) (by decide)
  have hrestates : Relation.ReflTransGen Column.Restates ["city", "company.name"]
      ["", "address.city", "nickname", "company_name", "city"] :=
    .head hempty (.head hpath (.head hunknown (.head hflat (.single hagain))))
  refine ⟨store, hstore, hne, hrestates, ?_⟩
  obtain ⟨-, -, -, -, -, hanswer⟩ := columns_of_names ["city", "company.name"]
  rw [hanswer store { page := some 2, limit := some 3 } _ hne hrestates]

end Roster
