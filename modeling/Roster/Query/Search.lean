import Roster.Column.Value
import Roster.Text.Lowercase
import Roster.Filter.Reader

/-!
# Search and filters

A record is found by a search term if the term occurs in one of ten columns (`searchColumns`),
letter case aside. It is kept by a filter expression if it meets every constraint of it. No term,
the empty term and an expression without constraints leave out nothing.
-/

namespace Roster

/-- The columns that a search looks at. -/
def searchColumns : List Column :=
  [.id, .name, .username, .email, .phone, .website, .city, .street, .companyName,
    .companyCatchPhrase]

/-- Whether a lowercase term occurs in a column that a search looks at. -/
def Record.mentions (term : List Char) (r : Record) : Bool :=
  searchColumns.any fun c =>
    match r.value? c with
    | some v => Text.occursIn term (lowercase v.display)
    | none => false

/-- The records that a search finds. -/
def applySearch (term : Option String) (records : List Record) : List Record :=
  match term.filter fun t => !t.isEmpty with
  | some t => records.filter (Record.mentions (lowercase t))
  | none => records

/-- The records that meet every constraint. -/
def applyConstraints (constraints : List Constraint) (records : List Record) : List Record :=
  records.filter fun r => constraints.all fun c => c.accepts r

/-- The records that a filter expression keeps. -/
def applyFilters (expression : Option String) (records : List Record) : List Record :=
  match expression with
  | some e => applyConstraints (Constraint.ofExpression e) records
  | none => records

end Roster
