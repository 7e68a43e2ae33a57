import Std.Data.HashMap
import Roster.Record.Basic

/-!
# The store of records

A `Store` holds records in their order and an index of their positions by id. It is made only of
records with positive ids that are all different (`Store.ofRecords`); the first record that is in
the way is reported, a bad id before a repeated one.
-/

namespace Roster

/-- Why records are refused. -/
inductive StoreFault
  /-- The record at a position, counted from zero, has an id below one. -/
  | nonPositiveId (position : Nat) (id : Int64)
  /-- An id that an earlier record has. -/
  | duplicateId (id : Int64)
  deriving Repr, DecidableEq

/-- Records in order, with an index by id. -/
structure Store where
  records : List Record
  /-- The positions of the records, counted from zero. -/
  index : Std.HashMap Int64 Nat
  /-- Where the records come from. -/
  origin : String

namespace Store

/-- The index with the records from a position on. -/
def addToIndex (position : Nat) (index : Std.HashMap Int64 Nat) :
    List Record → Except StoreFault (Std.HashMap Int64 Nat)
  | [] => .ok index
  | r :: records =>
    if r.id.toInt ≤ 0 then .error (.nonPositiveId position r.id)
    else if index.contains r.id then .error (.duplicateId r.id)
    else addToIndex (position + 1) (index.insert r.id position) records

/-- The store of records. -/
def ofRecords (records : List Record) (origin : String) : Except StoreFault Store :=
  (addToIndex 0 ∅ records).map fun index => ⟨records, index, origin⟩

/-- The record with an id, at the position that the index has for it. -/
def find? (s : Store) (id : Int64) : Option Record :=
  s.index[id]?.bind fun position => s.records[position]?

/-- The number of records. -/
def size (s : Store) : Nat :=
  s.records.length

/-- Whether there are no records. -/
def isEmpty (s : Store) : Bool :=
  s.records.isEmpty

end Store

end Roster
