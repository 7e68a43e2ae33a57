/-!
# User records

A record has an id; everything else may be absent, at every level. A text that is present may be
empty, and an address, a position or a company that is present may have no parts at all: the three
cases are told apart.
-/

namespace Roster

/-- A position on the globe, in the words in which it was given. -/
structure Geo where
  lat : Option String := none
  lng : Option String := none
  deriving Repr, DecidableEq

/-- A postal address. -/
structure Address where
  street : Option String := none
  suite : Option String := none
  city : Option String := none
  zipcode : Option String := none
  geo : Option Geo := none
  deriving Repr, DecidableEq

/-- The company that a user works for. -/
structure Company where
  name : Option String := none
  catchPhrase : Option String := none
  bs : Option String := none
  deriving Repr, DecidableEq

/-- A user. -/
structure Record where
  id : Int64
  name : Option String := none
  username : Option String := none
  email : Option String := none
  address : Option Address := none
  phone : Option String := none
  website : Option String := none
  company : Option Company := none
  deriving Repr, DecidableEq

end Roster
