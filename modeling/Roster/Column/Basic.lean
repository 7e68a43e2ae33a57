/-!
# Columns

The fifteen places of a record that hold a value of its own, in the order of the catalog
(`Column.all`). A column has two names: its dotted `path` through the record and its `flatKey`.
Both tell it from every other column (`ofPath?_path`, `ofFlatKey?_flatKey`).
-/

namespace Roster

/-- A place in a record. -/
inductive Column
  | id
  | name
  | username
  | email
  | phone
  | website
  | street
  | suite
  | city
  | zipcode
  | lat
  | lng
  | companyName
  | companyCatchPhrase
  | companyBs
  deriving Repr, DecidableEq

/-- The part of a record that a column lies in. -/
inductive ColumnGroup
  | scalar
  | address
  | geo
  | company
  deriving Repr, DecidableEq

/-- The headings under which columns are listed. -/
inductive ColumnCategory
  | basic
  | address
  | company
  deriving Repr, DecidableEq

/-- The names of the objects around a group's columns, from the outside in. -/
def ColumnGroup.segments : ColumnGroup → List String
  | .scalar => []
  | .address => ["address"]
  | .geo => ["address", "geo"]
  | .company => ["company"]

namespace Column

/-- All columns in the order of the catalog. -/
def all : List Column :=
  [.id, .name, .username, .email, .phone, .website, .street, .suite, .city, .zipcode, .lat, .lng,
    .companyName, .companyCatchPhrase, .companyBs]

/-- The part of the record that a column lies in. -/
def group : Column → ColumnGroup
  | .street | .suite | .city | .zipcode => .address
  | .lat | .lng => .geo
  | .companyName | .companyCatchPhrase | .companyBs => .company
  | _ => .scalar

/-- The heading under which a column is listed. -/
def category (c : Column) : ColumnCategory :=
  match c.group with
  | .scalar => .basic
  | .address | .geo => .address
  | .company => .company

/-- The name of a column inside its group. -/
def leaf : Column → String
  | .id => "id"
  | .name => "name"
  | .username => "username"
  | .email => "email"
  | .phone => "phone"
  | .website => "website"
  | .street => "street"
  | .suite => "suite"
  | .city => "city"
  | .zipcode => "zipcode"
  | .lat => "lat"
  | .lng => "lng"
  | .companyName => "name"
  | .companyCatchPhrase => "catchPhrase"
  | .companyBs => "bs"

/-- The names on the way from the record to the column's value. -/
def segments (c : Column) : List String :=
  c.group.segments ++ [c.leaf]

/-- The segments with dots between them. -/
def path : Column → String
  | .id => "id"
  | .name => "name"
  | .username => "username"
  | .email => "email"
  | .phone => "phone"
  | .website => "website"
  | .street => "address.street"
  | .suite => "address.suite"
  | .city => "address.city"
  | .zipcode => "address.zipcode"
  | .lat => "address.geo.lat"
  | .lng => "address.geo.lng"
  | .companyName => "company.name"
  | .companyCatchPhrase => "company.catchPhrase"
  | .companyBs => "company.bs"

/-- The name of a column in rows without inner objects. -/
def flatKey : Column → String
  | .companyName => "company_name"
  | .companyCatchPhrase => "company_catchphrase"
  | .companyBs => "company_bs"
  | c => c.leaf

/-- What a column holds, for people. -/
def description : Column → String
  | .id => "User ID"
  | .name => "Full Name"
  | .username => "Username"
  | .email => "Email Address"
  | .phone => "Phone Number"
  | .website => "Website"
  | .street => "Street Address"
  | .suite => "Suite/Apartment"
  | .city => "City"
  | .zipcode => "ZIP Code"
  | .lat => "Latitude"
  | .lng => "Longitude"
  | .companyName => "Company Name"
  | .companyCatchPhrase => "Company Slogan"
  | .companyBs => "Business Strategy"

/-- The column with a path. -/
def ofPath? (path : String) : Option Column :=
  all.find? fun c => c.path == path

/-- The column with a flat key. -/
def ofFlatKey? (key : String) : Option Column :=
  all.find? fun c => c.flatKey == key

/-- The column with either name. -/
def ofName? (name : String) : Option Column :=
  ofPath? name <|> ofFlatKey? name

theorem mem_all (c : Column) : c ∈ all := by
  cases c <;> decide

theorem ofPath?_path (c : Column) : ofPath? c.path = some c := by
  cases c <;> decide

theorem ofFlatKey?_flatKey (c : Column) : ofFlatKey? c.flatKey = some c := by
  cases c <;> decide

end Column

namespace ColumnCategory

/-- All headings in order. -/
def all : List ColumnCategory :=
  [.basic, .address, .company]

/-- The name of a heading. -/
def name : ColumnCategory → String
  | .basic => "basic"
  | .address => "address"
  | .company => "company"

/-- The heading with a name. -/
def ofName? (name : String) : Option ColumnCategory :=
  all.find? fun c => c.name == name

/-- The columns under a heading, in the order of the catalog. -/
def columns (category : ColumnCategory) : List Column :=
  Column.all.filter fun c => c.category == category

/-- The columns under a heading, or all columns if none is given. -/
def columnsUnder (category : Option ColumnCategory) : List Column :=
  match category with
  | some c => c.columns
  | none => Column.all

end ColumnCategory

end Roster
