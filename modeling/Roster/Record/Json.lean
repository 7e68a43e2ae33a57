import Roster.Record.Basic
import Roster.Json.Decode
import Roster.Json.Row

/-!
# Records as JSON

A record is written as an object with the fields that are present, in a fixed order, and read from
an object or from an array in that order. Only the id has to be there.
-/

namespace Roster

/-- A field with a text, or nothing if it is absent. -/
def textField (name : String) (value : Option String) : List (String × Json) :=
  match value with
  | some s => [(name, .string s)]
  | none => []

/-- A field with an object, or nothing if it is absent. -/
def objectField {α : Type} (name : String) (fields : α → List (String × Json)) (value : Option α) :
    List (String × Json) :=
  match value with
  | some a => [(name, .object (fields a))]
  | none => []

/-- The fields of a position. -/
def Geo.fields (g : Geo) : List (String × Json) :=
  textField "lat" g.lat ++ textField "lng" g.lng

/-- The fields of an address. -/
def Address.fields (a : Address) : List (String × Json) :=
  textField "street" a.street ++ textField "suite" a.suite ++ textField "city" a.city
    ++ textField "zipcode" a.zipcode ++ objectField "geo" Geo.fields a.geo

/-- The fields of a company. -/
def Company.fields (c : Company) : List (String × Json) :=
  textField "name" c.name ++ textField "catchPhrase" c.catchPhrase ++ textField "bs" c.bs

/-- The fields of a record. -/
def Record.fields (r : Record) : List (String × Json) :=
  ("id", .int r.id.toInt) :: textField "name" r.name ++ textField "username" r.username
    ++ textField "email" r.email ++ objectField "address" Address.fields r.address
    ++ textField "phone" r.phone ++ textField "website" r.website
    ++ objectField "company" Company.fields r.company

/-- The record as a row. -/
def Record.row (r : Record) : Row :=
  Row.ofFields r.fields

/-- The record as a value. -/
def Record.json (r : Record) : Json :=
  .object r.fields

open Decoder in
/-- Reads a position. -/
def Geo.decoder : Decoder Geo :=
  record [
    field "lat" (optional string) fun g x => { g with lat := x },
    field "lng" (optional string) fun g x => { g with lng := x }] {}

open Decoder in
/-- Reads an address. -/
def Address.decoder : Decoder Address :=
  record [
    field "street" (optional string) fun a x => { a with street := x },
    field "suite" (optional string) fun a x => { a with suite := x },
    field "city" (optional string) fun a x => { a with city := x },
    field "zipcode" (optional string) fun a x => { a with zipcode := x },
    field "geo" (optional Geo.decoder) fun a x => { a with geo := x }] {}

open Decoder in
/-- Reads a company. -/
def Company.decoder : Decoder Company :=
  record [
    field "name" (optional string) fun c x => { c with name := x },
    field "catchPhrase" (optional string) fun c x => { c with catchPhrase := x },
    field "bs" (optional string) fun c x => { c with bs := x }] {}

open Decoder in
/-- Reads a record. -/
def Record.decoder : Decoder Record :=
  record [
    requiredField "id" int64 fun r x => { r with id := x },
    field "name" (optional string) fun r x => { r with name := x },
    field "username" (optional string) fun r x => { r with username := x },
    field "email" (optional string) fun r x => { r with email := x },
    field "address" (optional Address.decoder) fun r x => { r with address := x },
    field "phone" (optional string) fun r x => { r with phone := x },
    field "website" (optional string) fun r x => { r with website := x },
    field "company" (optional Company.decoder) fun r x => { r with company := x }] { id := 0 }

end Roster
