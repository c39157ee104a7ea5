import SchemaPlan.Json.Form

/-!
# Cardinality of a relation

How many records stand at either end of a relation, seen from the end that declares the field. The
inverse is the same relation seen from the other end.
-/

set_option autoImplicit false
set_option relaxedAutoImplicit false

namespace SchemaPlan

open Json

/-- The four kinds of relation; the first count is that of the declaring end. -/
inductive Cardinality
  | oneToOne
  | oneToMany
  | manyToOne
  | manyToMany
deriving DecidableEq

namespace Cardinality

/-- All four, in canonical order. -/
def all : List Cardinality := [.oneToOne, .oneToMany, .manyToOne, .manyToMany]

/-- The cardinality of a field that does or does not hold the foreign key and is or is not a
list. -/
def classify (owning list : Bool) : Cardinality :=
  match owning, list with
  | true, false => .manyToOne
  | true, true => .manyToMany
  | false, true => .oneToMany
  | false, false => .oneToOne

/-- The same relation seen from the other end. -/
def inverse : Cardinality → Cardinality
  | .oneToMany => .manyToOne
  | .manyToOne => .oneToMany
  | .oneToOne => .oneToOne
  | .manyToMany => .manyToMany

/-- Following the relation gives a collection. -/
def isToMany : Cardinality → Bool
  | .oneToMany | .manyToMany => true
  | .oneToOne | .manyToOne => false

/-- The name in texts and in JSON. -/
def name : Cardinality → String
  | .oneToOne => "one-to-one"
  | .oneToMany => "one-to-many"
  | .manyToOne => "many-to-one"
  | .manyToMany => "many-to-many"

/-- The cardinality of a name. -/
def ofName? (text : String) : Option Cardinality := alternative? all name text

instance : JsonForm Cardinality where
  toJson cardinality := .string cardinality.name
  ofJson? := readUnit? all name

end Cardinality

end SchemaPlan
