import SchemaPlan.Json.Form

/-!
# Projections

What a query fetches: at each level the scalar fields of a model, relation fields taken as they are,
and relation fields with a projection of the related model.
-/

set_option autoImplicit false
set_option relaxedAutoImplicit false

namespace SchemaPlan

open Json

/-- One level of a query and the levels below it. -/
structure Projection where
  model : String
  scalars : List String
  /-- Relation fields that are not expanded, and names that are no fields. -/
  references : List String
  /-- Relation fields with the projection of the model they point to. -/
  nested : List (String × Projection)

/-- A relation field with the projection of the model it points to. -/
abbrev Branch := String × Projection

namespace Projection

instance : Inhabited Projection := ⟨⟨"", [], [], []⟩⟩

/-- The number of names at this level. -/
def size (projection : Projection) : Nat :=
  projection.scalars.length + projection.references.length + projection.nested.length

/-- Whether nothing is fetched. -/
def isEmpty (projection : Projection) : Bool := projection.size == 0

/-- Whether the name is fetched at this level. -/
def contains (projection : Projection) (name : String) : Bool :=
  projection.scalars.contains name || projection.references.contains name ||
    projection.nested.any (·.1 == name)

/-- The projection below a relation field. -/
def nested? (projection : Projection) (name : String) : Option Projection :=
  projection.nested.lookup name

mutual

/-- The number of levels below this one. -/
def depth : Projection → Nat
  | ⟨_, _, _, nested⟩ => depthOfBranches nested

/-- The number of levels that the branches add. -/
def depthOfBranches : List (String × Projection) → Nat
  | [] => 0
  | (_, node) :: rest => max (node.depth + 1) (depthOfBranches rest)

end

mutual

/-- The selection object of a query: true for a name that is taken as it is, and a selection object
of its own for a name that is expanded. -/
def selection : Projection → Value
  | ⟨_, scalars, references, nested⟩ =>
    .ofMembers ((scalars ++ references).map (·, .bool true) ++ selectionsOfBranches nested)

/-- The members of a selection object for the names that are expanded. -/
def selectionsOfBranches : List (String × Projection) → List (String × Value)
  | [] => []
  | (name, node) :: rest =>
    (name, .object [("select", node.selection)]) :: selectionsOfBranches rest

end

/-! ### JSON form -/

/-- The names of the entries of a projection in JSON. -/
def entryNames : List String := ["model", "scalars", "references", "nested"]

mutual

/-- Writes a projection. -/
def write : Projection → Value
  | ⟨model, scalars, references, nested⟩ => .ofMembers [
    ("model", toJson model),
    ("scalars", toJson scalars),
    ("references", toJson references),
    ("nested", .array (writeBranches nested))]

/-- Writes branches. -/
def writeBranches : List (String × Projection) → List Value
  | [] => []
  | (name, node) :: rest =>
    .ofMembers [("field", .string name), ("node", node.write)] :: writeBranches rest

end

/-- Reads a branch with the given reader of projections. -/
def readBranch? (read? : Value → Option Projection) (value : Value) : Option Branch := do
  let record ← Record.ofValue? ["field", "node"] value
  return (← record.field? "field", ← record.required "node" read?)

/-- Reads a list of branches with the given reader of projections. -/
def readBranches? (read? : Value → Option Projection) : Value → Option (List Branch)
  | .array items => readItems? (readBranch? read?) items
  | _ => none

/-- Reads a projection from a value of depth `depth` at most. -/
def readWithin? (depth : Nat) (value : Value) : Option Projection :=
  match depth with
  | 0 => none
  | depth + 1 => do
    let record ← Record.ofValue? entryNames value
    return {
      model := ← record.field? "model"
      scalars := ← record.field? "scalars"
      references := ← record.field? "references"
      nested := ← record.required "nested" (readBranches? (readWithin? depth)) }

instance : JsonForm Projection where
  toJson := write
  ofJson? value := readWithin? value.depth value

instance : JsonForm Branch where
  toJson branch := .ofMembers [("field", .string branch.1), ("node", branch.2.write)]
  ofJson? := readBranch? ofJson?

end Projection

end SchemaPlan
