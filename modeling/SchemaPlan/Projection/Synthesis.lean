import SchemaPlan.Projection.Basic
import SchemaPlan.Relations.Graph
import SchemaPlan.Schema.Basic

/-!
# Synthesis of projections

A projection starts at a model with a list of names. A relation to a single record is expanded into
a projection of the model it points to, as long as that model is not already on the way down from
the root; everything else stays flat. Every expansion takes a declared model that is not on the path
and puts it there (`countOutside_cons_lt`), so the tree is finite whatever the schema.
-/

set_option autoImplicit false
set_option relaxedAutoImplicit false

namespace SchemaPlan

/-- Looks up the names configured for the queries of a model. -/
abbrev SelectionSource := String → Option (List String)

/-- No names are configured. -/
def SelectionSource.none : SelectionSource := fun _ ↦ .none

/-- What projections are synthesized from. -/
structure Synthesis where
  schema : Schema
  graph : Graph
  source : SelectionSource

/-! ### The path from the root -/

/-- The number of declared models that are not on the path. -/
def Schema.countOutside (schema : Schema) (path : List String) : Nat :=
  (schema.names.filter fun name ↦ !path.contains name).length

/-- A narrower condition that leaves out an item keeps fewer items. -/
theorem length_filter_lt_of_mem {α : Type} {items : List α} {item : α} {narrow wide : α → Bool}
    (hmem : item ∈ items) (hwide : wide item) (hnarrow : narrow item = false)
    (himp : ∀ other, narrow other → wide other) :
    (items.filter narrow).length < (items.filter wide).length := by
  rw [← List.countP_eq_length_filter, ← List.countP_eq_length_filter]
  induction items with
  | nil => simp at hmem
  | cons first rest ih =>
    have hle : rest.countP narrow ≤ rest.countP wide :=
      List.countP_mono_left fun other _ ↦ himp other
    rcases List.mem_cons.1 hmem with rfl | hmem
    · rw [List.countP_cons_of_pos hwide, List.countP_cons_of_neg (by simp [hnarrow])]
      omega
    · have hlt := ih hmem
      cases hn : narrow first with
      | true =>
        rw [List.countP_cons_of_pos hn, List.countP_cons_of_pos (himp first hn)]
        omega
      | false =>
        have hgrow : rest.countP wide ≤ (first :: rest).countP wide := by
          rw [List.countP_cons]
          omega
        rw [List.countP_cons_of_neg (by simp [hn])]
        omega

/-- A declared model that is taken onto the path leaves fewer of them outside of it. -/
theorem Schema.countOutside_cons_lt {schema : Schema} {path : List String} {target : String}
    (hmem : target ∈ schema.names) (hfresh : target ∉ path) :
    schema.countOutside (target :: path) < schema.countOutside path :=
  length_filter_lt_of_mem hmem (by simpa using hfresh) (by simp) fun other h ↦ by simp_all

/-! ### One name -/

/-- Why a name stays flat, when this is worth a notice. -/
inductive Fallback
  /-- The model has no field of the name. -/
  | unknownField
  /-- The schema does not declare the model that the field points to. -/
  | targetMissing (target : String)
  /-- The model that the field points to is on the path. -/
  | onPath (target : String)
deriving DecidableEq

/-- What becomes of a name. -/
inductive Treatment (schema : Schema) (path : List String)
  | scalar
  | flat (fallback : Option Fallback)
  | expand (target : String) (fresh : target ∈ schema.names ∧ target ∉ path)
    (candidates : List String)

namespace Treatment

variable {schema : Schema} {path : List String}

/-- Whether the name is a scalar field. -/
def isScalar : Treatment schema path → Bool
  | .scalar => true
  | _ => false

/-- Whether the name stays flat. -/
def isFlat : Treatment schema path → Bool
  | .flat _ => true
  | _ => false

end Treatment

namespace Synthesis

/-- Whether a field of a related model is fetched below the model `current`: lists are not, nor are
relations back to `current`. -/
def isCandidate (pointsBack : Bool) (current : String) (field : Field) : Bool :=
  match field.target? with
  | none => true
  | some target => !field.isList && !(pointsBack && target == current)

/-- The names to fetch when a relation of `current` is expanded into `related`: those configured for
it, or else its plain fields. -/
def candidates (synthesis : Synthesis) (current : String) (related : Model) : List String :=
  let chosen := match synthesis.source related.name with
    | some names => names.filterMap related.field?
    | none => related.plainFields
  let pointsBack := synthesis.graph.isRelated related.name current
  (chosen.filter (isCandidate pointsBack current)).map (·.name)

/-- What becomes of a name at a model, below the models on the path. -/
def treat (synthesis : Synthesis) (path : List String) (model name : String) :
    Treatment synthesis.schema path :=
  match (synthesis.schema.model? model).bind (·.field? name) with
  | none => .flat (some .unknownField)
  | some field =>
    match field.target? with
    | none => .scalar
    | some target =>
      if field.isList then .flat none
      else
        match declared : synthesis.schema.model? target with
        | none => .flat (some (.targetMissing target))
        | some related =>
          if visited : target ∈ path then .flat (some (.onPath target))
          else
            let names := synthesis.candidates model related
            if names.isEmpty then .flat none
            else .expand target ⟨Schema.mem_names_of_model? declared, visited⟩ names

/-! ### Trees -/

/-- The projection of a model for the selected names, below the models on the path. -/
def project (synthesis : Synthesis) (path : List String) (model : String)
    (selected : List String) : Projection :=
  let names := selected.eraseDups
  { model
    scalars := names.filter fun name ↦ (synthesis.treat path model name).isScalar
    references := names.filter fun name ↦ (synthesis.treat path model name).isFlat
    nested := names.filterMap fun name ↦
      match synthesis.treat path model name with
      | .expand target _ candidates =>
        some (name, synthesis.project (target :: path) target candidates)
      | _ => none }
termination_by synthesis.schema.countOutside path
decreasing_by exact Schema.countOutside_cons_lt (And.left ‹_›) (And.right ‹_›)

/-- The projection of a model for the selected names. -/
def projectRoot (synthesis : Synthesis) (model : String) (selected : List String) : Projection :=
  synthesis.project [model] model selected

/-- A name that stays flat, and why. -/
structure FlatName where
  model : String
  name : String
  fallback : Fallback
deriving DecidableEq

/-- The names that stay flat for a reason worth a notice, in the order in which they are met. A name
that is selected twice is met twice. -/
def flatNames (synthesis : Synthesis) (path : List String) (model : String)
    (selected : List String) : List FlatName :=
  selected.flatMap fun name ↦
    match synthesis.treat path model name with
    | .flat (some fallback) => [⟨model, name, fallback⟩]
    | .expand target _ candidates => synthesis.flatNames (target :: path) target candidates
    | _ => []
termination_by synthesis.schema.countOutside path
decreasing_by exact Schema.countOutside_cons_lt (And.left ‹_›) (And.right ‹_›)

/-- The names that stay flat in the projection of a model, in the order in which they are met. -/
def flatNamesOfRoot (synthesis : Synthesis) (model : String) (selected : List String) :
    List FlatName :=
  synthesis.flatNames [model] model selected

end Synthesis

end SchemaPlan
