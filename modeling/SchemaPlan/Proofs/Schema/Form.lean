import SchemaPlan.Proofs.Json.Form
import SchemaPlan.Schema.Form

/-!
# The forms of schemas read back

A schema and each of its parts is read back from its JSON form, whatever value stands as the literal
of a default.
-/

set_option autoImplicit false
set_option relaxedAutoImplicit false

namespace SchemaPlan

open Json

instance : LawfulJsonForm Cardinality where
  ofJson?_toJson cardinality := by cases cardinality <;> rfl

instance : LawfulJsonForm FieldType where
  ofJson?_toJson type := by
    unfold instJsonFormFieldType
    cases type <;>
      simp [FieldType.tag, FieldType.named?, alternative?, FieldType.unnamed, List.lookup_cons]

instance : LawfulJsonForm FieldDefault where
  ofJson?_toJson initial := by
    unfold instJsonFormFieldDefault
    cases initial <;> simp [taggedWithin?_ofMembers, List.lookup_cons]

instance : NeverNull FieldDefault where
  toJson_ne_null
    | .literal _ => nofun
    | .function _ _ => nofun

instance : LawfulJsonForm Field where
  ofJson?_toJson field := by
    unfold instJsonFormField
    simp [List.lookup_cons]

instance : LawfulJsonForm Model where
  ofJson?_toJson model := by
    unfold instJsonFormModel
    simp [List.lookup_cons]

instance : LawfulJsonForm Schema where
  ofJson?_toJson schema := by
    unfold instJsonFormSchema
    simp

end SchemaPlan
