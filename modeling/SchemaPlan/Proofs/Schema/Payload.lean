import SchemaPlan.Proofs.Json.Restatement
import SchemaPlan.Schema.Datamodel

/-!
# Data models of texts and of values

Every reader of a data model reads a document as it reads one that restates it, from the basic
readers to whole schemas (`Schema.readsAlike_ofDocument?`). A literal default keeps its value within
the limit that its place in the document leaves.
-/

set_option autoImplicit false
set_option relaxedAutoImplicit false

namespace SchemaPlan

open Json Document

namespace Datamodel

variable {depth : Nat} {α : Type} {first second : Document → Option α}

/-! ### Basic readers -/

theorem readsAlike_readText? : ReadsAlike depth readText? readText? := by
  intro document other h
  cases h.sameShape <;> rfl

theorem readsAlike_readBool? : ReadsAlike depth readBool? readBool? := by
  intro document other h
  cases h.sameShape <;> rfl

/-- Items are read alike when each of them is. -/
theorem readItems?_congr {related : Document → Document → Prop} {items others : List Document}
    (hread : ∀ ⦃item other : Document⦄, related item other → first item = second other)
    (h : List.Forall₂ related items others) :
    readItems? first items = readItems? second others := by
  induction h with
  | nil => rfl
  | cons hitem _ ih => rw [readItems?, readItems?, hread hitem, ih]

/-- A list is read alike when its items are. -/
theorem readsAlike_readList? (hread : ReadsAlike (depth - 1) first second) :
    ReadsAlike depth (readList? first) (readList? second) := by
  intro document other h
  cases h.sameShape with
  | array hitems => exact readItems?_congr hread hitems
  | _ => rfl

/-- What may be null is read alike when the rest is. -/
theorem readsAlike_readOptional? (hread : ReadsAlike depth first second) :
    ReadsAlike depth (readOptional? first) (readOptional? second) := by
  intro document other h
  cases h.sameShape with
  | null => rfl
  | _ => exact congrArg (Option.map some) (hread h)

/-! ### Fields -/

theorem readsAlike_readNativeType? : ReadsAlike depth readNativeType? readNativeType? := by
  intro document other h
  cases h.sameShape with
  | array hitems =>
    match hitems with
    | .nil | .cons _ .nil | .cons _ (.cons _ (.cons _ _)) => rfl
    | .cons hname (.cons hargs .nil) =>
      rw [readNativeType?, readNativeType?, readsAlike_readText? hname,
        readsAlike_readList? readsAlike_readText? hargs]
  | _ => rfl

/-- An object with no member or more than one is no kind. -/
theorem readKind?_ofNamed_eq_none {members : List (String × Document)} (h : members.length ≠ 1) :
    readKind? (ofNamed members) = none := by
  match members with
  | [] => rfl
  | [_] => exact absurd rfl h
  | _ :: _ :: _ => rw [readKind?] <;> simp [ofNamed]

/-- A kind is read alike from what restates it. -/
theorem readsAlike_readKind? : ReadsAlike depth readKind? readKind? := by
  intro document other h
  cases h.sameShape with
  | @object members restated others hnodup hothers hmembers hperm =>
    have hlength : members.length = others.length := hmembers.length_eq.trans hperm.length_eq
    by_cases hone : members.length = 1
    · obtain ⟨member, rfl⟩ := List.length_eq_one_iff.1 hone
      obtain ⟨other, rfl⟩ := List.length_eq_one_iff.1 (hlength ▸ hone)
      obtain rfl := List.perm_singleton.1 hperm
      have hmember := (List.forall₂_cons.1 hmembers).1
      obtain ⟨name, item⟩ := member
      obtain ⟨_, restated⟩ := other
      obtain ⟨rfl, hitem⟩ := hmember
      cases hitem.sameShape <;> rfl
    · rw [readKind?_ofNamed_eq_none hone, readKind?_ofNamed_eq_none (hlength ▸ hone)]
  | _ => rfl

/-- A default is read alike from what restates it, limit or not, as it nests no deeper than the
limit. -/
theorem readsAlike_readDefault? :
    ReadsAlike depth (readDefault? (some depth)) (readDefault? none) := by
  intro document other h
  rw [readDefault?, readDefault?, h.toValue?_eq]
  cases h.sameShape with
  | object hnodup hothers hmembers hperm =>
    have hrecord := Record.ofDocument?_ofNamed ["name", "args"] hnodup
    have hother := Record.ofDocument?_ofNamed ["name", "args"] hothers
    rw [ofNamed] at hrecord hother ⊢
    rw [ofNamed]
    simp only [hrecord, hother]
  | _ => rfl

/-- A reader that reads the fields of a record alike reads the record alike. -/
theorem bind_ofDocument?_eq {document other : Document} {fields : List String}
    {first second : Record Document → Option α} (h : Restates depth document other)
    (hread : ∀ record other : Record Document, record.Restates (depth - 1) other →
      first record = second other) :
    (Record.ofDocument? fields document).bind first =
      (Record.ofDocument? fields other).bind second := by
  have hrecord := Record.ofDocument?_restates fields h
  generalize Record.ofDocument? fields document = record,
    Record.ofDocument? fields other = restated at hrecord ⊢
  cases hrecord with
  | none => rfl
  | some hrecord => exact hread _ _ hrecord

/-- A field is read alike from what restates it. -/
theorem readsAlike_readField? :
    ReadsAlike (depth + 1) (readField? (some depth)) (readField? none) := by
  intro document other h
  refine bind_ofDocument?_eq h fun record other (hrecord : record.Restates depth other) ↦ ?_
  rw [hrecord.required_eq "name" readsAlike_readText?,
    hrecord.required_eq "kind" readsAlike_readKind?,
    hrecord.required_eq "type" readsAlike_readText?,
    hrecord.defaulted_eq "isRequired" false readsAlike_readBool?,
    hrecord.defaulted_eq "isList" false readsAlike_readBool?,
    hrecord.defaulted_eq "isUnique" false readsAlike_readBool?,
    hrecord.defaulted_eq "isId" false readsAlike_readBool?,
    hrecord.defaulted_eq "relationName" none (readsAlike_readOptional? readsAlike_readText?),
    hrecord.defaulted_eq "relationFromFields" none
      (readsAlike_readOptional? (readsAlike_readList? readsAlike_readText?)),
    hrecord.defaulted_eq "default" none (readsAlike_readOptional? readsAlike_readDefault?),
    hrecord.defaulted_eq "isUpdatedAt" false readsAlike_readBool?,
    hrecord.defaulted_eq "nativeType" none (readsAlike_readOptional? readsAlike_readNativeType?)]

/-! ### Models -/

/-- A model is read alike from what restates it. -/
theorem readsAlike_readModel? :
    ReadsAlike (depth + 3) (readModel? (some depth)) (readModel? none) := by
  intro document other h
  refine bind_ofDocument?_eq h fun record other (hrecord : record.Restates (depth + 2) other) ↦ ?_
  rw [hrecord.required_eq "name" readsAlike_readText?,
    hrecord.defaulted_eq "fields" [] (readsAlike_readList? readsAlike_readField?)]

end Datamodel

/-- A literal that the models and their fields leave `depth` levels for is within the limit. -/
theorem Schema.readsAlike_ofDocument? {depth : Nat} :
    ReadsAlike (depth + Datamodel.defaultDepth) (Schema.ofDocument? (some depth))
      (Schema.ofDocument? none) := by
  intro document other h
  refine Datamodel.bind_ofDocument?_eq h
    fun record other (hrecord : record.Restates (depth + 4) other) ↦ ?_
  rw [hrecord.required_eq "models"
    (Datamodel.readsAlike_readList? Datamodel.readsAlike_readModel?)]

end SchemaPlan
