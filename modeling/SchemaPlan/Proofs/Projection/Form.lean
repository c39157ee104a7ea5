import SchemaPlan.Projection.Basic
import SchemaPlan.Proofs.Json.Form

/-!
# The form of a projection reads back

Each level of a projection adds to the depth of its JSON form, so reading to the depth of the form
reaches every level (`readWithin?_write`).
-/

set_option autoImplicit false
set_option relaxedAutoImplicit false

namespace SchemaPlan

open Json

namespace Json.Value

/-- A member nests less deep than the object that holds it. -/
theorem depth_lt_of_lookup {members : List (String × Value)} {name : String} {value : Value}
    (h : members.lookup name = some value) : value.depth < (object members).depth := by
  rw [depth, Nat.lt_succ_iff]
  induction members with
  | nil => cases h
  | cons member rest ih =>
    rw [lookup_entry_cons] at h
    rw [depthOfMembers]
    split at h
    · cases h
      exact Nat.le_max_left _ _
    · exact (ih h).trans (Nat.le_max_right _ _)

theorem depth_lt_ofMembers {members : List (String × Value)} {name : String} {value : Value}
    (h : members.reverse.lookup name = some value) : value.depth < (ofMembers members).depth :=
  depth_lt_of_lookup ((lookup_sortEntries members name).trans h)

end Json.Value

namespace Projection

-- By recursion on the projection. A level takes one step of the depth and its value three: an
-- object, the array of its branches, and an object for each of them.
mutual

/-- A projection that is written is read back when it nests no deeper than is read. -/
theorem readWithin?_write : ∀ (projection : Projection) {depth : Nat},
    projection.write.depth ≤ depth → readWithin? depth projection.write = some projection
  | ⟨model, scalars, references, nested⟩, depth, h => by
    have hnested : (Value.array (writeBranches nested)).depth < depth :=
      Nat.lt_of_lt_of_le (@Value.depth_lt_ofMembers _ "nested" _ rfl) h
    cases depth with
    | zero => omega
    | succ depth =>
      have hread := readItems?_writeBranches nested (Nat.le_of_lt_succ hnested)
      simp [readWithin?, write, List.lookup_cons, readBranches?, hread]

/-- Branches that are written are read back when they nest no deeper than is read. -/
theorem readItems?_writeBranches : ∀ (nested : List Branch) {depth : Nat},
    (Value.array (writeBranches nested)).depth ≤ depth →
      readItems? (readBranch? (readWithin? depth)) (writeBranches nested) = some nested
  | [], _, _ => rfl
  | (name, node) :: rest, depth, h => by
    simp only [writeBranches, Value.depth, Value.depthOfItems] at h
    have hnode : node.write.depth <
        (Value.ofMembers [("field", .string name), ("node", node.write)]).depth :=
      @Value.depth_lt_ofMembers _ "node" _ rfl
    have hread : readWithin? depth node.write = some node := readWithin?_write node (by omega)
    have hrest : readItems? (readBranch? (readWithin? depth)) (writeBranches rest) = some rest :=
      readItems?_writeBranches rest (by rw [Value.depth]; omega)
    simp [writeBranches, readItems?, readBranch?, List.lookup_cons, hread, hrest]

end

instance : LawfulJsonForm Projection where
  ofJson?_toJson projection := readWithin?_write projection le_rfl

instance : LawfulJsonForm Branch where
  ofJson?_toJson branch := by
    have hnode : ofJson? branch.2.write = some branch.2 := ofJson?_toJson branch.2
    unfold instJsonFormBranch
    simp [readBranch?, List.lookup_cons, hnode]

end Projection

end SchemaPlan
