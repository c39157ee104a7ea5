import SchemaPlan.Fault

/-!
# The first objection

An objection is something that can be wrong, with the fault that reports it. Objections stand in an
order, and the first that holds is reported. `Decides` says that a computation fails by this rule;
steps that do so one after another do so together (`Decides.bind`), and the rule leaves no choice
(`Decides.exists_ok_iff`, `Decides.eq_error_iff`).
-/

set_option autoImplicit false
set_option relaxedAutoImplicit false

namespace SchemaPlan

/-- Something that can be wrong, and the fault that reports it. -/
structure Objection where
  Holds : Prop
  fault : Fault

namespace Objection

/-- The fault is that of the first objection that holds. -/
inductive First : List Objection → Fault → Prop
  | head {objection : Objection} {rest : List Objection} (holds : objection.Holds) :
    First (objection :: rest) objection.fault
  | tail {objection : Objection} {rest : List Objection} {fault : Fault}
    (fails : ¬objection.Holds) (first : First rest fault) : First (objection :: rest) fault

/-- A fault that comes first is that of an objection that holds. -/
theorem First.exists_holds {objections : List Objection} {fault : Fault}
    (h : First objections fault) :
    ∃ objection ∈ objections, objection.Holds ∧ objection.fault = fault := by
  induction h with
  | head holds => exact ⟨_, List.mem_cons_self, holds, rfl⟩
  | tail fails first ih =>
    obtain ⟨objection, hmem, hobjection⟩ := ih
    exact ⟨objection, List.mem_cons_of_mem _ hmem, hobjection⟩

/-- Only one fault comes first. -/
theorem First.unique {objections : List Objection} {fault other : Fault}
    (h : First objections fault) (hother : First objections other) : fault = other := by
  induction h with
  | head holds =>
    cases hother with
    | head => rfl
    | tail fails => exact absurd holds fails
  | tail fails first ih =>
    cases hother with
    | head holds => exact absurd holds fails
    | tail _ second => exact ih second

/-- Objections behind do not change which fault comes first. -/
theorem First.append_right {front : List Objection} {fault : Fault} (h : First front fault)
    (back : List Objection) : First (front ++ back) fault := by
  induction h with
  | head holds => exact .head holds
  | tail fails first ih => exact .tail fails ih

/-- Objections in front that do not hold do not change which fault comes first. -/
theorem First.append_left {front back : List Objection} {fault : Fault} (h : First back fault)
    (hfront : ∀ objection ∈ front, ¬objection.Holds) : First (front ++ back) fault := by
  induction front with
  | nil => exact h
  | cons objection rest ih =>
    obtain ⟨hobjection, hrest⟩ := List.forall_mem_cons.1 hfront
    exact .tail hobjection (ih hrest)

/-- The result is a fault if one of the objections holds, and then the fault of the first. -/
inductive Decides {α : Type} (objections : List Objection) : Except Fault α → Prop
  | ok {value : α} (none : ∀ objection ∈ objections, ¬objection.Holds) :
    Decides objections (.ok value)
  | error {fault : Fault} (first : First objections fault) : Decides objections (.error fault)

variable {α β : Type} {objections : List Objection} {result : Except Fault α}

/-- A result that is decided by objections is no fault exactly when none of them holds. -/
theorem Decides.exists_ok_iff (h : Decides objections result) :
    (∃ value, result = .ok value) ↔ ∀ objection ∈ objections, ¬objection.Holds := by
  cases h with
  | ok none => exact ⟨fun _ ↦ none, fun _ ↦ ⟨_, rfl⟩⟩
  | error first =>
    obtain ⟨objection, hmem, holds, -⟩ := first.exists_holds
    constructor
    · rintro ⟨value, ⟨⟩⟩
    · intro hnone
      exact absurd holds (hnone objection hmem)

/-- A result that is decided by objections is a fault exactly when that fault comes first. -/
theorem Decides.eq_error_iff (h : Decides objections result) (fault : Fault) :
    result = .error fault ↔ First objections fault := by
  cases h with
  | ok none =>
    constructor
    · rintro ⟨⟩
    · intro hfirst
      obtain ⟨objection, hmem, holds, -⟩ := hfirst.exists_holds
      exact absurd holds (none objection hmem)
  | error first =>
    constructor
    · rintro ⟨⟩
      exact first
    · intro hfirst
      rw [first.unique hfirst]

theorem decides_ok {objection : Objection} (h : ¬objection.Holds) (value : α) :
    Decides [objection] (.ok value) :=
  .ok (List.forall_mem_singleton.2 h)

theorem decides_error {objection : Objection} (h : objection.Holds) :
    Decides [objection] (.error objection.fault : Except Fault α) :=
  .error (.head h)

/-- One step after another is decided by the objections to the first and then those to the
second. -/
theorem Decides.bind {front back : List Objection} {next : α → Except Fault β}
    (hfront : Decides front result)
    (hback : ∀ value, result = .ok value → Decides back (next value)) :
    Decides (front ++ back) (result >>= next) := by
  cases hfront with
  | error first => exact .error (first.append_right back)
  | @ok value hnone =>
    have hnext := hback value rfl
    change Decides (front ++ back) (next value)
    cases hresult : next value with
    | error fault => exact .error (((hnext.eq_error_iff fault).1 hresult).append_left hnone)
    | ok other =>
      have hrest := hnext.exists_ok_iff.1 ⟨other, hresult⟩
      exact .ok (List.forall_mem_append.2 ⟨hnone, hrest⟩)

/-- What is made of a value does not change what is objected to. -/
theorem Decides.map (h : Decides objections result) (f : α → β) :
    Decides objections (f <$> result) := by
  cases h with
  | ok none => exact .ok none
  | error first => exact .error first

/-- A search for the first item at fault follows the objections to the items. -/
theorem decides_findSome? {ι : Type} (items : List ι) {objection : ι → Objection}
    {fault? : ι → Option Fault}
    (hsome : ∀ item ∈ items, ∀ fault, fault? item = some fault →
      (objection item).Holds ∧ (objection item).fault = fault)
    (hnone : ∀ item ∈ items, fault? item = none → ¬(objection item).Holds) :
    Decides (items.map objection)
      (match items.findSome? fault? with
      | some fault => .error fault
      | none => .ok ()) := by
  induction items with
  | nil => exact .ok (List.forall_mem_nil _)
  | cons item rest ih =>
    obtain ⟨hsomeItem, hsomeRest⟩ := List.forall_mem_cons.1 hsome
    obtain ⟨hnoneItem, hnoneRest⟩ := List.forall_mem_cons.1 hnone
    rw [List.map_cons, List.findSome?_cons]
    cases hfault : fault? item with
    | some fault =>
      obtain ⟨holds, rfl⟩ := hsomeItem fault hfault
      exact .error (.head holds)
    | none =>
      have hitem := decides_ok (hnoneItem hfault) ()
      exact hitem.bind fun _ _ ↦ ih hsomeRest hnoneRest

end Objection

end SchemaPlan
