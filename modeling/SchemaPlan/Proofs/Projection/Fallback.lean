import SchemaPlan.Proofs.Projection.Partition

/-!
# Names that fall back

A name that is unknown, and a relation to a single record that is not expanded, falls back to being
flat. Such a name has one cause (`HasCause.unique`), and what is kept flat otherwise is a list
(`exists_hasCause_of_isFlat`). The falls of a synthesis are logged in the order in which the names
are taken up, at every depth (`Logs`). There is one log for the names that are selected
(`exists_logs`, `Logs.unique`).
-/

set_option autoImplicit false
set_option relaxedAutoImplicit false

namespace SchemaPlan

namespace Synthesis

/-! ### Falls -/

/-- Why a name falls back to being flat. -/
inductive Cause
  | unknownField
  | targetMissing (target : String)
  | onPath (target : String)
  | nothingToFetch (target : String)

/-- What is noted of a cause. -/
def Cause.fallback? : Cause → Option Fallback
  | .unknownField => some .unknownField
  | .targetMissing target => some (.targetMissing target)
  | .onPath target => some (.onPath target)
  | .nothingToFetch _ => none

/-- A name that falls back at a level for the model. -/
structure Fall where
  model : String
  name : String
  cause : Cause

/-- What is noted of a fall. -/
def Fall.flatName? (fall : Fall) : Option FlatName :=
  fall.cause.fallback?.map (⟨fall.model, fall.name, ·⟩)

/-- The name is that of a relation to a single record of the target; the first field of the name
counts. -/
def PointsTo (synthesis : Synthesis) (model name target : String) : Prop :=
  ∃ descriptor field, synthesis.schema.model? model = some descriptor ∧
    descriptor.field? name = some field ∧ field.isList = false ∧ field.target? = some target

/-- The name is that of a relation to a list of records; the first field of the name counts. -/
def IsListName (synthesis : Synthesis) (model name : String) : Prop :=
  ∃ descriptor field, synthesis.schema.model? model = some descriptor ∧
    descriptor.field? name = some field ∧ field.isRelation ∧ field.isList

/-- The name falls back for the cause at a level for the model, below the models on the path. -/
inductive HasCause (synthesis : Synthesis) (path : List String) (model name : String) : Cause → Prop
  | unknownField
      (unknown : ∀ descriptor, synthesis.schema.model? model = some descriptor →
        descriptor.field? name = none) :
      HasCause synthesis path model name .unknownField
  | targetMissing {target : String} (points : synthesis.PointsTo model name target)
      (missing : target ∉ synthesis.schema.names) :
      HasCause synthesis path model name (.targetMissing target)
  | onPath {target : String} (points : synthesis.PointsTo model name target)
      (declared : target ∈ synthesis.schema.names) (visited : target ∈ path) :
      HasCause synthesis path model name (.onPath target)
  | nothingToFetch {target : String} {related : Model}
      (points : synthesis.PointsTo model name target)
      (declared : synthesis.schema.model? target = some related) (fresh : target ∉ path)
      (nothing : synthesis.candidates model related = []) :
      HasCause synthesis path model name (.nothingToFetch target)

/-- The log of the falls while the selected names are taken up one after another at a level for the
model, below the models on the path. A relation that is expanded has the log of the level below it
in its place. -/
inductive Logs (synthesis : Synthesis) : List String → String → List String → List Fall → Prop
  | nil (path : List String) (model : String) : Logs synthesis path model [] []
  | scalar {path : List String} {model name : String} {rest : List String} {falls : List Fall}
      (here : synthesis.IsScalarName model name)
      (after : Logs synthesis path model rest falls) :
      Logs synthesis path model (name :: rest) falls
  | list {path : List String} {model name : String} {rest : List String} {falls : List Fall}
      (here : synthesis.IsListName model name)
      (after : Logs synthesis path model rest falls) :
      Logs synthesis path model (name :: rest) falls
  | fall {path : List String} {model name : String} {rest : List String} {cause : Cause}
      {falls : List Fall} (here : synthesis.HasCause path model name cause)
      (after : Logs synthesis path model rest falls) :
      Logs synthesis path model (name :: rest) (⟨model, name, cause⟩ :: falls)
  | expand {path : List String} {model name : String} {rest : List String} {related : Model}
      {inner falls : List Fall} (here : synthesis.Expands path model name related)
      (below : Logs synthesis (related.name :: path) related.name
        (synthesis.candidates model related) inner)
      (after : Logs synthesis path model rest falls) :
      Logs synthesis path model (name :: rest) (inner ++ falls)

variable {synthesis : Synthesis} {path : List String} {model name : String}
  {selected rest : List String} {cause other : Cause} {falls : List Fall}

/-! ### The treatment of a name -/

/-- A name points to one target. -/
theorem PointsTo.unique {first second : String} (hfirst : synthesis.PointsTo model name first)
    (hsecond : synthesis.PointsTo model name second) : first = second := by
  obtain ⟨descriptor, field, hdescriptor, hfield, -, htarget⟩ := hfirst
  obtain ⟨other, otherField, hother, hotherField, -, hotherTarget⟩ := hsecond
  obtain rfl : other = descriptor := Option.some.inj (hother.symm.trans hdescriptor)
  obtain rfl : otherField = field := Option.some.inj (hotherField.symm.trans hfield)
  exact Option.some.inj (htarget.symm.trans hotherTarget)

theorem PointsTo.not_isListName {target : String} (h : synthesis.PointsTo model name target) :
    ¬synthesis.IsListName model name := by
  obtain ⟨descriptor, field, hdescriptor, hfield, hlist, -⟩ := h
  rintro ⟨other, otherField, hother, hotherField, -, hotherList⟩
  obtain rfl : other = descriptor := Option.some.inj (hother.symm.trans hdescriptor)
  obtain rfl : otherField = field := Option.some.inj (hotherField.symm.trans hfield)
  exact Bool.false_ne_true (hlist.symm.trans hotherList)

theorem HasCause.not_isListName (h : synthesis.HasCause path model name cause) :
    ¬synthesis.IsListName model name := by
  cases h with
  | unknownField hunknown =>
    rintro ⟨descriptor, field, hdescriptor, hfield, -⟩
    exact Option.some_ne_none field (hfield.symm.trans (hunknown descriptor hdescriptor))
  | targetMissing hpoints | onPath hpoints | nothingToFetch hpoints =>
    exact hpoints.not_isListName

theorem treat_of_isScalarName (h : synthesis.IsScalarName model name) :
    synthesis.treat path model name = .scalar := by
  have hscalar : (synthesis.treat path model name).isScalar := isScalar_treat_iff.2 h
  cases htreat : synthesis.treat path model name with
  | scalar => rfl
  | _ => simp [htreat, Treatment.isScalar] at hscalar

/-- The name of a relation to a list is kept flat, and nothing is noted. -/
theorem treat_of_isListName (h : synthesis.IsListName model name) :
    synthesis.treat path model name = .flat none := by
  obtain ⟨descriptor, field, hdescriptor, hfield, hrelation, hlist⟩ := h
  obtain ⟨target, htarget⟩ := Option.isSome_iff_exists.1 hrelation
  have htarget : field.target? = some target := htarget
  rw [treat, hdescriptor, Option.bind_some, hfield]
  simp only [htarget]
  rw [if_pos hlist]

/-- A relation to a single record is kept flat with what is noted of the first check that it does
not pass. -/
theorem PointsTo.treat_eq_flat {target : String} {fallback : Option Fallback}
    (h : synthesis.PointsTo model name target)
    (hmissing : target ∉ synthesis.schema.names → fallback = some (.targetMissing target))
    (hvisited : target ∈ synthesis.schema.names → target ∈ path → fallback = some (.onPath target))
    (hfresh : ∀ related, synthesis.schema.model? target = some related → target ∉ path →
      synthesis.candidates model related = [] ∧ fallback = none) :
    synthesis.treat path model name = .flat fallback := by
  obtain ⟨descriptor, field, hdescriptor, hfield, hlist, htarget⟩ := h
  rw [treat, hdescriptor, Option.bind_some, hfield]
  simp only [htarget]
  rw [if_neg (Bool.eq_false_iff.1 hlist)]
  split
  · next hnone => rw [hmissing (Schema.model?_eq_none_iff.1 hnone)]
  · next related hrelated =>
    by_cases honpath : target ∈ path
    · rw [dif_pos honpath, hvisited (Schema.mem_names_of_model? hrelated) honpath]
    · obtain ⟨hnothing, hnone⟩ := hfresh related hrelated honpath
      rw [dif_neg honpath, hnothing, hnone]
      rfl

/-- A name that falls back is kept flat, and what is noted is its cause. -/
theorem HasCause.treat_eq (h : synthesis.HasCause path model name cause) :
    synthesis.treat path model name = .flat cause.fallback? := by
  cases h with
  | unknownField hunknown =>
    have hnone : (synthesis.schema.model? model).bind (·.field? name) = none := by
      rw [Option.bind_eq_none_iff]
      exact fun descriptor hdescriptor ↦ hunknown descriptor hdescriptor
    rw [treat, hnone]
    rfl
  | targetMissing hpoints hmissing =>
    refine hpoints.treat_eq_flat (fun _ ↦ rfl) (fun hdeclared ↦ absurd hdeclared hmissing) ?_
    exact fun related hrelated ↦ absurd (Schema.mem_names_of_model? hrelated) hmissing
  | onPath hpoints hdeclared hvisited =>
    exact hpoints.treat_eq_flat (absurd hdeclared) (fun _ _ ↦ rfl)
      fun _ _ hfresh ↦ absurd hvisited hfresh
  | nothingToFetch hpoints hrelated hfresh hnothing =>
    refine hpoints.treat_eq_flat (absurd (Schema.mem_names_of_model? hrelated))
      (fun _ hvisited ↦ absurd hvisited hfresh) fun found hfound _ ↦ ?_
    obtain rfl := Option.some.inj (hfound.symm.trans hrelated)
    exact ⟨hnothing, rfl⟩

/-- What is kept flat is the name of a relation to a list or falls back for a cause. -/
theorem exists_hasCause_of_isFlat (h : (synthesis.treat path model name).isFlat) :
    synthesis.IsListName model name ∨ ∃ cause, synthesis.HasCause path model name cause := by
  rw [treat] at h
  split at h
  · next hnone =>
    rw [Option.bind_eq_none_iff] at hnone
    exact .inr ⟨_, .unknownField fun descriptor hdescriptor ↦ hnone descriptor hdescriptor⟩
  · next field hfield =>
    obtain ⟨descriptor, hdescriptor, hfield⟩ := Option.bind_eq_some_iff.1 hfield
    split at h
    · cases h
    · next target htarget =>
      split at h
      · next hlist =>
        have hrelation : field.isRelation := Option.isSome_of_eq_some htarget
        exact .inl ⟨descriptor, field, hdescriptor, hfield, hrelation, hlist⟩
      · next hlist =>
        have hpoints : synthesis.PointsTo model name target :=
          ⟨descriptor, field, hdescriptor, hfield, Bool.eq_false_iff.2 hlist, htarget⟩
        split at h
        · next hmissing =>
          exact .inr ⟨_, .targetMissing hpoints (Schema.model?_eq_none_iff.1 hmissing)⟩
        · next related hrelated =>
          split at h
          · next hvisited =>
            exact .inr ⟨_, .onPath hpoints (Schema.mem_names_of_model? hrelated) hvisited⟩
          · next hfresh =>
            dsimp only at h
            split at h
            · next hnothing =>
              exact .inr ⟨_, .nothingToFetch hpoints hrelated hfresh (by simpa using hnothing)⟩
            · cases h

/-- A name falls back for one cause. -/
theorem HasCause.unique (h : synthesis.HasCause path model name cause)
    (hother : synthesis.HasCause path model name other) : cause = other := by
  have hnoted : cause.fallback? = other.fallback? := by
    have htreat := h.treat_eq.symm.trans hother.treat_eq
    injection htreat
  -- The cause can be told from what is noted of it, and where nothing is noted from the target.
  cases h with
  | nothingToFetch hpoints =>
    cases hother with
    | nothingToFetch hotherPoints => rw [hpoints.unique hotherPoints]
    | _ => cases hnoted
  | _ =>
    cases hother <;> cases hnoted
    rfl

/-! ### The log -/

/-- There is a log for any selected names. -/
theorem exists_logs (synthesis : Synthesis) (path : List String) (model : String)
    (selected : List String) : ∃ falls, synthesis.Logs path model selected falls := by
  induction hcount : synthesis.schema.countOutside path using Nat.strongRecOn
    generalizing path model selected with
  | ind count ih =>
    subst hcount
    induction selected with
    | nil => exact ⟨[], .nil path model⟩
    | cons name rest ihrest =>
      obtain ⟨falls, hfalls⟩ := ihrest
      cases htreat : synthesis.treat path model name with
      | scalar =>
        exact ⟨falls, .scalar (isScalar_treat_iff.1 (by rw [htreat]; rfl)) hfalls⟩
      | flat fallback =>
        rcases exists_hasCause_of_isFlat (by rw [htreat]; rfl) with hlist | ⟨cause, hcause⟩
        · exact ⟨falls, .list hlist hfalls⟩
        · exact ⟨_, .fall hcause hfalls⟩
      | expand target fresh candidates =>
        obtain ⟨related, hrelated⟩ := isExpanded_treat_iff.1
          (show (synthesis.treat path model name).isExpanded by rw [htreat]; rfl)
        obtain ⟨hfresh, -⟩ := hrelated.treat_eq
        obtain ⟨inner, hinner⟩ := ih _ (Schema.countOutside_cons_lt hfresh.1 hfresh.2)
          (related.name :: path) related.name (synthesis.candidates model related) rfl
        exact ⟨_, .expand hrelated hinner hfalls⟩

/-- There is no other log for the same names. -/
theorem Logs.unique {others : List Fall} (h : synthesis.Logs path model selected falls)
    (hothers : synthesis.Logs path model selected others) : falls = others := by
  induction h generalizing others with
  | nil =>
    cases hothers
    rfl
  | @scalar path _ _ _ _ hscalar _ ih =>
    have htreat : synthesis.treat path _ _ = .scalar := treat_of_isScalarName hscalar
    cases hothers with
    | scalar _ hafter | list _ hafter => exact ih hafter
    | fall hcause => cases htreat.symm.trans hcause.treat_eq
    | expand hexpands =>
      obtain ⟨_, hexpand⟩ := hexpands.treat_eq
      cases htreat.symm.trans hexpand
  | @list path _ _ _ _ hlist _ ih =>
    have htreat : synthesis.treat path _ _ = .flat none := treat_of_isListName hlist
    cases hothers with
    | scalar _ hafter | list _ hafter => exact ih hafter
    | fall hcause => exact absurd hlist hcause.not_isListName
    | expand hexpands =>
      obtain ⟨_, hexpand⟩ := hexpands.treat_eq
      cases htreat.symm.trans hexpand
  | fall hcause _ ih =>
    cases hothers with
    | scalar hscalar => cases (treat_of_isScalarName hscalar).symm.trans hcause.treat_eq
    | list hlist => exact absurd hlist hcause.not_isListName
    | fall hother hafter => rw [hcause.unique hother, ih hafter]
    | expand hexpands =>
      obtain ⟨_, hexpand⟩ := hexpands.treat_eq
      cases hcause.treat_eq.symm.trans hexpand
  | expand hexpands _ _ ihbelow ih =>
    obtain ⟨_, htreat⟩ := hexpands.treat_eq
    cases hothers with
    | scalar hscalar => cases (treat_of_isScalarName hscalar).symm.trans htreat
    | list hlist => cases (treat_of_isListName hlist).symm.trans htreat
    | fall hcause => cases hcause.treat_eq.symm.trans htreat
    | expand hother hbelow hafter =>
      obtain ⟨_, hexpand⟩ := hother.treat_eq
      injection htreat.symm.trans hexpand with hname hcandidates
      rw [← hname, ← hcandidates] at hbelow
      rw [ihbelow hbelow, ih hafter]

end Synthesis

end SchemaPlan
