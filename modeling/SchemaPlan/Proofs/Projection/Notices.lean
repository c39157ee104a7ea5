import SchemaPlan.Proofs.Projection.Fallback
import SchemaPlan.Trace

/-!
# Notices of names that fall back

The log of the falls of a synthesis is about the references of its tree that are no lists
(`Logs.exists_mem_iff`). The notices are those of the logged falls, in the order of the log, without
the relations below which there is nothing to fetch (`Logs.flatNames_eq`). So every fall has its
notice exactly when no relation falls back for that cause (`notices_follow_falls`), and where one
does the notice is missing (`not_exists_isAbout_atlas`).
-/

set_option autoImplicit false
set_option relaxedAutoImplicit false

namespace SchemaPlan

namespace Synthesis

variable {synthesis : Synthesis} {path : List String} {place field model name : String}
  {selected rest : List String} {falls : List Fall}

/-! ### Notices of a log -/

/-- What is noted of names is what is noted of the first, and then of the rest. -/
theorem flatNames_cons : synthesis.flatNames path model (name :: rest) =
    synthesis.flatNames path model [name] ++ synthesis.flatNames path model rest := by
  rw [flatNames, flatNames, flatNames, List.flatMap_cons, List.flatMap_singleton]

theorem flatNames_of_treat_eq_scalar (h : synthesis.treat path model name = .scalar) :
    synthesis.flatNames path model [name] = [] := by
  rw [flatNames, List.flatMap_singleton, h]

theorem flatNames_of_treat_eq_flat {fallback : Option Fallback}
    (h : synthesis.treat path model name = .flat fallback) :
    synthesis.flatNames path model [name] = (fallback.map (⟨model, name, ·⟩)).toList := by
  rw [flatNames, List.flatMap_singleton, h]
  cases fallback <;> rfl

theorem flatNames_of_treat_eq_expand {target : String}
    {fresh : target ∈ synthesis.schema.names ∧ target ∉ path} {candidates : List String}
    (h : synthesis.treat path model name = .expand target fresh candidates) :
    synthesis.flatNames path model [name] =
      synthesis.flatNames (target :: path) target candidates := by
  rw [flatNames, List.flatMap_singleton, h]

/-- What is noted are the falls of the log whose cause is noted, in the order of the log. -/
theorem Logs.flatNames_eq (h : synthesis.Logs path model selected falls) :
    synthesis.flatNames path model selected = falls.filterMap Fall.flatName? := by
  induction h with
  | nil =>
    rw [flatNames]
    rfl
  | scalar hscalar _ ih =>
    rw [flatNames_cons, flatNames_of_treat_eq_scalar (treat_of_isScalarName hscalar),
      List.nil_append, ih]
  | list hlist _ ih =>
    rw [flatNames_cons, flatNames_of_treat_eq_flat (treat_of_isListName hlist)]
    exact ih
  | @fall path model name rest cause falls hcause _ ih =>
    rw [flatNames_cons, flatNames_of_treat_eq_flat hcause.treat_eq, ih, List.filterMap_cons,
      Fall.flatName?]
    cases cause <;> rfl
  | expand hexpands _ _ ihbelow ih =>
    obtain ⟨_, htreat⟩ := hexpands.treat_eq
    rw [flatNames_cons, flatNames_of_treat_eq_expand htreat, List.filterMap_append, ihbelow, ih]

end Synthesis

/-- The notice is for debugging and names the model and the field of the fall. -/
def Notice.IsAbout (notice : Notice) (fall : Synthesis.Fall) : Prop :=
  notice.level = .debug ∧ ("model", .string fall.model) ∈ notice.details ∧
    ("field", .string fall.name) ∈ notice.details

/-- The notice of a fall is about it. -/
theorem Synthesis.Fall.isAbout_of_flatName? {fall : Synthesis.Fall} {flat : Synthesis.FlatName}
    (h : fall.flatName? = some flat) : (Notice.keptFlat flat).IsAbout fall := by
  obtain ⟨fallback, -, rfl⟩ := Option.map_eq_some_iff.1 h
  refine ⟨rfl, ?_, ?_⟩ <;> cases fallback <;> simp [Notice.details]

/-- A fall is noted unless there is nothing to fetch. -/
theorem Synthesis.Fall.isSome_flatName?_iff {fall : Synthesis.Fall} :
    fall.flatName?.isSome ↔ ∀ target, fall.cause ≠ .nothingToFetch target := by
  obtain ⟨model, name, cause⟩ := fall
  cases cause <;> simp [flatName?, Cause.fallback?]

/-- There is one notice about each fall, in order, exactly when every fall is noted. -/
theorem forall₂_isAbout_iff {falls : List Synthesis.Fall} :
    List.Forall₂ Notice.IsAbout ((falls.filterMap Synthesis.Fall.flatName?).map .keptFlat) falls ↔
      ∀ fall ∈ falls, fall.flatName?.isSome := by
  constructor
  · intro h
    rw [← List.filterMap_length_eq_length, ← h.length_eq, List.length_map]
  · intro h
    induction falls with
    | nil => exact .nil
    | cons fall rest ih =>
      obtain ⟨hfall, hrest⟩ := List.forall_mem_cons.1 h
      obtain ⟨flat, hflat⟩ := Option.isSome_iff_exists.1 hfall
      rw [List.filterMap_cons_some hflat, List.map_cons]
      exact .cons (Synthesis.Fall.isAbout_of_flatName? hflat) (ih hrest)

/-! ### References of the tree -/

/-- A level of the tree for the model takes the name as a reference. -/
def Projection.HasReference (tree : Projection) (model name : String) : Prop :=
  ∃ node, tree.HasNode node ∧ node.model = model ∧ name ∈ node.references

/-- The references of a tree are those of its root and those of its branches. -/
theorem Projection.hasReference_iff {tree : Projection} {model name : String} :
    tree.HasReference model name ↔ tree.model = model ∧ name ∈ tree.references ∨
      ∃ branch ∈ tree.nested, branch.2.HasReference model name := by
  constructor
  · rintro ⟨node, hnode, hmodel, hname⟩
    rcases hasNode_iff.1 hnode with rfl | ⟨branch, hbranch, hnode⟩
    · exact .inl ⟨hmodel, hname⟩
    · exact .inr ⟨branch, hbranch, node, hnode, hmodel, hname⟩
  · rintro (⟨hmodel, hname⟩ | ⟨branch, hbranch, node, hnode, hmodel, hname⟩)
    · exact ⟨tree, hasNode_self tree, hmodel, hname⟩
    · exact ⟨node, hasNode_iff.2 (.inr ⟨branch, hbranch, hnode⟩), hmodel, hname⟩

/-- The slot of the name `field` at a level for the model `place` holds the reference. -/
def Slot.HasReference (place field model name : String) : Slot → Prop
  | .scalar => False
  | .reference => place = model ∧ field = name
  | .nested node => node.HasReference model name

namespace Synthesis

variable {synthesis : Synthesis} {path : List String} {place field model name : String}
  {selected rest : List String} {falls : List Fall}

/-- The references of a tree are those in the slots of the selected names. -/
theorem hasReference_project_iff : (synthesis.project path place selected).HasReference model name ↔
    ∃ field ∈ selected, (synthesis.slot path place field).HasReference place field model name := by
  rw [Projection.hasReference_iff, project_model]
  constructor
  · rintro (⟨hmodel, hname⟩ | ⟨branch, hbranch, hreference⟩)
    · obtain ⟨hname, hflat⟩ := mem_references_project.1 hname
      refine ⟨name, hname, ?_⟩
      rw [slot]
      cases htreat : synthesis.treat path place name with
      | flat fallback => exact ⟨hmodel, rfl⟩
      | _ => simp [htreat, Treatment.isFlat] at hflat
    · obtain ⟨hfield, target, fresh, candidates, htreat, hnode⟩ := mem_nested_project.1 hbranch
      refine ⟨branch.1, hfield, ?_⟩
      rw [hnode] at hreference
      rw [slot, htreat]
      exact hreference
  · rintro ⟨field, hfield, hreference⟩
    rw [slot] at hreference
    cases htreat : synthesis.treat path place field with
    | scalar =>
      rw [htreat] at hreference
      exact hreference.elim
    | flat fallback =>
      rw [htreat] at hreference
      obtain ⟨hmodel, rfl⟩ := hreference
      exact .inl ⟨hmodel, mem_references_project.2 ⟨hfield, by rw [htreat]; rfl⟩⟩
    | expand target fresh candidates =>
      rw [htreat] at hreference
      exact .inr ⟨(field, _), mem_nested_project.2
        ⟨hfield, target, fresh, candidates, htreat, rfl⟩, hreference⟩

theorem hasReference_project_cons :
    (synthesis.project path place (field :: rest)).HasReference model name ↔
      (synthesis.slot path place field).HasReference place field model name ∨
        (synthesis.project path place rest).HasReference model name := by
  simp only [hasReference_project_iff, List.exists_mem_cons_iff]

/-- The falls of the log are about the references of the tree, lists apart. -/
theorem Logs.exists_mem_iff (h : synthesis.Logs path place selected falls) :
    (∃ cause, ⟨model, name, cause⟩ ∈ falls) ↔
      (synthesis.project path place selected).HasReference model name ∧
        ¬synthesis.IsListName model name := by
  induction h with
  | nil => simp [hasReference_project_iff]
  | scalar hscalar _ ih =>
    rw [hasReference_project_cons, slot, treat_of_isScalarName hscalar, Slot.HasReference,
      false_or]
    exact ih
  | list hlist _ ih =>
    rw [hasReference_project_cons, slot, treat_of_isListName hlist, ih, Slot.HasReference,
      or_and_right, or_iff_right]
    rintro ⟨⟨rfl, rfl⟩, hnolist⟩
    exact hnolist hlist
  | @fall path place field rest cause falls hcause _ ih =>
    have hhead : (∃ other, (⟨model, name, other⟩ : Fall) = ⟨place, field, cause⟩) ↔
        (place = model ∧ field = name) ∧ ¬synthesis.IsListName model name := by
      constructor
      · rintro ⟨_, hsame⟩
        cases hsame
        exact ⟨⟨rfl, rfl⟩, hcause.not_isListName⟩
      · rintro ⟨⟨rfl, rfl⟩, -⟩
        exact ⟨cause, rfl⟩
    simp only [List.mem_cons, exists_or]
    rw [hasReference_project_cons, slot, hcause.treat_eq, Slot.HasReference, or_and_right, hhead,
      ih]
  | expand hexpands _ _ ihbelow ih =>
    obtain ⟨_, htreat⟩ := hexpands.treat_eq
    simp only [List.mem_append, exists_or]
    rw [hasReference_project_cons, slot, htreat, Slot.HasReference, or_and_right, ihbelow, ih]

/-! ### Notices of a synthesis -/

/-- From any root, on any schema and graph and with any names configured, there is one log of falls.
It is about the references of the tree that are no lists, and the notices are those of its falls, in
its order and each naming the model and the field, but for the relations below which there is
nothing to fetch. So there is a notice for every fall, and no other notice, exactly when no relation
falls back for that cause. -/
theorem notices_follow_falls (synthesis : Synthesis) (root : String) (selected : List String) :
    ∃ falls, (∀ others, synthesis.Logs [root] root selected others ↔ others = falls) ∧
      (∀ model name, (∃ cause, ⟨model, name, cause⟩ ∈ falls) ↔
        (synthesis.projectRoot root selected).HasReference model name ∧
          ¬synthesis.IsListName model name) ∧
      synthesis.notices root selected = (falls.filterMap Fall.flatName?).map .keptFlat ∧
      (List.Forall₂ Notice.IsAbout (synthesis.notices root selected) falls ↔
        ∀ fall ∈ falls, ∀ target, fall.cause ≠ .nothingToFetch target) := by
  obtain ⟨falls, hfalls⟩ := synthesis.exists_logs [root] root selected
  have hnotices : synthesis.notices root selected =
      (falls.filterMap Fall.flatName?).map .keptFlat := by
    rw [notices, flatNamesOfRoot, hfalls.flatNames_eq]
  refine ⟨falls, fun others ↦ ?_, fun model name ↦ hfalls.exists_mem_iff, hnotices, ?_⟩
  · exact ⟨fun hothers ↦ hothers.unique hfalls, fun heq ↦ heq ▸ hfalls⟩
  · rw [hnotices, forall₂_isAbout_iff]
    exact forall₂_congr fun fall _ ↦ Fall.isSome_flatName?_iff

end Synthesis

/-- Pins refer to markers, of which no query can select anything. -/
def atlas : Schema where
  models := [
    { name := "Pin"
      fields := [
        { name := "id", type := .int, isId := true },
        { name := "markerId", type := .int },
        .relation "marker" "Marker" "MarkerToPin" ["markerId"]] },
    { name := "Marker"
      fields := [{ name := "shape", type := .unsupported "geometry" }] }]

/-- Projections of the atlas, with nothing configured. -/
def atlasSynthesis : Synthesis := ⟨atlas, atlas.graph, .none⟩

/-- The marker of a pin falls back to being flat, and there is no notice of it. -/
theorem Synthesis.not_exists_isAbout_atlas :
    atlasSynthesis.Logs ["Pin"] "Pin" ["marker"] [⟨"Pin", "marker", .nothingToFetch "Marker"⟩] ∧
      atlasSynthesis.notices "Pin" ["marker"] = [] ∧
      ¬∃ falls, atlasSynthesis.Logs ["Pin"] "Pin" ["marker"] falls ∧
        List.Forall₂ Notice.IsAbout (atlasSynthesis.notices "Pin" ["marker"]) falls := by
  have hpoints : atlasSynthesis.PointsTo "Pin" "marker" "Marker" := ⟨_, _, rfl, rfl, rfl, rfl⟩
  have hlogs : atlasSynthesis.Logs ["Pin"] "Pin" ["marker"]
      [⟨"Pin", "marker", .nothingToFetch "Marker"⟩] :=
    .fall (.nothingToFetch hpoints rfl (by decide) rfl) (.nil _ _)
  have hnotices : atlasSynthesis.notices "Pin" ["marker"] = [] := by
    rw [notices, flatNamesOfRoot, hlogs.flatNames_eq]
    rfl
  refine ⟨hlogs, hnotices, ?_⟩
  rintro ⟨falls, hfalls, hall⟩
  rw [hnotices, hfalls.unique hlogs] at hall
  cases hall

end SchemaPlan
