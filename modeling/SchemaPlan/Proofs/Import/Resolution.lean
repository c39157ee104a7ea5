import SchemaPlan.Import.Rebase

/-!
# What a path denotes

A directory is given by the names that lead to it from the root. `resolve` goes from a directory
along the segments of a path, one after another and without looking at any file. Reading a path as a
location first does not change where it leads (`resolve_eq_follow`): a segment only undoes a name,
and where there is no name left it is kept for the directory that the path starts from.
-/

set_option autoImplicit false
set_option relaxedAutoImplicit false

namespace SchemaPlan

/-- The names that lead to a directory from the root, innermost first. -/
abbrev Directory := List String

namespace Directory

/-- Goes one segment further. Above the root there is only the root. -/
def enter (directory : Directory) (segment : String) : Directory :=
  if segment = "" ∨ segment = "." then directory
  else if segment = ".." then directory.tail
  else segment :: directory

/-- Goes along segments. -/
def follow (directory : Directory) (segments : List String) : Directory :=
  segments.foldl enter directory

/-- The directory or file that a path denotes when it is used in a directory. A backslash is read as
a slash, and a path that starts with one starts at the root. -/
def resolve (directory : Directory) (path : String) : Directory :=
  let start : Directory := if (slashed path).toList.head? = some '/' then [] else directory
  start.follow (Text.splitOn '/' (slashed path))

theorem follow_cons (directory : Directory) (segment : String) (rest : List String) :
    directory.follow (segment :: rest) = (directory.enter segment).follow rest := rfl

/-- Segments behind others continue from where those lead. -/
theorem follow_append (directory : Directory) (first second : List String) :
    directory.follow (first ++ second) = (directory.follow first).follow second :=
  List.foldl_append

theorem follow_concat (directory : Directory) (segments : List String) (segment : String) :
    directory.follow (segments ++ [segment]) = (directory.follow segments).enter segment := by
  rw [follow_append]
  rfl

/-- A name leads one level down. -/
theorem enter_name {directory : Directory} {name : String} (hempty : name ≠ "") (hdot : name ≠ ".")
    (hdots : name ≠ "..") : directory.enter name = name :: directory := by
  rw [enter, if_neg (by simp [hempty, hdot]), if_neg hdots]

/-- A step up leads back from a name. -/
theorem enter_up (name : String) (directory : Directory) :
    enter (name :: directory) ".." = directory := by
  simp [enter]

/-- Names lead down, and as many steps up lead back. -/
theorem follow_names_up {names : List String}
    (h : ∀ name ∈ names, name ≠ "" ∧ name ≠ "." ∧ name ≠ "..") (directory : Directory) :
    (directory.follow names).follow (names.map fun _ ↦ "..") = directory := by
  induction names generalizing directory with
  | nil => rfl
  | cons name rest ih =>
    obtain ⟨hempty, hdot, hdots⟩ := h name List.mem_cons_self
    have hrest := ih (fun other hother ↦ h other (List.mem_cons_of_mem name hother))
      (name :: directory)
    rw [List.map_const'] at hrest ⊢
    rw [List.length_cons, List.replicate_succ', follow_concat, follow_cons,
      enter_name hempty hdot hdots, hrest, enter_up]

/-! ### Locations -/

/-- A segment that a location may hold. There is nothing above the root to climb to. -/
def IsPlain (isAbsolute : Bool) (segment : String) : Prop :=
  segment ≠ "" ∧ segment ≠ "." ∧ (isAbsolute → segment ≠ "..")

/-- A step of reading keeps to segments that a location may hold. -/
theorem isPlain_advance {isAbsolute : Bool} {stack : List String} {segment : String}
    (h : ∀ plain ∈ stack, IsPlain isAbsolute plain) :
    ∀ plain ∈ Location.advance isAbsolute stack segment, IsPlain isAbsolute plain := by
  unfold Location.advance
  by_cases hskip : segment = "" ∨ segment = "."
  · rwa [if_pos hskip]
  rw [if_neg hskip]
  obtain ⟨hempty, hdot⟩ := not_or.1 hskip
  by_cases hdots : segment = ".."
  · rw [if_pos hdots]
    cases stack with
    | nil => cases isAbsolute <;> simp [IsPlain]
    | cons top below => cases isAbsolute <;> by_cases htop : top = ".." <;> simp_all [IsPlain]
  · rw [if_neg hdots]
    exact List.forall_mem_cons.2 ⟨⟨hempty, hdot, fun _ ↦ hdots⟩, h⟩

/-- A step of reading a path as a location leads where the segment leads. -/
theorem follow_advance {isAbsolute : Bool} {stack : List String} {directory : Directory}
    (h : ∀ plain ∈ stack, IsPlain isAbsolute plain) (hroot : isAbsolute → directory = [])
    (segment : String) :
    directory.follow (Location.advance isAbsolute stack segment).reverse =
      (directory.follow stack.reverse).enter segment := by
  unfold Location.advance
  by_cases hskip : segment = "" ∨ segment = "."
  · rw [if_pos hskip, enter, if_pos hskip]
  rw [if_neg hskip]
  by_cases hdots : segment = ".."
  · rw [if_pos hdots, hdots]
    cases stack with
    | nil =>
      cases isAbsolute with
      | false => rfl
      | true =>
        rw [hroot rfl]
        rfl
    | cons top below =>
      obtain ⟨hempty, hdot, habsolute⟩ := h top List.mem_cons_self
      -- A step up undoes a name. It is kept behind another step up, which no absolute location has.
      by_cases htop : top = ".."
      · cases isAbsolute with
        | false => simp [htop, follow]
        | true => exact absurd htop (habsolute rfl)
      · simp only [ne_eq, htop, not_false_eq_true, if_true]
        rw [List.reverse_cons, follow_concat, enter_name hempty hdot htop, enter_up]
  · rw [if_neg hdots, List.reverse_cons, follow_concat]

/-- Reading segments as a location does not change where they lead. -/
theorem follow_foldl_advance {isAbsolute : Bool} {stack : List String} {directory : Directory}
    (h : ∀ plain ∈ stack, IsPlain isAbsolute plain) (hroot : isAbsolute → directory = [])
    (segments : List String) :
    directory.follow (segments.foldl (Location.advance isAbsolute) stack).reverse =
      (directory.follow stack.reverse).follow segments := by
  induction segments generalizing stack with
  | nil => rfl
  | cons segment rest ih =>
    rw [List.foldl_cons, ih (isPlain_advance h), follow_advance h hroot]
    rfl

theorem isPlain_foldl_advance {isAbsolute : Bool} {stack : List String}
    (h : ∀ plain ∈ stack, IsPlain isAbsolute plain) (segments : List String) :
    ∀ plain ∈ segments.foldl (Location.advance isAbsolute) stack, IsPlain isAbsolute plain := by
  induction segments generalizing stack with
  | nil => exact h
  | cons segment rest ih => exact ih (isPlain_advance h)

/-- The segments of a path are segments that a location may hold. -/
theorem isPlain_segments_ofPath (path : String) :
    ∀ segment ∈ (Location.ofPath path).segments,
      IsPlain (Location.ofPath path).isAbsolute segment := by
  intro segment hsegment
  exact isPlain_foldl_advance (by simp) _ segment (List.mem_reverse.1 hsegment)

/-- A path leads where its location leads, from the root if it is absolute. -/
theorem resolve_eq_follow (directory : Directory) (path : String) :
    directory.resolve path =
      follow (if (Location.ofPath (slashed path)).isAbsolute then [] else directory)
        (Location.ofPath (slashed path)).segments := by
  let start : Directory := if (Location.ofPath (slashed path)).isAbsolute then [] else directory
  have hroot : (Location.ofPath (slashed path)).isAbsolute → start = [] := fun habsolute ↦
    if_pos habsolute
  have hfold : start.follow (Location.ofPath (slashed path)).segments =
      start.follow (Text.splitOn '/' (slashed path)) :=
    follow_foldl_advance (List.forall_mem_nil _) hroot _
  rw [hfold, resolve]
  simp only [start, Location.ofPath, beq_iff_eq]

end Directory

end SchemaPlan
