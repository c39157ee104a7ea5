import SchemaPlan.Proofs.Import.Resolution

/-!
# Locations in normal form

A location is a run of steps up followed by names, and an absolute one has names alone
(`isNormal_ofPath`). In this form no segment undoes another: read again, the segments are pushed one
after another (`foldl_advance_of_isNormal`), and a directory loses as many names as there are steps
up before it gains the names (`Directory.follow_of_normal`).
-/

set_option autoImplicit false
set_option relaxedAutoImplicit false

namespace SchemaPlan

/-- A segment that leads into a directory or to a file. -/
def IsName (segment : String) : Prop := segment ≠ "" ∧ segment ≠ "." ∧ segment ≠ ".."

namespace Location

/-- Steps up and then names. There is nothing above the root to climb to. -/
def IsNormal (isAbsolute : Bool) (segments : List String) : Prop :=
  ∃ climbs names, segments = List.replicate climbs ".." ++ names ∧
    (∀ name ∈ names, IsName name) ∧ (isAbsolute → climbs = 0)

variable {isAbsolute : Bool} {stack segments : List String} {segment : String}

/-! ### Steps -/

theorem advance_skip (h : segment = "" ∨ segment = ".") :
    advance isAbsolute stack segment = stack := by
  simp [advance, h]

theorem advance_name (h : IsName segment) :
    advance isAbsolute stack segment = segment :: stack := by
  simp [advance, h.1, h.2.1, h.2.2]

theorem advance_up_name {top : String} (h : IsName top) :
    advance isAbsolute (top :: stack) ".." = stack := by
  simp [advance, h.2.2]

/-- Above the directory that a path starts from, steps up are kept. -/
theorem advance_up_climbs (climbs : Nat) :
    advance false (List.replicate climbs "..") ".." = List.replicate (climbs + 1) ".." := by
  cases climbs <;> rfl

/-- As many steps up as there are names undo the names. -/
theorem foldl_advance_up_names {names : List String} (h : ∀ name ∈ names, IsName name) :
    (List.replicate names.length "..").foldl (advance isAbsolute) (names ++ stack) = stack := by
  induction names with
  | nil => rfl
  | cons name rest ih =>
    rw [List.length_cons, List.replicate_succ, List.foldl_cons, List.cons_append,
      advance_up_name (h name List.mem_cons_self)]
    exact ih fun other hother ↦ h other (List.mem_cons_of_mem name hother)

/-! ### Reading keeps to the normal form -/

/-- A segment more keeps the normal form. -/
theorem isNormal_advance (h : IsNormal isAbsolute stack.reverse) (segment : String) :
    IsNormal isAbsolute (advance isAbsolute stack segment).reverse := by
  by_cases hskip : segment = "" ∨ segment = "."
  · rwa [advance_skip hskip]
  obtain ⟨hempty, hdot⟩ := not_or.1 hskip
  obtain ⟨climbs, names, hstack, hnames, hroot⟩ := h
  by_cases hdots : segment = ".."
  · subst hdots
    rcases List.eq_nil_or_concat names with rfl | ⟨init, top, rfl⟩
    · have hclimbs : stack = List.replicate climbs ".." := by
        rw [← List.reverse_reverse stack, hstack, List.append_nil, List.reverse_replicate]
      cases isAbsolute with
      | false =>
        rw [hclimbs, advance_up_climbs, List.reverse_replicate]
        exact ⟨climbs + 1, [], (List.append_nil _).symm, by simp, by simp⟩
      | true =>
        rw [hclimbs, hroot rfl]
        exact ⟨0, [], rfl, by simp, fun _ ↦ rfl⟩
    · -- A step up undoes the innermost name.
      have hnames' := List.forall_mem_append.1 (List.concat_eq_append ▸ hnames)
      have htop : stack = top :: (List.replicate climbs ".." ++ init).reverse := by
        rw [← List.reverse_reverse stack, hstack, List.concat_eq_append, ← List.append_assoc,
          List.reverse_concat]
      rw [htop, advance_up_name (hnames'.2 top (List.mem_singleton_self top)),
        List.reverse_reverse]
      exact ⟨climbs, init, rfl, hnames'.1, hroot⟩
  · have hname : IsName segment := ⟨hempty, hdot, hdots⟩
    rw [advance_name hname, List.reverse_cons, hstack, List.append_assoc]
    refine ⟨climbs, names ++ [segment], rfl, ?_, hroot⟩
    exact List.forall_mem_append.2 ⟨hnames, by simpa using hname⟩

theorem isNormal_foldl_advance (h : IsNormal isAbsolute stack.reverse) (segments : List String) :
    IsNormal isAbsolute (segments.foldl (advance isAbsolute) stack).reverse := by
  induction segments generalizing stack with
  | nil => exact h
  | cons segment rest ih => exact ih (isNormal_advance h segment)

/-- The location of a path is in normal form. -/
theorem isNormal_ofPath (path : String) :
    IsNormal (ofPath path).isAbsolute (ofPath path).segments := by
  have hnil : IsNormal (ofPath path).isAbsolute ([] : List String).reverse :=
    ⟨0, [], rfl, by simp, fun _ ↦ rfl⟩
  exact isNormal_foldl_advance hnil (Text.splitOn '/' path)

/-! ### The normal form is read as it stands -/

/-- Segments of a normal form that are no steps up are names. -/
theorem IsNormal.isName_of_mem (h : IsNormal isAbsolute segments) (hmem : segment ∈ segments)
    (hdots : segment ≠ "..") : IsName segment := by
  obtain ⟨climbs, names, rfl, hnames, -⟩ := h
  rcases List.mem_append.1 hmem with hmem | hmem
  · exact absurd (List.eq_of_mem_replicate hmem) hdots
  · exact hnames segment hmem

/-- The end of a normal form is one, from wherever the segments in front of it lead. -/
theorem IsNormal.of_append {first second : List String}
    (h : IsNormal isAbsolute (first ++ second)) : IsNormal false second := by
  obtain ⟨climbs, names, heq, hnames, -⟩ := h
  rcases List.append_eq_append_iff.1 heq with ⟨behind, hclimbs, rfl⟩ | ⟨behind, -, rfl⟩
  · have hbehind : behind = List.replicate behind.length ".." :=
      List.eq_replicate_of_mem fun segment hsegment ↦
        List.eq_of_mem_replicate (hclimbs ▸ List.mem_append_right first hsegment)
    exact ⟨behind.length, names, by rw [← hbehind], hnames, by simp⟩
  · exact ⟨0, second, rfl, fun name hname ↦ hnames name (List.mem_append_right behind hname),
      by simp⟩

/-- In a normal form no segment undoes the one in front of it. -/
theorem advance_of_isNormal {rest : List String}
    (h : IsNormal isAbsolute (stack.reverse ++ segment :: rest)) :
    advance isAbsolute stack segment = segment :: stack := by
  obtain ⟨climbs, names, heq, hnames, hroot⟩ := h
  rcases List.append_eq_append_iff.1 heq with ⟨behind, hclimbs, hbehind⟩ | ⟨behind, -, rfl⟩
  · cases behind with
    | nil =>
      rw [List.nil_append] at hbehind
      exact advance_name (hnames segment (hbehind ▸ List.mem_cons_self))
    | cons first others =>
      -- The segment is one of the steps up, so there is nothing else in front of it.
      obtain ⟨rfl, -⟩ := List.cons.inj hbehind
      have hall : ∀ other ∈ stack.reverse ++ segment :: others, other = ".." := fun other hother ↦
        List.eq_of_mem_replicate (hclimbs ▸ hother)
      obtain rfl : segment = ".." :=
        hall segment (List.mem_append_right _ List.mem_cons_self)
      have hstack : stack = List.replicate stack.length ".." :=
        List.eq_replicate_of_mem fun other hother ↦
          hall other (List.mem_append_left _ (List.mem_reverse.2 hother))
      have hrelative : isAbsolute = false := by
        have hlength := congrArg List.length hclimbs
        rw [List.length_replicate, List.length_append, List.length_cons] at hlength
        exact Bool.eq_false_iff.2 fun habsolute ↦ by have := hroot habsolute; omega
      rw [hrelative, hstack, advance_up_climbs, List.replicate_succ]
  · exact advance_name (hnames segment (List.mem_append_right behind List.mem_cons_self))

/-- A normal form is read as it stands. -/
theorem foldl_advance_of_isNormal (h : IsNormal isAbsolute (stack.reverse ++ segments)) :
    segments.foldl (advance isAbsolute) stack = segments.reverse ++ stack := by
  induction segments generalizing stack with
  | nil => rfl
  | cons segment rest ih =>
    rw [List.foldl_cons, advance_of_isNormal h, ih (by simpa using h), List.reverse_cons,
      List.append_assoc, List.singleton_append]

end Location

/-! ### Where the normal form leads -/

namespace Directory

/-- Every step up takes away the innermost name, if there is one. -/
theorem follow_climbs (directory : Directory) (climbs : Nat) :
    directory.follow (List.replicate climbs "..") = directory.drop climbs := by
  induction climbs generalizing directory with
  | zero => rfl
  | succ climbs ih =>
    have hup : directory.enter ".." = directory.drop 1 := by simp [enter]
    rw [List.replicate_succ, follow_cons, ih, hup, List.drop_drop, Nat.add_comm]

/-- Names lead down one after another. -/
theorem follow_names {names : List String} (h : ∀ name ∈ names, IsName name)
    (directory : Directory) : directory.follow names = names.reverse ++ directory := by
  induction names generalizing directory with
  | nil => rfl
  | cons name rest ih =>
    obtain ⟨hempty, hdot, hdots⟩ := h name List.mem_cons_self
    rw [follow_cons, enter_name hempty hdot hdots,
      ih fun other hother ↦ h other (List.mem_cons_of_mem name hother), List.reverse_cons,
      List.append_assoc, List.singleton_append]

/-- A directory loses as many names as there are steps up, and then gains the names. -/
theorem follow_of_normal {names : List String} (h : ∀ name ∈ names, IsName name)
    (directory : Directory) (climbs : Nat) :
    directory.follow (List.replicate climbs ".." ++ names) =
      names.reverse ++ directory.drop climbs := by
  rw [follow_append, follow_climbs, follow_names h]

end Directory

end SchemaPlan
