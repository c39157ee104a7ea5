import Mathlib.Data.Set.Finite.Basic
import SchemaPlan.Proofs.Import.NormalForm
import SchemaPlan.Proofs.Import.Rebasing

/-!
# No rebased import is withheld

Where an import is not rebased, there is no relative specifier at all that means the same from the
output directory: for each of them some working directory tells the two apart
(`exists_resolve_ne_of_rebaseImport?_eq_none`). Such a directory repeats one name that stands in
none of the paths. An absolute path does not hold it, and a relative one loses as many of its
repetitions as it has steps up. So enough of them tell an absolute path from a relative one
(`mem_follow_replicate`), and where the output climbs further than the target, one more than the
target climbs (`climbs_lt_of_mem_afterShared`).
-/

set_option autoImplicit false
set_option relaxedAutoImplicit false

namespace SchemaPlan

/-! ### Names that no path mentions -/

/-- A name that a directory can have and a path can say. -/
def IsDirectoryName (name : String) : Prop :=
  IsName name ∧ '/' ∉ name.toList ∧ '\\' ∉ name.toList

theorem isDirectoryName_replicate (count : Nat) :
    IsDirectoryName (String.ofList (List.replicate (count + 1) 'w')) := by
  refine ⟨⟨?_, ?_, ?_⟩, ?_, ?_⟩
  · simp [String.ext_iff]
  · simp [String.ext_iff, List.replicate_succ]
  · simp [String.ext_iff, List.replicate_succ]
  · simp
  · simp

/-- There is always a name that is not taken. -/
theorem exists_directoryName_not_mem (taken : List String) :
    ∃ name, IsDirectoryName name ∧ name ∉ taken := by
  let names (count : Nat) : String := String.ofList (List.replicate (count + 1) 'w')
  have hinjective : Function.Injective names := by
    intro first second heq
    have hlength := congrArg (·.toList.length) heq
    simpa [names] using hlength
  obtain ⟨name, ⟨count, rfl⟩, hname⟩ :=
    (Set.infinite_range_of_injective hinjective).exists_notMem_finset taken.toFinset
  exact ⟨names count, isDirectoryName_replicate count, by simpa using hname⟩

/-! ### What is left of a directory -/

namespace Directory

variable {directory : Directory} {segments : List String} {name : String}

/-- A directory that is entered by a segment has no other new name than the segment. -/
theorem mem_enter {segment : String} (h : name ∈ directory.enter segment) :
    name ∈ directory ∨ name = segment := by
  unfold enter at h
  split at h
  · exact .inl h
  · split at h
    · exact .inl (List.mem_of_mem_tail h)
    · exact (List.mem_cons.1 h).symm

/-- A name that neither the directory nor the segments hold is not reached. -/
theorem not_mem_follow (hdirectory : name ∉ directory) (hsegments : name ∉ segments) :
    name ∉ directory.follow segments := by
  induction segments generalizing directory with
  | nil => exact hdirectory
  | cons segment rest ih =>
    obtain ⟨hsegment, hrest⟩ := not_or.1 (mt List.mem_cons.2 hsegments)
    exact ih (fun hmem ↦ (mem_enter hmem).elim hdirectory hsegment) hrest

/-- A segment takes away one repetition of a name at most. -/
theorem count_le_count_enter (directory : Directory) (segment name : String) :
    directory.count name ≤ (directory.enter segment).count name + 1 := by
  unfold enter
  split
  · omega
  · split
    · cases directory with
      | nil => simp
      | cons first rest =>
        rw [List.tail_cons, List.count_cons]
        split <;> omega
    · rw [List.count_cons]
      omega

/-- A segment takes away one name at most. -/
theorem count_le_count_follow (directory : Directory) (segments : List String) (name : String) :
    directory.count name ≤ (directory.follow segments).count name + segments.length := by
  induction segments generalizing directory with
  | nil => exact le_rfl
  | cons segment rest ih =>
    have hsegment := count_le_count_enter directory segment name
    have hrest := ih (directory.enter segment)
    rw [follow_cons, List.length_cons]
    omega

/-- Enough repetitions of a name are not all taken away. -/
theorem mem_follow_replicate {count : Nat} (h : segments.length < count) :
    name ∈ follow (List.replicate count name) segments := by
  have hle := count_le_count_follow (List.replicate count name) segments name
  rw [List.count_replicate_self] at hle
  exact List.count_pos_iff.1 (by omega)

end Directory

/-! ### Directories that tell paths apart -/

namespace Location

/-- The directory or file that a location denotes when it is used in a directory. -/
def reachedFrom (location : Location) (working : Directory) : Directory :=
  Directory.follow (if location.isAbsolute then [] else working) location.segments

/-- No segments are given for an absolute and a relative location, nor for climbing out of a step
up. -/
theorem relativeTo?_eq_none {base target : Location} (h : base.relativeTo? target = none) :
    base.isAbsolute ≠ target.isAbsolute ∨
      ".." ∈ (afterShared base.segments target.segments).1 := by
  by_contra hneither
  obtain ⟨hsame, hnames⟩ := not_or.1 hneither
  rw [relativeTo?, if_neg hsame] at h
  simp only [if_neg hnames] at h
  cases h

theorem afterShared_append_left (shared first second : List String) :
    afterShared (shared ++ first) (shared ++ second) = afterShared first second := by
  induction shared with
  | nil => rfl
  | cons name rest ih => rw [List.cons_append, List.cons_append, afterShared, if_pos rfl, ih]

/-- A step up is left of the first only when the first has more steps up than the second. -/
theorem climbs_lt_of_mem_afterShared {climbs others : Nat} {names second : List String}
    (hnames : ∀ name ∈ names, IsName name)
    (h : ".." ∈ (afterShared (List.replicate climbs ".." ++ names)
      (List.replicate others ".." ++ second)).1) : others < climbs := by
  by_contra hle
  obtain ⟨more, rfl⟩ := Nat.exists_eq_add_of_le (Nat.le_of_not_lt hle)
  rw [List.replicate_add, List.append_assoc, afterShared_append_left] at h
  obtain ⟨shared, hshared, -⟩ := exists_shared names (List.replicate more ".." ++ second)
  exact (hnames ".." (hshared ▸ List.mem_append_right shared h)).2.2 rfl

/-- An absolute location does not lead to the names of the working directory. -/
theorem not_mem_reachedFrom_of_isAbsolute {location : Location} {name : String}
    (habsolute : location.isAbsolute) (hname : name ∉ location.segments) (working : Directory) :
    name ∉ location.reachedFrom working := by
  rw [reachedFrom, if_pos habsolute]
  exact Directory.not_mem_follow (by simp) hname

/-- A location that is not absolute leaves one of the repetitions of a name when they are one more
than its steps up, and none when they are not more. -/
theorem reachedFrom_replicate {location : Location} {climbs : Nat} {names : List String}
    (hrelative : location.isAbsolute = false)
    (hsegments : location.segments = List.replicate climbs ".." ++ names)
    (hnames : ∀ name ∈ names, IsName name) (count : Nat) (name : String) :
    location.reachedFrom (List.replicate count name) =
      names.reverse ++ List.replicate (count - climbs) name := by
  rw [reachedFrom, hrelative, if_neg Bool.false_ne_true, hsegments,
    Directory.follow_of_normal hnames, List.drop_replicate]

/-- Where no segments lead from one location to another, none do so from every directory. -/
theorem exists_follow_ne_of_relativeTo?_eq_none {base target : Location}
    (hbase : IsNormal base.isAbsolute base.segments)
    (htarget : IsNormal target.isAbsolute target.segments)
    (h : base.relativeTo? target = none) (segments : List String) :
    ∃ working : Directory, (∀ name ∈ working, IsDirectoryName name) ∧
      (base.reachedFrom working).follow segments ≠ target.reachedFrom working := by
  obtain ⟨climbs, names, hsegments, hnames, hroot⟩ := hbase
  obtain ⟨others, otherNames, hothers, hotherNames, -⟩ := htarget
  obtain ⟨name, hname, hfresh⟩ :=
    exists_directoryName_not_mem (base.segments ++ target.segments ++ segments)
  simp only [List.mem_append, not_or] at hfresh
  obtain ⟨⟨hoffBase, hoffTarget⟩, hoff⟩ := hfresh
  have hworking (count : Nat) : ∀ other ∈ List.replicate count name, IsDirectoryName other :=
    fun other hother ↦ List.eq_of_mem_replicate hother ▸ hname
  have hclimbs (hsame : base.isAbsolute = target.isAbsolute) : others < climbs := by
    have hmem := (relativeTo?_eq_none h).resolve_left (not_not.2 hsame)
    rw [hsegments, hothers] at hmem
    exact climbs_lt_of_mem_afterShared hnames hmem
  have hkept (hrelative : target.isAbsolute = false) :
      name ∈ target.reachedFrom (List.replicate (others + 1) name) := by
    rw [reachedFrom_replicate hrelative hothers hotherNames]
    simp
  cases hbaseRoot : base.isAbsolute <;> cases htargetRoot : target.isAbsolute
  case true.true =>
    have hlt := hclimbs (hbaseRoot.trans htargetRoot.symm)
    have hzero := hroot hbaseRoot
    omega
  case true.false =>
    refine ⟨List.replicate (others + 1) name, hworking _, ?_⟩
    have hlost := not_mem_reachedFrom_of_isAbsolute hbaseRoot hoffBase
    exact (ne_of_mem_of_not_mem' (hkept htargetRoot)
      (Directory.not_mem_follow (hlost _) hoff)).symm
  case false.true =>
    refine ⟨List.replicate ((base.segments ++ segments).length + 1) name, hworking _, ?_⟩
    have hlost := not_mem_reachedFrom_of_isAbsolute htargetRoot hoffTarget
    refine ne_of_mem_of_not_mem' ?_ (hlost _)
    rw [reachedFrom, hbaseRoot, if_neg Bool.false_ne_true, ← Directory.follow_append]
    exact Directory.mem_follow_replicate (Nat.lt_succ_self _)
  case false.false =>
    have hlt := hclimbs (hbaseRoot.trans htargetRoot.symm)
    refine ⟨List.replicate (others + 1) name, hworking _, ?_⟩
    -- The output climbs out of all the repetitions, and nothing leads back into one.
    have hlost : name ∉ base.reachedFrom (List.replicate (others + 1) name) := by
      rw [reachedFrom_replicate hbaseRoot hsegments hnames, Nat.sub_eq_zero_of_le hlt,
        List.replicate_zero, List.append_nil, List.mem_reverse]
      exact fun hmem ↦ hoffBase (hsegments ▸ List.mem_append_right _ hmem)
    exact (ne_of_mem_of_not_mem' (hkept htargetRoot) (Directory.not_mem_follow hlost hoff)).symm

end Location

/-! ### Refused imports -/

/-- Where an import is not rebased, some working directory tells what a relative specifier denotes
from the output directory from what the path of the import denotes, read behind the directory part
of the schema file. -/
theorem exists_resolve_ne_import {spec schemaPath output : String}
    (hrelative : isRelativeImport spec) (h : rebaseImport? spec schemaPath output = none)
    {candidate : String} (hcandidate : isRelativeImport candidate) :
    ∃ working : Directory, (∀ name ∈ working, IsDirectoryName name) ∧
      (working.resolve output).resolve candidate ≠
        working.resolve (directoryPart (slashed schemaPath) ++ slashed spec) := by
  rw [rebaseImport?, if_pos hrelative, Option.map_eq_none_iff] at h
  obtain ⟨working, hworking, hne⟩ := Location.exists_follow_ne_of_relativeTo?_eq_none
    (Location.isNormal_ofPath _) (Location.isNormal_ofPath _) h
    (Text.splitOn '/' (slashed candidate))
  refine ⟨working, hworking, ?_⟩
  have hhead : (slashed candidate).toList.head? ≠ some '/' := by
    simp [head?_slashed_of_isRelativeImport hcandidate]
  rwa [Directory.resolve_of_head?_ne _ hhead, Directory.resolve_eq_follow working output,
    Directory.resolve_eq_follow, slashed_import]

/-- An import that is not rebased cannot be: no relative specifier denotes from the output directory
what the import denotes from the directory of the schema file, whatever the working directory is. -/
theorem exists_resolve_ne_of_rebaseImport?_eq_none {spec schemaPath output : String}
    (hrelative : isRelativeImport spec) (h : rebaseImport? spec schemaPath output = none)
    {candidate : String} (hcandidate : isRelativeImport candidate) :
    ∃ working : Directory, (∀ name ∈ working, IsDirectoryName name) ∧
      (working.resolve output).resolve candidate ≠
        (working.resolve (directoryPart (slashed schemaPath))).resolve spec := by
  obtain ⟨working, hworking, hne⟩ := exists_resolve_ne_import hrelative h hcandidate
  refine ⟨working, hworking, ?_⟩
  rwa [← Directory.resolve_directoryPart_append working schemaPath hrelative]

/-- The output lies above the working directory, whose name no specifier can say. -/
theorem exists_resolve_ne_parent_output :
    isRelativeImport "./db" ∧ rebaseImport? "./db" "prisma/schema.prisma" "../out" = none ∧
      isRelativeImport "../prisma/db" ∧
      ∃ working : Directory, (∀ name ∈ working, IsDirectoryName name) ∧
        (working.resolve "../out").resolve "../prisma/db" ≠
          (working.resolve (directoryPart (slashed "prisma/schema.prisma"))).resolve "./db" :=
  have hrelative : isRelativeImport "./db" := by decide +kernel
  have h : rebaseImport? "./db" "prisma/schema.prisma" "../out" = none := by decide +kernel
  have hcandidate : isRelativeImport "../prisma/db" := by decide +kernel
  ⟨hrelative, h, hcandidate,
    exists_resolve_ne_of_rebaseImport?_eq_none hrelative h hcandidate⟩

/-- When the path of the schema file is that of a directory and a name behind it, no relative
specifier denotes from the output directory what an import that is not rebased denotes from that
directory. -/
theorem exists_resolve_ne_append {spec directory name output : String}
    (hrelative : isRelativeImport spec) (hdirectory : directory ≠ "")
    (hslash : '/' ∉ name.toList) (hbackslash : '\\' ∉ name.toList)
    (h : rebaseImport? spec (directory ++ "/" ++ name) output = none)
    {candidate : String} (hcandidate : isRelativeImport candidate) :
    ∃ working : Directory, (∀ part ∈ working, IsDirectoryName part) ∧
      (working.resolve output).resolve candidate ≠ (working.resolve directory).resolve spec := by
  obtain ⟨working, hworking, hne⟩ := exists_resolve_ne_import hrelative h hcandidate
  refine ⟨working, hworking, ?_⟩
  rwa [Directory.resolve_import_append working hrelative hdirectory hslash hbackslash] at hne

end SchemaPlan
