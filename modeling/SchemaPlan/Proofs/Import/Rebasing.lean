import SchemaPlan.Proofs.Import.Resolution
import SchemaPlan.Proofs.Text.Cut

/-!
# A rebased import means the same

A relative import is written from the directory of the schema file, and its rebased form from the
output directory. Both denote one place from every working directory (`resolve_rebaseImport`), which
is seen from the directory that is named in the path of the schema file
(`resolve_rebaseImport_append`). The two locations share a start; behind it the output has names
only, which as many steps up undo, and what follows is the rest of the way to the target
(`follow_relativeTo`).
-/

set_option autoImplicit false
set_option relaxedAutoImplicit false

namespace SchemaPlan

/-! ### Relative locations -/

/-- What is left of two lists follows the start that they share. -/
theorem Location.exists_shared (first second : List String) : ∃ shared,
    first = shared ++ (afterShared first second).1 ∧
      second = shared ++ (afterShared first second).2 := by
  induction first generalizing second with
  | nil => exact ⟨[], by simp [afterShared], by simp [afterShared]⟩
  | cons name rest ih =>
    cases second with
    | nil => exact ⟨[], by simp [afterShared], by simp [afterShared]⟩
    | cons other others =>
      by_cases heq : name = other
      · obtain ⟨shared, hfirst, hsecond⟩ := ih others
        rw [afterShared, if_pos heq]
        refine ⟨name :: shared, ?_, ?_⟩
        · rw [List.cons_append, ← hfirst]
        · rw [List.cons_append, ← hsecond, heq]
      · rw [afterShared, if_neg heq]
        exact ⟨[], rfl, rfl⟩

/-- The segments from one directory to another climb out of the names of the first that are not
shared, and go down the rest of the second. -/
theorem Location.relativeTo?_eq_some {base target : Location} {segments : List String}
    (h : base.relativeTo? target = some segments) :
    base.isAbsolute = target.isAbsolute ∧ ∃ shared up down, base.segments = shared ++ up ∧
      target.segments = shared ++ down ∧ ".." ∉ up ∧ segments = up.map (fun _ ↦ "..") ++ down := by
  rw [relativeTo?] at h
  obtain ⟨habsolute, h⟩ := Option.ite_none_left_eq_some.1 h
  obtain ⟨hup, h⟩ := Option.ite_none_left_eq_some.1 h
  obtain ⟨shared, hbase, htarget⟩ := exists_shared base.segments target.segments
  exact ⟨Decidable.not_not.1 habsolute, shared, _, _, hbase, htarget, hup, (Option.some.inj h).symm⟩

/-- From where the base leads, the segments lead to where the target does. -/
theorem Directory.follow_relativeTo {base target : Location} {segments : List String}
    (h : base.relativeTo? target = some segments)
    (hplain : ∀ segment ∈ base.segments, IsPlain base.isAbsolute segment) (directory : Directory) :
    (directory.follow base.segments).follow segments = directory.follow target.segments := by
  obtain ⟨-, shared, up, down, hbase, htarget, hup, rfl⟩ := Location.relativeTo?_eq_some h
  have hnames : ∀ name ∈ up, name ≠ "" ∧ name ≠ "." ∧ name ≠ ".." := by
    intro name hname
    obtain ⟨hempty, hdot, -⟩ := hplain name (hbase ▸ List.mem_append_right shared hname)
    exact ⟨hempty, hdot, fun hdots ↦ hup (hdots ▸ hname)⟩
  rw [hbase, htarget, follow_append, follow_append, follow_names_up hnames, follow_append]

/-! ### Texts of paths -/

theorem toList_slashed (path : String) :
    (slashed path).toList = path.toList.map fun c ↦ if c = '\\' then '/' else c := by
  simp [slashed]

theorem not_mem_slashed (path : String) : '\\' ∉ (slashed path).toList := by
  rw [toList_slashed, List.mem_map]
  rintro ⟨c, -, hc⟩
  split at hc <;> simp_all

/-- A path without backslashes stays as it is. -/
theorem slashed_of_not_mem {path : String} (h : '\\' ∉ path.toList) : slashed path = path := by
  have hmap : (path.toList.map fun c ↦ if c = '\\' then '/' else c) = path.toList.map id :=
    List.map_congr_left fun c hc ↦ if_neg (ne_of_mem_of_not_mem hc h)
  rw [slashed, hmap, List.map_id, String.ofList_toList]

/-- A relative import starts with a dot. -/
theorem head?_slashed_of_isRelativeImport {spec : String} (h : isRelativeImport spec) :
    (slashed spec).toList.head? = some '.' := by
  unfold isRelativeImport at h
  split at h <;> simp_all

theorem directoryPart_subset (path : String) : (directoryPart path).toList ⊆ path.toList := by
  rw [directoryPart, String.toList_ofList]
  intro c hc
  exact List.mem_reverse.1 ((List.dropWhile_sublist _).subset (List.mem_reverse.1 hc))

theorem slashed_append (first second : String) :
    slashed (first ++ second) = slashed first ++ slashed second := by
  apply String.toList_inj.1
  simp [toList_slashed]

theorem slashed_eq_empty_iff {path : String} : slashed path = "" ↔ path = "" := by
  rw [← String.toList_inj, ← @String.toList_inj path, toList_slashed]
  simp

/-- The directory part of a path ends in front of its last name. -/
theorem directoryPart_append {name : String} (h : '/' ∉ name.toList) (stem : String) :
    directoryPart (stem ++ "/" ++ name) = stem ++ "/" := by
  have hname : ∀ c ∈ name.toList.reverse, (c != '/') = true := fun c hc ↦
    bne_iff_ne.2 (ne_of_mem_of_not_mem (List.mem_reverse.1 hc) h)
  apply String.toList_inj.1
  rw [directoryPart, String.toList_ofList, String.toList_append, String.toList_append,
    List.reverse_append, List.dropWhile_append_of_pos hname]
  simp

/-- The directory part of a file in a directory is the path of the directory. -/
theorem directoryPart_slashed_append {name : String} (hslash : '/' ∉ name.toList)
    (hbackslash : '\\' ∉ name.toList) (directory : String) :
    directoryPart (slashed (directory ++ "/" ++ name)) = slashed directory ++ "/" := by
  have hsep : slashed "/" = "/" := rfl
  rw [slashed_append, slashed_append, slashed_of_not_mem hbackslash, hsep,
    directoryPart_append hslash]

theorem slashed_import (spec schemaPath : String) :
    slashed (directoryPart (slashed schemaPath) ++ slashed spec) =
      directoryPart (slashed schemaPath) ++ slashed spec := by
  refine slashed_of_not_mem ?_
  rw [String.toList_append, List.mem_append, not_or]
  exact ⟨fun hmem ↦ not_mem_slashed schemaPath (directoryPart_subset _ hmem),
    not_mem_slashed spec⟩

/-- A directory part is empty or ends in a slash. -/
theorem directoryPart_eq (path : String) :
    (directoryPart path).toList = [] ∨ ∃ stem, (directoryPart path).toList = stem ++ ['/'] := by
  rw [directoryPart, String.toList_ofList]
  have hhead := List.head?_dropWhile_not (· != '/') path.toList.reverse
  cases hkept : path.toList.reverse.dropWhile (· != '/') with
  | nil => exact .inl rfl
  | cons c rest =>
    have hc : c = '/' := by simpa [hkept] using hhead
    exact .inr ⟨rest.reverse, by rw [hc, List.reverse_cons]⟩

namespace Directory

/-- A path that does not start with a slash is followed from where it is used. -/
theorem resolve_of_head?_ne (directory : Directory) {path : String}
    (h : (slashed path).toList.head? ≠ some '/') :
    directory.resolve path = directory.follow (Text.splitOn '/' (slashed path)) := by
  rw [resolve, if_neg h]

/-- A path behind a slash continues from where the part up to the slash leads. -/
theorem resolve_ofList_append (directory : Directory) {stem rest : List Char}
    (hstem : '\\' ∉ stem) (hrest : '\\' ∉ rest) :
    directory.resolve (String.ofList (stem ++ '/' :: rest)) =
      (directory.resolve (String.ofList (stem ++ ['/']))).follow
        (Text.splitOn '/' (String.ofList rest)) := by
  have hhead : (stem ++ '/' :: rest).head? = (stem ++ ['/']).head? := by cases stem <;> rfl
  have hempty (start : Directory) : start.follow (Text.splitOn '/' (String.ofList [])) = start := by
    simp [Text.splitOn, List.splitOn_nil, follow, enter]
  rw [resolve, resolve, slashed_of_not_mem (by simp [hstem, hrest]),
    slashed_of_not_mem (by simp [hstem])]
  simp only [String.toList_ofList, hhead, Text.splitOn_append_cons, follow_append, hempty]

/-- A slash behind a path makes no difference. -/
theorem resolve_append_slash (working : Directory) {directory : String} (h : directory ≠ "") :
    working.resolve (slashed directory ++ "/") = working.resolve directory := by
  have hslashed : slashed (slashed directory ++ "/") = slashed directory ++ "/" :=
    slashed_of_not_mem (by simp [not_mem_slashed])
  have hhead : (slashed directory ++ "/").toList.head? = (slashed directory).toList.head? := by
    obtain ⟨c, rest, hcons⟩ := List.exists_cons_of_ne_nil fun hnil ↦
      h (slashed_eq_empty_iff.1 (String.toList_inj.1 hnil))
    rw [String.toList_append, hcons]
    rfl
  have hsplit : Text.splitOn '/' (slashed directory ++ "/") =
      Text.splitOn '/' (slashed directory) ++ [""] := by
    have happend : slashed directory ++ "/" =
        String.ofList ((slashed directory).toList ++ '/' :: []) := by
      apply String.toList_inj.1
      simp
    rw [happend, Text.splitOn_append_cons, String.ofList_toList]
    rfl
  rw [resolve, resolve, hslashed, hhead, hsplit, follow_concat, enter, if_pos (.inl rfl)]

/-- An import is used in the directory of the schema file. -/
theorem resolve_directoryPart_append (directory : Directory) (schemaPath : String) {spec : String}
    (hrelative : isRelativeImport spec) :
    directory.resolve (directoryPart (slashed schemaPath) ++ slashed spec) =
      (directory.resolve (directoryPart (slashed schemaPath))).resolve spec := by
  have hspec : (slashed spec).toList.head? ≠ some '/' := by
    simp [head?_slashed_of_isRelativeImport hrelative]
  rw [resolve_of_head?_ne _ hspec]
  rcases directoryPart_eq (slashed schemaPath) with hnil | ⟨stem, hstem⟩
  · have hempty : directoryPart (slashed schemaPath) = "" := String.toList_inj.1 hnil
    have hslashed := slashed_of_not_mem (not_mem_slashed spec)
    rw [hempty, String.empty_append, resolve_of_head?_ne directory (by rwa [hslashed]), hslashed]
    rfl
  · have happend : directoryPart (slashed schemaPath) ++ slashed spec =
        String.ofList (stem ++ '/' :: (slashed spec).toList) := by
      apply String.toList_inj.1
      simp [hstem]
    have hpart : directoryPart (slashed schemaPath) = String.ofList (stem ++ ['/']) := by
      apply String.toList_inj.1
      rw [hstem, String.toList_ofList]
    have hbackslash : '\\' ∉ stem := fun h ↦ not_mem_slashed schemaPath
      (directoryPart_subset _ (hstem ▸ List.mem_append_left ['/'] h))
    rw [happend, resolve_ofList_append _ hbackslash (not_mem_slashed spec), hpart,
      String.ofList_toList]

/-- An import of a schema file that is named in a directory is used in that directory. -/
theorem resolve_import_append (working : Directory) {directory name spec : String}
    (hrelative : isRelativeImport spec) (hdirectory : directory ≠ "")
    (hslash : '/' ∉ name.toList) (hbackslash : '\\' ∉ name.toList) :
    working.resolve (directoryPart (slashed (directory ++ "/" ++ name)) ++ slashed spec) =
      (working.resolve directory).resolve spec := by
  rw [resolve_directoryPart_append working _ hrelative,
    directoryPart_slashed_append hslash hbackslash, resolve_append_slash working hdirectory]

/-- Segments that are joined to a path lead where they lead one after another. -/
theorem resolve_intercalate (directory : Directory) {first : String} {rest : List String}
    (hfirst : first ≠ "")
    (h : ∀ segment ∈ first :: rest, '/' ∉ segment.toList ∧ '\\' ∉ segment.toList) :
    directory.resolve (String.intercalate "/" (first :: rest)) =
      directory.follow (first :: rest) := by
  have hsep : "/".toList = ['/'] := rfl
  have hbackslash : '\\' ∉ (String.intercalate "/" (first :: rest)).toList := by
    rw [String.toList_intercalate, hsep]
    intro hmem
    rcases Text.mem_intercalate_singleton hmem with heq | ⟨chars, hchars, hmem⟩
    · simp at heq
    · obtain ⟨segment, hsegment, rfl⟩ := List.mem_map.1 hchars
      exact (h segment hsegment).2 hmem
  have hhead : (String.intercalate "/" (first :: rest)).toList.head? ≠ some '/' :=
    Text.head?_intercalate_ne hfirst (h first List.mem_cons_self).1 rest
  have hslashed := slashed_of_not_mem hbackslash
  rw [resolve_of_head?_ne directory (by rwa [hslashed]), hslashed,
    Text.splitOn_intercalate rfl (List.cons_ne_nil first rest)
      fun segment hmem ↦ (h segment hmem).1]

/-- A relative specifier leads where its segments do. -/
theorem resolve_relativeSpec (directory : Directory) {segments : List String}
    (h : ∀ segment ∈ segments, '/' ∉ segment.toList ∧ '\\' ∉ segment.toList) :
    directory.resolve (relativeSpec segments) = directory.follow segments := by
  have hdot (segments : List String) : directory.follow ("." :: segments) =
      directory.follow segments := by
    simp [follow_cons, enter]
  unfold relativeSpec
  split
  · rw [← hdot, ← resolve_intercalate directory (by simp) (by simp), String.intercalate_singleton]
  · exact resolve_intercalate directory (by simp) h
  · rw [resolve_intercalate directory (by simp) (List.forall_mem_cons.2 ⟨by simp, h⟩), hdot]

end Directory

/-! ### Rebased imports -/

/-- A step of reading keeps segments, adds the next one, or adds a step up. -/
theorem Location.mem_advance {isAbsolute : Bool} {stack : List String} {next segment : String}
    (h : segment ∈ advance isAbsolute stack next) :
    segment = ".." ∨ segment = next ∨ segment ∈ stack := by
  unfold advance at h
  by_cases hskip : next = "" ∨ next = "."
  · rw [if_pos hskip] at h
    exact .inr (.inr h)
  rw [if_neg hskip] at h
  by_cases hdots : next = ".."
  · rw [if_pos hdots] at h
    cases stack with
    | nil => cases isAbsolute <;> simp_all
    | cons top below => cases isAbsolute <;> by_cases htop : top = ".." <;> simp_all
  · rw [if_neg hdots] at h
    exact .inr (List.mem_cons.1 h)

/-- The segments of a location are parts of its path, steps up apart. -/
theorem Location.mem_segments_ofPath {path segment : String}
    (h : segment ∈ (ofPath path).segments) : segment = ".." ∨ segment ∈ Text.splitOn '/' path := by
  suffices hfold : ∀ (isAbsolute : Bool) (segments stack : List String),
      segment ∈ segments.foldl (advance isAbsolute) stack →
        segment = ".." ∨ segment ∈ stack ∨ segment ∈ segments by
    simpa using hfold _ _ _ (List.mem_reverse.1 h)
  intro isAbsolute segments
  induction segments with
  | nil => exact fun stack hmem ↦ .inr (.inl hmem)
  | cons next rest ih =>
    intro stack hmem
    rcases ih _ hmem with hdots | hmem | hmem
    · exact .inl hdots
    · rcases mem_advance hmem with hdots | rfl | hmem
      · exact .inl hdots
      · exact .inr (.inr List.mem_cons_self)
      · exact .inr (.inl hmem)
    · exact .inr (.inr (List.mem_cons_of_mem next hmem))

/-- No separator stands in the segments of a location. -/
theorem forall_mem_segments_ofPath_slashed (path : String) :
    ∀ segment ∈ (Location.ofPath (slashed path)).segments,
      '/' ∉ segment.toList ∧ '\\' ∉ segment.toList := by
  intro segment hsegment
  rcases Location.mem_segments_ofPath hsegment with rfl | hpart
  · simp
  · obtain ⟨hslash, hsub⟩ := Text.not_mem_of_mem_splitOn hpart
    exact ⟨hslash, fun hmem ↦ not_mem_slashed path (hsub hmem)⟩

/-- No separator stands in the segments that lead to what is imported. -/
theorem forall_mem_relativeTo?_import {spec schemaPath : String} {base : Location}
    {segments : List String}
    (h : base.relativeTo? (.ofPath (directoryPart (slashed schemaPath) ++ slashed spec)) =
      some segments) : ∀ segment ∈ segments, '/' ∉ segment.toList ∧ '\\' ∉ segment.toList := by
  obtain ⟨-, shared, up, down, -, hdown, -, rfl⟩ := Location.relativeTo?_eq_some h
  rw [List.forall_mem_append]
  constructor
  · intro segment hsegment
    obtain ⟨name, -, rfl⟩ := List.mem_map.1 hsegment
    simp
  · intro segment hsegment
    rw [← slashed_import] at hdown
    exact forall_mem_segments_ofPath_slashed _ segment
      (hdown ▸ List.mem_append_right shared hsegment)

/-- A rebased import denotes from the output directory what the path of the import denotes, read
behind the directory part of the schema file. -/
theorem resolve_of_rebaseImport? {spec schemaPath output rebased : String}
    (hrelative : isRelativeImport spec) (h : rebaseImport? spec schemaPath output = some rebased)
    (working : Directory) :
    (working.resolve output).resolve rebased =
      working.resolve (directoryPart (slashed schemaPath) ++ slashed spec) := by
  rw [rebaseImport?, if_pos hrelative] at h
  obtain ⟨segments, hsegments, rfl⟩ := Option.map_eq_some_iff.1 h
  have hplain := Directory.isPlain_segments_ofPath (slashed output)
  rw [Directory.resolve_relativeSpec _ (forall_mem_relativeTo?_import hsegments),
    Directory.resolve_eq_follow working output, Directory.follow_relativeTo hsegments hplain,
    (Location.relativeTo?_eq_some hsegments).1, Directory.resolve_eq_follow, slashed_import]

/-- A rebased import denotes from the output directory what the import denotes from the directory
of the schema file, whatever the working directory is. -/
theorem resolve_rebaseImport {spec schemaPath output rebased : String}
    (hrelative : isRelativeImport spec) (h : rebaseImport? spec schemaPath output = some rebased)
    (working : Directory) :
    (working.resolve output).resolve rebased =
      (working.resolve (directoryPart (slashed schemaPath))).resolve spec := by
  rw [resolve_of_rebaseImport? hrelative h,
    Directory.resolve_directoryPart_append working schemaPath hrelative]

/-- The schema file and the output both lie outside of the working directory. -/
theorem resolve_rebaseImport_shared_parent :
    rebaseImport? "../shared" "../app/schema.prisma" "..\\out\\gen" = some "../../shared" ∧
      ∀ working : Directory, (working.resolve "..\\out\\gen").resolve "../../shared" =
        (working.resolve (directoryPart (slashed "../app/schema.prisma"))).resolve "../shared" :=
  have h : rebaseImport? "../shared" "../app/schema.prisma" "..\\out\\gen" =
      some "../../shared" := by decide +kernel
  ⟨h, resolve_rebaseImport (by decide +kernel) h⟩

/-- When the path of the schema file is that of a directory and a name behind it, a rebased import
denotes from the output directory what the import denotes from that directory. -/
theorem resolve_rebaseImport_append {spec directory name output rebased : String}
    (hrelative : isRelativeImport spec) (hdirectory : directory ≠ "")
    (hslash : '/' ∉ name.toList) (hbackslash : '\\' ∉ name.toList)
    (h : rebaseImport? spec (directory ++ "/" ++ name) output = some rebased)
    (working : Directory) :
    (working.resolve output).resolve rebased = (working.resolve directory).resolve spec := by
  rw [resolve_of_rebaseImport? hrelative h,
    Directory.resolve_import_append working hrelative hdirectory hslash hbackslash]

end SchemaPlan
