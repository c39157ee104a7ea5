import Mathlib.Data.List.Forall2
import SchemaPlan.Proofs.Import.NormalForm
import SchemaPlan.Proofs.Import.Rebasing

/-!
# Rebased specifiers are settled

The segments of a rebased import are steps up and then names (`isNormal_relativeTo?`), and they lead
a reader that stands at the output back to the target (`foldl_advance_relativeTo?`). So the
specifier that they make is plain (`isPlainSpec_relativeSpec`), and rebasing it again, from a schema
file in the output directory, meets the same target and gives the same specifier
(`rebaseImport?_of_liesIn`). A file is in the directory that its path up to the name denotes, as is
one whose path is the directory's and a name behind it (`liesIn_append`). Which separators a path is
written with makes no difference (`slashed_eq_of_sameButSeparators`).
-/

set_option autoImplicit false
set_option relaxedAutoImplicit false

namespace SchemaPlan

/-! ### Segments that lead from one location to another -/

namespace Location

variable {base target : Location} {segments : List String}

/-- The segments that lead from one location to another are steps up and then names. -/
theorem isNormal_relativeTo? (htarget : IsNormal target.isAbsolute target.segments)
    (h : base.relativeTo? target = some segments) : IsNormal false segments := by
  obtain ⟨-, shared, up, down, -, hdown, -, rfl⟩ := relativeTo?_eq_some h
  rw [hdown] at htarget
  obtain ⟨climbs, names, rfl, hnames, -⟩ := htarget.of_append
  refine ⟨up.length + climbs, names, ?_, hnames, by simp⟩
  rw [List.map_const', List.replicate_add, List.append_assoc]

/-- Read on from where the base has led, the segments lead to the target. -/
theorem foldl_advance_relativeTo? (hbase : IsNormal base.isAbsolute base.segments)
    (htarget : IsNormal target.isAbsolute target.segments)
    (h : base.relativeTo? target = some segments) :
    segments.foldl (advance base.isAbsolute) base.segments.reverse = target.segments.reverse := by
  obtain ⟨habsolute, shared, up, down, hup, hdown, hclimbs, rfl⟩ := relativeTo?_eq_some h
  have hnames : ∀ name ∈ up.reverse, IsName name := fun name hname ↦ by
    have hmem : name ∈ up := List.mem_reverse.1 hname
    refine hbase.isName_of_mem (hup ▸ List.mem_append_right shared hmem) ?_
    exact fun hdots ↦ hclimbs (hdots ▸ hmem)
  have hshared : IsNormal base.isAbsolute (shared.reverse.reverse ++ down) := by
    rw [List.reverse_reverse, habsolute, ← hdown]
    exact htarget
  rw [List.map_const', ← List.length_reverse, hup, List.reverse_append, List.foldl_append,
    foldl_advance_up_names hnames, foldl_advance_of_isNormal hshared, hdown,
    List.reverse_append]

end Location

/-! ### Their specifier -/

/-- Segments that say no more than they have to: they lead up and then down, and there is a dot in
front of them when they do not lead up. -/
structure ArePlain (segments : List String) : Prop where
  noEmptySegment : "" ∉ segments
  /-- Steps up stand in front of all other segments. -/
  climbsFirst : ∃ climbs rest, segments = List.replicate climbs ".." ++ rest ∧ ".." ∉ rest
  /-- A dot is the first segment if anything. -/
  dotFirst : "." ∉ segments.tail
  dot_iff : segments.head? = some "." ↔ ".." ∉ segments

/-- A specifier of plain segments, joined by slashes. -/
structure IsPlainSpec (spec : String) : Prop where
  isRelative : isRelativeImport spec
  noBackslash : '\\' ∉ spec.toList
  segments : ArePlain (Text.splitOn '/' spec)

/-- The segments as they stand in a specifier. -/
def specSegments (segments : List String) : List String :=
  if segments.head? = some ".." then segments else "." :: segments

variable {segments : List String}

/-- A relative specifier is its segments, joined by slashes. -/
theorem relativeSpec_eq (segments : List String) :
    relativeSpec segments = String.intercalate "/" (specSegments segments) := by
  unfold relativeSpec
  split
  · rfl
  · rfl
  · next hempty hclimbs =>
    have hhead : segments.head? ≠ some ".." := by
      intro hhead
      obtain ⟨rest, rfl⟩ := List.head?_eq_some_iff.1 hhead
      exact hclimbs rest rfl
    rw [specSegments, if_neg hhead]

theorem specSegments_ne_nil (segments : List String) : specSegments segments ≠ [] := by
  unfold specSegments
  split
  · next hhead => exact fun hnil ↦ by simp [hnil] at hhead
  · exact List.cons_ne_nil _ _

/-- The parts of a relative specifier are its segments. -/
theorem splitOn_relativeSpec (h : ∀ segment ∈ segments, '/' ∉ segment.toList) :
    Text.splitOn '/' (relativeSpec segments) = specSegments segments := by
  rw [relativeSpec_eq, Text.splitOn_intercalate rfl (specSegments_ne_nil segments)]
  unfold specSegments
  split
  · exact h
  · exact List.forall_mem_cons.2 ⟨by simp, h⟩

/-- No backslash comes into a relative specifier. -/
theorem not_mem_relativeSpec (h : ∀ segment ∈ segments, '\\' ∉ segment.toList) :
    '\\' ∉ (relativeSpec segments).toList := by
  have hspec : ∀ segment ∈ specSegments segments, '\\' ∉ segment.toList := by
    unfold specSegments
    split
    · exact h
    · exact List.forall_mem_cons.2 ⟨by simp, h⟩
  rw [relativeSpec_eq, String.toList_intercalate]
  intro hmem
  rcases @Text.mem_intercalate_singleton '/' _ _ hmem with heq | ⟨chars, hchars, hmem⟩
  · simp at heq
  · obtain ⟨segment, hsegment, rfl⟩ := List.mem_map.1 hchars
    exact hspec segment hsegment hmem

theorem isRelativeImport_intercalate {first : String} (hfirst : first = "." ∨ first = "..")
    (rest : List String) : isRelativeImport (String.intercalate "/" (first :: rest)) := by
  rcases hfirst with rfl | rfl <;> cases rest <;>
    simp [isRelativeImport, toList_slashed, String.toList_intercalate]

/-- A relative specifier is a relative import. -/
theorem isRelativeImport_relativeSpec (segments : List String) :
    isRelativeImport (relativeSpec segments) := by
  rw [relativeSpec_eq]
  unfold specSegments
  split
  · next hhead =>
    obtain ⟨rest, rfl⟩ := List.head?_eq_some_iff.1 hhead
    exact isRelativeImport_intercalate (.inr rfl) rest
  · exact isRelativeImport_intercalate (.inl rfl) segments

/-- In a specifier, steps up and then names say no more than they have to. -/
theorem arePlain_specSegments (h : Location.IsNormal false segments) :
    ArePlain (specSegments segments) := by
  have hnone {name : String} (hname : ¬IsName name) (hdots : name ≠ "..") : name ∉ segments :=
    fun hmem ↦ hname (h.isName_of_mem hmem hdots)
  have hempty : "" ∉ segments := hnone (by simp [IsName]) (by simp)
  have hdot : "." ∉ segments := hnone (by simp [IsName]) (by simp)
  obtain ⟨climbs, names, rfl, hnames, -⟩ := h
  have hdots : ".." ∉ names := fun hmem ↦ (hnames ".." hmem).2.2 rfl
  cases climbs with
  | zero =>
    -- Names alone: a dot goes in front of them.
    rw [List.replicate_zero, List.nil_append] at hempty hdot ⊢
    have hhead : names.head? ≠ some ".." := fun hhead ↦ hdots (List.mem_of_mem_head? hhead)
    rw [specSegments, if_neg hhead]
    constructor
    case noEmptySegment => simpa using hempty
    case climbsFirst => exact ⟨0, "." :: names, rfl, by simp [hdots]⟩
    case dotFirst => exact hdot
    case dot_iff => simp [hdots]
  | succ climbs =>
    rw [specSegments, if_pos (by simp [List.replicate_succ])]
    constructor
    case noEmptySegment => exact hempty
    case climbsFirst => exact ⟨climbs + 1, names, rfl, hdots⟩
    case dotFirst => exact fun hmem ↦ hdot (List.mem_of_mem_tail hmem)
    case dot_iff => simp [List.replicate_succ]

/-- Steps up and then names make a plain specifier. -/
theorem isPlainSpec_relativeSpec (hnormal : Location.IsNormal false segments)
    (h : ∀ segment ∈ segments, '/' ∉ segment.toList ∧ '\\' ∉ segment.toList) :
    IsPlainSpec (relativeSpec segments) where
  isRelative := isRelativeImport_relativeSpec segments
  noBackslash := not_mem_relativeSpec fun segment hsegment ↦ (h segment hsegment).2
  segments := by
    rw [splitOn_relativeSpec fun segment hsegment ↦ (h segment hsegment).1]
    exact arePlain_specSegments hnormal

/-! ### A schema file in the output directory -/

/-- The directory of the file is the given one, however the two paths are written. -/
def LiesIn (file directory : String) : Prop :=
  Location.ofPath (directoryPart (slashed file)) = Location.ofPath (slashed directory)

namespace Location

/-- The location of a path that starts where another location has led. -/
def readOn (location : Location) (path : String) : Location :=
  ⟨location.isAbsolute, ((Text.splitOn '/' path).foldl (advance location.isAbsolute)
    location.segments.reverse).reverse⟩

/-- A path behind a slash is read on from where the part up to the slash leads. -/
theorem ofPath_ofList_append (stem rest : List Char) :
    ofPath (String.ofList (stem ++ '/' :: rest)) =
      (ofPath (String.ofList (stem ++ ['/']))).readOn (String.ofList rest) := by
  have hhead : (stem ++ '/' :: rest).head? = (stem ++ ['/']).head? := by cases stem <;> rfl
  have hnothing : Text.splitOn '/' (String.ofList []) = [""] := rfl
  simp only [readOn, ofPath, String.toList_ofList, Text.splitOn_append_cons, hhead, hnothing,
    List.foldl_append, List.foldl_cons, List.foldl_nil, advance_skip (.inl rfl),
    List.reverse_reverse]

/-- A path behind a directory part is read on from where the directory part leads. -/
theorem ofPath_directoryPart_append (path : String) {rest : String}
    (h : rest.toList.head? ≠ some '/') :
    ofPath (directoryPart path ++ rest) = (ofPath (directoryPart path)).readOn rest := by
  rcases directoryPart_eq path with hnil | ⟨stem, hstem⟩
  · have hempty : directoryPart path = "" := String.toList_inj.1 hnil
    have hrelative : (rest.toList.head? == some '/') = false := beq_eq_false_iff_ne.2 h
    rw [hempty, String.empty_append, ofPath, hrelative]
    rfl
  · have happend : directoryPart path ++ rest = String.ofList (stem ++ '/' :: rest.toList) := by
      apply String.toList_inj.1
      simp [hstem]
    have hpart : directoryPart path = String.ofList (stem ++ ['/']) := by
      rw [← hstem, String.ofList_toList]
    rw [happend, ofPath_ofList_append, hpart, String.ofList_toList]

/-- A slash behind a path makes no difference. -/
theorem ofPath_append_slash {path : String} (h : path ≠ "") :
    ofPath (path ++ "/") = ofPath path := by
  have hhead : (path.toList ++ ['/']).head? = path.toList.head? :=
    List.head?_append_of_ne_nil _ fun hnil ↦ h (String.toList_inj.1 hnil)
  have happend : path ++ "/" = String.ofList (path.toList ++ ['/']) := by
    apply String.toList_inj.1
    simp
  have hnothing : Text.splitOn '/' (String.ofList []) = [""] := rfl
  simp only [happend, ofPath, String.toList_ofList, Text.splitOn_append_cons, hhead, hnothing,
    List.foldl_append, List.foldl_cons, List.foldl_nil, advance_skip (.inl rfl),
    String.ofList_toList]

/-- From the base, the specifier leads to the target. -/
theorem readOn_relativeSpec {base target : Location}
    (hbase : IsNormal base.isAbsolute base.segments)
    (htarget : IsNormal target.isAbsolute target.segments)
    (h : base.relativeTo? target = some segments)
    (hslash : ∀ segment ∈ segments, '/' ∉ segment.toList) :
    base.readOn (relativeSpec segments) = target := by
  have hdot (isAbsolute : Bool) (stack : List String) :
      (specSegments segments).foldl (advance isAbsolute) stack =
        segments.foldl (advance isAbsolute) stack := by
    unfold specSegments
    split
    · rfl
    · rw [List.foldl_cons, advance_skip (.inr rfl)]
  rw [readOn, splitOn_relativeSpec hslash, hdot, foldl_advance_relativeTo? hbase htarget h,
    List.reverse_reverse, (relativeTo?_eq_some h).1]

end Location

/-- A file whose path is the directory's and a name behind it lies in the directory. -/
theorem liesIn_append {directory name : String} (hdirectory : directory ≠ "")
    (hslash : '/' ∉ name.toList) (hbackslash : '\\' ∉ name.toList) :
    LiesIn (directory ++ "/" ++ name) directory := by
  rw [LiesIn, directoryPart_slashed_append hslash hbackslash,
    Location.ofPath_append_slash (mt slashed_eq_empty_iff.1 hdirectory)]

/-! ### Separators -/

/-- The texts differ at most in which of the two separators stand in them. -/
def SameButSeparators (first second : String) : Prop :=
  List.Forall₂ (fun c d ↦ c = d ∨ (c = '/' ∨ c = '\\') ∧ (d = '/' ∨ d = '\\'))
    first.toList second.toList

/-- Paths that differ in their separators alone are the same with slashes. -/
theorem slashed_eq_of_sameButSeparators {first second : String}
    (h : SameButSeparators first second) : slashed first = slashed second := by
  have hchars : List.Forall₂ (· = ·) (slashed first).toList (slashed second).toList := by
    rw [toList_slashed, toList_slashed, List.forall₂_map_left_iff, List.forall₂_map_right_iff]
    refine h.imp fun c d hsame ↦ ?_
    rcases hsame with rfl | ⟨rfl | rfl, rfl | rfl⟩ <;> rfl
  rw [List.forall₂_eq_eq_eq] at hchars
  exact String.toList_inj.1 hchars

/-- Rebasing reads the import and the paths with slashes in them. -/
theorem rebaseImport?_congr {spec schemaPath output otherSpec otherSchemaPath otherOutput : String}
    (hrelative : isRelativeImport spec) (hspec : slashed spec = slashed otherSpec)
    (hschemaPath : slashed schemaPath = slashed otherSchemaPath)
    (houtput : slashed output = slashed otherOutput) :
    rebaseImport? otherSpec otherSchemaPath otherOutput = rebaseImport? spec schemaPath output := by
  have hother : isRelativeImport otherSpec := by rwa [isRelativeImport, ← hspec]
  rw [rebaseImport?, rebaseImport?, if_pos hrelative, if_pos hother, hspec, hschemaPath, houtput]

/-! ### Rebased imports -/

/-- A rebased import is the specifier of the segments from the output to what is imported. -/
theorem rebaseImport?_eq_some {spec schemaPath output rebased : String}
    (hrelative : isRelativeImport spec) (h : rebaseImport? spec schemaPath output = some rebased) :
    ∃ target segments, Location.IsNormal target.isAbsolute target.segments ∧
      (Location.ofPath (slashed output)).relativeTo? target = some segments ∧
      (∀ segment ∈ segments, '/' ∉ segment.toList ∧ '\\' ∉ segment.toList) ∧
      rebased = relativeSpec segments := by
  rw [rebaseImport?, if_pos hrelative] at h
  obtain ⟨segments, hsegments, rfl⟩ := Option.map_eq_some_iff.1 h
  exact ⟨_, segments, Location.isNormal_ofPath _, hsegments,
    forall_mem_relativeTo?_import hsegments, rfl⟩

/-- A rebased import is a plain specifier. -/
theorem isPlainSpec_of_rebaseImport? {spec schemaPath output rebased : String}
    (hrelative : isRelativeImport spec) (h : rebaseImport? spec schemaPath output = some rebased) :
    IsPlainSpec rebased := by
  obtain ⟨target, segments, htarget, hsegments, hchars, rfl⟩ := rebaseImport?_eq_some hrelative h
  exact isPlainSpec_relativeSpec (Location.isNormal_relativeTo? htarget hsegments) hchars

/-- A rebased import stays as it is when it is rebased from a file in the output directory. -/
theorem rebaseImport?_of_liesIn {spec schemaPath output rebased file : String}
    (hrelative : isRelativeImport spec) (h : rebaseImport? spec schemaPath output = some rebased)
    (hfile : LiesIn file output) : rebaseImport? rebased file output = some rebased := by
  obtain ⟨target, segments, htarget, hsegments, hchars, rfl⟩ := rebaseImport?_eq_some hrelative h
  have hrebased := isRelativeImport_relativeSpec segments
  have hspec : slashed (relativeSpec segments) = relativeSpec segments :=
    slashed_of_not_mem (not_mem_relativeSpec fun segment hsegment ↦ (hchars segment hsegment).2)
  have hhead : (relativeSpec segments).toList.head? ≠ some '/' := by
    rw [← hspec]
    simp [head?_slashed_of_isRelativeImport hrebased]
  have hagain := Location.readOn_relativeSpec (Location.isNormal_ofPath _) htarget hsegments
    fun segment hsegment ↦ (hchars segment hsegment).1
  rw [rebaseImport?, if_pos hrebased, hspec, Location.ofPath_directoryPart_append _ hhead, hfile,
    hagain]
  exact congrArg (Option.map relativeSpec) hsegments

/-- A rebased import is plain, it stays as it is when it is rebased once more onto the output from a
schema file in the output directory, and it does not depend on the separators in the import and the
paths. -/
theorem rebaseImport?_settles {spec schemaPath output rebased : String}
    (hrelative : isRelativeImport spec) (h : rebaseImport? spec schemaPath output = some rebased) :
    IsPlainSpec rebased ∧
      (∀ file, LiesIn file output → rebaseImport? rebased file output = some rebased) ∧
      ∀ otherSpec otherSchemaPath otherOutput, SameButSeparators spec otherSpec →
        SameButSeparators schemaPath otherSchemaPath → SameButSeparators output otherOutput →
          rebaseImport? otherSpec otherSchemaPath otherOutput = some rebased := by
  refine ⟨isPlainSpec_of_rebaseImport? hrelative h,
    fun file hfile ↦ rebaseImport?_of_liesIn hrelative h hfile, ?_⟩
  intro otherSpec otherSchemaPath otherOutput hspec hschemaPath houtput
  rw [rebaseImport?_congr hrelative (slashed_eq_of_sameButSeparators hspec)
    (slashed_eq_of_sameButSeparators hschemaPath) (slashed_eq_of_sameButSeparators houtput), h]

/-- The import of a library beside the output. -/
theorem rebaseImport?_settles_library :
    isRelativeImport "..\\src/lib/db" ∧
      rebaseImport? "..\\src/lib/db" "prisma/schema.prisma" "src/generated" = some "../lib/db" ∧
      LiesIn "src/generated/schema.prisma" "src/generated" ∧
      IsPlainSpec "../lib/db" ∧
      rebaseImport? "../lib/db" "src/generated/schema.prisma" "src/generated" =
        some "../lib/db" ∧
      SameButSeparators "prisma/schema.prisma" "prisma\\schema.prisma" ∧
      rebaseImport? "..\\src/lib/db" "prisma\\schema.prisma" "src/generated" =
        some "../lib/db" := by
  have hrelative : isRelativeImport "..\\src/lib/db" := by decide +kernel
  have h : rebaseImport? "..\\src/lib/db" "prisma/schema.prisma" "src/generated" =
      some "../lib/db" := by decide +kernel
  have hfile : LiesIn "src/generated/schema.prisma" "src/generated" :=
    @liesIn_append "src/generated" "schema.prisma" (by simp) (by simp) (by simp)
  have hsame (path : String) : SameButSeparators path path :=
    List.forall₂_same.2 fun _ _ ↦ .inl rfl
  have hpath : SameButSeparators "prisma/schema.prisma" "prisma\\schema.prisma" := by
    simp [SameButSeparators]
  obtain ⟨hplain, hagain, hseparators⟩ := rebaseImport?_settles hrelative h
  exact ⟨hrelative, h, hfile, hplain, hagain _ hfile, hpath,
    hseparators _ _ _ (hsame _) hpath (hsame _)⟩

end SchemaPlan
