import SchemaPlan.Proofs.Import.NormalForm
import SchemaPlan.Proofs.Import.Rebasing

/-!
# Locations written as paths

A location is written with a slash in front if it is absolute and slashes between its segments. In
normal form it is what its own path is read as (`ofPath_render`), since no segment undoes another
and none holds a slash. A path may therefore be read early: its location is in normal form, reading
that once more changes nothing, and from every directory it leads where the path itself leads
(`ofPath_settles`).
-/

set_option autoImplicit false
set_option relaxedAutoImplicit false

namespace SchemaPlan.Location

/-- The path of a location. -/
def render (location : Location) : String :=
  (if location.isAbsolute then "/" else "") ++ String.intercalate "/" location.segments

/-! ### The path of a location in normal form -/

variable {location : Location}

/-- Segments in normal form are read back from the text that joins them. -/
theorem foldl_advance_splitOn_intercalate {isAbsolute : Bool} {segments : List String}
    (hnormal : IsNormal isAbsolute segments)
    (hslash : ∀ segment ∈ segments, '/' ∉ segment.toList) :
    (Text.splitOn '/' (String.intercalate "/" segments)).foldl (advance isAbsolute) [] =
      segments.reverse := by
  by_cases hnil : segments = []
  · -- Nothing is read as one empty segment, which is passed over.
    subst hnil
    rfl
  · rw [Text.splitOn_intercalate rfl hnil hslash,
      foldl_advance_of_isNormal (by simpa using hnormal), List.append_nil]

theorem splitOn_slash_append (text : String) :
    Text.splitOn '/' ("/" ++ text) = "" :: Text.splitOn '/' text := by
  have happend : "/" ++ text = String.ofList ([] ++ '/' :: text.toList) := by
    apply String.toList_inj.1
    simp
  rw [happend, Text.splitOn_append_cons, String.ofList_toList]
  rfl

/-- A location in normal form comes back when its path is read. -/
theorem ofPath_render (hnormal : IsNormal location.isAbsolute location.segments)
    (hslash : ∀ segment ∈ location.segments, '/' ∉ segment.toList) :
    ofPath location.render = location := by
  obtain ⟨isAbsolute, segments⟩ := location
  have hread := foldl_advance_splitOn_intercalate hnormal hslash
  cases isAbsolute with
  | true =>
    simp only [ofPath, render, if_true, splitOn_slash_append, List.foldl_cons]
    simp [hread, advance_skip]
  | false =>
    have hrelative : ((String.intercalate "/" segments).toList.head? == some '/') = false := by
      rw [beq_eq_false_iff_ne]
      cases segments with
      | nil => simp
      | cons first rest =>
        have hfirst : first ≠ "" := fun hempty ↦
          (hnormal.isName_of_mem List.mem_cons_self (by simp [hempty])).1 hempty
        exact Text.head?_intercalate_ne hfirst (hslash first List.mem_cons_self) rest
    simp only [ofPath, render, Bool.false_eq_true, if_false, String.empty_append, hrelative, hread,
      List.reverse_reverse]

/-! ### Reading early -/

theorem isAbsolute_ofPath_iff {path : String} :
    (ofPath path).isAbsolute ↔ path.toList.head? = some '/' := beq_iff_eq

theorem not_mem_of_mem_segments_ofPath {path segment : String}
    (h : segment ∈ (ofPath path).segments) : '/' ∉ segment.toList := by
  rcases mem_segments_ofPath h with rfl | hpart
  · simp
  · exact (Text.not_mem_of_mem_splitOn hpart).1

/-- The location of a path is in normal form: steps up and then names, and names alone if the path
starts at the root. It is read from its own path again, and it leads from a directory where the
segments of the path lead one after another; a path that starts at the root is followed from
there. -/
theorem ofPath_settles (path : String) :
    ((ofPath path).isAbsolute ↔ path.toList.head? = some '/') ∧
      IsNormal (ofPath path).isAbsolute (ofPath path).segments ∧
      ofPath (ofPath path).render = ofPath path ∧
      ∀ directory : Directory, (path.toList.head? = some '/' → directory = []) →
        directory.follow (Text.splitOn '/' path) = directory.follow (ofPath path).segments := by
  have hnormal := isNormal_ofPath path
  have hrendered := ofPath_render hnormal fun _ ↦ not_mem_of_mem_segments_ofPath
  refine ⟨isAbsolute_ofPath_iff, hnormal, hrendered, fun directory hroot ↦ ?_⟩
  have hstart : (ofPath path).isAbsolute → directory = [] := fun habsolute ↦
    hroot (isAbsolute_ofPath_iff.1 habsolute)
  exact (Directory.follow_foldl_advance (List.forall_mem_nil _) hstart _).symm

/-- A path that climbs out of the directory it starts from, on its way and above the root. -/
theorem ofPath_settles_climbing :
    ofPath "lib/.././../..//src/./db/" = ⟨false, ["..", "..", "src", "db"]⟩ ∧
      IsNormal false ["..", "..", "src", "db"] ∧
      (⟨false, ["..", "..", "src", "db"]⟩ : Location).render = "../../src/db" ∧
      ofPath "../../src/db" = ⟨false, ["..", "..", "src", "db"]⟩ ∧
      Directory.follow ["prisma"] (Text.splitOn '/' "lib/.././../..//src/./db/") =
        Directory.follow ["prisma"] ["..", "..", "src", "db"] := by
  have hread : ofPath "lib/.././../..//src/./db/" = ⟨false, ["..", "..", "src", "db"]⟩ := by
    decide +kernel
  have hrender : (⟨false, ["..", "..", "src", "db"]⟩ : Location).render = "../../src/db" := by
    decide +kernel
  obtain ⟨-, hnormal, hagain, hfollow⟩ := ofPath_settles "lib/.././../..//src/./db/"
  rw [hread] at hnormal hagain hfollow
  rw [hrender] at hagain
  exact ⟨hread, hnormal, hrender, hagain, hfollow ["prisma"] (by decide)⟩

end SchemaPlan.Location
