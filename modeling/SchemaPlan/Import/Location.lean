import SchemaPlan.Text.Cut

/-!
# Locations

A path read without looking at any file: separators are slashes or backslashes, empty segments and
`.` say nothing, and `..` undoes the segment in front of it. What is left is a run of `..`, empty in
an absolute path, and then names. `relativeTo?` gives the segments that lead from one directory to
another.
-/

set_option autoImplicit false
set_option relaxedAutoImplicit false

namespace SchemaPlan

/-- The text with a slash for every backslash. -/
def slashed (path : String) : String :=
  String.ofList (path.toList.map fun c ↦ if c = '\\' then '/' else c)

/-- A directory or file: the segments from the root, or from wherever the path starts. -/
structure Location where
  isAbsolute : Bool
  segments : List String
deriving DecidableEq

namespace Location

/-- Goes one segment further; the segments are held innermost first. Above the root there is only
the root. -/
def advance (isAbsolute : Bool) (stack : List String) (segment : String) : List String :=
  if segment = "" ∨ segment = "." then stack
  else if segment = ".." then
    match stack with
    | [] => if isAbsolute then [] else [".."]
    | top :: below =>
      if top ≠ ".." then below
      else if isAbsolute then top :: below
      else ".." :: top :: below
  else segment :: stack

/-- The location of a path with slashes. -/
def ofPath (path : String) : Location :=
  let isAbsolute := path.toList.head? == some '/'
  ⟨isAbsolute, ((Text.splitOn '/' path).foldl (advance isAbsolute) []).reverse⟩

/-- What is left of two lists behind their longest common start. -/
def afterShared : List String → List String → List String × List String
  | first :: firsts, second :: seconds =>
    if first = second then afterShared firsts seconds else (first :: firsts, second :: seconds)
  | firsts, seconds => (firsts, seconds)

/-- The segments that lead from `base` to `target`. There are none when only one of the two is
absolute, nor when they would have to climb out of a `..`, into a directory whose name is not
known. -/
def relativeTo? (base target : Location) : Option (List String) :=
  if base.isAbsolute ≠ target.isAbsolute then none
  else
    let (up, down) := afterShared base.segments target.segments
    if ".." ∈ up then none else some (up.map (fun _ ↦ "..") ++ down)

end Location

end SchemaPlan
