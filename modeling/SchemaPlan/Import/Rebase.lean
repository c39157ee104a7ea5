import SchemaPlan.Import.Location

/-!
# Import specifiers

Generated code imports its data client by a specifier. A relative one is written from the directory
of the schema file and has to be rebased onto the output directory; any other is left alone.
-/

set_option autoImplicit false
set_option relaxedAutoImplicit false

namespace SchemaPlan

/-- The specifier when none is configured. -/
def defaultImport : String := "@prisma/client"

/-- Whether a specifier is relative: `.`, `..`, or one of them and a separator in front. -/
def isRelativeImport (spec : String) : Bool :=
  match (slashed spec).toList with
  | ['.'] | ['.', '.'] => true
  | '.' :: '/' :: _ | '.' :: '.' :: '/' :: _ => true
  | _ => false

/-- The part of a path up to its last slash. -/
def directoryPart (path : String) : String :=
  String.ofList (path.toList.reverse.dropWhile (· != '/')).reverse

/-- The relative specifier with the segments. One that does not climb starts with a dot. -/
def relativeSpec (segments : List String) : String :=
  match segments with
  | [] => "."
  | ".." :: _ => String.intercalate "/" segments
  | _ => String.intercalate "/" ("." :: segments)

/-- The specifier that means from `output` what `spec` means from the directory of the schema file.
There is none when the answer depends on the working directory. -/
def rebaseImport? (spec schemaPath output : String) : Option String :=
  if isRelativeImport spec then
    let target := Location.ofPath (directoryPart (slashed schemaPath) ++ slashed spec)
    ((Location.ofPath (slashed output)).relativeTo? target).map relativeSpec
  else some spec

end SchemaPlan
