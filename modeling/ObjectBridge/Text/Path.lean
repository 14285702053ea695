/-!
# Directory paths

Two directory paths are the same place when they have the same parts: repeated and trailing
slashes do not count, and neither does a single dot, except at the start of a relative path.
-/

namespace ObjectBridge
namespace Text

/-- A path as its parts, with whether it starts at the root. -/
structure PathParts where
  /-- Whether the path starts with a slash. -/
  rooted : Bool
  /-- The names between the slashes. -/
  names : List String
  deriving DecidableEq, Repr

/-- Cut a list of characters at every slash. -/
def splitAtSlashes (chars : List Char) : List (List Char) :=
  match chars with
  | [] => [[]]
  | c :: rest =>
    match splitAtSlashes rest with
    | [] => [[c]]
    | first :: others => if c = '/' then [] :: first :: others else (c :: first) :: others

/-- The parts of a path. -/
def pathParts (path : String) : PathParts :=
  let pieces := splitAtSlashes path.toList
  let counts (piece : List Char) : Bool := piece ≠ [] && piece ≠ ['.']
  let names :=
    match pieces with
    | ['.'] :: rest => ['.'] :: rest.filter counts
    | other => other.filter counts
  { rooted := path.toList.head? = some '/'
    names := names.map String.ofList }

/-- Whether two paths name the same place. -/
def samePath (a b : String) : Bool :=
  pathParts a = pathParts b

end Text
end ObjectBridge
