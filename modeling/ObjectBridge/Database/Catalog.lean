import ObjectBridge.Failure
import ObjectBridge.Text.Path

/-!
# Namespaces and their versions

The catalog lists the versions of each namespace.  A public version can be loaded from anywhere, a
private one only from its own directory; of several candidates the first declared one is taken.
-/

namespace ObjectBridge

/-- One version of a namespace. -/
structure Edition where
  /-- The namespace. -/
  name : String
  /-- The version. -/
  version : String
  /-- The only directory from which a private version can be loaded. -/
  directory : Option String := none
  /-- Whether the version was only assumed because an entry was created in the namespace. -/
  assumed : Bool := false
  /-- Whether the version has been loaded. -/
  loaded : Bool := false
  deriving DecidableEq, Repr

/-- The declared versions of all namespaces, in the order of declaration. -/
abbrev Catalog := List Edition

namespace Catalog

/-- The version of a namespace that no declaration names. -/
def assumedVersion : String := "1.0"

/-- Assume a version of a namespace that has none. -/
def assume (c : Catalog) (name : String) : Catalog :=
  if c.any fun e => e.name = name then c
  else c ++ [{ name := name, version := assumedVersion, assumed := true }]

/-- Give the first assumed version of a namespace a declared version; nothing if there is none. -/
def settle? (name version : String) : Catalog → Option Catalog
  | [] => none
  | e :: rest =>
    if e.name = name && e.assumed then
      some ({ e with version := version, assumed := false } :: rest)
    else (settle? name version rest).map (e :: ·)

/-- Declare a public version of a namespace.  It takes the place of an assumed version, and a
version that is declared already is not declared again. -/
def declare (c : Catalog) (name version : String) : Catalog :=
  match settle? name version c with
  | some settled => settled
  | none =>
    if c.any fun e => e.name = name && e.version = version then c
    else c ++ [{ name := name, version := version }]

/-- Declare a private version of a namespace. -/
def declarePrivate (c : Catalog) (directory name version : String) : Catalog :=
  c ++ [{ name := name, version := version, directory := some directory }]

/-- Whether a version answers a request for a name, possibly a version and possibly a directory. -/
def answers (name : String) (version directory : Option String) (e : Edition) : Bool :=
  e.name = name
    && (match version with
        | some v => e.version = v
        | none => true)
    && (match e.directory, directory with
        | some own, some given => Text.samePath own given
        | some _, none => false
        | none, _ => true)

/-- Mark the first version that answers a request as loaded, and give that version. -/
def load? (name : String) (version directory : Option String) :
    Catalog → Option (String × Catalog)
  | [] => none
  | e :: rest =>
    if answers name version directory e then some (e.version, { e with loaded := true } :: rest)
    else (load? name version directory rest).map fun found => (found.1, e :: found.2)

/-- The failure of a request that no version answers. -/
def notFound (name : String) (version : Option String) : RuntimeFailure :=
  let wanted :=
    match version with
    | some v => "version " ++ v
    | none => "any version"
  .library ("Typelib file for namespace '" ++ name ++ "' (" ++ wanted ++ ") not found")

/-- Whether a namespace is loaded, in a version if one is given. -/
def isLoaded (c : Catalog) (name : String) (version : Option String) : Bool :=
  c.any fun e => e.loaded && e.name = name &&
    (match version with
     | some v => e.version = v
     | none => true)

/-- The loaded version of a namespace. -/
def loadedVersion? (c : Catalog) (name : String) : Option String :=
  (c.find? fun e => e.loaded && e.name = name).map Edition.version

/-- The public versions of a namespace. -/
def publicVersions (c : Catalog) (name : String) : List String :=
  (c.filter fun e => e.name = name && e.directory = none).map Edition.version

/-- The names of the loaded namespaces, once for each loaded version, in order. -/
def loadedNames (c : Catalog) : List String :=
  ((c.filter Edition.loaded).map Edition.name).mergeSort fun a b => a ≤ b

end Catalog

end ObjectBridge
