import Gamebook.Text
set_option autoImplicit false

/-!
# Paths

A path is a root and names.  Empty names and single dots say nothing and are left
out; a double dot is kept, because what it means depends on what is on the disk.
-/

namespace Gamebook

/-- A path: `root` is empty, one slash or two. -/
structure Path where
  root : Text
  names : List Text
  deriving DecidableEq, Repr, Inhabited

namespace Path

/-- The parts of a text between its slashes. -/
def parts : Text → List Text
  | [] => [[]]
  | c :: rest =>
    if c = '/' then [] :: parts rest
    else
      match parts rest with
      | [] => [[c]]
      | part :: more => (c :: part) :: more

/-- The root of a written path: exactly two slashes at the start are a root of
their own. -/
def rootOf (s : Text) : Text :=
  match (s.takeWhile (· = '/')).length with
  | 0 => []
  | 2 => ['/', '/']
  | _ => ['/']

/-- The path that a text writes. -/
def ofText (s : Text) : Path :=
  ⟨rootOf s, (parts s).filter fun name => name ≠ [] && name ≠ ['.']⟩

/-- A path as it is written; the path without root and names is a dot. -/
def toText (p : Path) : Text :=
  if p.root = [] ∧ p.names = [] then ['.'] else p.root ++ ['/'].intercalate p.names

/-- The path starts at the root of the disk. -/
def isAbsolute (p : Path) : Bool := p.root ≠ []

/-- The path that is reached from the end of another one. -/
def join (base p : Path) : Path :=
  if p.isAbsolute then p else { base with names := base.names ++ p.names }

/-- The path without its last name. -/
def parent (p : Path) : Path := { p with names := p.names.dropLast }

end Path

end Gamebook
