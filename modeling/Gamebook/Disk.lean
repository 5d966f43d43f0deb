import Gamebook.Fault
set_option autoImplicit false

/-!
# Disks

A disk maps locations to files and directories.  A location is absolute and free
of dots; two paths lead to the same file exactly if they lead to the same
location, since there are no links.

The disk keeps names as bytes and takes any bytes for a name.  Names are texts here,
so that a byte which is not part of a character needs one that stands for it.
-/

namespace Gamebook

/-- A place on the disk: the names from the innermost one out to the root. -/
abbrev Location := List Text

/-- What is at a location. -/
inductive Node where
  | file (bytes : ByteArray)
  | directory

/-- A file, and not a directory. -/
def Node.isFile : Node → Bool
  | .file _ => true
  | .directory => false

/-- The characters that stand for the stray bytes of names, from 0x80 on: 128 characters
for private use, of which none is meant by itself anywhere.  They have no encoding, so
that no file holds them. -/
structure Strays where
  base : Nat
  private_use : 0x100000 ≤ base
  fits : base + 0x80 ≤ 0x110000
  deriving DecidableEq

namespace Strays

/-- The character stands for a byte. -/
def stands (s : Strays) (c : Char) : Bool := s.base ≤ c.toNat && c.toNat < s.base + 0x80

/-- The byte that a character stands for. -/
def byte (s : Strays) (c : Char) : Nat := 0x80 + (c.toNat - s.base)

end Strays

/-- Files and directories with their locations.  Of several entries for one
location the first counts; the root needs no entry. -/
structure Disk where
  entries : List (Location × Node)
  /-- The characters for stray bytes, if there are such bytes in names. -/
  strays? : Option Strays := none

namespace Disk

/-- What is at a location. -/
def node? (d : Disk) (l : Location) : Option Node :=
  match d.entries.find? (·.1 = l) with
  | some (_, node) => some node
  | none => if l = [] then some .directory else none

/-- The bytes of the file at a location. -/
def file? (d : Disk) (l : Location) : Option ByteArray :=
  match d.node? l with
  | some (.file bytes) => some bytes
  | _ => none

/-- The entries with something else, or something new, at a location. -/
def putIn (l : Location) (node : Node) : List (Location × Node) → List (Location × Node)
  | [] => [(l, node)]
  | e :: rest => if e.1 = l then (l, node) :: rest else e :: putIn l node rest

/-- The disk with something else, or something new, at a location. -/
def put (d : Disk) (l : Location) (node : Node) : Disk :=
  { d with entries := putIn l node d.entries }

/-! ## Stray bytes -/

/-- The character stands for a stray byte. -/
def isStray (d : Disk) (c : Char) : Bool := d.strays?.any (·.stands c)

/-- The first characters of a text that stand for stray bytes, up to the next one that
does not. -/
def unencodable? (d : Disk) (s : Text) : Option Unencodable :=
  match d.strays?, s.dropWhile fun c => !d.isStray c with
  | some strays, c :: rest =>
    some ⟨(s.takeWhile fun c => !d.isStray c).length, strays.byte c,
      (c :: rest.takeWhile d.isStray).length⟩
  | _, _ => none

/-! ## Names -/

/-- The name of the directory around a directory. -/
def up : Text := ['.', '.']

/-- How many bytes a text takes on the disk. -/
def byteSize (d : Disk) : Text → Nat
  | [] => 0
  | c :: rest => (if d.isStray c then 1 else c.utf8Size) + byteSize d rest

/-- A name that no directory can hold. -/
def isTooLong (d : Disk) (name : Text) : Bool := 255 < d.byteSize name

/-- The location that names lead to when nothing is looked up. -/
def follow (start : Location) : List Text → Location
  | [] => start
  | name :: rest => follow (if name = up then start.tail else name :: start) rest

/-- The locations that are met on the way, the start and the end included. -/
def trail (start : Location) : List Text → List Location
  | [] => [start]
  | name :: rest => start :: trail (if name = up then start.tail else name :: start) rest

/-- The location that names lead to.  Every name is looked up in a directory; what
the last one leads to need not exist. -/
def walk (d : Disk) (start : Location) : List Text → Except DiskError Location
  | [] => .ok start
  | name :: rest =>
    match d.node? start with
    | none => .error .notFound
    | some (.file _) => .error .notDirectory
    | some .directory =>
      if name = up then walk d start.tail rest
      else if d.isTooLong name then .error .nameTooLong
      else walk d (name :: start) rest

/-- A walk that succeeds ends where its names lead. -/
theorem eq_follow_of_walk {d : Disk} {start l : Location} {names : List Text}
    (h : d.walk start names = .ok l) : l = follow start names := by
  induction names generalizing start with
  | nil => simpa [walk, follow] using h.symm
  | cons name rest ih =>
    simp only [walk] at h
    split at h
    · simp at h
    · simp at h
    · split at h
      · rename_i hup
        simpa [follow, hup] using ih h
      · rename_i hup
        split at h
        · simp at h
        · simpa [follow, hup] using ih h

end Disk

end Gamebook
