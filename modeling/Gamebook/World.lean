import Gamebook.Disk
import Gamebook.Path
set_option autoImplicit false

/-!
# The world around the program

The program meets a disk, stands in a directory of it, and knows whose homes are
where.  Everything it does with files goes through the operations of this module,
which take paths and either answer or say why the disk refuses.
-/

namespace Gamebook

/-! ## Texts in files -/

/-- The text that bytes encode, unless they encode none. -/
def Text.ofBytes? (bytes : ByteArray) : Option Text := (String.fromUTF8? bytes).map String.toList

/-- The bytes that encode a text. -/
def Text.toBytes (s : Text) : ByteArray := (String.ofList s).toUTF8

theorem Text.ofBytes?_toBytes (s : Text) : Text.ofBytes? s.toBytes = some s := by
  have hvalid : s.toBytes.IsValidUTF8 := (String.ofList s).isValidUTF8
  rw [Text.ofBytes?, String.fromUTF8?, dif_pos hvalid]
  show some (String.ofList s).toList = some s
  rw [String.toList_ofList]

/-! ## The world -/

/-- What the program finds around it. -/
structure World where
  disk : Disk
  /-- The directory in which paths without a root start. -/
  here : Location
  /-- The home of the reader. -/
  home : Path
  /-- The homes of others, by name. -/
  homes : List (Text × Path)
  /-- The directory with the stories that come with the program. -/
  library : Path
  /-- How far the reader wants to debug, if at all. -/
  debug? : Option Text

namespace World

/-- Where a path starts. -/
def start (w : World) (p : Path) : Location := if p.isAbsolute then [] else w.here

/-- The location that a path leads to, whatever is there.  It is what makes two
paths the same. -/
def resolve (w : World) (p : Path) : Except DiskError Location :=
  if p.toText.contains '\x00' then .error .embeddedNull
  else .ok (Disk.follow (w.start p) p.names)

/-- The longest path that the disk takes has one byte less than this. -/
def pathLimit : Nat := 4096

/-- The location that a path leads to through existing directories. -/
def locate (w : World) (p : Path) : Except DiskError Location :=
  if p.toText.contains '\x00' then .error .embeddedNull
  else if pathLimit ≤ w.disk.byteSize p.toText then .error .nameTooLong
  else w.disk.walk (w.start p) p.names

/-- What is at a path. -/
def node (w : World) (p : Path) : Except DiskError Node :=
  match w.locate p with
  | .error e => .error e
  | .ok l =>
    match w.disk.node? l with
    | some node => .ok node
    | none => .error .notFound

/-- The answer to a question about what is at a path, when a path that leads
nowhere is an answer too. -/
def ask (w : World) (p : Path) (question : Node → Bool) : Except DiskError Bool :=
  match w.node p with
  | .ok node => .ok (question node)
  | .error .nameTooLong => .error .nameTooLong
  | .error _ => .ok false

/-- Something is at the path. -/
def exists? (w : World) (p : Path) : Except DiskError Bool := w.ask p fun _ => true

/-- A file is at the path. -/
def isFile (w : World) (p : Path) : Except DiskError Bool := w.ask p Node.isFile

/-! ## Reading and writing -/

/-- The bytes of the file at a path. -/
def readBytes (w : World) (p : Path) : Except DiskError ByteArray :=
  match w.node p with
  | .error e => .error e
  | .ok .directory => .error .isDirectory
  | .ok (.file bytes) => .ok bytes

/-- The world with these bytes in the file at a path. -/
def writeBytes (w : World) (p : Path) (bytes : ByteArray) : Except DiskError World :=
  match w.locate p with
  | .error e => .error e
  | .ok l =>
    match w.disk.node? l with
    | some .directory => .error .isDirectory
    | _ => .ok { w with disk := w.disk.put l (.file bytes) }

/-- The world with a new directory at a path. -/
def makeDirectory (w : World) (p : Path) : Except DiskError World :=
  match w.locate p with
  | .error e => .error e
  | .ok l =>
    match w.disk.node? l with
    | some _ => .error .exists
    | none => .ok { w with disk := w.disk.put l .directory }

/-- A second chance for a directory that could not be made: it may be there. -/
def settle (w : World) (p : Path) (e : DiskError) : Except Fault Unit :=
  match e, w.node p with
  | .exists, .ok .directory => .ok ()
  | _, _ => .error (.disk e p.toText)

/-- A directory at the path with the root and, from the last to the first, the
names; the directories around it are made first where they are missing, and stay
when a later one cannot be made. -/
def ensureNames (w : World) (root : Text) : List Text → Except Fault Unit × World
  | [] =>
    let p : Path := ⟨root, []⟩
    match w.makeDirectory p with
    | .ok w => (.ok (), w)
    | .error e => (w.settle p e, w)
  | name :: around =>
    let p : Path := ⟨root, (name :: around).reverse⟩
    match w.makeDirectory p with
    | .ok w => (.ok (), w)
    | .error .notFound =>
      match w.ensureNames root around with
      | (.error e, w) => (.error e, w)
      | (.ok (), w) =>
        match w.makeDirectory p with
        | .ok w => (.ok (), w)
        | .error e => (w.settle p e, w)
    | .error e => (w.settle p e, w)

/-- A directory at a path, made if it is missing. -/
def ensureDirectory (w : World) (p : Path) : Except Fault Unit × World :=
  w.ensureNames p.root p.names.reverse

/-! ## Homes and stories -/

/-- The home of somebody, where the empty name stands for the reader. -/
def homeOf (w : World) (name : Text) : Except Fault Path :=
  if name.contains '\x00' then .error (.disk .embeddedNull ('~' :: name))
  else if name = [] then .ok w.home
  else
    match w.homes.lookup name with
    | some home => .ok home
    | none => .error .unknownHome

/-- The path in which a tilde at the start, with or without a name, is replaced by
the home that it stands for. -/
def expandHome (w : World) (p : Path) : Except Fault Path :=
  match p.root, p.names with
  | [], ('~' :: name) :: rest =>
    match w.homeOf name with
    | .error e => .error e
    | .ok home => .ok { home with names := home.names ++ rest }
  | _, _ => .ok p

/-- The path of a story that somebody names: where the name leads if something is
there, else the story of that name in a directory of stories if there is one, else
the name as it is. -/
def storyPath (w : World) (library : Path) (name : Text) : Except Fault Text :=
  match w.expandHome (.ofText name) with
  | .error e => .error e
  | .ok named =>
    match w.exists? named with
    | .error e => .error (.disk e named.toText)
    | .ok true => .ok named.toText
    | .ok false =>
      let kept := library.join (.ofText name)
      match w.isFile kept with
      | .error e => .error (.disk e kept.toText)
      | .ok true => .ok kept.toText
      | .ok false => .ok name

end World

end Gamebook
