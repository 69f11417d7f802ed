import ChainReplay.Failure.Basic
import ChainReplay.Text.Utf8

/-! A file system as seen from a working directory. What a name leads to depends on the directories
that it goes through: one has to exist before the next part, or a step back, can follow. -/

namespace ChainReplay

/-- Keys are the parts of a path seen from the working directory, without steps back other than
those in front. The key of an absolute path begins with a slash. -/
structure Disk where
  files : Table (List Text) Bytes
  directories : List (List Text)

/-- Work on a disk that may fail; what was done before a failure stays done. -/
abbrev Filing := ExceptT Failure (StateM Disk)

namespace Disk

inductive Kind where
  | file
  | directory
  deriving DecidableEq

def empty : Disk := ⟨[], []⟩

def root : List Text := [Text.ofString "/"]

def isAncestor (key : List Text) : Bool := key.all (· = "..")

/-- The directories above the working directory exist, and so does the root. -/
def isDirectoryKey (d : Disk) (key : List Text) : Bool :=
  isAncestor key || key = root || d.directories.contains key

def isFileKey (d : Disk) (key : List Text) : Bool := d.files.contains key

def above (key : List Text) : List Text :=
  if isAncestor key then key ++ [Text.ofString ".."]
  else if key = root then root
  else key.dropLast

def isByte (c : CodePoint) : Bool := 0xDC80 ≤ c.val && c.val < 0xDD00

def size (t : Text) : Nat :=
  (t.flatMap fun c => if isByte c then [0] else Utf8.encodeOne c).length

def longestName : Nat := 255

def longestPath : Nat := 4095

def check (t : Text) : Except Failure Unit := do
  let writable := t.takeWhile fun c => !c.isSurrogate || isByte c
  match t.drop writable.length with
  | [] => pure ()
  | c :: _ => throw (.unencodable ⟨writable.length, [c]⟩)
  if t.any (·.val = 0) then throw .wrongValue
  if longestPath < size t then throw (.access .nameTooLong)

/-- Follows the parts of a path, each of them out of a directory that exists. -/
def follow (d : Disk) : List Text → List Text → Except Failure (List Text)
  | key, [] => .ok key
  | key, part :: parts =>
    if !d.isDirectoryKey key then
      .error (.access (if d.isFileKey key then .notDirectory else .missing))
    else if part = ".." then follow d (above key) parts
    else if longestName < size part then .error (.access .nameTooLong)
    else follow d (key ++ [part]) parts

def key (d : Disk) (p : Path) : Except Failure (List Text) := do
  check p.text
  d.follow (if p.root = .relative then [] else root) p.parts

def kind (d : Disk) (p : Path) : Except Failure Kind := do
  let key ← d.key p
  if d.isFileKey key then return .file
  if d.isDirectoryKey key then return .directory
  throw (.access .missing)

def endsAsDirectory (t : Text) : Bool :=
  match (t.splitAll '/').getLast? with
  | none => true
  | some part => part.isEmpty || part = "."

def kindOfName (d : Disk) (t : Text) : Except Failure (Option Kind) :=
  match check t *> d.kind (Path.ofText t) with
  | .ok .file => .ok (if endsAsDirectory t then none else some .file)
  | .ok .directory => .ok (some .directory)
  | .error (.access _) => .ok none
  | .error f => .error f

/-- Whether something of that kind stands at a path. A path that is none leads nowhere, but of a
name that is too long nothing can be said. -/
def leadsTo (d : Disk) (p : Path) (wanted : Kind → Bool) : Except Failure Bool :=
  match d.kind p with
  | .ok found => .ok (wanted found)
  | .error (.access .nameTooLong) => .error (.access .nameTooLong)
  | .error _ => .ok false

def present (d : Disk) (p : Path) : Except Failure Bool := d.leadsTo p fun _ => true

def read (d : Disk) (p : Path) : Except Failure Bytes := do
  let key ← d.key p
  match d.files.find? key with
  | some content => return content
  | none => throw (.access (if d.isDirectoryKey key then .isDirectory else .missing))

def readOr (d : Disk) (p : Path) (unusable : Failure) : Except Failure Bytes :=
  (d.read p).mapError fun
    | .access _ => unusable
    | f => f

def plainLines : List Char → List Char
  | '\r' :: '\n' :: rest => '\n' :: plainLines rest
  | '\r' :: rest => '\n' :: plainLines rest
  | c :: rest => c :: plainLines rest
  | [] => []

def textOf (content : Bytes) : Except Failure (List Char) :=
  match (Utf8.decode? content).bind Text.chars? with
  | some cs => .ok (plainLines cs)
  | none => .error .undecodable

def ownFiles (d : Disk) : List Path :=
  let isOwn (key : List Text) : Bool := !isAncestor (key.take 1) && key.take 1 ≠ root
  (d.files.keys.filter isOwn).map fun key => ⟨.relative, key⟩

end Disk

namespace Filing

open Disk

def lift {α : Type} (f : Disk → Except Failure α) : Filing α := do liftM (f (← get))

def makeOne (p : Path) : Filing Unit := do
  let key ← lift (·.key p)
  let d ← get
  if d.isFileKey key || d.isDirectoryKey key then throw (.access .taken)
  set { d with directories := d.directories ++ [key] }

def ensureOne (p : Path) : Filing Unit :=
  tryCatch (makeOne p) fun
    | .access .missing => throw (.access .missing)
    | .access e => do
      if !(← lift (·.leadsTo p (· = .directory))) then throw (.access e)
    | f => throw f

def ensureWithin (root : Path.Root) : List Text → Filing Unit
  | [] => ensureOne ⟨root, []⟩
  | part :: parts =>
    let p : Path := ⟨root, (part :: parts).reverse⟩
    tryCatch (ensureOne p) fun
      | .access .missing => do
        ensureWithin root parts
        ensureOne p
      | f => throw f

def makeDirectory (p : Path) : Filing Unit := ensureWithin p.root p.parts.reverse

def write (p : Path) (content : Bytes) : Filing Unit := do
  let key ← lift (·.key p)
  let d ← get
  if d.isDirectoryKey key then throw (.access .isDirectory)
  set { d with files := Table.insert key content d.files }

def remove (p : Path) : Filing Unit := do
  let _ ← lift (·.read p)
  let key ← lift (·.key p)
  modify fun d => { d with files := d.files.erase key }

end Filing

end ChainReplay
