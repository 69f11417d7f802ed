import ChainReplay.Text.Basic

/-! File paths in normal form: no empty parts and no parts that stand for the directory itself. Two
leading slashes, and only two, are kept apart from one. -/

namespace ChainReplay

inductive Path.Root where
  | relative
  | slash
  | doubleSlash
  deriving DecidableEq

structure Path where
  root : Path.Root
  parts : List Text
  deriving DecidableEq

namespace Path

def Root.text : Root → Text
  | .relative => ""
  | .slash => "/"
  | .doubleSlash => "//"

def Root.ofText (t : Text) : Root :=
  match (t.takeWhile (· = .ofChar '/')).length with
  | 0 => .relative
  | 2 => .doubleSlash
  | _ => .slash

def ofText (t : Text) : Path :=
  ⟨Root.ofText t, (t.splitAll '/').filter fun part => !part.isEmpty && part ≠ "."⟩

def text (p : Path) : Text :=
  if p.root = .relative && p.parts.isEmpty then "." else p.root.text ++ Text.join "/" p.parts

instance : Coe String Path := ⟨fun s => ofText s⟩

def join (p q : Path) : Path :=
  if q.root = .relative then ⟨p.root, p.parts ++ q.parts⟩ else q

instance : Div Path := ⟨join⟩

def name (p : Path) : Text := p.parts.getLastD []

def parent (p : Path) : Path := ⟨p.root, p.parts.dropLast⟩

def stem (p : Path) : Text :=
  let extension := (p.name.reverse.takeWhile (· != .ofChar '.')).length
  let stemLength := p.name.length - extension - 1
  if extension = p.name.length || extension = 0 || stemLength = 0 then p.name
  else p.name.take stemLength

end Path

end ChainReplay
