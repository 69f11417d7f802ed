import ChainReplay.Console.Literal
import ChainReplay.Console.Style
import ChainReplay.Failure.Basic

/-! Text with markup: tags in square brackets open and close styles. A backslash in front of a tag
makes it plain text. Tags may stay open, but one that closes needs one to be closed. -/

namespace ChainReplay

structure Tag where
  name : Text
  parameters : Option Text
  deriving DecidableEq

namespace Markup

inductive Piece where
  | plain (t : Text)
  | tag (t : Tag)

def beginsTag (c : CodePoint) : Bool :=
  (0x61 ≤ c.val && c.val ≤ 0x7A) || c = .ofChar '#' || c = .ofChar '/' || c = .ofChar '@'

def bracketed? : Text → Option (Text × Text)
  | opening :: c :: rest =>
    if opening ≠ .ofChar '[' || !beginsTag c then none
    else
      let body := rest.takeWhile fun x => x != .ofChar ']' && x != .ofChar '['
      match rest.drop body.length with
      | closing :: rest => if closing = .ofChar ']' then some (c :: body, rest) else none
      | [] => none
  | _ => none

def backslash : CodePoint := .ofChar '\\'

/-- Two backslashes in front of a tag stand for one; one that is left over makes the tag plain. A
backslash in front of any other opening bracket is left out. -/
def piecesWithin : Nat → Text → List Piece
  | 0, _ | _, [] => []
  | n + 1, c :: rest =>
    let slashes := ((c :: rest).takeWhile (· = backslash)).length
    match bracketed? ((c :: rest).drop slashes) with
    | some (body, rest) =>
      let kept : Text := List.replicate (slashes / 2) backslash
      if slashes % 2 = 1 then .plain (kept ++ "[" ++ body ++ "]") :: piecesWithin n rest
      else
        let (name, parameters) := body.splitFirst '='
        .plain kept :: .tag ⟨name, parameters⟩ :: piecesWithin n rest
    | none =>
      if c = backslash && rest.head? = some (.ofChar '[') then
        .plain "[" :: piecesWithin n (rest.drop 1)
      else .plain [c] :: piecesWithin n rest

def pieces (t : Text) : List Piece := piecesWithin t.length t

def isHandlerChar (c : CodePoint) : Bool :=
  0x80 ≤ c.val || c = .ofChar '.' || c = .ofChar '_' || (Char.ofNat c.val).isAlphanum

def handlerValue (parameters : Text) : Text :=
  match parameters.dropWhile isHandlerChar with
  | [] => "()"
  | rest =>
    if rest.head? = some (.ofChar '(') && rest.getLast? = some (.ofChar ')')
      && !rest.contains (.ofChar '\n') then rest
    else parameters

/-- Tags that begin with this mark name handlers, whose parameters have to be literal values. -/
def checkHandler (t : Tag) : Except MarkupError Unit :=
  match t.parameters with
  | none | some [] => .ok ()
  | some parameters =>
    let value := handlerValue parameters.strip
    if t.name.head? = some (.ofChar '@') && !Literal.isLiteral value then
      .error (.badParameters parameters)
    else .ok ()

def normalName (name : Text) : Except MarkupError Text :=
  (Style.normalForm name).mapError fun _ => .badColor

def close (name : Text) : List Tag → Option (Tag × List Tag)
  | [] => none
  | t :: ts =>
    if t.name = name then some (t, ts)
    else (close name ts).map fun (found, ts) => (found, t :: ts)

def followClosing (opened : List Tag) (tagName : Text) : Except MarkupError (List Tag) :=
  match Text.strip (tagName.drop 1), opened with
  | [], [] => .error .nothingToClose
  | [], t :: ts => (checkHandler t).map fun _ => ts
  | name, opened => do
    match close (← normalName name) opened with
    | none => throw (.unmatched tagName)
    | some (t, ts) => (checkHandler t).map fun _ => ts

def follow (opened : List Tag) (t : Tag) : Except MarkupError (List Tag) := do
  if t.name.head? = some (.ofChar '/') then followClosing opened t.name
  else
    let name ← normalName t.name
    match t.parameters with
    | none => let _ ← normalName name
    | some parameters => let _ ← normalName (name ++ " " ++ parameters)
    return ⟨name, t.parameters⟩ :: opened

def renderFrom (opened : List Tag) : List Piece → Except MarkupError Text
  | [] => .ok []
  | .plain t :: rest => (renderFrom opened rest).map (t ++ ·)
  | .tag t :: rest => do renderFrom (← follow opened t) rest

def render (t : Text) : Except MarkupError Text := renderFrom [] (pieces t)

end Markup

end ChainReplay
