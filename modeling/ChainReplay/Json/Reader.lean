import ChainReplay.Failure.Basic
import ChainReplay.Json.Scalar

/-! Reading JSON texts. `readPrefix` takes one value from the front of a character sequence and
returns the rest; it looks at no more than it needs, so a number at the end of the sequence may turn
out longer once more characters follow. Arrays and objects may be nested up to a limit. -/

namespace ChainReplay.Json

mutual

/-- Reads a value in which arrays and objects may be nested `depth` deep. -/
def readValue : Nat → Nat → List Char → Except ReadError (Json × List Char)
  | 0, _, _ => .error .malformed
  | n + 1, depth, cs =>
    match cs with
    | '"' :: rest =>
      match readText rest with
      | none => .error .malformed
      | some (t, rest) => .ok (.text t, rest)
    | '[' :: rest =>
      match depth, skipSpace rest with
      | 0, _ => .error .tooDeep
      | _, ']' :: rest => .ok (.array [], rest)
      | depth + 1, rest => readItems n depth [] rest
    | '\x7b' :: rest =>
      match depth, skipSpace rest with
      | 0, _ => .error .tooDeep
      | _, '\x7d' :: rest => .ok (.object [], rest)
      | depth + 1, rest => readMembers n depth [] rest
    | 'n' :: 'u' :: 'l' :: 'l' :: rest => .ok (.null, rest)
    | 't' :: 'r' :: 'u' :: 'e' :: rest => .ok (.bool true, rest)
    | 'f' :: 'a' :: 'l' :: 's' :: 'e' :: rest => .ok (.bool false, rest)
    | cs => readNumber cs

/-- Continues an array at an item; `items` holds those before it, last one first. -/
def readItems : Nat → Nat → List Json → List Char → Except ReadError (Json × List Char)
  | 0, _, _, _ => .error .malformed
  | n + 1, depth, items, cs =>
    match readValue n depth cs with
    | .error e => .error e
    | .ok (item, rest) =>
      match skipSpace rest with
      | ',' :: rest => readItems n depth (item :: items) (skipSpace rest)
      | ']' :: rest => .ok (.array (item :: items).reverse, rest)
      | _ => .error .malformed

/-- Continues an object at a name. The last value of a name counts, at the place of the first. -/
def readMembers : Nat → Nat → List (Text × Json) → List Char → Except ReadError (Json × List Char)
  | 0, _, _, _ => .error .malformed
  | n + 1, depth, members, cs =>
    match cs with
    | '"' :: rest =>
      match readText rest with
      | none => .error .malformed
      | some (name, rest) =>
        match skipSpace rest with
        | ':' :: rest =>
          match readValue n depth (skipSpace rest) with
          | .error e => .error e
          | .ok (value, rest) =>
            let members := Table.insert name value members
            match skipSpace rest with
            | ',' :: rest => readMembers n depth members (skipSpace rest)
            | '\x7d' :: rest => .ok (.object members, rest)
            | _ => .error .malformed
        | _ => .error .malformed
    | _ => .error .malformed

end

def deepest : Nat := 988

/-- An array or an object takes two steps for a character that opens it, so the steps do not run out
before the characters do. -/
def readPrefix (cs : List Char) : Except ReadError (Json × List Char) :=
  readValue (2 * cs.length + 1) deepest cs

def parse (cs : List Char) : Except ReadError Json := do
  let (j, rest) ← readPrefix (skipSpace cs)
  if (skipSpace rest).isEmpty then return j else throw .malformed

def parse? (cs : List Char) : Option Json := (parse cs).toOption

def ReadError.failure (malformed : Failure) : ReadError → Failure
  | .malformed => malformed
  | .longNumber => .wrongValue
  | .tooDeep => .tooDeep

end ChainReplay.Json
