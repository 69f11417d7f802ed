import ChainReplay.Json.Basic

/-! Writing JSON texts in ASCII: on one line with blanks behind the separators, or indented. -/

namespace ChainReplay.Json

def unitEscape (n : Nat) : Text := "\\u" ++ Text.padded 16 4 n

def escapeOne (c : CodePoint) : Text :=
  match c.val with
  | 0x22 => "\\\""
  | 0x5C => "\\\\"
  | 0x0A => "\\n"
  | 0x0D => "\\r"
  | 0x09 => "\\t"
  | 0x0C => "\\f"
  | 0x08 => "\\b"
  | n =>
    if 0x20 ≤ n && n < 0x7F then [c]
    else if n < 0x10000 then unitEscape n
    else unitEscape (0xD800 + (n - 0x10000) / 1024) ++ unitEscape (0xDC00 + (n - 0x10000) % 1024)

def printText (t : Text) : Text := "\"" ++ t.flatMap escapeOne ++ "\""

def printReal : Binary64 → Text
  | .nan => "NaN"
  | .infinite negative => if negative then "-Infinity" else "Infinity"
  | x => x.text

def printScalar : Json → Text
  | bool b => if b then "true" else "false"
  | int n => Text.ofInt n
  | real x => printReal x
  | text t => printText t
  | _ => "null"

mutual

def compact : Json → Text
  | array items => "[" ++ Text.join ", " (compactItems items) ++ "]"
  | object members => "\x7b" ++ Text.join ", " (compactMembers members) ++ "\x7d"
  | j => printScalar j

def compactItems : List Json → List Text
  | [] => []
  | item :: rest => compact item :: compactItems rest

def compactMembers : List (Text × Json) → List Text
  | [] => []
  | (name, value) :: rest => (printText name ++ ": " ++ compact value) :: compactMembers rest

end

def newline (indent : Nat) : Text := "\n" ++ Text.ofChars (List.replicate indent ' ')

def block (indent : Nat) (opening closing : Text) : List Text → Text
  | [] => opening ++ closing
  | parts =>
    opening ++ newline (indent + 2) ++ Text.join ("," ++ newline (indent + 2)) parts
      ++ newline indent ++ closing

mutual

def indented (indent : Nat) : Json → Text
  | array items => block indent "[" "]" (indentedItems (indent + 2) items)
  | object members => block indent "\x7b" "\x7d" (indentedMembers (indent + 2) members)
  | j => printScalar j

def indentedItems (indent : Nat) : List Json → List Text
  | [] => []
  | item :: rest => indented indent item :: indentedItems indent rest

def indentedMembers (indent : Nat) : List (Text × Json) → List Text
  | [] => []
  | (name, value) :: rest =>
    (printText name ++ ": " ++ indented indent value) :: indentedMembers indent rest

end

end ChainReplay.Json
