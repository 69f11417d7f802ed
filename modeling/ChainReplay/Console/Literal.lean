import ChainReplay.Bytes.Basic
import ChainReplay.Text.Numeral

/-! Literal values: numbers, texts, the constants, and tuples, sets and tables of them. Only whether
a text is one matters here. -/

namespace ChainReplay.Literal

inductive Token where
  | number (imaginary : Bool)
  | text (bytes : Bool)
  | word (name : List Char)
  | mark (c : Char)
  | dots
  deriving DecidableEq

def isWordChar (c : Char) : Bool := c.isAlphanum || c = '_' || 0x80 ≤ c.toNat

/-- Goes on behind a row of digits, which single low lines may part; `open_` tells whether the last
character was a digit. -/
def skipDigitsFrom (isDigit : Char → Bool) (open_ : Bool) : List Char → Option (List Char)
  | [] => if open_ then some [] else none
  | c :: rest =>
    if isDigit c then skipDigitsFrom isDigit true rest
    else if c = '_' && open_ then skipDigitsFrom isDigit false rest
    else if open_ then some (c :: rest)
    else none

def skipDigits (isDigit : Char → Bool) (cs : List Char) : Option (List Char) :=
  skipDigitsFrom isDigit false cs

def isOneOf (s : String) (c : Char) : Bool := s.toList.contains c

def digitsOf? (letter : Char) : Option (Char → Bool) :=
  match letter.toLower with
  | 'x' => some fun c => (Bytes.hexValue? c).isSome
  | 'o' => some (isOneOf "01234567")
  | 'b' => some (isOneOf "01")
  | _ => none

def skipExponent : List Char → Option (List Char)
  | c :: rest =>
    if c = 'e' || c = 'E' then
      match rest with
      | '+' :: rest | '-' :: rest => skipDigits Char.isDigit rest
      | rest => skipDigits Char.isDigit rest
    else some (c :: rest)
  | [] => some []

def skipWhole (cs : List Char) : Option (List Char) :=
  if cs.head? = some '.' then some cs else skipDigits Char.isDigit cs

def skipFraction : List Char → Option (List Char)
  | '.' :: c :: rest => if c.isDigit then skipDigits Char.isDigit (c :: rest) else some (c :: rest)
  | '.' :: [] => some []
  | cs => some cs

/-- Only zero may begin with a zero, and the number of digits of any other is limited. -/
def isWholeNumber (cs : List Char) : Bool :=
  let digits := cs.filter (· != '_')
  digits.all (· = '0') || (digits.head? ≠ some '0' && digits.length ≤ Numeral.mostDigits)

def decimal (cs : List Char) : Option (Token × List Char) := do
  let afterWhole ← skipWhole cs
  let rest ← skipExponent (← skipFraction afterWhole)
  match rest with
  | 'j' :: rest | 'J' :: rest => return (.number true, rest)
  | rest =>
    let whole := cs.take (cs.length - rest.length)
    if rest.length = afterWhole.length && !isWholeNumber whole then none
    else return (.number false, rest)

def number (cs : List Char) : Option (Token × List Char) := do
  let found ← match cs with
    | '0' :: letter :: rest =>
      match digitsOf? letter with
      | some isDigit =>
        let rest := if rest.head? = some '_' then rest.drop 1 else rest
        (skipDigits isDigit rest).map (Token.number false, ·)
      | none => decimal cs
    | cs => decimal cs
  if found.2.head?.any isWordChar then none else some found

def escapeWidth (bytes : Bool) : Char → Nat
  | 'x' => 2
  | 'u' => if bytes then 0 else 4
  | 'U' => if bytes then 0 else 8
  | _ => 0

def isEscape (bytes : Bool) : List Char → Bool
  | [] => false
  | c :: rest =>
    let digits := rest.take (escapeWidth bytes c)
    let value := (digits.mapM Bytes.hexValue?).map (·.foldl (fun n d => n * 16 + d) 0)
    digits.length = escapeWidth bytes c && value.any (· < 0x110000) && (bytes || c ≠ 'N')

/-- Goes on behind the closing quotes. A text in single quotes ends on its line. -/
def skipText (raw bytes : Bool) (close : List Char) : List Char → Option (List Char)
  | [] => none
  | '\\' :: c :: rest =>
    if raw || isEscape bytes (c :: rest) then skipText raw bytes close rest else none
  | c :: rest =>
    if (c :: rest).take close.length = close then some ((c :: rest).drop close.length)
    else if (c = '\n' && close.length = 1) || (bytes && 0x80 ≤ c.toNat) then none
    else skipText raw bytes close rest

/-- The letters in front of the quotes say whether escapes count and whether it is bytes. -/
def quoted (marks : List Char) (cs : List Char) : Option (Token × List Char) :=
  let marks := marks.map Char.toLower
  let raw := marks.contains 'r'
  let bytes := marks.contains 'b'
  let known := marks.all (isOneOf "rb") && marks.eraseDups.length = marks.length || marks = ['u']
  match cs with
  | q :: rest =>
    if !known then none
    else if rest.take 2 = [q, q] then
      (skipText raw bytes [q, q, q] (rest.drop 2)).map (Token.text bytes, ·)
    else (skipText raw bytes [q] rest).map (Token.text bytes, ·)
  | [] => none

def token : List Char → Option (Token × List Char)
  | [] => none
  | '.' :: '.' :: '.' :: rest => some (.dots, rest)
  | c :: rest =>
    if isOneOf "()\x7b\x7d,:+-" c then some (.mark c, rest)
    else if c = '"' || c = '\'' then quoted [] (c :: rest)
    else if c.isDigit || (c = '.' && rest.head?.any Char.isDigit) then number (c :: rest)
    else if isWordChar c then
      let word := (c :: rest).takeWhile isWordChar
      let rest := (c :: rest).drop word.length
      if rest.head? = some '"' || rest.head? = some '\'' then quoted word rest
      else some (.word word, rest)
    else none

/-- All tokens; `open_` brackets are open. A line may end inside of brackets or behind a backslash.
-/
def tokens : Nat → Nat → List Char → Option (List Token)
  | 0, _, _ => none
  | _ + 1, _, [] => some []
  | n + 1, open_, '\\' :: '\n' :: rest => tokens n open_ rest
  | n + 1, open_, c :: rest =>
    if isOneOf " \t\x0c" c || (isOneOf "\r\n" c && 0 < open_) then tokens n open_ rest
    else if c = '#' then tokens n open_ (rest.dropWhile (· != '\n'))
    else do
      let (t, rest) ← token (c :: rest)
      let open_ := if t = .mark '(' || t = .mark '\x7b' then open_ + 1
        else if t = .mark ')' || t = .mark '\x7d' then open_ - 1
        else open_
      return t :: (← tokens n open_ rest)

/-- What may become of a value: a number may be given a sign once, and a sum of a real and an
imaginary number is complex; a set or a table may not be in a set or the key of a table. -/
inductive Shape where
  | number (imaginary signed : Bool)
  | fixed
  | changeable
  deriving DecidableEq

def isFixed (s : Shape) : Bool := s ≠ .changeable

def tupleOf (shapes : List Shape) (comma : Bool) : Shape :=
  match shapes, comma with
  | [s], false => s
  | shapes, _ => if shapes.all isFixed then .fixed else .changeable

mutual

def atom : Nat → List Token → Option (Shape × List Token)
  | 0, _ => none
  | n + 1, ts =>
    match ts with
    | .number imaginary :: ts => some (.number imaginary false, ts)
    | .text bytes :: ts =>
      match ts.dropWhile (· = .text bytes) with
      | .text _ :: _ => none
      | ts => some (.fixed, ts)
    | .dots :: ts => some (.fixed, ts)
    | .word w :: .mark '(' :: .mark ')' :: ts =>
      if w = "set".toList then some (.changeable, ts) else none
    | .word w :: ts =>
      if w = "True".toList || w = "False".toList || w = "None".toList then some (.fixed, ts)
      else none
    | .mark '(' :: .mark ')' :: ts => some (.fixed, ts)
    | .mark '(' :: ts => do
      let (shapes, comma, ts) ← sequence n ts
      match ts with
      | .mark ')' :: ts => some (tupleOf shapes comma, ts)
      | _ => none
    | .mark '\x7b' :: .mark '\x7d' :: ts => some (.changeable, ts)
    | .mark '\x7b' :: ts => do
      let (first, rest) ← value n ts
      if !isFixed first then none
      match rest with
      | .mark ':' :: _ => (entries n ts).map (Shape.changeable, ·)
      | _ =>
        let (shapes, _, ts) ← sequence n ts
        match ts with
        | .mark '\x7d' :: ts => if shapes.all isFixed then some (.changeable, ts) else none
        | _ => none
    | _ => none

def signed : Nat → List Token → Option (Shape × List Token)
  | 0, _ => none
  | n + 1, .mark c :: ts =>
    if c = '+' || c = '-' then do
      match ← atom n ts with
      | (.number imaginary false, ts) => some (.number imaginary true, ts)
      | _ => none
    else atom n (.mark c :: ts)
  | n + 1, ts => atom n ts

def value : Nat → List Token → Option (Shape × List Token)
  | 0, _ => none
  | n + 1, ts => do
    let (left, ts) ← signed n ts
    match left, ts with
    | .number false _, .mark c :: rest =>
      if c = '+' || c = '-' then
        match ← signed n rest with
        | (.number true false, ts) => some (.fixed, ts)
        | _ => none
      else some (left, ts)
    | _, _ => some (left, ts)

/-- Values with commas between them, perhaps one at the end; whether there was a comma. -/
def sequence : Nat → List Token → Option (List Shape × Bool × List Token)
  | 0, _ => none
  | n + 1, ts => do
    let (first, ts) ← value n ts
    match ts with
    | .mark ',' :: rest =>
      match rest with
      | [] | .mark ')' :: _ | .mark '\x7d' :: _ => some ([first], true, rest)
      | rest =>
        let (shapes, _, ts) ← sequence n rest
        some (first :: shapes, true, ts)
    | ts => some ([first], false, ts)

def entries : Nat → List Token → Option (List Token)
  | 0, _ => none
  | n + 1, ts => do
    match ← value n ts with
    | (key, .mark ':' :: ts) =>
      if !isFixed key then none
      match ← value n ts with
      | (_, .mark ',' :: .mark '\x7d' :: ts) | (_, .mark '\x7d' :: ts) => some ts
      | (_, .mark ',' :: ts) => entries n ts
      | _ => none
    | _ => none

end

def isLiteral (t : Text) : Bool :=
  match t.chars? with
  | none => false
  | some cs =>
    match tokens (cs.length + 1) 0 (cs.dropWhile (isOneOf " \t")) with
    | none => false
    | some ts => ((sequence (4 * ts.length + 4) ts).map fun found => found.2.2.isEmpty).getD false

end ChainReplay.Literal
