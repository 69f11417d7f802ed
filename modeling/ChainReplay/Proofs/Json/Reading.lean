import Mathlib.Tactic.Lemma
import ChainReplay.Json.Reader

/-! The reader of documents, step by step: a value is a scalar, or it opens an array or an object,
whose entries are then read one after the other in the same way. -/

namespace ChainReplay.Json

/-- An array or an object of which some entries have been read. -/
inductive Opened where
  | array (items : List Json)
  | object (members : List (Text × Json))

/-- What stands behind blanks and one character. -/
def behind (c : Char) (cs : List Char) : Option (List Char) :=
  match skipSpace cs with
  | d :: rest => if d = c then some rest else none
  | [] => none

def name? (cs : List Char) : Option (Text × List Char) :=
  (behind '"' cs).bind fun rest =>
    (readText rest).bind fun (name, rest) => (behind ':' rest).map fun rest => (name, rest)

namespace Opened

def closing : Opened → Char
  | array _ => ']'
  | object _ => '\x7d'

def value : Opened → Json
  | array items => .array items.reverse
  | object members => .object members

/-- Reads what stands in front of an entry's value, and tells how the value is added. -/
def front? : Opened → List Char → Option ((Json → Opened) × List Char)
  | array items, cs => some (fun item => array (item :: items), cs)
  | object members, cs =>
    (name? cs).map fun (name, rest) => (fun value => object (Table.insert name value members), rest)

end Opened

def opening : List Char → Option (Opened × List Char)
  | '[' :: rest => some (.array [], rest)
  | '\x7b' :: rest => some (.object [], rest)
  | _ => none

def readScalar : List Char → Except ReadError (Json × List Char)
  | '"' :: rest =>
    match readText rest with
    | none => .error .malformed
    | some (t, rest) => .ok (.text t, rest)
  | 'n' :: 'u' :: 'l' :: 'l' :: rest => .ok (.null, rest)
  | 't' :: 'r' :: 'u' :: 'e' :: rest => .ok (.bool true, rest)
  | 'f' :: 'a' :: 'l' :: 's' :: 'e' :: rest => .ok (.bool false, rest)
  | cs => readNumber cs

/-- The number of the digits in front of the point, those behind it and the exponent. -/
def magnitude (negative : Bool) (whole fraction : List Char) (exponent : Option Int) :
    Except ReadError Json :=
  if fraction.isEmpty && exponent.isNone then
    if Numeral.mostDigits < whole.length then .error .longNumber
    else .ok (.int (if negative then -(digitsValue whole : Int) else digitsValue whole))
  else
    .ok (.real (.ofDecimal negative (digitsValue (whole ++ fraction))
      (exponent.getD 0 - fraction.length)))

def readRest (n depth : Nat) (k : Opened) (cs : List Char) : Except ReadError (Json × List Char) :=
  match k with
  | .array items => readItems n depth items (skipSpace cs)
  | .object members => readMembers n depth members (skipSpace cs)

lemma behind_eq_some_iff (c : Char) (cs rest : List Char) :
    behind c cs = some rest ↔ skipSpace cs = c :: rest := by
  rw [behind]
  cases skipSpace cs with
  | nil => simp
  | cons d ds => by_cases h : d = c <;> simp [h]

lemma behind_eq_none_iff (c : Char) (cs : List Char) :
    behind c cs = none ↔ ∀ rest, skipSpace cs ≠ c :: rest := by
  rw [behind]
  cases skipSpace cs with
  | nil => simp
  | cons d ds => by_cases h : d = c <;> simp [h]

lemma opening_eq_none {cs : List Char} (harray : ∀ rest, cs ≠ '[' :: rest)
    (hobject : ∀ rest, cs ≠ '\x7b' :: rest) : opening cs = none := by
  rw [opening.eq_def]
  split
  case h_1 rest => exact absurd rfl (harray rest)
  case h_2 rest => exact absurd rfl (hobject rest)
  case h_3 => rfl

lemma readMagnitude_none {cs : List Char} (hwhole : readWhole cs = none) (negative : Bool) :
    readMagnitude negative cs = .error .malformed := by
  rw [readMagnitude, hwhole]
  rfl

lemma readMagnitude_some {cs whole fraction afterWhole afterFraction rest : List Char}
    {exponent : Option Int} (hwhole : readWhole cs = some (whole, afterWhole))
    (hfraction : readFraction afterWhole = (fraction, afterFraction))
    (hexponent : readExponent afterFraction = (exponent, rest)) (negative : Bool) :
    readMagnitude negative cs = (magnitude negative whole fraction exponent).map (·, rest) := by
  simp only [readMagnitude, hwhole, hfraction, hexponent, magnitude]
  cases fraction.isEmpty && exponent.isNone
  case false => rfl
  case true =>
    by_cases hlength : Numeral.mostDigits < whole.length
    case pos =>
      simp only [if_pos hlength]
      rfl
    case neg =>
      simp only [if_neg hlength]
      rfl

lemma readValue_succ (n depth : Nat) (cs : List Char) :
    readValue (n + 1) depth cs =
      match opening cs with
      | none => readScalar cs
      | some (k, rest) =>
        match depth with
        | 0 => .error .tooDeep
        | depth + 1 =>
          match behind k.closing rest with
          | some rest => .ok (k.value, rest)
          | none => readRest n depth k rest := by
  rw [readValue.eq_def]
  dsimp only
  split
  case h_1 rest => rfl
  case h_2 rest =>
    cases depth with
    | zero => rfl
    | succ depth =>
      simp only [opening, Opened.closing, behind, readRest]
      cases skipSpace rest with
      | nil => rfl
      | cons c cs => by_cases h : c = ']' <;> simp [h, Opened.value]
  case h_3 rest =>
    cases depth with
    | zero => rfl
    | succ depth =>
      simp only [opening, Opened.closing, behind, readRest]
      cases skipSpace rest with
      | nil => rfl
      | cons c cs => by_cases h : c = '\x7d' <;> simp [h, Opened.value]
  case h_4 => rfl
  case h_5 => rfl
  case h_6 => rfl
  case h_7 harray hobject _ _ _ =>
    rw [opening_eq_none harray hobject, readScalar] <;> assumption

lemma readRest_succ (n depth : Nat) (k : Opened) (cs : List Char) :
    readRest (n + 1) depth k cs =
      match k.front? cs with
      | none => .error .malformed
      | some (add, rest) =>
        match readValue n depth (skipSpace rest) with
        | .error e => .error e
        | .ok (v, rest) =>
          match behind ',' rest with
          | some rest => readRest n depth (add v) rest
          | none =>
            match behind k.closing rest with
            | some rest => .ok ((add v).value, rest)
            | none => .error .malformed := by
  -- The two readers share no code, and are taken apart to the same cases.
  cases k with
  | array items =>
    simp only [readRest, readItems, Opened.front?]
    cases readValue n depth (skipSpace cs) with
    | error e => rfl
    | ok p =>
      obtain ⟨v, rest⟩ := p
      simp only [behind]
      cases skipSpace rest with
      | nil => rfl
      | cons c cs =>
        by_cases hcomma : c = ','
        · simp [hcomma]
        by_cases hclose : c = ']' <;> simp [hcomma, hclose, Opened.closing, Opened.value]
  | object members =>
    simp only [readRest, Opened.front?, name?, behind]
    rw [readMembers.eq_def]
    cases skipSpace cs with
    | nil => rfl
    | cons c cs =>
      by_cases hquote : c = '"'
      case neg => simp [hquote]
      subst hquote
      simp only [if_true, Option.bind_some]
      cases readText cs with
      | none => rfl
      | some p =>
        obtain ⟨name, rest⟩ := p
        simp only [Option.bind_some]
        cases skipSpace rest with
        | nil => rfl
        | cons c cs =>
          by_cases hcolon : c = ':'
          case neg => simp [hcolon]
          subst hcolon
          simp only [if_true, Option.map_some]
          cases readValue n depth (skipSpace cs) with
          | error e => rfl
          | ok p =>
            obtain ⟨v, rest⟩ := p
            dsimp only
            cases skipSpace rest with
            | nil => rfl
            | cons c cs =>
              by_cases hcomma : c = ','
              · simp [hcomma]
              by_cases hclose : c = '\x7d' <;>
                simp [hcomma, hclose, Opened.closing, Opened.value]

end ChainReplay.Json
