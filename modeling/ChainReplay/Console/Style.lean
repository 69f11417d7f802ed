import ChainReplay.Console.Color
import ChainReplay.Table

/-! Styles of shown text: attributes, colors and a link, as words. Styles that say the same in other
words have one normal form. -/

namespace ChainReplay

structure Style where
  attributes : Table Text Bool
  color : Option Text
  background : Option Text
  link : Option Text

namespace Style

def plain : Style := ⟨[], none, none, none⟩

def attributeNames : List Text :=
  ["bold", "dim", "italic", "underline", "blink", "blink2", "reverse", "conceal", "strike",
    "underline2", "frame", "encircle", "overline"]

def shortNames : Table Text Text :=
  [("b", "bold"), ("d", "dim"), ("i", "italic"), ("u", "underline"), ("r", "reverse"),
    ("c", "conceal"), ("s", "strike"), ("uu", "underline2"), ("o", "overline")]

def attribute? (word : Text) : Option Text :=
  if attributeNames.contains word then some word else shortNames.find? word

def setAttribute (s : Style) (name : Text) (on : Bool) : Style :=
  { s with attributes := Table.insert name on s.attributes }

def addWords (s : Style) : List Text → Except StyleError Style
  | [] => .ok s
  | word :: rest =>
    let word := word.toLower
    if word = "on" || word = "not" || word = "link" then
      match rest with
      | [] => .error .unknown
      | operand :: rest =>
        if word = "on" then do
          addWords { s with background := some (← Color.parse operand) } rest
        else if word = "link" then addWords { s with link := some operand } rest
        else match attribute? operand with
          | some name => addWords (s.setAttribute name false) rest
          | none => .error .unknown
    else match attribute? word with
      | some name => addWords (s.setAttribute name true) rest
      | none => do addWords { s with color := some (← Color.parse word) } rest

def parse (t : Text) : Except StyleError Style :=
  if t.strip = "none" then .ok plain else addWords plain t.words

def text (s : Style) : Text :=
  let attributes := attributeNames.filterMap fun name =>
    (s.attributes.find? name).map fun on => if on then name else "not " ++ name
  let mark (word : Text) (operand : Option Text) : List Text :=
    operand.toList.map fun t => word ++ t
  let words := attributes ++ mark [] s.color ++ mark "on " s.background ++ mark "link " s.link
  if words.isEmpty then "none" else Text.join " " words

def normalForm (t : Text) : Except StyleError Text :=
  match parse t with
  | .ok s => .ok s.text
  | .error .unknown => .ok t.strip.toLower
  | .error .badPart => .error .badPart

end Style

end ChainReplay
