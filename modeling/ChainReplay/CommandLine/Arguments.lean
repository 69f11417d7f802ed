import ChainReplay.Text.Basic

/-! The arguments of a command: options with their values, and words. Options have a long name,
which may be joined to its value by an equals sign, and perhaps a letter, which may be followed by
its value at once. Behind two lone dashes there are words only. -/

namespace ChainReplay

/-- What an option takes. A choice may have to be written as it is or in any case; of several
choices each one given counts. -/
inductive Operand where
  | nothing
  | text
  | integer (least : Option Int)
  | choice (among : List Text)
  | choiceInAnyCase (among : List Text)
  | choices (among : List Text)
  | directory
  | place
  deriving DecidableEq

structure CommandOption where
  name : Text
  letter : Option Char
  operand : Operand

structure Arguments where
  options : List (Text × Text)
  words : List Text

namespace CommandOption

def flag (name : Text) : CommandOption := ⟨name, none, .nothing⟩

def taking (operand : Operand) (name : Text) : CommandOption := ⟨name, none, operand⟩

def takesValue (o : CommandOption) : Bool := o.operand ≠ .nothing

def find? (known : List CommandOption) (name : Text) : Option CommandOption :=
  known.find? fun o => "--" ++ o.name = name

def findLetter? (known : List CommandOption) (c : CodePoint) : Option CommandOption :=
  known.find? fun o => o.letter.map CodePoint.ofChar = some c

structure Reading where
  options : List (Text × Text)
  waiting : Option CommandOption

def Reading.one (o : CommandOption) (given : Option Text) : Option Reading :=
  match o.takesValue, given with
  | true, some v => some ⟨[(o.name, v)], none⟩
  | true, none => some ⟨[], some o⟩
  | false, none => some ⟨[(o.name, [])], none⟩
  | false, some _ => none

def readLetters (known : List CommandOption) : Text → Option Reading
  | [] => some ⟨[], none⟩
  | c :: rest => do
    let o ← findLetter? known c
    if o.takesValue then Reading.one o (if rest.isEmpty then none else some rest)
    else do
      let following ← readLetters known rest
      return { following with options := (o.name, []) :: following.options }

def read (known : List CommandOption) (argument : Text) : Option Reading :=
  let (name, given) := argument.splitFirst '='
  match find? known name with
  | some o => Reading.one o given
  | none => if argument.take 2 = "--" then none else readLetters known (argument.drop 1)

end CommandOption

namespace Arguments

def isOption (argument : Text) : Bool := argument.take 1 = "-" && 1 < argument.length

def addOptions (options : List (Text × Text)) (a : Arguments) : Arguments :=
  { a with options := options ++ a.options }

def addWord (word : Text) (a : Arguments) : Arguments := { a with words := word :: a.words }

/-- Tells options from words, unless an option is unknown or lacks its value. If words and options
do not mix, all that follows the first word is a word. -/
def parse (known : List CommandOption) (mixed : Bool) : List Text → Option Arguments
  | [] => some ⟨[], []⟩
  | argument :: rest =>
    if argument = "--" then some ⟨[], rest⟩
    else if isOption argument then
      match CommandOption.read known argument with
      | none => none
      | some ⟨options, none⟩ => (parse known mixed rest).map (addOptions options)
      | some ⟨options, some o⟩ =>
        match rest with
        | [] => none
        | v :: rest => (parse known mixed rest).map (addOptions (options ++ [(o.name, v)]))
    else if mixed then (parse known mixed rest).map (addWord argument)
    else some ⟨[], argument :: rest⟩

def isSet (a : Arguments) (name : Text) : Bool := a.options.any (·.1 = name)

def values (a : Arguments) (name : Text) : List Text :=
  (a.options.filter (·.1 = name)).map (·.2)

def value? (a : Arguments) (name : Text) : Option Text := (a.values name).getLast?

def given (a : Arguments) (known : List CommandOption) : List CommandOption :=
  (a.options.map (·.1)).eraseDups.filterMap fun name => known.find? (·.name = name)

end Arguments

end ChainReplay
