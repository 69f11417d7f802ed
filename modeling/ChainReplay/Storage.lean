import ChainReplay.Power
import ChainReplay.Table

/-! The storage of a contract: values under pointers, zero where nothing is written. A pointer
holds a token in its bits 80 to 239 and a word position below them. -/

namespace ChainReplay

abbrev Storage := Table Int Int

namespace Storage

def load (s : Storage) (pointer : Int) : Int := (s.find? pointer).getD 0

def store (s : Storage) (pointer value : Int) : Storage := Table.insert pointer value s

def token (pointer : Int) : Int := pointer / 2 ^ 80 % 2 ^ 160

def wordPosition (pointer : Int) : Int := pointer % 2 ^ 80

/-- The stored pointer has the token of the given one and lies behind it, or not behind it when
searching downwards, and its value is greater than `bound`. -/
def matchesSearch (pointer bound : Int) (down : Bool) (entry : Int × Int) : Bool :=
  token entry.1 = token pointer && bound < entry.2
    && if down then wordPosition entry.1 ≤ wordPosition pointer
      else wordPosition pointer < wordPosition entry.1

/-- The first entry wins against a later one of the same word position. -/
def nearer (down : Bool) (best : Option Int) (candidate : Int) : Option Int :=
  match best with
  | none => some candidate
  | some p =>
    if down then some (if wordPosition p < wordPosition candidate then candidate else p)
    else some (if wordPosition candidate < wordPosition p then candidate else p)

/-- The nearest pointer of the same token with a value greater than `bound`, or zero. -/
def nextPointer (s : Storage) (pointer bound : Int) (down : Bool) : Int :=
  let candidates := (s.filter (matchesSearch pointer bound down)).map (·.1)
  (candidates.foldl (nearer down) none).getD 0

def modified (live candidate : Storage) : Storage :=
  candidate.filterMap fun (pointer, value) =>
    (live.find? pointer).bind fun found => if found = value then none else some (pointer, found)

def merge (base addition : Storage) : Storage := Table.insertAll base addition

end Storage

end ChainReplay
