/-! Tables in insertion order. Writing under a present key keeps the key's place. -/

namespace ChainReplay

abbrev Table (κ α : Type) := List (κ × α)

namespace Table

variable {κ α : Type} [DecidableEq κ]

def find? (t : Table κ α) (k : κ) : Option α := (List.find? (·.1 = k) t).map (·.2)

def contains (t : Table κ α) (k : κ) : Bool := (find? t k).isSome

def insert (k : κ) (a : α) : Table κ α → Table κ α
  | [] => [(k, a)]
  | entry :: rest => if entry.1 = k then (k, a) :: rest else entry :: insert k a rest

def insertNew (t : Table κ α) (k : κ) (a : α) : Table κ α :=
  if contains t k then t else t ++ [(k, a)]

def erase (t : Table κ α) (k : κ) : Table κ α := List.filter (·.1 ≠ k) t

def modify (t : Table κ α) (k : κ) (f : α → α) : Table κ α :=
  List.map (fun entry => if entry.1 = k then (k, f entry.2) else entry) t

def keys (t : Table κ α) : List κ := List.map (·.1) t

def values (t : Table κ α) : List α := List.map (·.2) t

def insertAll (t : Table κ α) (entries : List (κ × α)) : Table κ α :=
  entries.foldl (fun t (k, a) => insert k a t) t

def ofList (entries : List (κ × α)) : Table κ α := insertAll [] entries

end Table

end ChainReplay
