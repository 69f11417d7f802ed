import ChainReplay.Engine.Program

/-! Engines by name: a package, a colon, and the name of something in the package that is an
engine or makes one. -/

namespace ChainReplay

inductive Offer where
  | engine (e : Engine)
  | maker (made : Option Engine)
  | other

abbrev Catalog := Table Text (Table Text Offer)

namespace Catalog

/-- A package whose name begins with a dot would be relative to another one, and there is none. -/
def find (catalog : Catalog) (path : Text) : Except Failure Engine :=
  match path.splitFirst ':' with
  | (c :: package, some (d :: name)) =>
    if c = .ofChar '.' then .error .wrongType
    else match Table.find? catalog (c :: package) with
    | none => .error (.setup (.noEngineModule (c :: package)))
    | some offers =>
      match Table.find? offers (d :: name) with
      | none => .error (.setup (.noEngineAttribute (d :: name) (c :: package)))
      | some (.engine e) | some (.maker (some e)) => .ok e
      | some (.maker none) | some .other => .error (.setup (.notAnEngine path))
  | _ => .error (.setup (.badEnginePath path))

end Catalog

end ChainReplay
