import ChainReplay.Failure.Basic
import ChainReplay.Text.Numeral

/-! Loose readings of a document: the integer that it stands for, and the elements it can be gone
through for. -/

namespace ChainReplay.Json

def integer : Json → Except Failure Int
  | bool b => .ok (if b then 1 else 0)
  | int n => .ok n
  | real x =>
    match x.truncate?, x with
    | some n, _ => .ok n
    | none, .nan => .error .wrongValue
    | none, _ => .error .overflow
  | text t =>
    match Numeral.integer? t with
    | some n => .ok n
    | none => .error .wrongValue
  | null | array _ | object _ => .error .wrongType

def elements : Json → Except Failure (List Json)
  | array items => .ok items
  | text t => .ok (t.map fun c => text [c])
  | object members => .ok (members.map fun (name, _) => text name)
  | _ => .error .wrongType

end ChainReplay.Json
