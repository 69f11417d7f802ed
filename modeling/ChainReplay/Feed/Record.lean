import ChainReplay.Bytes.Base64
import ChainReplay.Json.Loose
import ChainReplay.Storage

/-! Records of storage writes, and the storage that they add up to at a block height. -/

namespace ChainReplay

structure StateRecord where
  pointer : Nat
  value : Nat
  height : Int

namespace StateRecord

def wordText (raw : Json) : Option Text :=
  let inner := match raw with
    | .object _ => ((raw.member? "$binary").bind (·.member? "base64")).getD .null
    | raw => raw
  match inner with
  | .text t => some t
  | _ => none

def wordOf (field : Text) (raw : Json) : Except Failure Nat :=
  match wordText raw with
  | none => .error (.format (.wordNotText field))
  | some t =>
    match t.chars?.bind Base64.decode? with
    | none => .error (.format (.wordNotBase64 field))
    | some bs =>
      if bs.length = 32 then .ok bs.toNat else .error (.format (.wordLength field bs.length))

def heightOf (raw : Json) : Except Failure Int :=
  let inner := match raw with
    | .object _ => (raw.member? "$numberLong").getD .null
    | raw => raw
  match inner with
  | .bool _ => .error (.format .heightIsBoolean)
  | inner =>
    match inner.integer with
    | .ok n => .ok n
    | .error .overflow => .error .overflow
    | .error _ => .error (.format (.badHeight inner))

def ofJson (document : Json) : Except Failure StateRecord :=
  match document with
  | .object _ =>
    match document.member? "pointer", document.member? "lastSeenAt" with
    | some pointer, some lastSeenAt => do
      let pointer ← wordOf "pointer" pointer
      let value ← match (document.member? "value").getD .null with
        | .null => .ok 0
        | raw => wordOf "value" raw
      return ⟨pointer, value, ← heightOf lastSeenAt⟩
    | _, _ => .error (.format .recordIncomplete)
  | _ => .error (.format (.recordNotObject document.kindName))

end StateRecord

/-- Keeps the latest record of a pointer, and of two at the same height the earlier one. -/
def latest (height : Int) (found : Table Nat StateRecord) (r : StateRecord) :
    Table Nat StateRecord :=
  if height < r.height then found
  else match found.find? r.pointer with
    | none => Table.insert r.pointer r found
    | some previous =>
      if previous.height < r.height then Table.insert r.pointer r found else found

def materialize (records : List StateRecord) (height : Int) : Storage :=
  (records.foldl (latest height) []).map fun (pointer, r) => ((pointer : Int), (r.value : Int))

end ChainReplay
