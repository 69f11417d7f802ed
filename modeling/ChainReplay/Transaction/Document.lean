import ChainReplay.Address.Parse
import ChainReplay.Bytes.Base64
import ChainReplay.Json.Loose
import ChainReplay.Transaction.Basic

/-! Transactions as documents: binary fields are base64 texts and numbers are texts, each inside a
document that names its type. -/

namespace ChainReplay

namespace Json

def memberOf (j : Json) (name : Text) : Except Failure (Option Json) :=
  match j with
  | object members => .ok (Table.find? members name)
  | _ => .error .wrongMember

def memberOrNull (j : Json) (name : Text) : Except Failure Json :=
  return (← j.memberOf name).getD .null

def binaryOf (document : Json) (key : Text) : Except Failure Bytes := do
  let raw ← document.memberOrNull key
  match raw.member? "$binary" with
  | some (.object members) =>
    match Table.find? members "base64" with
    | some (.text t) =>
      match t.chars?.bind Base64.decode? with
      | some bs => return bs
      | none => throw (.format (.binaryNotBase64 key))
    | _ => throw (.format (.binaryNotBase64 key))
  | _ => throw (.format (.notBinary key))

def optionalBinaryOf (document : Json) (key : Text) : Except Failure (Option Bytes) := do
  if (← document.memberOrNull key) = .null then return none
  some <$> document.binaryOf key

/-- The integer in a document that names its type; null counts as the default, if there is one. -/
def numberOf (document : Json) (key tag : Text) (standard : Option Int) : Except Failure Int := do
  let raw ← document.memberOrNull key
  match raw, standard with
  | .null, some n => return n
  | raw, _ =>
    match raw.member? tag with
    | none => throw (.format (.notTagged key tag))
    | some value =>
      match value.integer with
      | .ok n => return n
      | .error .overflow => throw .overflow
      | .error _ => throw (.format (.notInteger key value))

def integerAt (document : Json) (key : Text) : Except Failure Int :=
  match document.member? key with
  | some value => value.integer
  | none => .error .wrongValue

def ofBinary (bs : Bytes) : Json :=
  .object [("$binary", .object [("base64", .text (Text.ofChars (Base64.encode bs))),
    ("subType", .text "00")])]

def ofOptionalBinary : Option Bytes → Json
  | none => .null
  | some bs => ofBinary bs

def ofDecimal (n : Int) : Json := .object [("$numberDecimal", .text (Text.ofInt n))]

def orNull : Option Json → Json
  | none => .null
  | some j => j

def notNull : Json → Option Json
  | .null => none
  | j => some j

end Json

open Json

def RecordedEvent.ofJson (event : Json) : Except Failure RecordedEvent := do
  let address ← Address.ofBytes (← event.binaryOf "contractAddress")
  let kind ← event.binaryOf "type"
  return ⟨address, kind, ← event.binaryOf "data"⟩

def RecordedEvent.toJson (e : RecordedEvent) : Json :=
  .object [("contractAddress", ofBinary e.address.bytes), ("data", ofBinary e.data),
    ("type", ofBinary e.kind)]

def TransactionInput.ofJson (item : Json) : Except Failure TransactionInput := do
  let spentTransaction ← item.binaryOf "originalTransactionId"
  let outputIndex ← item.integerAt "outputTransactionIndex"
  let script ← item.optionalBinaryOf "scriptSignature"
  return ⟨spentTransaction, outputIndex, script, ← item.integerAt "sequenceId"⟩

def TransactionInput.toJson (i : TransactionInput) : Json :=
  .object [("originalTransactionId", ofBinary i.spentTransaction),
    ("outputTransactionIndex", .int i.outputIndex),
    ("scriptSignature", ofOptionalBinary i.script), ("sequenceId", .int i.sequence)]

def TransactionOutput.ofJson (item : Json) : Except Failure TransactionOutput := do
  let given ← item.memberOrNull "scriptPubKey"
  let script := if given.isGiven then given else .object []
  let addresses ← script.memberOrNull "addresses"
  let value ← item.numberOf "value" "$numberDecimal" none
  let index ← item.integerAt "index"
  let hex := (script.member? "hex").getD (.text [])
  let addresses ← match addresses with
    | .null => pure none
    | given => some <$> given.elements
  return ⟨value, index, hex, addresses, (script.member? "address").bind notNull⟩

def TransactionOutput.toJson (o : TransactionOutput) : Json :=
  .object [("value", ofDecimal o.value), ("index", .int o.index),
    ("scriptPubKey", .object [("hex", o.script.hex),
      ("addresses", orNull (o.script.addresses.map .array)),
      ("address", orNull o.script.address)])]

namespace Transaction

def identityOf (document : Json) : Except Failure (Json × Int) :=
  match (document.member? "_id").bind (·.member? "$oid"), document.member? "index" with
  | some id, some raw =>
    match raw.integer with
    | .ok index => .ok (id, index)
    | .error .overflow => .error .overflow
    | .error _ => .error (.format .transactionIncomplete)
  | _, _ => .error (.format .transactionIncomplete)

def listOf {α : Type} (document : Json) (key : Text) (read : Json → Except Failure α) :
    Except Failure (List α) :=
  match document.member? key with
  | none => .ok []
  | some raw => do (← raw.elements).mapM read

def partiesOf (document : Json) : Except Failure (Address × Address × List RecordedEvent) := do
  let sender ← Address.ofBytes (← document.binaryOf "from")
  let target ← Address.ofBytes (← document.binaryOf "contractTweakedPublicKey")
  return (sender, target, ← listOf document "events" RecordedEvent.ofJson)

def partsOf (document : Json) :
    Except Failure (List TransactionInput × List TransactionOutput) := do
  let inputs ← listOf document "inputs" TransactionInput.ofJson
  return (inputs, ← listOf document "outputs" TransactionOutput.ofJson)

def nameAddress (id : Json) : Failure → Failure
  | .codec error => .format (.transactionAddress id error)
  | f => f

def nameParts (id : Json) : Failure → Failure
  | .wrongType | .wrongValue => .format (.transactionParts id)
  | f => f

def fieldsOf (document : Json) (id : Json) (index : Int)
    (parties : Address × Address × List RecordedEvent)
    (parts : List TransactionInput × List TransactionOutput) : Except Failure Transaction := do
  let decimal (key : Text) := document.numberOf key "$numberDecimal" (some 0)
  let blockHeight ← document.numberOf "blockHeight" "$numberDecimal" none
  let txId ← document.binaryOf "id"
  let calldata ← document.binaryOf "calldata"
  let hash ← document.optionalBinaryOf "hash"
  let burned ← decimal "burnedBitcoin"
  let contractSecret ← document.optionalBinaryOf "contractSecret"
  let gasUsed ← decimal "gasUsed"
  let interactionKey ← document.optionalBinaryOf "interactionPubKey"
  let preimage ← document.optionalBinaryOf "preimage"
  let priorityFee ← decimal "priorityFee"
  let raw ← document.optionalBinaryOf "raw"
  let receipt ← document.optionalBinaryOf "receipt"
  let receiptProofs ← listOf document "receiptProofs" .ok
  let revert ← document.optionalBinaryOf "revert"
  let reward ← document.numberOf "reward" "$numberLong" (some 0)
  let senderKeyHash ← document.optionalBinaryOf "senderPubKeyHash"
  let specialGas ← decimal "specialGasUsed"
  return {
    id, blockHeight, txId, index, calldata, hash, burned, contractSecret, gasUsed, interactionKey
    preimage, priorityFee, raw, receipt, receiptProofs, revert, reward, senderKeyHash, specialGas
    sender := parties.1
    contractName := ((document.member? "contractAddress").getD (.text [])).shown
    target := parties.2.1
    kind := (document.member? "OPNetType").getD (.text "Interaction")
    wasCompressed := ((document.member? "wasCompressed").getD (.bool false)).isGiven
    events := parties.2.2
    inputs := parts.1
    outputs := parts.2 }

def ofJson (document : Json) : Except Failure Transaction :=
  match document with
  | .object _ => do
    let (id, index) ← identityOf document
    let parties ← (partiesOf document).mapError (nameAddress id)
    let parts ← (partsOf document).mapError (nameParts id)
    fieldsOf document id index parties parts
  | _ => .error (.format (.transactionNotObject document.kindName))

def toJson (tx : Transaction) : Json :=
  .object [("_id", .object [("$oid", tx.id)]), ("blockHeight", ofDecimal tx.blockHeight),
    ("hash", ofOptionalBinary tx.hash), ("OPNetType", tx.kind),
    ("burnedBitcoin", ofDecimal tx.burned), ("calldata", ofBinary tx.calldata),
    ("contractAddress", .text tx.contractName),
    ("contractSecret", ofOptionalBinary tx.contractSecret),
    ("contractTweakedPublicKey", ofBinary tx.target.bytes),
    ("events", .array (tx.events.map RecordedEvent.toJson)), ("from", ofBinary tx.sender.bytes),
    ("gasUsed", ofDecimal tx.gasUsed), ("id", ofBinary tx.txId), ("index", .int tx.index),
    ("inputs", .array (tx.inputs.map TransactionInput.toJson)),
    ("interactionPubKey", ofOptionalBinary tx.interactionKey),
    ("outputs", .array (tx.outputs.map TransactionOutput.toJson)),
    ("preimage", ofOptionalBinary tx.preimage), ("priorityFee", ofDecimal tx.priorityFee),
    ("raw", ofOptionalBinary tx.raw), ("receipt", ofOptionalBinary tx.receipt),
    ("receiptProofs", .array tx.receiptProofs), ("revert", ofOptionalBinary tx.revert),
    ("reward", .object [("$numberLong", .text (Text.ofInt tx.reward))]),
    ("senderPubKeyHash", ofOptionalBinary tx.senderKeyHash),
    ("specialGasUsed", ofDecimal tx.specialGas), ("wasCompressed", .bool tx.wasCompressed)]

/-- The numbers that the document of a transaction spells as texts. -/
def spelled (tx : Transaction) : List Int :=
  [tx.blockHeight, tx.burned, tx.gasUsed, tx.priorityFee, tx.reward, tx.specialGas]
    ++ tx.outputs.map (·.value)

/-- The document of a transaction. There is none if a number has too many digits. -/
def document (tx : Transaction) : Except Failure Json :=
  if tx.spelled.all Numeral.isWritable then .ok tx.toJson else .error .wrongValue

end Transaction

end ChainReplay
