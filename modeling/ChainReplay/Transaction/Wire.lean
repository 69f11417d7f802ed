import ChainReplay.Transaction.Basic
import ChainReplay.Wire.Format

/-! The binary form of a transaction, and the forms in which contracts see its inputs and outputs.
-/

namespace ChainReplay

open Format

def RecordedEvent.format : Format := pair Format.address (pair blob blob)

def RecordedEvent.toValue (e : RecordedEvent) : format.Value := (e.address, e.kind, e.data)

def RecordedEvent.ofValue (v : format.Value) : RecordedEvent := ⟨v.1, v.2.1, v.2.2⟩

def TransactionInput.format : Format := pair blob (pair u32 (pair (optional blob) u32))

def TransactionInput.toValue (i : TransactionInput) : format.Value :=
  (i.spentTransaction, i.outputIndex, i.script, i.sequence)

def TransactionInput.ofValue (v : format.Value) : TransactionInput :=
  ⟨v.1, v.2.1, v.2.2.1, v.2.2.2⟩

def TransactionOutput.format : Format :=
  pair u256 (pair u32 (pair looseText
    (pair (optional (counted 2 looseText)) (optional looseText))))

def TransactionOutput.toValue (o : TransactionOutput) : format.Value :=
  (o.value, o.index, o.script.hex, o.script.addresses, o.script.address)

def TransactionOutput.ofValue (v : format.Value) : TransactionOutput :=
  ⟨v.1, v.2.1, v.2.2.1, v.2.2.2.1, v.2.2.2.2⟩

namespace Transaction

def headFormat : Format :=
  pair looseText (pair u256 (pair blob (pair u32 (pair address (pair text (pair address
    (pair blob looseText)))))))

def middleFormat : Format :=
  pair (optional blob) (pair u256 (pair (optional blob) (pair u256 (pair (optional blob)
    (pair (optional blob) (pair u256 (pair (optional blob) (optional blob))))))))

def tailFormat : Format :=
  pair (counted 2 looseText) (pair (optional blob) (pair signed64 (pair (optional blob)
    (pair u256 boolean))))

def partsFormat : Format :=
  pair (counted 2 RecordedEvent.format)
    (pair (counted 2 TransactionInput.format) (counted 2 TransactionOutput.format))

def format : Format := pair headFormat (pair middleFormat (pair tailFormat partsFormat))

def toValue (tx : Transaction) : format.Value :=
  ((tx.id, tx.blockHeight, tx.txId, tx.index, tx.sender, tx.contractName, tx.target, tx.calldata,
      tx.kind),
    (tx.hash, tx.burned, tx.contractSecret, tx.gasUsed, tx.interactionKey, tx.preimage,
      tx.priorityFee, tx.raw, tx.receipt),
    (tx.receiptProofs, tx.revert, tx.reward, tx.senderKeyHash, tx.specialGas, tx.wasCompressed),
    tx.events.map RecordedEvent.toValue, tx.inputs.map TransactionInput.toValue,
    tx.outputs.map TransactionOutput.toValue)

def ofValue : format.Value → Transaction
  | ((id, blockHeight, txId, index, sender, contractName, target, calldata, kind),
      (hash, burned, contractSecret, gasUsed, interactionKey, preimage, priorityFee, raw, receipt),
      (receiptProofs, revert, reward, senderKeyHash, specialGas, wasCompressed),
      events, inputs, outputs) =>
    { id, blockHeight, txId, index, sender, contractName, target, calldata, kind, hash, burned
      contractSecret, gasUsed, interactionKey, preimage, priorityFee, raw, receipt, receiptProofs
      revert, reward, senderKeyHash, specialGas, wasCompressed
      events := List.map RecordedEvent.ofValue events
      inputs := List.map TransactionInput.ofValue inputs
      outputs := List.map TransactionOutput.ofValue outputs }

def toBytes (tx : Transaction) : Except Failure Bytes := format.encode tx.toValue

def ofBytes (bs : Bytes) : Except Failure Transaction := do
  let (v, rest) ← Reader.runRest format.read bs
  if rest.isEmpty then return ofValue v
  else throw (.codec (.trailingBytes rest.length))

/-- Count, then per input the transaction it spends, the output's index, and the script. -/
def inputsFormat : Format := counted 2 (pair blob (pair u32 blob))

def inputsView (inputs : List TransactionInput) : Except Failure Bytes :=
  inputsFormat.encode
    (inputs.map fun i => (i.spentTransaction, i.outputIndex, i.script.getD []))

def scriptBytes (hex : Json) : Except Failure Bytes :=
  if !hex.isGiven then .ok []
  else match hex with
    | .text t =>
      match t.chars?.bind Bytes.ofHex? with
      | some bs => .ok bs
      | none => .error .wrongValue
    | _ => .error .wrongType

def outputView (o : TransactionOutput) : Emission :=
  let given := o.script.address.getD .null
  let address := if given.isGiven then given else .text []
  let script := match scriptBytes o.script.hex with
    | .ok bs => Emission.blob bs
    | .error f => Emission.failed f
  (u16.emit o.index).andThen ((u64.emit o.value).andThen ((looseText.emit address).andThen script))

def outputsView (outputs : List TransactionOutput) : Except Failure Bytes :=
  ((Emission.unsigned 2 outputs.length).andThen (Emission.all outputView outputs)).result

end Transaction

end ChainReplay
