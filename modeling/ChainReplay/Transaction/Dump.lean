import ChainReplay.Text.Utf8
import ChainReplay.Transaction.Basic

/-! The full description of a transaction, one field on each line. -/

namespace ChainReplay.Transaction

def hexOrNull : Option Bytes → Text
  | none => "null"
  | some bs => "0x" ++ bs.hex

def line (label : Text) (value : Text) : Text :=
  label ++ Text.ofChars (List.replicate (25 - label.length) ' ') ++ ": " ++ value

def sectionLines (title : Text) (items : List Text) : List Text :=
  let heading := title ++ " (" ++ Text.ofNat items.length ++ ")"
  let entries := items.zipIdx.map fun (item, i) => "  [" ++ Text.ofNat i ++ "] " ++ item
  "" :: heading :: if items.isEmpty then ["  <none>"] else entries

def inputLine (i : TransactionInput) : Text :=
  "tx=" ++ hexOrNull i.spentTransaction ++ " / vout=" ++ .ofInt i.outputIndex
    ++ " / sequence=" ++ .ofInt i.sequence

def addressesText : Option (List Json) → Text
  | none => Json.shown .null
  | some [address] => address.shown
  | some addresses => Json.shown (.array addresses)

def outputLine (o : TransactionOutput) : Text :=
  "value=" ++ .ofInt o.value ++ " / index=" ++ .ofInt o.index ++ " / script=" ++ o.script.hex.shown
    ++ " / address=" ++ addressesText o.script.addresses

def eventLine (e : RecordedEvent) : Text :=
  "contract=" ++ e.address.text ++ " / type=" ++ Utf8.decodeLossy e.kind ++ " / data="
    ++ hexOrNull e.data

def fieldLines (tx : Transaction) : List Text :=
  [line "id" tx.id.shown, line "blockHeight" (.ofInt tx.blockHeight),
    line "hash" (hexOrNull tx.hash), line "opNetType" tx.kind.shown,
    line "burnedBitcoin" (.ofInt tx.burned), line "calldata" (hexOrNull tx.calldata),
    line "contractAddress" tx.contractName, line "contractSecret" (hexOrNull tx.contractSecret),
    line "contractTweakedPublicKey" tx.target.text, line "from" tx.sender.text,
    line "gasUsed" (.ofInt tx.gasUsed), line "txId" (hexOrNull tx.txId),
    line "index" (.ofInt tx.index), line "interactionPubKey" (hexOrNull tx.interactionKey),
    line "preimage" (hexOrNull tx.preimage), line "priorityFee" (.ofInt tx.priorityFee),
    line "raw" (hexOrNull tx.raw), line "receipt" (hexOrNull tx.receipt),
    line "revert" (if tx.revert.isNone then "no-revert" else hexOrNull tx.revert),
    line "reward" (.ofInt tx.reward), line "senderPubKeyHash" (hexOrNull tx.senderKeyHash),
    line "specialGasUsed" (.ofInt tx.specialGas),
    line "wasCompressed" (if tx.wasCompressed then "true" else "false")]

def describe (tx : Transaction) : Text :=
  let sections := sectionLines "inputs" (tx.inputs.map inputLine)
    ++ sectionLines "outputs" (tx.outputs.map outputLine)
    ++ sectionLines "events" (tx.events.map eventLine)
    ++ sectionLines "receiptProofs" (tx.receiptProofs.map Json.shown)
  "---- Replayed Transaction Dump ----\n" ++ Text.join "\n" (fieldLines tx ++ sections)
    ++ "\n---- End Dump ----"

end ChainReplay.Transaction
