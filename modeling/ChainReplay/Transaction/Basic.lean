import ChainReplay.Address.Basic
import ChainReplay.Json.Basic

/-! Recorded interactions with contracts. Where records are loosely typed, a field keeps the
document that was given. -/

namespace ChainReplay

structure RecordedEvent where
  address : Address
  kind : Bytes
  data : Bytes
  deriving DecidableEq

structure TransactionInput where
  spentTransaction : Bytes
  outputIndex : Int
  script : Option Bytes
  sequence : Int
  deriving DecidableEq

structure OutputScript where
  hex : Json
  addresses : Option (List Json)
  address : Option Json
  deriving DecidableEq

structure TransactionOutput where
  value : Int
  index : Int
  script : OutputScript
  deriving DecidableEq

structure Transaction where
  id : Json
  blockHeight : Int
  txId : Bytes
  index : Int
  sender : Address
  contractName : Text
  target : Address
  calldata : Bytes
  kind : Json
  hash : Option Bytes
  burned : Int
  contractSecret : Option Bytes
  gasUsed : Int
  interactionKey : Option Bytes
  preimage : Option Bytes
  priorityFee : Int
  raw : Option Bytes
  receipt : Option Bytes
  receiptProofs : List Json
  revert : Option Bytes
  reward : Int
  senderKeyHash : Option Bytes
  specialGas : Int
  wasCompressed : Bool
  events : List RecordedEvent
  inputs : List TransactionInput
  outputs : List TransactionOutput
  deriving DecidableEq

/-- A successful interaction of which nothing but its place, its parties and its calldata is
known. -/
def Transaction.plain (id : Text) (blockHeight : Int) (txId : Bytes) (index : Int)
    (sender : Address) (contractName : Text) (target : Address) (calldata : Bytes) :
    Transaction where
  id := .text id
  blockHeight := blockHeight
  txId := txId
  index := index
  sender := sender
  contractName := contractName
  target := target
  calldata := calldata
  kind := .text "Interaction"
  hash := none
  burned := 0
  contractSecret := none
  gasUsed := 0
  interactionKey := none
  preimage := none
  priorityFee := 0
  raw := none
  receipt := none
  receiptProofs := []
  revert := none
  reward := 0
  senderKeyHash := none
  specialGas := 0
  wasCompressed := false
  events := []
  inputs := []
  outputs := []

def Transaction.txIdHex (tx : Transaction) : Text := tx.txId.hex

end ChainReplay
