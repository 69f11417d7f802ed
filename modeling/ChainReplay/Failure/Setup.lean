import ChainReplay.Address.Basic
import ChainReplay.Failure.Codec
import ChainReplay.Json.Basic
import ChainReplay.Path

/-! Mistakes in the setup of a simulation. -/

namespace ChainReplay

inductive SetupError where
  | notBoolean (name raw : Text)
  | notInteger (name raw : Text)
  | negative (name : Text) (value : Int)
  | unknownNetwork (name : Text)
  | noGas
  | noDepth
  | noEngine
  | noEngineNamed
  | badEnginePath (path : Text)
  | noEngineModule (package : Text)
  | noEngineAttribute (member package : Text)
  | notAnEngine (path : Text)
  | addressNotText (field : Text)
  | badAddress (field value : Text)
  | entryWithoutAddress
  | badGasLimit (value : Json)
  | unreadablePlan (path : Path)
  | planWithoutAdmin (path : Path)
  | planWithoutContracts (path : Path)
  | notConfigured (address : Address)
  | blockNotArray (path : Text)
  deriving DecidableEq

def SetupError.message : SetupError → Text
  | notBoolean name raw => name ++ " must be a boolean, got " ++ raw.quoted
  | notInteger name raw => name ++ " must be an integer, got " ++ raw.quoted
  | negative name value => name ++ " must be >= 0, got " ++ .ofInt value
  | unknownNetwork name =>
    "Unknown network '" ++ name ++ "'. Allowed: mainnet, regtest, testnet."
  | noGas => "gas_limit must be positive"
  | noDepth => "max_call_stack_depth must be >= 1"
  | noEngine => "No execution engine configured"
  | noEngineNamed => "No execution engine configured; pass --engine or set OPSIM_ENGINE"
  | badEnginePath path =>
    "Engine path must look like 'module:attribute', got '" ++ path ++ "'"
  | noEngineModule package => "Cannot import engine module '" ++ package ++ "': " ++ cause
  | noEngineAttribute member package =>
    "Engine attribute '" ++ member ++ "' not found in '" ++ package ++ "'"
  | notAnEngine path => "'" ++ path ++ "' does not provide an ExecutionEngine"
  | addressNotText field => "'" ++ field ++ "' must be an address string"
  | badAddress field value => "'" ++ field ++ "' is not a valid address: " ++ value
  | entryWithoutAddress => "Each contract entry needs an 'address'"
  | badGasLimit value => "'gas_limit' must be a positive integer, got " ++ value.quoted
  | unreadablePlan path => "Cannot read replay config " ++ path.text ++ ": " ++ cause
  | planWithoutAdmin path => "Replay config " ++ path.text ++ " needs an 'admin' address"
  | planWithoutContracts path => "Replay config " ++ path.text ++ " lists no contracts"
  | notConfigured address => "Contract not found: " ++ address.text
  | blockNotArray path => path ++ " must hold a JSON array"

inductive MissingCode where
  | unreadable (address : Address) (path : Path)
  | unregistered (address : Address)
  | unresolved (address : Address)
  deriving DecidableEq

def MissingCode.message : MissingCode → Text
  | unreadable address path =>
    "Cannot read bytecode for " ++ address.text ++ " from " ++ path.text ++ ": " ++ cause
  | unregistered address => "Bytecode for address " ++ address.text ++ " not found"
  | unresolved address => "Bytecode not found for " ++ address.text

end ChainReplay
