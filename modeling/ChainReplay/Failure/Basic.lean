import ChainReplay.Failure.Format
import ChainReplay.Failure.Setup

/-! What can go wrong, by cause, with the wording of every message. -/

namespace ChainReplay

inductive FaultKind where
  | engine
  | unsupportedReentry
  | reentrancy
  | callDepthExceeded
  | alreadyDeployed
  | selfDeployment
  | callFailed
  | notInitialized
  deriving DecidableEq

def FaultKind.name : FaultKind → Text
  | engine => "engine"
  | unsupportedReentry => "unsupported_reentry"
  | reentrancy => "reentrancy"
  | callDepthExceeded => "call_depth_exceeded"
  | alreadyDeployed => "already_deployed"
  | selfDeployment => "self_deployment"
  | callFailed => "call_failed"
  | notInitialized => "not_initialized"

structure Fault where
  kind : FaultKind
  detail : Text
  address : Address
  deriving DecidableEq

def Fault.message (f : Fault) : Text :=
  "(in: " ++ f.address.text ++ ") OPNET: " ++ f.kind.name ++ ": " ++ f.detail

structure BlockError where
  height : Int
  index : Int
  detail : Text
  transaction : Option Text
  deriving DecidableEq

def BlockError.message (e : BlockError) : Text :=
  let place := if 0 ≤ e.index then "transaction #" ++ Text.ofInt e.index else "setup"
  let place := match e.transaction with
    | none | some [] => place
    | some id => place ++ " (" ++ id ++ ")"
  "Block " ++ Text.ofInt e.height ++ " replay failed at " ++ place ++ ": " ++ e.detail

inductive AccessError where
  | missing
  | taken
  | notDirectory
  | isDirectory
  | nameTooLong
  deriving DecidableEq

def AccessError.message : AccessError → Text
  | missing => "there is no such file"
  | taken => "a file stands in the way"
  | notDirectory => "a file is used as a directory"
  | isDirectory => "a directory is used as a file"
  | nameTooLong => "the name is too long"

inductive RequestError where
  | unknown (name : Text)
  | withOperand (name : Text)
  | lacking (name operand : Text)
  deriving DecidableEq

def RequestError.message : RequestError → Text
  | unknown name => "'RuntimeHost' object has no attribute '" ++ name ++ "'"
  | withOperand name =>
    "RuntimeHost." ++ name ++ "() takes 1 positional argument but 2 were given"
  | lacking name operand =>
    "RuntimeHost." ++ name ++ "() missing 1 required positional argument: '" ++ operand ++ "'"

inductive MarkupError where
  | unmatched (name : Text)
  | nothingToClose
  | badParameters (parameters : Text)
  | badColor
  deriving DecidableEq

def MarkupError.message : MarkupError → Text
  | unmatched name => "closing tag '" ++ name ++ "' doesn't match any open tag"
  | nothingToClose => "closing tag has nothing to close"
  | badParameters parameters => "error parsing " ++ parameters
  | badColor => "a part of the color is missing"

inductive Failure where
  | codec (error : CodecError)
  | setup (error : SetupError)
  | missingCode (error : MissingCode)
  | duplicateContract (address : Address)
  | unknownContract (address : Address)
  | format (error : FormatError)
  | block (error : BlockError)
  | engine (text : Text)
  | fault (info : Fault)
  | caused (info : Fault) (source : Failure)
  | wrongType
  | wrongValue
  | wrongMember
  | divisionByZero
  | overflow
  | undecodable
  | unencodable (part : Utf8.Unwritable)
  | tooDeep
  | access (error : AccessError)
  | request (error : RequestError)
  | markup (error : MarkupError)
  deriving DecidableEq

namespace Failure

def unencodableMessage (part : Utf8.Unwritable) : Text :=
  let place : Text := match part.row with
    | [c] => "character " ++ Text.quoted [c] ++ " in position " ++ .ofNat part.start
    | row =>
      "characters in position " ++ .ofNat part.start ++ "-" ++ .ofNat (part.start + row.length - 1)
  "'utf-8' codec can't encode " ++ place ++ ": surrogates not allowed"

def message : Failure → Text
  | codec error => error.message
  | setup error => error.message
  | missingCode error => error.message
  | duplicateContract address => "Contract already registered at address " ++ address.text
  | unknownContract address => "Contract not found at address " ++ address.text
  | format error => error.message
  | block error => error.message
  | engine text => text
  | fault info => info.message
  | caused info _ => info.message
  | wrongType => "a value of another kind is needed"
  | wrongValue => "the value is not allowed"
  | wrongMember => "the value has no such member"
  | divisionByZero => "division by zero"
  | overflow => "the number is too large"
  | undecodable => "the bytes are no text"
  | unencodable part => unencodableMessage part
  | tooDeep => "the nesting is too deep"
  | access error => error.message
  | request error => error.message
  | markup error => error.message

def fault? : Failure → Option Fault
  | fault info => some info
  | caused info _ => some info
  | _ => none

def detail (f : Failure) : Text := if f.message.isEmpty then "EngineError" else f.message

/-- Makes a failure inside a contract a fault of that contract; faults stay as they are. -/
def wrap (address : Address) (f : Failure) : Failure :=
  match f.fault? with
  | some _ => f
  | none => .caused ⟨.engine, f.detail, address⟩ f

def isSetup : Failure → Bool
  | setup _ | missingCode _ | duplicateContract _ | unknownContract _ | format _ => true
  | _ => false

def isReported : Failure → Bool
  | codec _ | block _ | fault _ | caused _ _ => true
  | f => f.isSetup

end Failure

end ChainReplay
