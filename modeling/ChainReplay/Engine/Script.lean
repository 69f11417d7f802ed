import ChainReplay.Engine.Program
import ChainReplay.Selector
import ChainReplay.Wire.Format

/-! An engine that runs scripts in place of bytecode: each step asks the host for something and
keeps its reply as the last value, which is the script's result in the end. -/

namespace ChainReplay

inductive Step where
  | load (pointer : Int)
  | store (pointer value : Int)
  | add (pointer amount : Int)
  | next (pointer bound : Int) (down : Bool)
  | call (target : Address) (calldata : Bytes)
  | relay
  | deploy (source : Address) (salt : Bytes)
  | inputs
  | outputs
  | log (message : Text)
  | emit (kind : Text) (data : Bytes)
  | raw (request : Text) (data : Bytes)
  | gas (amount : Int)
  | environment
  | calldata
  | attempt (steps : List Step)
  | fail (text : Text)
  | stop (reply : Option Bytes)

structure Script where
  deploy : List Step
  methods : List (Text × List Step)
  refusal : Option Text
  environmentRefusal : Option Text

namespace Script

open Format

def words (vs : List Int) : Except Failure Bytes := (Emission.all u256.emit vs).result

/-- Makes a request; `bad` goes on if it cannot be made or fails. -/
def request (fn : HostFunction) (data : Except Failure Bytes) (next : Bytes → Program)
    (bad : Failure → Program) : Program :=
  match data with
  | .error f => bad f
  | .ok data => .ask fn data fun
    | .ok reply => next reply
    | .error f => bad f

def relayed (calldata : Bytes) : Except Failure (Address × Bytes) :=
  Reader.runRest Reader.address (calldata.drop 4)

def callData (target : Address) (calldata : Bytes) : Except Failure Bytes :=
  (pair address blob).encode (target, calldata)

def rawRequest (name : Text) : Except Failure HostFunction :=
  match HostFunction.ofName? name with
  | none =>
    .error (.request (if name = "gas_callback" then .lacking name "method" else .unknown name))
  | some fn => if fn.takesOperand then .ok fn else .error (.request (.withOperand name))

def addTo (pointer amount : Int) (loaded : Bytes) (next : Bytes → Program)
    (bad : Failure → Program) : Program :=
  let sum := (loaded.toNat + amount) % 2 ^ 256
  request .store (words [pointer, sum]) (fun _ => next (Bytes.ofNat 32 sum.toNat)) bad

mutual

/-- The program of one step. `next` goes on with the last value, `bad` with a failure. -/
def stepProgram (environment calldata last : Bytes) (next : Bytes → Program)
    (bad : Failure → Program) : Step → Program
  | .load pointer => request .load (words [pointer]) next bad
  | .store pointer value => request .store (words [pointer, value]) next bad
  | .add pointer amount =>
    request .load (words [pointer]) (fun loaded => addTo pointer amount loaded next bad) bad
  | .next pointer bound down =>
    request .nextPointer ((pair u256 (pair u256 boolean)).encode (pointer, bound, down)) next bad
  | .call target data => request .call (callData target data) next bad
  | .relay =>
    request .call ((relayed calldata).bind fun (target, data) => callData target data) next bad
  | .deploy source salt => request .deploy (.ok (source.bytes ++ salt)) next bad
  | .inputs => request .inputs (.ok []) next bad
  | .outputs => request .outputs (.ok []) next bad
  | .log message => request .log (text.encode message) (fun _ => next last) bad
  | .emit kind data => request .emit ((pair text blob).encode (kind, data)) (fun _ => next last) bad
  | .raw name data =>
    match rawRequest name with
    | .error f => bad f
    | .ok fn =>
      request fn (.ok data) (fun reply => next (if fn.isAnswered then reply else last)) bad
  | .gas amount => .charge amount (next last)
  | .environment => next environment
  | .calldata => next calldata
  | .attempt steps =>
    stepsProgram environment calldata last next (fun f => .caught f (next [])) steps
  | .fail message => bad (.engine message)
  | .stop reply => .done (reply.getD last)

def stepsProgram (environment calldata last : Bytes) (next : Bytes → Program)
    (bad : Failure → Program) : List Step → Program
  | [] => next last
  | step :: rest =>
    stepProgram environment calldata last
      (fun last => stepsProgram environment calldata last next bad rest) bad step

end

def program (environment calldata : Bytes) (steps : List Step) : Program :=
  stepsProgram environment calldata [] .done .fail steps

def method? (s : Script) (selector : Nat) : Option (List Step) :=
  let named := s.methods.find? fun (name, _) => name ≠ "*" && selector? name = some selector
  let rest := s.methods.find? fun (name, _) => name = "*"
  (named <|> rest).map (·.2)

def methodProgram (s : Script) (environment calldata : Bytes) : Program :=
  match Reader.run (Reader.unsigned 4) calldata with
  | .error f => .fail f
  | .ok selector =>
    match s.method? selector with
    | none => .fail (.engine ("Unknown selector " ++ Text.padded 16 8 selector))
    | some steps => program environment calldata steps

def engine (scripts : Table Bytes Script) : Engine where
  instantiate parameters :=
    match scripts.find? parameters.bytecode with
    | none => .error (.engine "unknown bytecode")
    | some s =>
      match s.refusal with
      | some message => .error (.engine message)
      | none => .ok {
          refusal := s.environmentRefusal.map .engine
          construct := fun environment calldata => program environment calldata s.deploy
          execute := s.methodProgram }

end Script

end ChainReplay
