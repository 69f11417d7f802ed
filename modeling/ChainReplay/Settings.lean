import ChainReplay.Failure.Basic
import ChainReplay.Text.LowerCase
import ChainReplay.Text.Numeral

/-! The settings of a simulation: defaults, environment variables, and values given directly. -/

namespace ChainReplay

inductive Network where
  | mainnet
  | testnet
  | regtest
  deriving DecidableEq

namespace Network

def name : Network → Text
  | mainnet => "mainnet"
  | testnet => "testnet"
  | regtest => "regtest"

def hrp : Network → Text
  | mainnet => "bc"
  | testnet => "tb"
  | regtest => "bcrt"

def ofName? (t : Text) : Option Network := [mainnet, testnet, regtest].find? (·.name = t)

end Network

structure Settings where
  network : Network
  gasLimit : Int
  traceGas : Bool
  tracePointers : Bool
  traceCalls : Bool
  traceDeployments : Bool
  reentrancyGuard : Bool
  nestedCalls : Bool
  maxCallDepth : Int
  cacheDir : Path
  blockDir : Path
  engine : Option Text

/-- Values given for some of the settings; the network is not checked yet. -/
structure Settings.Partial where
  network : Option Text
  gasLimit : Option Int
  traceGas : Option Bool
  tracePointers : Option Bool
  traceCalls : Option Bool
  traceDeployments : Option Bool
  reentrancyGuard : Option Bool
  nestedCalls : Option Bool
  maxCallDepth : Option Int
  cacheDir : Option Path
  blockDir : Option Path
  engine : Option Text

namespace Settings

def Partial.none : Partial :=
  ⟨.none, .none, .none, .none, .none, .none, .none, .none, .none, .none, .none, .none⟩

def default : Settings :=
  ⟨.regtest, 100000000000, false, false, false, false, false, true, 20, "cache", "block", none⟩

/-- The given values, and for the rest those of the settings; all of them checked. -/
def apply (s : Settings) (p : Partial) : Except Failure Settings := do
  let name := p.network.getD s.network.name
  let some network := Network.ofName? name | throw (.setup (.unknownNetwork name))
  let gasLimit := p.gasLimit.getD s.gasLimit
  if gasLimit ≤ 0 then throw (.setup .noGas)
  let maxCallDepth := p.maxCallDepth.getD s.maxCallDepth
  if maxCallDepth < 1 then throw (.setup .noDepth)
  return {
    network, gasLimit, maxCallDepth
    traceGas := p.traceGas.getD s.traceGas
    tracePointers := p.tracePointers.getD s.tracePointers
    traceCalls := p.traceCalls.getD s.traceCalls
    traceDeployments := p.traceDeployments.getD s.traceDeployments
    reentrancyGuard := p.reentrancyGuard.getD s.reentrancyGuard
    nestedCalls := p.nestedCalls.getD s.nestedCalls
    cacheDir := p.cacheDir.getD s.cacheDir
    blockDir := p.blockDir.getD s.blockDir
    engine := p.engine <|> s.engine }

def Partial.orElse (p q : Partial) : Partial where
  network := p.network <|> q.network
  gasLimit := p.gasLimit <|> q.gasLimit
  traceGas := p.traceGas <|> q.traceGas
  tracePointers := p.tracePointers <|> q.tracePointers
  traceCalls := p.traceCalls <|> q.traceCalls
  traceDeployments := p.traceDeployments <|> q.traceDeployments
  reentrancyGuard := p.reentrancyGuard <|> q.reentrancyGuard
  nestedCalls := p.nestedCalls <|> q.nestedCalls
  maxCallDepth := p.maxCallDepth <|> q.maxCallDepth
  cacheDir := p.cacheDir <|> q.cacheDir
  blockDir := p.blockDir <|> q.blockDir
  engine := p.engine <|> q.engine

abbrev Environment := Table Text Text

def variableMark : Text := "OPSIM_"

def variableNames : List Text :=
  (["NETWORK", "GAS_LIMIT", "TRACE_GAS", "TRACE_POINTERS", "TRACE_CALLS", "TRACE_DEPLOYMENTS",
    "REENTRANCY_GUARD", "NESTED_CALLS", "MAX_CALL_STACK_DEPTH", "CACHE_DIR", "BLOCK_DIR",
    "ENGINE"] : List Text).map (variableMark ++ ·)

def booleanOf (name raw : Text) : Except Failure Bool :=
  let value := Text.toLower raw.strip
  if value ∈ (["1", "true", "yes", "on"] : List Text) then .ok true
  else if value ∈ (["0", "false", "no", "off", ""] : List Text) then .ok false
  else .error (.setup (.notBoolean name raw))

def integerOf (name raw : Text) : Except Failure Int :=
  match Numeral.literal? raw.strip with
  | none => .error (.setup (.notInteger name raw))
  | some n =>
    if 0 ≤ n then .ok n
    else if Numeral.isWritable n then .error (.setup (.negative name n))
    else .error .wrongValue

def read {α : Type} (env : Environment) (name : Text) (value : Text → Text → Except Failure α) :
    Except Failure (Option α) :=
  let key := variableMark ++ name
  match env.find? key with
  | none => .ok none
  | some raw => some <$> value key raw

def fromEnvironment (env : Environment) : Except Failure Partial := do
  let network ← read env "NETWORK" fun _ raw => .ok (Text.toLower raw.strip)
  let gasLimit ← read env "GAS_LIMIT" integerOf
  let traceGas ← read env "TRACE_GAS" booleanOf
  let tracePointers ← read env "TRACE_POINTERS" booleanOf
  let traceCalls ← read env "TRACE_CALLS" booleanOf
  let traceDeployments ← read env "TRACE_DEPLOYMENTS" booleanOf
  let reentrancyGuard ← read env "REENTRANCY_GUARD" booleanOf
  let nestedCalls ← read env "NESTED_CALLS" booleanOf
  let maxCallDepth ← read env "MAX_CALL_STACK_DEPTH" integerOf
  let cacheDir ← read env "CACHE_DIR" fun _ raw => .ok (Path.ofText raw)
  let blockDir ← read env "BLOCK_DIR" fun _ raw => .ok (Path.ofText raw)
  let engine ← read env "ENGINE" fun _ raw => .ok raw.strip
  return {
    network, gasLimit, traceGas, tracePointers, traceCalls, traceDeployments, reentrancyGuard
    nestedCalls, maxCallDepth, cacheDir, blockDir, engine := engine.filter (!·.isEmpty) }

/-- Given values win over environment variables, and these over the defaults. -/
def load (env : Environment) (given : Partial) : Except Failure Settings := do
  let fromEnv ← fromEnvironment env
  default.apply (given.orElse fromEnv)

def hrp (s : Settings) : Text := s.network.hrp

end Settings

end ChainReplay
