import ChainReplay.Proofs.Execution.NestedStorage
import ChainReplay.Proofs.Execution.Rollback

/-! The trail of a run: the copies that its activations recorded as deployed, and which of the
activations failed. It follows the run frame by frame. -/

namespace ChainReplay

/-- What an activation recorded, and the activations nested in it. -/
inductive Trail where
  | quiet
  | recorded (child : Address) (code : Bytes)
  | called (target : Address) (failed : Bool) (inner : Trail)
  | andThen (first second : Trail)

namespace Trail

def own : Trail → List (Address × Bytes)
  | quiet => []
  | recorded child code => [(child, code)]
  | called _ _ _ => []
  | andThen t u => t.own ++ u.own

/-- The copies that nested activations of the owner recorded such that neither they nor other nested
activations around them failed. -/
def retained (owner : Address) : Trail → List (Address × Bytes)
  | quiet => []
  | recorded _ _ => []
  | called target failed inner =>
    if failed then [] else (if target = owner then inner.own else []) ++ inner.retained owner
  | andThen t u => t.retained owner ++ u.retained owner

end Trail

namespace Run

/-- What an activation does before its program runs on the handle with this number. -/
def entry (calldata : Bytes) (given : EnvironmentGiven) : Run (Nat × Program) := do
  let handle ← load
  let record ← setEnvironment given
  enter (.execution handle.number calldata)
  return (handle.number, handle.program.execute record calldata)

lemma runMethod_eq (host : HostFunction → Bytes → Run Bytes) (calldata : Bytes)
    (given : EnvironmentGiven) :
    runMethod host calldata given =
      entry calldata given >>= fun (number, program) => interpret host number program 0 := by
  simp [runMethod, entry]

def answered (number : Nat) (request : HostFunction) (reply : Except Failure Bytes) (f : Frame) :
    Frame :=
  match reply with
  | .ok bs =>
    if request.isAnswered then { f with ledger := f.ledger.enter [.reply number request bs] } else f
  | .error _ => f

def charged (number : Nat) (gas : Int) (f : Frame) : Frame :=
  let f := f.modifyContract (·.meter number gas)
  if f.ledger.traceGas then
    let text := f.contract.address.text ++ " gas: " ++ .ofInt gas ++ " (" ++ "step" ++ ")"
    { f with ledger := f.ledger.note .debug text }
  else f

lemma outcome_interpret_ask (host : HostFunction → Bytes → Run Bytes) (number : Nat)
    (request : HostFunction) (data : Bytes) (next : Except Failure Bytes → Program) (gas : Int)
    (f : Frame) :
    (interpret host number (.ask request data next) gas).outcome f =
      ((host request data).outcome f).andThen fun reply g =>
        (interpret host number (next reply) gas).outcome (answered number request reply g) := by
  rw [interpret, outcome_bind, outcome_attempt]
  rcases (host request data).outcome f with _ | ⟨reply, g⟩
  · rfl
  · cases reply with
    | error e => rfl
    | ok bs =>
      simp only [Outcome.some_andThen, answered]
      split
      · rw [outcome_bind, outcome_enter]
        rfl
      · rfl

lemma outcome_interpret_charge (host : HostFunction → Bytes → Run Bytes) (number : Nat)
    (amount : Int) (next : Program) (gas : Int) (f : Frame) :
    (interpret host number (.charge amount next) gas).outcome f =
      (interpret host number next (gas + amount)).outcome (charged number (gas + amount) f) := by
  rw [interpret, outcome_bind, outcome_modifyContract, Outcome.some_andThen, outcome_bind,
    Host.observeGas, outcome_bind, outcome_ledger]
  simp only [Outcome.some_andThen, charged]
  split
  · rw [outcome_bind, outcome_contract]
    rfl
  · rfl

/-- How a call is noticed by the contract that is called. -/
def heard (calldata : Bytes) (f : Frame) : Frame :=
  if f.ledger.traceCalls then
    let selector := if calldata.length < 4 then 0 else Bytes.toNat (calldata.take 4)
    let text := f.contract.address.text ++ " called externally, selector " ++ .padded 16 8 selector
    { f with ledger := f.ledger.note .info text }
  else f

def reported (callee : Address) (response : CallResponse) : Run CallResponse := do
  if (← ledger).traceCalls then
    let shown := match response.result with
      | .ok bs => bs.quoted
      | .error _ => "None"
    note .info ("call response from " ++ callee.text ++ ": " ++ shown)
  dispose
  return response

lemma outcome_receive (calldata : Bytes) (respond : Run CallResponse) (f : Frame) :
    (receive calldata respond).outcome f =
      (respond.outcome (heard calldata f)).andThen fun r g =>
        match r with
        | .ok response => (reported f.contract.address response).outcome g
        | .error e => some (.error e, g) := by
  have hreceive : receive calldata respond = (do
      let c ← contract
      let l ← ledger
      if l.traceCalls then
        let selector := if calldata.length < 4 then 0 else Bytes.toNat (calldata.take 4)
        note .info (c.address.text ++ " called externally, selector " ++ .padded 16 8 selector)
      respond >>= reported c.address) := rfl
  have hrest (f' : Frame) : (respond >>= reported f.contract.address).outcome f' =
      (respond.outcome f').andThen fun r g =>
        match r with
        | .ok response => (reported f.contract.address response).outcome g
        | .error e => some (.error e, g) := by
    rw [outcome_bind]
    congr 1
    funext r g
    cases r <;> rfl
  rw [hreceive, outcome_bind, outcome_contract, Outcome.some_andThen]
  simp only [outcome_bind, outcome_ledger, Outcome.some_andThen, heard]
  split
  · rw [outcome_bind, outcome_note, Outcome.some_andThen]
    exact hrest _
  · exact hrest f

def copied (call : Address → Bytes → Run CallResponse) (target : Address) : Run Contract := do
  openCall call target
  copyTarget target

lemma outcome_callWith (call : Address → Bytes → Run CallResponse) (target : Address)
    (calldata : Bytes) (f : Frame) :
    (callWith call target calldata).outcome f =
      ((copied call target).outcome f).andThen fun r g =>
        match r with
        | .ok copy => entered (execute call calldata) (fun _ c => c) target calldata copy g
        | .error e => some (.error e, g) := by
  have hcall : callWith call target calldata = (do
      let copy ← copied call target
      let caller ← contract
      let l ← ledger
      let visited ← inSeat (.apart copy)
        (receive calldata (execute call calldata (some caller.address) (some l.origin)))
      let m ← ledger
      closeCall target (visited.2.1.contract m) visited.2.2 (← lift visited.1)) := by
    rw [callWith, copied, bind_assoc]
  rw [hcall, outcome_bind]
  congr 1
  funext r g
  cases r with
  | error e => rfl
  | ok copy =>
    simp only [outcome_bind, outcome_contract, outcome_ledger, outcome_inSeat,
      Outcome.some_andThen, entered]
    rcases (receive calldata _).outcome _ with _ | ⟨_ | response, h⟩ <;> rfl

/-- The target and the calldata that a contract asks the host to call. -/
def callRequest (data : Bytes) : Except Failure (Address × Bytes) := Host.callFormat.decode data

def deployRequest (data : Bytes) : Except Failure (Address × Bytes) :=
  Host.deployFormat.decode data

lemma answer_deploy (call : Address → Bytes → Run CallResponse) (data : Bytes) :
    Host.answer call .deploy data = (do
      let source ← lift (deployRequest data)
      let copy ← Host.deployCopy source.1 source.2
      return copy.1 ++ copy.2.bytes) := rfl

section Trails

variable (call : Address → Bytes → Run CallResponse) (nested : Address → Bytes → Frame → Trail)

def requestTrail (request : HostFunction) (data : Bytes) (f : Frame) : Trail :=
  match request with
  | .call =>
    match callRequest data with
    | .ok (target, calldata) => nested target calldata f
    | .error _ => .quiet
  | .deploy =>
    match deployRequest data with
    | .ok (source, salt) =>
      match (Host.deployCopy source salt).outcome f, f.ledger.code? source with
      | some (.ok (_, derived), _), .ok code => .recorded derived code
      | _, _ => .quiet
    | .error _ => .quiet
  | _ => .quiet

def programTrail (number : Nat) : Program → (gas : Int) → Frame → Trail
  | .done _, _, _ => .quiet
  | .fail _, _, _ => .quiet
  | .ask request data next, gas, f =>
    match (Host.answer call request data).outcome f with
    | some (reply, g) =>
      .andThen (requestTrail nested request data f)
        (programTrail number (next reply) gas (answered number request reply g))
    | none => .quiet
  | .charge amount next, gas, f =>
    programTrail number next (gas + amount) (charged number (gas + amount) f)
  | .caught e next, gas, f =>
    programTrail number next gas { f with ledger := f.ledger.enter [.caught number e] }

def methodTrail (calldata : Bytes) (given : EnvironmentGiven) (f : Frame) : Trail :=
  match (entry calldata given).outcome f with
  | some (.ok (number, program), g) => programTrail call nested number program 0 g
  | _ => .quiet

/-- The trail of a call of the contract in the seat, which stands under the given address. -/
def activationTrail (owner : Address) (calldata : Bytes) (sender origin : Option Address)
    (f : Frame) : Trail :=
  match (execute call calldata sender origin).outcome f with
  | some (.ok response, _) =>
    .called owner response.result.toOption.isNone
      (methodTrail call nested calldata (.caller sender origin) { f with deployments := [] })
  | _ => .quiet

def visitTrail (target : Address) (calldata : Bytes) (f : Frame) : Trail :=
  match (copied call target).outcome f with
  | some (.ok copy, g) =>
    activationTrail call nested target calldata (some g.contract.address) (some g.ledger.origin)
      (heard calldata ⟨g.ledger, .apart copy, []⟩)
  | _ => .quiet

end Trails

def callTrail : Nat → Address → Bytes → Frame → Trail
  | 0, _, _, _ => .quiet
  | n + 1, target, calldata, f => visitTrail (Run.call n) (callTrail n) target calldata f

end Run

/-- The trail of a call from outside to a registered contract. -/
def Ledger.trail (l : Ledger) (n : Nat) (a : Address) (calldata : Bytes)
    (sender origin : Option Address) : Trail :=
  Run.activationTrail (Run.call n) (Run.callTrail n) a calldata sender origin
    ⟨l, .registered a, []⟩

end ChainReplay
