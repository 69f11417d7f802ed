import ChainReplay.Proofs.Execution.Trail

/-! Runs whose host is given, and among them runs in which the host bars some requests. A run that
makes a barred request has no outcome. -/

namespace ChainReplay.Run

section Hosted

variable (host : HostFunction → Bytes → Run Bytes)

def constructOn : Run Unit := do
  let handle ← load
  let c ← contract
  let record ← setEnvironment (.caller (some c.deployer) (some c.deployer))
  enter (.construction handle.number c.constructorCalldata)
  let _ ← interpret host handle.number (handle.program.construct record c.constructorCalldata) 0

def deployOn : Run Unit := do
  let c ← contract
  if c.deployed then return
  if !c.states.isEmpty || !c.deploymentStates.isEmpty then
    modifyContract fun c => { c with deployed := true }
    return
  match ← attempt (constructOn host) with
  | .error f =>
    modifyContract fun c => { c with states := [] }
    dispose
    throw (f.wrap c.address)
  | .ok _ =>
    modifyContract fun c => { c with deploymentStates := c.states, deployed := true }
    if (← ledger).traceDeployments then
      let written := (← contract).states.length
      note .info ("deployed " ++ c.address.text ++ " (" ++ .ofNat written ++ " pointers written)")
    dispose

def executeOn (calldata : Bytes) (sender origin : Option Address) : Run CallResponse := do
  match ← attempt (deployOn host) with
  | .error f => return ⟨.error f, [], [(← contract).address], 0⟩
  | .ok _ => pure ()
  let before ← contract
  modify fun f => { f with deployments := [] }
  let outcome ← attempt (runMethod host calldata (.caller sender origin))
  let outcome := outcome.mapError (·.wrap before.address)
  if outcome.toOption.isNone then
    modifyContract fun c => { c with states := before.states, children := before.children }
    discardDeployments
  let c ← contract
  let used := (c.handle.map (·.gas)).getD 0
  match outcome with
  | .ok _ => pure ()
  | .error f =>
    let detail := (f.fault?.map (·.detail)).getD []
    note .debug ("call into " ++ c.address.text ++ " failed: " ++ detail)
    dispose
  return ⟨outcome, c.events, c.callStack, used⟩

def openCallOn (target : Address) : Run Unit := do
  let caller ← contract
  let l ← ledger
  if !l.nestedCalls then throw (caller.fault .unsupportedReentry "Not implemented")
  if l.traceCalls then note .info (caller.address.text ++ " calls " ++ target.text)
  if !l.hasContract target then
    throw (caller.fault .callFailed (Failure.unknownContract target).message)
  let (deployed, _, _) ← inSeat (.registered target) (deployOn host)
  lift deployed

def callOn (target : Address) (calldata : Bytes) : Run CallResponse := do
  openCallOn host target
  let copy ← copyTarget target
  let caller ← contract
  let origin := (← ledger).origin
  let (outcome, seat, deployments) ← inSeat (.apart copy)
    (receive calldata (executeOn host calldata (some caller.address) (some origin)))
  closeCall target (seat.contract (← ledger)) deployments (← lift outcome)

end Hosted

lemma execute_eq_executeOn (call : Address → Bytes → Run CallResponse) (calldata : Bytes)
    (sender origin : Option Address) :
    execute call calldata sender origin =
      executeOn (Host.answer call) calldata sender origin := rfl

lemma callWith_eq_callOn (call : Address → Bytes → Run CallResponse) (target : Address)
    (calldata : Bytes) :
    callWith call target calldata = callOn (Host.answer call) target calldata := rfl

section Barred

variable (barred : Frame → HostFunction → Bytes → Bool)

def barring (host : HostFunction → Bytes → Run Bytes) (request : HostFunction) (data : Bytes) :
    Run Bytes := do
  if barred (← get) request data then outOfFuel else host request data

def barredCall : Nat → Address → Bytes → Run CallResponse
  | 0, _, _ => outOfFuel
  | n + 1, target, calldata =>
    callOn (barring barred (Host.answer (barredCall n))) target calldata

def barredHost (n : Nat) : HostFunction → Bytes → Run Bytes :=
  barring barred (Host.answer (barredCall barred n))

lemma outcome_barring (host : HostFunction → Bytes → Run Bytes) (request : HostFunction)
    (data : Bytes) (f : Frame) :
    (barring barred host request data).outcome f =
      if barred f request data then none else (host request data).outcome f := by
  rw [barring, outcome_bind]
  change (if barred f request data then outOfFuel else host request data).outcome f = _
  split <;> rfl

end Barred

section Congruence

/-! A host that makes fewer requests gives the same outcomes, as far as it gives any. -/

lemma alike_eq : Alike (Eq : Frame → Frame → Prop) where
  contract := by
    rintro f _ rfl
    exact ⟨f.contract.states, rfl⟩
  ledger := by
    rintro f _ rfl
    exact ⟨f.ledger.contracts, rfl⟩
  book := by
    rintro f _ k rfl _
    rfl
  tend := by
    rintro f _ k rfl _
    rfl

lemma simulates_refl {α : Type} (x : Run α) : Simulates Eq Eq x x := by
  rintro f _ rfl q f' hx
  exact ⟨q, f', hx, .refl q, rfl⟩

lemma bind_refl {α β : Type} {x : Run α} {k m : α → Run β}
    (h : ∀ a, Simulates Eq Eq (k a) (m a)) : Simulates Eq Eq (x >>= k) (x >>= m) :=
  Alike.bind_eq (simulates_refl x) h

lemma bind_inSeat {α β : Type} {seat : Seat} {x y : Run α}
    {k : Except Failure α × Seat × List Deployment → Run β} (h : Simulates Eq Eq x y) :
    Simulates Eq Eq (inSeat seat x >>= k) (inSeat seat y >>= k) := by
  refine Alike.bind_eq ?_ fun _ => simulates_refl _
  rintro f _ rfl q f' hx
  rw [outcome_inSeat] at hx ⊢
  obtain ⟨r, g, hrun, hx⟩ := Outcome.andThen_eq_some hx
  obtain ⟨g', hrun', rfl⟩ := h.outcome rfl hrun
  rw [hrun', Outcome.some_andThen]
  exact ⟨q, f', hx, .refl q, rfl⟩

variable {host host' : HostFunction → Bytes → Run Bytes}
  (h : ∀ request data, Simulates Eq Eq (host request data) (host' request data))

include h

lemma constructOn_congr : Simulates Eq Eq (constructOn host) (constructOn host') := by
  rw [constructOn, constructOn]
  refine bind_refl fun handle => bind_refl fun c => bind_refl fun record => bind_refl fun _ => ?_
  exact Alike.bind_eq (alike_eq.interpret h _ _ _) fun _ => .pure rfl

lemma deployOn_congr : Simulates Eq Eq (deployOn host) (deployOn host') := by
  rw [deployOn, deployOn]
  refine bind_refl fun c => .ite _ (.pure rfl) (.ite _ (simulates_refl _) ?_)
  refine (constructOn_congr h).attempt.bind fun q r hqr => ?_
  cases hqr.eq
  exact simulates_refl _

lemma executeOn_congr (calldata : Bytes) (sender origin : Option Address) :
    Simulates Eq Eq (executeOn host calldata sender origin)
      (executeOn host' calldata sender origin) := by
  rw [executeOn, executeOn]
  refine (deployOn_congr h).attempt.bind fun q r hqr => ?_
  cases hqr.eq
  cases q with
  | error e => exact simulates_refl _
  | ok _ =>
    refine bind_refl fun before => bind_refl fun _ => ?_
    refine (alike_eq.runMethod h _ _).attempt.bind fun q r hqr => ?_
    cases hqr.eq
    exact simulates_refl _

lemma callOn_congr (target : Address) (calldata : Bytes) :
    Simulates Eq Eq (callOn host target calldata) (callOn host' target calldata) := by
  have hopen : Simulates Eq Eq (openCallOn host target) (openCallOn host' target) := by
    rw [openCallOn, openCallOn]
    refine bind_refl fun caller => bind_refl fun l => .ite _ (.throw _) ?_
    have hvisit : Simulates Eq Eq
        (inSeat (.registered target) (deployOn host) >>= fun visited => lift visited.1)
        (inSeat (.registered target) (deployOn host') >>= fun visited => lift visited.1) :=
      bind_inSeat (deployOn_congr h)
    exact Alike.optional (simulates_refl _) (.ite _ (.throw _) hvisit)
  rw [callOn, callOn]
  refine Alike.bind_eq hopen fun _ => bind_refl fun copy => bind_refl fun caller => ?_
  refine bind_refl fun l => bind_inSeat ?_
  exact alike_eq.receive calldata (executeOn_congr h calldata _ _)

end Congruence

lemma barring_simulates (barred : Frame → HostFunction → Bytes → Bool)
    {host host' : HostFunction → Bytes → Run Bytes}
    (h : ∀ request data, Simulates Eq Eq (host request data) (host' request data))
    (request : HostFunction) (data : Bytes) :
    Simulates Eq Eq (barring barred host request data) (host' request data) := by
  rintro f _ rfl q f' hx
  rw [outcome_barring] at hx
  split at hx
  · cases hx
  · exact h request data f f rfl q f' hx

lemma answer_congr {call call' : Address → Bytes → Run CallResponse}
    (h : ∀ target calldata, Simulates Eq Eq (call target calldata) (call' target calldata))
    (request : HostFunction) (data : Bytes) :
    Simulates Eq Eq (Host.answer call request data) (Host.answer call' request data) := by
  cases request with
  | call => exact bind_refl fun target => Alike.bind_eq (h _ _) fun _ => simulates_refl _
  | _ => exact simulates_refl _

/-- Where no request that is made is barred, barring changes nothing. -/
lemma barredHost_simulates (barred : Frame → HostFunction → Bytes → Bool) (n : Nat) :
    ∀ request data, Simulates Eq Eq (barredHost barred n request data)
      (Host.answer (Run.call n) request data) := by
  have hcall (target : Address) (calldata : Bytes) :
      Simulates Eq Eq (barredCall barred n target calldata) (Run.call n target calldata) := by
    induction n generalizing target calldata with
    | zero => exact .outOfFuel _
    | succ n ih =>
      rw [Run.call, callWith_eq_callOn]
      exact callOn_congr (barring_simulates barred (answer_congr ih)) target calldata
  exact barring_simulates barred (answer_congr hcall)

/-- The source of the copy has code in the other table only, or the copy's address has other code
there. -/
def reveals (others : Table Address Bytes) (l : Ledger) (deployer source : Address) (salt : Bytes) :
    Bool :=
  match l.codes.find? source with
  | none => others.contains source
  | some code =>
    let derived := Ledger.derivedAddress deployer salt code
    !l.codes.contains derived && (others.find? derived).any (· ≠ code)

/-- The request asks for a copy that reveals one of the other tables. -/
def asksFor (others : List (Table Address Bytes)) (f : Frame) (request : HostFunction)
    (data : Bytes) : Bool :=
  match request with
  | .deploy =>
    match deployRequest data with
    | .error _ => false
    | .ok (source, salt) =>
      others.any fun codes => reveals codes f.ledger f.contract.address source salt
  | _ => false

end ChainReplay.Run
