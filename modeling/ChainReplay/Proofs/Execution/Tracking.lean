import ChainReplay.Proofs.Execution.Activity
import ChainReplay.Proofs.Execution.Conduct

/-! What the activities of a run leave behind, up to the deployment of a contract: call stacks list
the contracts that were called, and no contract has new deployments on record that has not been
activated. -/

namespace ChainReplay

namespace Run

/-- What a part of a run with these activations does to the contracts that do not run: deployed ones
keep their call stacks, and those with a new deployment on record have been activated. -/
structure Tracks (t : Activity) (f g : Frame) : Prop extends f.Abides g where
  spared : ∀ a c, f.seat.address? ≠ some a → f.ledger.contracts.find? a = some c →
    c.deployed = true → ∃ d, g.ledger.contracts.find? a = some d ∧ d.callStack = c.callStack
  records : f.ledger.Filed → ∀ d child, f.seat.address? ≠ some d →
    (g.ledger.records d).contains child = true →
    (f.ledger.records d).contains child = true ∨ d ∈ t.contracts
  journal : f.ledger.Logs g.ledger t.contracts

namespace Tracks

variable {t u : Activity} {f g h : Frame}

lemma of_others (hfg : f.Abides g) (hothers : ∀ a, f.seat.address? ≠ some a →
    g.ledger.contracts.find? a = f.ledger.contracts.find? a)
    (hjournal : f.ledger.Logs g.ledger t.contracts) : Tracks t f g where
  toAbides := hfg
  spared := fun a c ha hc _ => ⟨c, (hothers a ha).trans hc, rfl⟩
  records := by
    intro _ d child hd hin
    rw [Ledger.records, hothers d hd] at hin
    exact .inl hin
  journal := hjournal

lemma andThen (hfg : Tracks t f g) (hgh : Tracks u g h) : Tracks (.andThen t u) f h where
  toAbides := hfg.toAbides.trans hgh.toAbides
  spared := by
    intro a c ha hc hdeployed
    obtain ⟨d, hd, -, hkept⟩ := hfg.ledger.contract a c hc
    obtain ⟨d', hd', hstack⟩ := hfg.spared a c ha hc hdeployed
    cases hd.symm.trans hd'
    obtain ⟨e, he, hstack'⟩ := hgh.spared a d (hfg.seat ▸ ha) hd (hkept hdeployed)
    exact ⟨e, he, hstack'.trans hstack⟩
  records := by
    intro hfiled d child hd hin
    rcases hgh.records (hfg.ledger.filed hfiled) d child (hfg.seat ▸ hd) hin with hin | hin
    · exact (hfg.records hfiled d child hd hin).imp_right (List.mem_append_left _)
    · exact .inr (List.mem_append_right _ hin)
  journal := hfg.journal.trans hgh.journal

lemma mono (h : Tracks t f g) (hcontracts : t.contracts.Sublist u.contracts) : Tracks u f g where
  toAbides := h.toAbides
  spared := h.spared
  records := fun hfiled d child hd hin =>
    (h.records hfiled d child hd hin).imp_right (hcontracts.mem ·)
  journal := h.journal.mono hcontracts

lemma of_minds (hfg : Minds [] f g) : Tracks .quiet f g :=
  of_others hfg.toAbides hfg.others hfg.journal

lemma of_minds_trans (hfg : Minds [] f g) (hgh : Tracks t g h) : Tracks t f h :=
  ((of_minds hfg).andThen hgh).mono (List.Sublist.refl _)

lemma andThen_quiet (hfg : Tracks t f g) (hgh : Tracks .quiet g h) : Tracks t f h :=
  (hfg.andThen hgh).mono (by rw [Activity.contracts, Activity.contracts, List.append_nil])

lemma trans_minds (hfg : Tracks t f g) (hgh : Minds [] g h) : Tracks t f h :=
  hfg.andThen_quiet (of_minds hgh)

end Tracks

/-- Such a part of a run adds the contracts that it calls to the call stack of the contract that
runs. -/
structure Follows (t : Activity) (f g : Frame) : Prop extends Tracks t f g where
  stack : f.Anchored → ∀ a, a ∈ g.contract.callStack ↔ a ∈ f.contract.callStack ∨ a ∈ t.called

namespace Follows

variable {t u : Activity} {f g h : Frame}

lemma of_minds (hfg : Minds [] f g) : Follows .quiet f g where
  toTracks := .of_minds hfg
  stack := by
    intro _ a
    rw [hfg.stack]
    exact (or_iff_left List.not_mem_nil).symm

lemma andThen (hfg : Follows t f g) (hgh : Follows u g h) : Follows (.andThen t u) f h where
  toTracks := hfg.toTracks.andThen hgh.toTracks
  stack := by
    intro hf a
    rw [hgh.stack (hfg.anchored hf), hfg.stack hf, Activity.called, List.mem_append, or_assoc]

lemma of_minds_trans (hfg : Minds [] f g) (hgh : Follows t g h) : Follows t f h where
  toTracks := .of_minds_trans hfg hgh.toTracks
  stack := by
    intro hf a
    rw [hgh.stack (hfg.anchored hf), hfg.stack]

lemma trans_minds (hfg : Follows t f g) (hgh : Minds [] g h) : Follows t f h where
  toTracks := hfg.toTracks.trans_minds hgh
  stack := by
    intro hf a
    rw [hgh.stack, hfg.stack hf]

end Follows

variable {α : Type} {f : Frame} {call : Address → Bytes → Run CallResponse}
  {nested : Address → Bytes → Frame → Activity}

/-- Nested calls are followed by these activities. -/
def Followed (call : Address → Bytes → Run CallResponse)
    (nested : Address → Bytes → Frame → Activity) : Prop :=
  ∀ target calldata f q g, (call target calldata).outcome f = some (q, g) →
    Follows (nested target calldata f) f g

lemma requestActivity_follows (hcall : Followed call nested) {f g : Frame}
    {request : HostFunction} {data : Bytes} {q : Except Failure Bytes}
    (hx : (Host.answer call request data).outcome f = some (q, g)) :
    Follows (requestActivity nested request data f) f g := by
  by_cases hrequest : request = .call
  case neg =>
    have hquiet : requestActivity nested request data f = .quiet := by
      cases request <;> first | rfl | contradiction
    rw [hquiet]
    exact .of_minds (minds_answer call hrequest data q g hx)
  case pos =>
    subst hrequest
    rw [requestActivity]
    rcases answer_call_cases hx with ⟨e, hdata, -, rfl⟩ | ⟨target, calldata, r, hdata, hrun, -⟩
    · rw [hdata]
      exact .of_minds (.refl _)
    · rw [hdata]
      exact hcall target calldata f r g hrun

lemma programActivity_follows (hcall : Followed call nested) {number : Nat} {p : Program}
    {gas : Int} {f g : Frame} {q : Except Failure Bytes}
    (hx : (interpret (Host.answer call) number p gas).outcome f = some (q, g)) :
    Follows (programActivity call nested number p gas f) f g := by
  induction p generalizing gas f with
  | done reply =>
    cases hx
    exact .of_minds (.refl _)
  | fail e =>
    cases hx
    exact .of_minds (.refl _)
  | ask request data next ih =>
    rw [outcome_interpret_ask] at hx
    obtain ⟨reply, h, hrequest, hx⟩ := Outcome.andThen_eq_some hx
    rw [programActivity, hrequest]
    exact (requestActivity_follows hcall hrequest).andThen
      (.of_minds_trans (minds_answered number request reply h) (ih reply hx))
  | charge amount next ih =>
    rw [outcome_interpret_charge] at hx
    exact .of_minds_trans (minds_charged number (gas + amount) f) (ih hx)
  | caught e next ih =>
    rw [interpret, outcome_bind, outcome_enter, Outcome.some_andThen] at hx
    exact .of_minds_trans (.enter f rfl) (ih hx)

/-- The running contract has begun a new call stack, and changes itself only; and the engine is asked
for no other contract. -/
structure Begins (f g : Frame) : Prop extends f.Abides g where
  others : ∀ a, f.seat.address? ≠ some a →
    g.ledger.contracts.find? a = f.ledger.contracts.find? a
  stack : (∀ a, f.seat.address? = some a → f.ledger.hasContract a = true) →
    g.contract.callStack = [f.contract.address]
  journal : f.ledger.Logs g.ledger [f.contract.address]

/-- What is left to do to load a contract once its call stack is begun. -/
def equip : Run Handle := do
  let c ← contract
  let l ← ledger
  let code ← lift c.code?
  let engine ← lift l.engine?
  let parameters : Parameters := ⟨c.address, code, c.gasLimit, l.settings.network⟩
  let number := l.handles + 1
  modifyLedger fun l => { l with handles := number }
  enter (.instantiated number parameters)
  let program ← lift (engine.instantiate parameters)
  let handle : Handle := ⟨number, 0, program⟩
  modifyContract fun c => { c with handle := some handle }
  return handle

def begun (c : Contract) : Contract := { c with events := [], callStack := [c.address] }

lemma load_eq : load = (do
    dispose
    modifyContract begun
    equip) := rfl

lemma minds_equip {f g : Frame} {r : Except Failure Handle} (hx : equip.outcome f = some (r, g)) :
    Minds [f.contract.address] f g := by
  simp only [equip, outcome_bind, outcome_contract, outcome_ledger, outcome_lift,
    outcome_modifyLedger, outcome_enter, outcome_modifyContract, outcome_pure,
    Outcome.some_andThen] at hx
  have hrefused : Minds [f.contract.address] f f := (Minds.refl f).mono (List.nil_sublist _)
  have hasked (l : Ledger) (code : Bytes) (hl : l = { f.ledger with handles := l.handles }) :
      Minds [f.contract.address] f { f with ledger := l.enter [.instantiated l.handles
        ⟨f.contract.address, code, f.contract.gasLimit, f.ledger.settings.network⟩] } := by
    rw [hl]
    exact .withLedger f rfl rfl rfl (.of_entries _ rfl (List.Sublist.refl _))
  split at hx
  case h_2 =>
    cases hx
    exact hrefused
  split at hx
  case h_2 =>
    cases hx
    exact hrefused
  split at hx
  case h_2 =>
    cases hx
    exact hasked _ _ rfl
  cases hx
  exact (hasked _ _ rfl).trans (.modifyContract _ ⟨⟨fun _ => rfl, fun _ h => h⟩, fun _ => rfl⟩)

lemma begins_of_load {k : Handle → Run α} (hk : ∀ handle g, Leads (Minds []) g (k handle))
    {f g : Frame} {r : Except Failure α} (hx : (load >>= k).outcome f = some (r, g)) :
    Begins f g := by
  let disposed := { f with ledger := f.ledger.enter f.contract.disposal }.modifyContract
    Contract.dispose
  let fresh := disposed.modifyContract begun
  have hdisposed : Minds [] f disposed := minds_dispose _ _ (outcome_dispose f)
  have hfresh : f.Abides fresh :=
    hdisposed.toAbides.trans (.modifyContract disposed ⟨fun _ => rfl, fun _ h => h⟩)
  simp only [load_eq, bind_assoc] at hx
  rw [outcome_bind, outcome_dispose, Outcome.some_andThen] at hx
  simp only at hx
  rw [outcome_bind, outcome_modifyContract, Outcome.some_andThen] at hx
  simp only at hx
  rw [outcome_bind] at hx
  obtain ⟨q, h, hequip, hx⟩ := Outcome.andThen_eq_some hx
  have hrest : Minds [f.contract.address] fresh g := by
    rw [← hfresh.address]
    cases q with
    | error e =>
      cases hx
      exact minds_equip hequip
    | ok handle => exact (minds_equip hequip).trans (hk handle h r g hx)
  refine ⟨hfresh.trans hrest.toAbides, fun a ha => ?_, fun hseat => ?_, ?_⟩
  · rw [hrest.others a (hfresh.seat ▸ ha), ← hdisposed.others a ha]
    exact Frame.find?_modifyContract_of_ne (hdisposed.seat ▸ ha) begun
  · rw [hrest.stack, ← hdisposed.address, Frame.contract_modifyContract fun a ha =>
      (hdisposed.ledger.hasContract a).trans (hseat a (hdisposed.seat.symm.trans ha))]
    rfl
  · have hbegun : disposed.ledger.Logs fresh.ledger [] :=
      .of_journal (disposed.journal_modifyContract begun)
    exact (hdisposed.journal.trans hbegun).trans hrest.journal

lemma begins_entry {calldata : Bytes} {given : EnvironmentGiven} {f g : Frame}
    {r : Except Failure (Nat × Program)} (hx : (entry calldata given).outcome f = some (r, g)) :
    Begins f g :=
  begins_of_load (fun _ _ => (minds_setEnvironment given).bind fun _ _ =>
    (minds_enter rfl).bind fun _ _ => .pure _) hx

lemma begins_inception {f g : Frame} {r : Except Failure (Nat × Program)}
    (hx : inception.outcome f = some (r, g)) : Begins f g :=
  begins_of_load (fun _ _ => minds_contract.bind fun _ _ => (minds_setEnvironment _).bind fun _ _ =>
    (minds_enter rfl).bind fun _ _ => .pure _) hx

/-- The run of a program that begins with this. -/
def running (call : Address → Bytes → Run CallResponse) (start : Run (Nat × Program)) : Run Bytes :=
  start >>= fun (number, program) => interpret (Host.answer call) number program 0

lemma construct_eq (call : Address → Bytes → Run CallResponse) :
    construct call = running call inception >>= fun _ => pure ⟨⟩ := by
  simp [construct, running, inception]

lemma running_tracks (hcall : Followed call nested) {start : Run (Nat × Program)}
    (hstart : ∀ f r g, start.outcome f = some (r, g) → Begins f g) {f g : Frame}
    {q : Except Failure Bytes} (hx : (running call start).outcome f = some (q, g)) (phase : Phase) :
    Tracks (.activation f.contract.address phase (activityOf call nested start f)) f g ∧
      (f.Anchored → ∀ a, a ∈ g.contract.callStack ↔
        a = f.contract.address ∨ a ∈ (activityOf call nested start f).called) := by
  rw [running, outcome_bind] at hx
  obtain ⟨r, h, hbegin, hx⟩ := Outcome.andThen_eq_some hx
  have hbegins := hstart f r h hbegin
  have htracks : Tracks (.activation f.contract.address phase .quiet) f h :=
    .of_others hbegins.toAbides hbegins.others hbegins.journal
  rw [activityOf, hbegin]
  cases r with
  | error e =>
    cases hx
    refine ⟨htracks, fun hf a => ?_⟩
    rw [hbegins.stack hf.2, List.mem_singleton]
    exact (or_iff_left List.not_mem_nil).symm
  | ok p =>
    obtain ⟨number, program⟩ := p
    have hfollows := programActivity_follows hcall hx
    refine ⟨(htracks.andThen hfollows.toTracks).mono (List.Sublist.refl _), fun hf a => ?_⟩
    rw [hfollows.stack (hbegins.anchored hf), hbegins.stack hf.2, List.mem_singleton]

/-- What a deployment leaves of a contract whose constructor has succeeded. -/
def constructed (c : Contract) : Contract :=
  { c with deploymentStates := c.states, deployed := true }

def announce (c : Contract) : Run Unit := do
  if (← ledger).traceDeployments then
    let written := (← contract).states.length
    note .info ("deployed " ++ c.address.text ++ " (" ++ .ofNat written ++ " pointers written)")
  dispose

/-- What a deployment of the contract does once its constructor has been run. -/
def settling (c : Contract) : Except Failure Unit → Run Unit
  | .error e => do
    modifyContract fun c => { c with states := [] }
    dispose
    throw (e.wrap c.address)
  | .ok _ => do
    modifyContract constructed
    announce c

lemma outcome_deploy_of_new {f : Frame} (h : f.contract.isNew = true) :
    (deploy call).outcome f =
      ((construct call).outcome f).andThen fun r g => (settling f.contract r).outcome g := by
  simp only [Contract.isNew, Bool.and_eq_true, Bool.not_eq_true'] at h
  obtain ⟨⟨hdeployed, hstates⟩, hdeployment⟩ := h
  rw [deploy, outcome_bind, outcome_contract]
  simp only [Outcome.some_andThen, hdeployed, hstates, hdeployment, Bool.false_eq_true, if_false,
    Bool.not_true, Bool.or_false]
  rw [outcome_bind, outcome_attempt]
  rcases (construct call).outcome f with _ | ⟨_ | done, g⟩ <;> rfl

lemma minds_announce (c : Contract) : Leads (Minds []) f (announce c) := by
  refine minds_ledger.bind fun l g => .ite ?_ minds_dispose
  exact minds_contract.bind fun _ _ => (minds_note _ _).bind fun _ _ => minds_dispose

lemma minds_settling (c : Contract) (r : Except Failure Unit) :
    Leads (Minds []) f (settling c r) := by
  cases r with
  | error e =>
    have hreset : Leads (Minds []) f (modifyContract fun c => { c with states := [] }) :=
      minds_modify ⟨⟨fun _ => rfl, fun _ h => h⟩, fun _ => rfl⟩
    exact hreset.bind fun _ _ => minds_dispose.bind fun _ _ => .throw _
  | ok done =>
    have hconstructed : Leads (Minds []) f (modifyContract constructed) :=
      minds_modify ⟨⟨fun _ => rfl, fun _ _ => rfl⟩, fun _ => rfl⟩
    exact hconstructed.bind fun _ _ => minds_announce c

def marked (c : Contract) : Contract := { c with deployed := true }

lemma deploy_cases {f g : Frame} {q : Except Failure Unit}
    (hx : (deploy call).outcome f = some (q, g)) :
    (f.contract.isNew = false ∧ q = .ok ⟨⟩ ∧
      (f.contract.deployed = true ∧ g = f ∨
        f.contract.deployed = false ∧ g = f.modifyContract marked)) ∨
    (f.contract.isNew = true ∧ ∃ r h, (construct call).outcome f = some (r, h) ∧
      (settling f.contract r).outcome h = some (q, g)) := by
  cases hnew : f.contract.isNew with
  | true =>
    rw [outcome_deploy_of_new hnew] at hx
    obtain ⟨r, h, hconstruct, hx⟩ := Outcome.andThen_eq_some hx
    exact .inr ⟨rfl, r, h, hconstruct, hx⟩
  | false =>
    rw [deploy, outcome_bind, outcome_contract] at hx
    simp only [Outcome.some_andThen] at hx
    split at hx
    case isTrue hdeployed =>
      cases hx
      exact .inl ⟨rfl, rfl, .inl ⟨hdeployed, rfl⟩⟩
    case isFalse hdeployed =>
    split at hx
    case isTrue =>
      cases hx
      exact .inl ⟨rfl, rfl, .inr ⟨Bool.eq_false_iff.mpr hdeployed, rfl⟩⟩
    case isFalse hstored =>
      rw [Contract.isNew, Bool.eq_false_iff.mpr hdeployed] at hnew
      refine absurd ?_ hstored
      revert hnew
      cases f.contract.states.isEmpty <;> cases f.contract.deploymentStates.isEmpty <;> decide

lemma minds_deploy {f g : Frame} {q : Except Failure Unit} (hnew : f.contract.isNew = false)
    (hx : (deploy call).outcome f = some (q, g)) :
    Minds [] f g ∧ ∀ d, g.ledger.records d = f.ledger.records d := by
  rcases deploy_cases hx with ⟨-, -, ⟨-, rfl⟩ | ⟨-, rfl⟩⟩ | ⟨hisNew, -⟩
  · exact ⟨.refl _, fun _ => rfl⟩
  · have hstill : Still f (f.modifyContract marked) :=
      .modifyContract f ⟨fun _ => rfl, fun _ _ => rfl⟩
    exact ⟨.modifyContract f ⟨⟨fun _ => rfl, fun _ _ => rfl⟩, fun _ => rfl⟩, hstill.records⟩
  · rw [hnew] at hisNew
    cases hisNew

lemma construct_tracks (hcall : Followed call nested) {f g : Frame} {r : Except Failure Unit}
    (hx : (construct call).outcome f = some (r, g)) :
    Tracks (.activation f.contract.address .construction (activityOf call nested inception f))
      f g := by
  rw [construct_eq, outcome_bind] at hx
  obtain ⟨p, h, hrun, hx⟩ := Outcome.andThen_eq_some hx
  obtain rfl : h = g := by
    cases p <;> (cases hx; rfl)
  exact (running_tracks hcall (fun _ _ _ => begins_inception) hrun .construction).1

lemma deploy_tracks (hcall : Followed call nested) {f g : Frame} {q : Except Failure Unit}
    (hx : (deploy call).outcome f = some (q, g)) : Tracks (deployActivity call nested f) f g := by
  rw [deployActivity]
  cases hnew : f.contract.isNew with
  | false => exact .of_minds (minds_deploy hnew hx).1
  | true =>
    rw [outcome_deploy_of_new hnew] at hx
    obtain ⟨r, h, hconstruct, hx⟩ := Outcome.andThen_eq_some hx
    exact (construct_tracks hcall hconstruct).trans_minds (minds_settling f.contract r q g hx)

/-- A contract has new deployments on record only if its constructor has been run. -/
lemma records_deploy (hcall : Followed call nested) {f g : Frame} {q : Except Failure Unit}
    (hx : (deploy call).outcome f = some (q, g)) (hfiled : f.ledger.Filed)
    (hseat : ∀ a, f.seat.address? = some a → f.ledger.hasContract a = true) (d child : Address)
    (hin : (g.ledger.records d).contains child = true) :
    (f.ledger.records d).contains child = true ∨ d ∈ (deployActivity call nested f).contracts := by
  by_cases hd : f.seat.address? = some d
  case neg => exact (deploy_tracks hcall hx).records hfiled d child hd hin
  case pos =>
    rw [deployActivity]
    cases hnew : f.contract.isNew with
    | false =>
      rw [(minds_deploy hnew hx).2] at hin
      exact .inl hin
    | true =>
      obtain ⟨c, hc⟩ := Option.isSome_iff_exists.mp (hseat d hd)
      have haddress : f.contract.address = d := by
        rw [Frame.contract_of_find? hd hc, hfiled d c hc]
      exact .inr (List.mem_cons.mpr (.inl haddress.symm))

lemma spared_deploy (hcall : Followed call nested) {f g : Frame} {q : Except Failure Unit}
    (hx : (deploy call).outcome f = some (q, g)) {a : Address} {c : Contract}
    (hc : f.ledger.contracts.find? a = some c) (hdeployed : c.deployed = true) :
    ∃ d, g.ledger.contracts.find? a = some d ∧ d.callStack = c.callStack := by
  by_cases ha : f.seat.address? = some a
  case neg => exact (deploy_tracks hcall hx).spared a c ha hc hdeployed
  case pos =>
    have hstanding : f.contract.deployed = true := by
      rw [Frame.contract_of_find? ha hc, hdeployed]
    rw [outcome_deploy_of_deployed call hstanding] at hx
    cases hx
    exact ⟨c, hc, rfl⟩

lemma deployed_of_deploy (hcall : Followed call nested) {f g : Frame} {done : Unit}
    (hx : (deploy call).outcome f = some (.ok done, g))
    (hseat : ∀ a, f.seat.address? = some a → f.ledger.hasContract a = true) :
    g.contract.deployed = true := by
  rcases deploy_cases hx with ⟨-, -, ⟨hdeployed, rfl⟩ | ⟨-, rfl⟩⟩ | ⟨-, r, h, hconstruct, hsettle⟩
  · exact hdeployed
  · rw [Frame.contract_modifyContract hseat]
    rfl
  · cases r with
    | error e => cases hsettle
    | ok _ =>
      have hannounced : Minds [] (h.modifyContract constructed) g :=
        minds_announce f.contract _ _ hsettle
      refine hannounced.deployed ?_
      have hthere := (construct_tracks hcall hconstruct).toAbides
      rw [Frame.contract_modifyContract fun a ha =>
        (hthere.ledger.hasContract a).trans (hseat a (hthere.seat.symm.trans ha))]
      rfl

end Run

end ChainReplay
