import ChainReplay.Proofs.Execution.CallStack

/-! Relations between frames that all of a run sustains, because each of its parts does. What a contract
does of itself comes first; loading it, giving its handle back, and calls to other contracts follow. -/

namespace ChainReplay

namespace Contract

def number? (c : Contract) : Option Nat := c.handle.map Handle.number

@[simp] lemma number?_eq_none_iff (c : Contract) : c.number? = none ↔ c.handle = none :=
  Option.map_eq_none_iff

lemma handle_dispose (c : Contract) : c.dispose.handle = none := by
  rcases h : c.handle <;> simp [Contract.dispose, h]

/-- What is left of a contract without all that runs write. -/
def essence (c : Contract) : Contract :=
  { c with
    gasUsed := 0, states := [], deploymentStates := [], children := [], deployed := false
    events := [], callStack := [], handle := none }

/-- Runs may have made the second contract of the first one. -/
structure Ages (c d : Contract) : Prop where
  essence : d.essence = c.essence
  deployed : c.deployed = true → d.deployed = true
  pending : d.deployed = false → d.deploymentStates = c.deploymentStates

namespace Ages

variable {c d e : Contract}

lemma of_eq (hessence : d.essence = c.essence) (hdeployed : d.deployed = c.deployed)
    (hstates : d.deploymentStates = c.deploymentStates) : c.Ages d :=
  ⟨hessence, fun h => hdeployed.trans h, fun _ => hstates⟩

lemma of_deployed (hessence : d.essence = c.essence) (hdeployed : d.deployed = true) : c.Ages d where
  essence := hessence
  deployed := fun _ => hdeployed
  pending := by
    intro hd
    rw [hdeployed] at hd
    cases hd

lemma address (h : c.Ages d) : d.address = c.address := by
  have hessence : d.essence.address = c.essence.address := congrArg Contract.address h.essence
  exact hessence

lemma deployer (h : c.Ages d) : d.deployer = c.deployer := by
  have hessence : d.essence.deployer = c.essence.deployer := congrArg Contract.deployer h.essence
  exact hessence

lemma code (h : c.Ages d) : d.code = c.code := by
  have hessence : d.essence.code = c.essence.code := congrArg Contract.code h.essence
  exact hessence

lemma refl (c : Contract) : c.Ages c := of_eq rfl rfl rfl

lemma trans (h : c.Ages d) (h' : d.Ages e) : c.Ages e where
  essence := h'.essence.trans h.essence
  deployed := fun hc => h'.deployed (h.deployed hc)
  pending := by
    intro he
    have hd : d.deployed = false := by
      rw [Bool.eq_false_iff]
      intro hd
      rw [h'.deployed hd] at he
      cases he
    exact (h'.pending he).trans (h.pending hd)

lemma dispose (c : Contract) : c.Ages c.dispose := by
  rw [Contract.dispose]
  split
  · exact refl c
  · exact of_eq rfl rfl rfl

end Ages

end Contract

lemma Ledger.engine_of_engine? {l : Ledger} {engine : Engine} (h : l.engine? = .ok engine) :
    l.engine = some engine := by
  rw [Ledger.engine?] at h
  cases he : l.engine with
  | none =>
    rw [he] at h
    cases h
  | some e =>
    rw [he] at h
    cases h
    rfl

/-- A change of a contract that leaves alone what it is and which handle it has. -/
structure Discreet (k : Contract → Contract) : Prop where
  ages : ∀ c : Contract, c.Ages (k c)
  number : ∀ c, (k c).number? = c.number?

lemma Discreet.deployer {k : Contract → Contract} (hk : Discreet k) (c : Contract) :
    (k c).deployer = c.deployer := (hk.ages c).deployer

lemma Discreet.steady {k : Contract → Contract} (hk : Discreet k) : Steady k where
  address := fun c => (hk.ages c).address
  deployed := fun c => (hk.ages c).deployed

lemma discreet_meter (number : Nat) (gas : Int) : Discreet (·.meter number gas) where
  ages := fun _ => .of_eq rfl rfl rfl
  number := by
    intro c
    rw [Contract.number?, Contract.meter, Option.map_map, Contract.number?]
    congr 1
    funext h
    simp only [Function.comp]
    split <;> rfl

/-- The entry is a message to or from a handle that has been given out. -/
def Entry.isMessage : Entry → Bool
  | .instantiated _ _ => false
  | .disposed _ => false
  | _ => true

namespace Run

def disposed (f : Frame) : Frame :=
  { f with ledger := f.ledger.enter f.contract.disposal }.modifyContract Contract.dispose

lemma handle_modifyContract (f : Frame) {k : Contract → Contract} (hk : ∀ c, (k c).handle = none) :
    (f.modifyContract k).contract.handle = none := by
  obtain ⟨l, seat, deployments⟩ := f
  cases seat with
  | registered a =>
    simp only [Frame.modifyContract, Frame.contract, Seat.contract]
    rw [Table.find?_modify, if_pos rfl]
    cases l.contracts.find? a with
    | none => rfl
    | some c => exact hk c
  | apart c => exact hk c

lemma handle_disposed (f : Frame) : (disposed f).contract.handle = none :=
  handle_modifyContract _ Contract.handle_dispose

lemma handle_abandoned (f : Frame) (e : Failure) : (abandoned f e).contract.handle = none :=
  handle_modifyContract _ Contract.handle_dispose

end Run

namespace Run

variable {call : Address → Bytes → Run CallResponse} {f g : Frame}

/-- The engine has been asked for the contract. -/
def asked (parameters : Parameters) (f : Frame) : Frame :=
  { f with
    ledger := { f.ledger with handles := f.ledger.handles + 1 }.enter
      [.instantiated (f.ledger.handles + 1) parameters] }

def equipped (handle : Handle) (c : Contract) : Contract := { c with handle := some handle }

lemma equip_cases {r : Except Failure Handle} (hx : equip.outcome f = some (r, g)) :
    (∃ e, r = .error e ∧ g = f) ∨ ∃ engine parameters, f.ledger.engine = some engine ∧
      ((∃ e, engine.instantiate parameters = .error e ∧ r = .error e ∧ g = asked parameters f) ∨
        ∃ program, engine.instantiate parameters = .ok program ∧
          r = .ok ⟨f.ledger.handles + 1, 0, program⟩ ∧
          g = (asked parameters f).modifyContract
            (equipped ⟨f.ledger.handles + 1, 0, program⟩)) := by
  simp only [equip, outcome_bind, outcome_contract, outcome_ledger, outcome_lift,
    outcome_modifyLedger, outcome_enter, outcome_modifyContract, outcome_pure,
    Outcome.some_andThen] at hx
  split at hx
  case h_2 =>
    cases hx
    exact .inl ⟨_, rfl, rfl⟩
  case h_1 code _ =>
  split at hx
  case h_2 =>
    cases hx
    exact .inl ⟨_, rfl, rfl⟩
  case h_1 engine hengine =>
  refine .inr ⟨engine, ⟨f.contract.address, code, f.contract.gasLimit, f.ledger.settings.network⟩,
    Ledger.engine_of_engine? hengine, ?_⟩
  split at hx
  case h_2 e hrefused =>
    cases hx
    exact .inl ⟨e, hrefused, rfl, rfl⟩
  case h_1 program hgiven =>
    cases hx
    exact .inr ⟨program, hgiven, rfl, rfl⟩

lemma number?_modifyContract (f : Frame) {k : Contract → Contract}
    (hk : ∀ c, (k c).number? = c.number?) :
    (f.modifyContract k).contract.number? = f.contract.number? := by
  obtain ⟨l, seat, deployments⟩ := f
  cases seat with
  | registered a =>
    simp only [Frame.modifyContract, Frame.contract, Seat.contract]
    rw [Table.find?_modify, if_pos rfl]
    cases l.contracts.find? a with
    | none => rfl
    | some c => exact hk c
  | apart c => exact hk c

lemma handle_of_announce {c : Contract} {r : Except Failure Unit}
    (hx : (announce c).outcome f = some (r, g)) : g.contract.handle = none := by
  simp only [announce, outcome_bind, outcome_ledger, Outcome.some_andThen] at hx
  split at hx
  · simp only [outcome_bind, outcome_contract, outcome_note, Outcome.some_andThen] at hx
    cases hx
    exact handle_disposed _
  · cases hx
    exact handle_disposed _

lemma handle_of_settling {c : Contract} {r q : Except Failure Unit}
    (hx : (settling c r).outcome f = some (q, g)) : g.contract.handle = none := by
  cases r with
  | error e =>
    rw [settling, outcome_bind, outcome_modifyContract, Outcome.some_andThen] at hx
    cases hx
    exact handle_disposed _
  | ok done =>
    rw [settling, outcome_bind, outcome_modifyContract, Outcome.some_andThen] at hx
    exact handle_of_announce hx

lemma handle_of_deploy {q : Except Failure Unit} (hx : (deploy call).outcome f = some (q, g)) :
    g.contract.handle = none ∨ q = .ok ⟨⟩ ∧ g.contract.number? = f.contract.number? := by
  rcases deploy_cases hx with ⟨-, rfl, ⟨-, rfl⟩ | ⟨-, rfl⟩⟩ | ⟨-, r, h, -, hsettle⟩
  · exact .inr ⟨rfl, rfl⟩
  · exact .inr ⟨rfl, number?_modifyContract _ fun _ => rfl⟩
  · exact .inl (handle_of_settling hsettle)

lemma handle_of_copied {target : Address} {copy : Contract}
    (hx : (copied call target).outcome f = some (.ok copy, g)) : copy.handle = none := by
  rw [copied, outcome_bind] at hx
  obtain ⟨r, h, -, hx⟩ := Outcome.andThen_eq_some hx
  cases r with
  | error e => cases hx
  | ok done =>
    simp only [outcome_copyTarget] at hx
    split at hx
    case h_1 l copy hcopy =>
      obtain ⟨code, resolved, rfl, rfl⟩ := copyOf_eq_ok hcopy
      cases hx
      rfl
    case h_2 => cases hx

lemma handle_of_reported {callee : Address} {response : CallResponse}
    {q : Except Failure CallResponse}
    (hx : (reported callee response).outcome f = some (q, g)) : g.contract.handle = none := by
  simp only [reported, outcome_bind, outcome_ledger, Outcome.some_andThen] at hx
  split at hx
  · simp only [outcome_bind, outcome_note, Outcome.some_andThen] at hx
    cases hx
    exact handle_disposed _
  · cases hx
    exact handle_disposed _

lemma handle_of_failed {calldata : Bytes} {sender origin : Option Address}
    {response : CallResponse} {e : Failure}
    (hx : (execute call calldata sender origin).outcome f = some (.ok response, g))
    (hfail : response.result = .error e) : g.contract.handle = none := by
  cases hdeploy : (deploy call).outcome f with
  | none =>
    rw [execute, outcome_bind, outcome_attempt, hdeploy] at hx
    cases hx
  | some o =>
    obtain ⟨_ | done, h⟩ := o
    · rw [execute, outcome_bind, outcome_attempt, hdeploy] at hx
      cases hx
      exact (handle_of_deploy hdeploy).resolve_right fun h => by cases h.1
    · rw [outcome_execute_of_deploy hdeploy] at hx
      obtain ⟨r, k, -, hx⟩ := Outcome.andThen_eq_some hx
      cases r with
      | ok reply =>
        cases hx
        cases hfail
      | error e =>
        cases hx
        exact handle_abandoned _ _

end Run

open Run

variable {α : Type} {P : Frame → Frame → Prop} {f g : Frame}

lemma Leads.of_outcome {x : Run α} {r : Except Failure α} (hx : x.outcome f = some (r, g))
    (h : P f g) : Leads P f x := by
  intro q g' hrun
  cases hx.symm.trans hrun
  exact h

/-- A relation that is sustained by whatever is done without the engine. -/
structure Slight (P : Frame → Frame → Prop) : Prop where
  note : ∀ f level text, P f { f with ledger := f.ledger.note level text }
  code : ∀ f a code, P f { f with ledger := f.ledger.setCode a code }
  own : ∀ f k, Discreet k → P f (f.modifyContract k)
  other : ∀ f a k, Discreet k → P f { f with ledger := f.ledger.modifyContract a k }
  deployments : ∀ f d, P f { f with deployments := d }
  dispose : ∀ f, P f (disposed f)

namespace Slight

lemma leads_note (hP : Slight P) (level : Level) (text : Text) : Leads P f (Run.note level text) :=
  .of_outcome (outcome_note level text f) (hP.note f level text)

lemma leads_modifyContract (hP : Slight P) {k : Contract → Contract} (hk : Discreet k) :
    Leads P f (modifyContract k) :=
  .of_outcome (outcome_modifyContract k f) (hP.own f k hk)

lemma leads_dispose (hP : Slight P) : Leads P f Run.dispose :=
  .of_outcome (outcome_dispose f) (hP.dispose f)

variable [IsPreorder Frame P] (hP : Slight P)

include hP

omit hP in
lemma leads_contract : Leads P f contract := .of_outcome (outcome_contract f) (refl f)

omit hP in
lemma leads_ledger : Leads P f ledger := .of_outcome (outcome_ledger f) (refl f)

lemma leads_optional {p : Prop} [Decidable p] (level : Level) (text : Text) {k : Run α}
    (hk : ∀ g, Leads P g k) :
    Leads P f (if p then Run.note level text >>= fun _ => k else k) :=
  .ite ((hP.leads_note level text).bind fun _ g => hk g) (hk f)

lemma leads_deployCopy (source : Address) (salt : Bytes) :
    Leads P f (Host.deployCopy source salt) := by
  rw [Host.deployCopy]
  refine leads_contract.bind fun c g => leads_ledger.bind fun l g => ?_
  refine hP.leads_optional _ _ fun g => (Leads.lift _).bind fun address g => ?_
  obtain ⟨seed, derived⟩ := address
  refine .ite (.throw _) (.ite (.throw _) ((Leads.lift _).bind fun code g => ?_))
  have hcode : Leads P g (modifyLedger (·.setCode derived code)) :=
    .of_outcome (outcome_modifyLedger _ g) (hP.code g derived code)
  refine hcode.bind fun _ g => ?_
  have hrecord : Leads P g (modifyContract (recording derived code)) :=
    hP.leads_modifyContract ⟨fun _ => .of_eq rfl rfl rfl, fun _ => rfl⟩
  exact hrecord.bind fun _ g => hP.leads_optional _ _ fun g => .pure _

lemma leads_answer (call : Address → Bytes → Run CallResponse) {request : HostFunction}
    (h : request ≠ .call) (data : Bytes) : Leads P f (Host.answer call request data) := by
  cases request with
  | load =>
    refine (Leads.lift _).bind fun pointer g => Leads.bind ?_ fun value g => .lift _
    refine leads_contract.bind fun c g => leads_ledger.bind fun l g => ?_
    exact hP.leads_optional _ _ fun g => .pure _
  | store =>
    refine (Leads.lift _).bind fun entry g => Leads.bind ?_ fun _ g => .pure _
    refine leads_contract.bind fun c g => leads_ledger.bind fun l g => ?_
    refine hP.leads_optional _ _ fun g => ?_
    exact hP.leads_modifyContract ⟨fun _ => .of_eq rfl rfl rfl, fun _ => rfl⟩
  | nextPointer => exact (Leads.lift _).bind fun query g => leads_contract.bind fun c g => .lift _
  | call => exact absurd rfl h
  | deploy =>
    exact (Leads.lift _).bind fun source g => (hP.leads_deployCopy _ _).bind fun _ g => .pure _
  | inputs => exact leads_ledger.bind fun l g => .pure _
  | outputs => exact leads_ledger.bind fun l g => .pure _
  | log =>
    refine (Leads.lift _).bind fun message g => Leads.bind ?_ fun _ g => .pure _
    exact leads_contract.bind fun c g => hP.leads_note _ _
  | emit =>
    refine (Leads.lift _).bind fun event g => Leads.bind ?_ fun _ g => .pure _
    exact hP.leads_modifyContract ⟨fun _ => .of_eq rfl rfl rfl, fun _ => rfl⟩

lemma charged (number : Nat) (gas : Int) (f : Frame) : P f (Run.charged number gas f) := by
  have hmeter : P f (f.modifyContract (·.meter number gas)) :=
    hP.own f _ (discreet_meter number gas)
  rw [Run.charged]
  split
  · exact trans_of P hmeter (hP.note _ _ _)
  · exact hmeter

lemma heard (calldata : Bytes) (f : Frame) : P f (Run.heard calldata f) := by
  rw [Run.heard]
  split
  · exact hP.note f _ _
  · exact refl f

lemma opened (f : Frame) (target : Address) : P f { f with ledger := Run.opened f target } := by
  rw [Run.opened]
  split
  · exact hP.note f _ _
  · exact refl f

lemma leads_reported (callee : Address) (response : CallResponse) :
    Leads P f (reported callee response) :=
  leads_ledger.bind fun _ _ => hP.leads_optional _ _ fun _ =>
    hP.leads_dispose.bind fun _ _ => .pure _

lemma leads_announce (c : Contract) : Leads P f (announce c) := by
  refine leads_ledger.bind fun l g => .ite ?_ hP.leads_dispose
  refine leads_contract.bind fun _ _ => (hP.leads_note _ _).bind fun _ _ => ?_
  exact hP.leads_dispose

lemma leads_settling (c : Contract) (r : Except Failure Unit) : Leads P f (settling c r) := by
  cases r with
  | error e =>
    have hreset : Leads P f (modifyContract fun c => { c with states := [] }) :=
      hP.leads_modifyContract ⟨fun _ => .of_eq rfl rfl rfl, fun _ => rfl⟩
    exact hreset.bind fun _ _ => hP.leads_dispose.bind fun _ _ => .throw _
  | ok done =>
    have hconstructed : Leads P f (modifyContract constructed) :=
      hP.leads_modifyContract ⟨fun _ => .of_deployed rfl rfl, fun _ => rfl⟩
    exact hconstructed.bind fun _ _ => hP.leads_announce c

lemma leads_copyTarget (target : Address) : Leads P f (copyTarget target) := by
  intro q g hx
  have hrun : (copyTarget target).outcome f = some (q, g) := hx
  rw [outcome_copyTarget] at hrun
  split at hrun
  case h_1 l copy hcopy =>
    obtain ⟨code, resolved, rfl, -⟩ := copyOf_eq_ok hcopy
    cases hrun
    exact hP.code f _ code
  case h_2 =>
    cases hrun
    exact refl _

lemma withdraw (f : Frame) (deployments : List Deployment) :
    P f { f with ledger := Run.withdraw f.ledger deployments } := by
  induction deployments generalizing f with
  | nil => exact refl f
  | cons d rest ih =>
    have hforget := hP.other f d.1 (forget d.2) ⟨fun _ => .of_eq rfl rfl rfl, fun _ => rfl⟩
    exact trans_of P hforget (ih _)

lemma rolledBack (before : Contract) (f : Frame) : P f (Run.rolledBack before f) := by
  let restore (c : Contract) : Contract :=
    { c with states := before.states, children := before.children }
  have hrestored : P f (f.modifyContract restore) :=
    hP.own f restore ⟨fun _ => .of_eq rfl rfl rfl, fun _ => rfl⟩
  have hwithdrawn := hP.withdraw (f.modifyContract restore)
    (f.modifyContract restore).deployments.reverse
  exact trans_of P hrestored (trans_of P hwithdrawn (hP.deployments _ []))

lemma abandoned (f : Frame) (e : Failure) : P f (Run.abandoned f e) := by
  let detail := (e.fault?.map (·.detail)).getD []
  have hnoted := hP.note f .debug
    ("call into " ++ f.contract.address.text ++ " failed: " ++ detail)
  exact trans_of P hnoted (hP.dispose _)

lemma carryOver (f : Frame) (target : Address) (copy : Contract) :
    P f { f with ledger := (Run.carryOver f.ledger target copy).1 } := by
  cases hc : f.ledger.contracts.find? target with
  | none =>
    rw [Run.carryOver, hc]
    exact refl f
  | some c =>
    rw [Overlay.carryOver_of_find? copy hc]
    exact hP.other f target _ ⟨fun _ => .of_eq rfl rfl rfl, fun _ => rfl⟩

lemma closed (target : Address) (copy : Contract) (deployments : List Deployment)
    (response : CallResponse) (f : Frame) : P f (Run.closed target copy deployments response f) :=
  trans_of P (hP.carryOver f target copy) (trans_of P (hP.deployments _ _)
    (hP.own _ (adopt response) ⟨fun _ => .of_eq rfl rfl rfl, fun _ => rfl⟩))

end Slight

lemma Leads.setEnvironment [IsPreorder Frame P]
    (h : ∀ f e, e.isMessage = true → P f { f with ledger := f.ledger.enter [e] })
    (given : EnvironmentGiven) : Leads P f (Run.setEnvironment given) := by
  rw [Run.setEnvironment]
  refine Slight.leads_contract.bind fun c g => Slight.leads_ledger.bind fun l g => ?_
  refine (Leads.lift _).bind fun record g => (Leads.lift _).bind fun handle g => ?_
  have htold : Leads P g (Run.enter (.environment handle.number record)) :=
    .of_outcome (outcome_enter _ g) (h g _ rfl)
  refine htold.bind fun _ g => ?_
  cases handle.program.refusal with
  | some e => exact .throw e
  | none => exact .pure _

/-- A relation in which a caller stands through its calls, if what is called stands in the other one. It
is seen from there: a deployment leaves a contract without a handle, or with the one that it had, and a
copy is made without a handle and left without one. -/
structure Relays (P Q : Frame → Frame → Prop) : Prop extends Slight Q where
  visit : ∀ f target g, f.ledger.hasContract target = true →
    P ⟨f.ledger, .registered target, []⟩ g →
    (g.contract.handle = none ∨
      g.contract.number? = (Seat.contract f.ledger (.registered target)).number?) →
    Q f { f with ledger := g.ledger }
  copy : ∀ f c g, c.handle = none → P ⟨f.ledger, .apart c, []⟩ g → g.contract.handle = none →
    Q f { f with ledger := g.ledger }

/-- A relation that is sustained by all that a run is made of. -/
structure Sustained (P : Frame → Frame → Prop) : Prop extends Relays P P where
  enter : ∀ f e, e.isMessage = true → P f { f with ledger := f.ledger.enter [e] }
  equip : ∀ f r g, f.contract.handle = none → equip.outcome f = some (r, g) → P f g

namespace Relays

variable {Q : Frame → Frame → Prop} [IsPreorder Frame Q] (hQ : Relays P Q)
  {call : Address → Bytes → Run CallResponse} (hdeploy : ∀ f, Leads P f (deploy call))

include hQ hdeploy

lemma leads_openCall (target : Address) : Leads Q f (openCall call target) := by
  intro q g hx
  have hrun : (openCall call target).outcome f = some (q, g) := hx
  rw [outcome_openCall_eq] at hrun
  have hopened := hQ.opened f target
  split at hrun
  · cases hrun
    exact refl _
  split at hrun
  case isFalse =>
    cases hrun
    exact hopened
  case isTrue hknown =>
    obtain ⟨r, h, hrun', hrun⟩ := Outcome.andThen_eq_some hrun
    cases hrun
    have hcontracts := (minds_opened f target).1
    -- the target is deployed in a frame of its own, of which the caller sees only the ledger
    refine trans_of Q hopened (hQ.visit { f with ledger := opened f target } target h ?_
      (hdeploy _ _ h hrun') ?_)
    · rwa [Ledger.hasContract, hcontracts]
    · exact (handle_of_deploy hrun').imp_right fun h => h.2

lemma leads_copied (target : Address) : Leads Q f (copied call target) :=
  (hQ.leads_openCall hdeploy target).bind fun _ _ => hQ.leads_copyTarget target

lemma leads_callWith [IsPreorder Frame P] (hP : Slight P)
    (hexecute : ∀ calldata sender origin f, Leads P f (execute call calldata sender origin))
    (target : Address) (calldata : Bytes) : Leads Q f (callWith call target calldata) := by
  intro q g hx
  have hrun : (callWith call target calldata).outcome f = some (q, g) := hx
  rw [outcome_callWith] at hrun
  obtain ⟨r, h, hcopied, hrun⟩ := Outcome.andThen_eq_some hrun
  have hh : Q f h := hQ.leads_copied hdeploy target r h hcopied
  cases r with
  | error e =>
    cases hrun
    exact hh
  | ok copy =>
    obtain ⟨response, k, k', hrun', hreported, rfl, -⟩ := entered_cases hrun
    have hvisit : P ⟨h.ledger, .apart copy, []⟩ k' :=
      trans_of P (hP.heard calldata _) (trans_of P
        (hexecute calldata _ _ _ _ k hrun') (hP.leads_reported _ _ _ k' hreported))
    have hcopy := hQ.copy h copy k' (handle_of_copied hcopied) hvisit (handle_of_reported hreported)
    exact trans_of Q hh (trans_of Q hcopy (hQ.closed _ _ _ _ _))

end Relays

namespace Sustained

variable [IsPreorder Frame P] (hP : Sustained P)

include hP

omit [IsPreorder Frame P] in
lemma leads_enter {e : Entry} (he : e.isMessage = true) : Leads P f (Run.enter e) :=
  .of_outcome (outcome_enter e f) (hP.enter f e he)

lemma leads_load : Leads P f load := by
  intro r g hx
  have hrun : load.outcome f = some (r, g) := hx
  have hbegun : P f ((disposed f).modifyContract begun) :=
    trans_of P (hP.dispose f) (hP.own _ begun ⟨fun _ => .of_eq rfl rfl rfl, fun _ => rfl⟩)
  have hnone : ((disposed f).modifyContract begun).contract.handle = none := by
    rw [disposed, Frame.modifyContract_modifyContract]
    exact handle_modifyContract _ Contract.handle_dispose
  rw [load_eq, outcome_bind, outcome_dispose, Outcome.some_andThen] at hrun
  simp only at hrun
  rw [outcome_bind, outcome_modifyContract, Outcome.some_andThen] at hrun
  exact trans_of P hbegun (hP.equip _ r g hnone hrun)

lemma leads_setEnvironment (given : EnvironmentGiven) : Leads P f (setEnvironment given) :=
  .setEnvironment hP.enter given

lemma leads_entry (calldata : Bytes) (given : EnvironmentGiven) :
    Leads P f (entry calldata given) := by
  refine hP.leads_load.bind fun handle g => (hP.leads_setEnvironment given).bind fun record g => ?_
  exact (hP.leads_enter rfl).bind fun _ g => .pure _

lemma leads_inception : Leads P f inception := by
  refine hP.leads_load.bind fun handle g => Slight.leads_contract.bind fun c g => ?_
  refine (hP.leads_setEnvironment _).bind fun record g => ?_
  exact (hP.leads_enter rfl).bind fun _ g => .pure _

lemma answered (number : Nat) (request : HostFunction) (reply : Except Failure Bytes) (f : Frame) :
    P f (Run.answered number request reply f) := by
  cases reply with
  | error e => exact refl f
  | ok bs =>
    simp only [Run.answered]
    split
    · exact hP.enter f _ rfl
    · exact refl f

section Calls

variable {call : Address → Bytes → Run CallResponse}
  (hcall : ∀ target calldata f, Leads P f (call target calldata))

include hcall

lemma leads_request (request : HostFunction) (data : Bytes) :
    Leads P f (Host.answer call request data) := by
  by_cases h : request = .call
  case neg => exact hP.leads_answer call h data
  case pos =>
    subst h
    exact (Leads.lift _).bind fun target g => (hcall _ _ g).bind fun response g =>
      (Leads.lift _).bind fun gas g => .pure _

lemma leads_interpret (number : Nat) (p : Program) (gas : Int) :
    Leads P f (interpret (Host.answer call) number p gas) := by
  intro q g hx
  change (interpret (Host.answer call) number p gas).outcome f = some (q, g) at hx
  induction p generalizing gas f with
  | done reply =>
    cases hx
    exact refl _
  | fail e =>
    cases hx
    exact refl _
  | ask request data next ih =>
    rw [outcome_interpret_ask] at hx
    obtain ⟨reply, h, hrequest, hx⟩ := Outcome.andThen_eq_some hx
    have hh : P f h := hP.leads_request hcall request data _ _ hrequest
    exact trans_of P hh (trans_of P (hP.answered number request reply h) (ih reply gas hx))
  | charge amount next ih =>
    rw [outcome_interpret_charge] at hx
    exact trans_of P (hP.charged number (gas + amount) f) (ih _ hx)
  | caught e next ih =>
    rw [interpret, outcome_bind, outcome_enter, Outcome.some_andThen] at hx
    exact trans_of P (hP.enter f _ rfl) (ih gas hx)

lemma leads_running {start : Run (Nat × Program)} (hstart : ∀ f, Leads P f start) :
    Leads P f (running call start) :=
  (hstart f).bind fun started _ => hP.leads_interpret hcall started.1 started.2 0

lemma leads_construct : Leads P f (construct call) := by
  rw [construct_eq]
  exact (hP.leads_running hcall fun _ => hP.leads_inception).bind fun _ g => .pure _

lemma leads_deploy : Leads P f (deploy call) := by
  intro q g hx
  rcases deploy_cases hx with ⟨-, -, ⟨-, rfl⟩ | ⟨-, rfl⟩⟩ | ⟨-, r, h, hconstruct, hsettle⟩
  · exact refl _
  · exact hP.own _ marked ⟨fun _ => .of_deployed rfl rfl, fun _ => rfl⟩
  · exact trans_of P (hP.leads_construct hcall r h hconstruct)
      (hP.leads_settling f.contract r q g hsettle)

lemma leads_execute (calldata : Bytes) (sender origin : Option Address) :
    Leads P f (execute call calldata sender origin) := by
  intro q g hx
  have hrun : (execute call calldata sender origin).outcome f = some (q, g) := hx
  cases hdeploy : (deploy call).outcome f with
  | none =>
    rw [execute, outcome_bind, outcome_attempt, hdeploy] at hrun
    cases hrun
  | some o =>
    obtain ⟨done, h⟩ := o
    have hh : P f h := hP.leads_deploy hcall done h hdeploy
    cases done with
    | error e =>
      rw [execute, outcome_bind, outcome_attempt, hdeploy] at hrun
      cases hrun
      exact hh
    | ok done =>
      rw [outcome_execute_of_deploy hdeploy, runMethod_eq] at hrun
      obtain ⟨r, k, hmethod, hrun⟩ := Outcome.andThen_eq_some hrun
      have hk : P { h with deployments := [] } k :=
        hP.leads_running hcall (fun _ => hP.leads_entry _ _) r k hmethod
      have hready : P f k := trans_of P hh (trans_of P (hP.deployments h []) hk)
      cases r with
      | ok reply =>
        cases hrun
        exact hready
      | error e =>
        cases hrun
        exact trans_of P hready (trans_of P (hP.rolledBack _ _) (hP.abandoned _ _))

lemma leads_receive (calldata data : Bytes) (sender origin : Option Address) :
    Leads P f (receive calldata (execute call data sender origin)) := by
  intro q g hx
  have hrun : (receive calldata (execute call data sender origin)).outcome f = some (q, g) := hx
  rw [outcome_receive] at hrun
  obtain ⟨r, h, hexecute, hrun⟩ := Outcome.andThen_eq_some hrun
  have hh : P f h := trans_of P (hP.heard calldata f)
    (hP.leads_execute hcall data sender origin r h hexecute)
  cases r with
  | error e =>
    cases hrun
    exact hh
  | ok response => exact trans_of P hh (hP.leads_reported _ _ q g hrun)

lemma leads_openCall (target : Address) : Leads P f (openCall call target) :=
  hP.toRelays.leads_openCall (fun _ => hP.leads_deploy hcall) target

lemma leads_copied (target : Address) : Leads P f (copied call target) :=
  hP.toRelays.leads_copied (fun _ => hP.leads_deploy hcall) target

lemma leads_callWith (target : Address) (calldata : Bytes) :
    Leads P f (callWith call target calldata) :=
  hP.toRelays.leads_callWith (fun _ => hP.leads_deploy hcall) hP.toSlight
    (fun _ _ _ _ => hP.leads_execute hcall _ _ _) target calldata

end Calls

lemma leads_call (n : Nat) (target : Address) (calldata : Bytes) :
    Leads P f (Run.call n target calldata) := by
  induction n generalizing f target calldata with
  | zero =>
    intro q g hx
    cases hx
  | succ n ih => exact hP.leads_callWith (fun target calldata _ => ih target calldata) target calldata

end Sustained

/-- A call leaves its caller in the one relation, if all runs sustain the other. -/
lemma Relays.leads_call {Q : Frame → Frame → Prop} [IsPreorder Frame P] [IsPreorder Frame Q]
    (hQ : Relays P Q) (hP : Sustained P) (n : Nat) (target : Address) (calldata : Bytes) :
    Leads Q f (Run.call n target calldata) := by
  cases n with
  | zero =>
    intro q g hx
    cases hx
  | succ n =>
    have hcall (target : Address) (calldata : Bytes) (f : Frame) :
        Leads P f (Run.call n target calldata) := hP.leads_call n target calldata
    exact hQ.leads_callWith (fun _ => hP.leads_deploy hcall) hP.toSlight
      (fun _ _ _ _ => hP.leads_execute hcall _ _ _) target calldata

end ChainReplay
