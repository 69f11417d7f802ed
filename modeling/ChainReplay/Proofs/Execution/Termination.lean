import ChainReplay.Proofs.Execution.Fuel

/-! Programs that call no other contract: running them needs no fuel, so every call has an outcome.
-/

namespace ChainReplay

/-- The program calls no other contract, whatever it is answered. -/
inductive Program.Closed : Program → Prop
  | done (reply : Bytes) : Closed (.done reply)
  | fail (e : Failure) : Closed (.fail e)
  | ask {request : HostFunction} {data : Bytes} {next : Except Failure Bytes → Program}
      (hrequest : request ≠ .call) (hnext : ∀ r, Closed (next r)) : Closed (.ask request data next)
  | charge (gas : Int) {next : Program} (hnext : Closed next) : Closed (.charge gas next)
  | caught (e : Failure) {next : Program} (hnext : Closed next) : Closed (.caught e next)

structure Instance.Closed (i : Instance) : Prop where
  construct : ∀ record calldata, (i.construct record calldata).Closed
  execute : ∀ record calldata, (i.execute record calldata).Closed

def Engine.Closed (e : Engine) : Prop := ∀ parameters i, e.instantiate parameters = .ok i → i.Closed

@[simp] lemma Frame.engine_modifyContract (f : Frame) (k : Contract → Contract) :
    (f.modifyContract k).ledger.engine = f.ledger.engine := by
  rw [Frame.modifyContract]
  cases f.seat <;> rfl

namespace Run

def Total {α : Type} (x : Run α) : Prop := ∀ f, (x.outcome f).isSome = true

namespace Total

variable {α β : Type}

lemma of_eq {x : Run α} {r : Frame → Except Failure α} {k : Frame → Frame}
    (h : ∀ f, x.outcome f = some (r f, k f)) : Total x := by
  intro f
  rw [h]
  rfl

lemma bind {x : Run α} {k : α → Run β} (hx : Total x) (hk : ∀ a, Total (k a)) :
    Total (x >>= k) := by
  intro f
  obtain ⟨⟨r, g⟩, h⟩ := Option.isSome_iff_exists.mp (hx f)
  rw [outcome_bind, h, Outcome.some_andThen]
  cases r with
  | ok a => exact hk a g
  | error e => rfl

lemma attempt {x : Run α} (hx : Total x) : Total (attempt x) := by
  intro f
  obtain ⟨⟨r, g⟩, h⟩ := Option.isSome_iff_exists.mp (hx f)
  rw [outcome_attempt, h]
  rfl

lemma ite {p : Prop} [Decidable p] {x y : Run α} (hx : Total x) (hy : Total y) :
    Total (if p then x else y) := by
  split
  · exact hx
  · exact hy

lemma optional {x : Run PUnit} {k : Run β} {p : Prop} [Decidable p] (hx : Total x) (hk : Total k) :
    Total (if p then x >>= fun _ => k else k) :=
  ite (hx.bind fun _ => hk) hk

lemma pure (a : α) : Total (pure a : Run α) := of_eq (outcome_pure a)

lemma throw (e : Failure) : Total (throw e : Run α) := of_eq (outcome_throw e)

lemma lift (r : Except Failure α) : Total (lift r) := of_eq (outcome_lift r)

lemma contract : Total contract := of_eq outcome_contract

lemma ledger : Total ledger := of_eq outcome_ledger

lemma modifyContract (k : Contract → Contract) : Total (modifyContract k) :=
  of_eq (outcome_modifyContract k)

lemma modifyLedger (k : Ledger → Ledger) : Total (modifyLedger k) := of_eq (outcome_modifyLedger k)

lemma enter (e : Entry) : Total (enter e) := of_eq (outcome_enter e)

lemma note (level : Level) (text : Text) : Total (note level text) :=
  of_eq (outcome_note level text)

lemma dispose : Total dispose := of_eq outcome_dispose

lemma load : Total load := by
  rw [Run.load]
  refine dispose.bind fun _ => (modifyContract _).bind fun _ => contract.bind fun c => ?_
  refine ledger.bind fun l => (lift _).bind fun code => (lift _).bind fun engine => ?_
  refine (modifyLedger _).bind fun _ => (enter _).bind fun _ => (lift _).bind fun program => ?_
  exact (modifyContract _).bind fun _ => pure _

lemma setEnvironment (given : EnvironmentGiven) : Total (setEnvironment given) := by
  rw [Run.setEnvironment]
  refine contract.bind fun c => ledger.bind fun l => (lift _).bind fun record => ?_
  refine (lift _).bind fun handle => (enter _).bind fun _ => ?_
  cases handle.program.refusal with
  | none => exact pure _
  | some e => exact throw e

lemma observeGas (gas : Int) (method : Text) : Total (Host.observeGas gas method) :=
  ledger.bind fun _ => ite (contract.bind fun _ => note _ _) (pure _)

lemma loadPointer (pointer : Int) : Total (Host.loadPointer pointer) :=
  contract.bind fun _ => ledger.bind fun _ => optional (note _ _) (pure _)

lemma storePointer (pointer value : Int) : Total (Host.storePointer pointer value) :=
  contract.bind fun _ => ledger.bind fun _ => optional (note _ _) (modifyContract _)

lemma deployCopy (source : Address) (salt : Bytes) : Total (Host.deployCopy source salt) := by
  rw [Host.deployCopy]
  refine contract.bind fun c => ledger.bind fun l => optional (note _ _) ?_
  refine (lift _).bind fun derived => ite (throw _) (ite (throw _) ?_)
  refine (lift _).bind fun code => (modifyLedger _).bind fun _ => ?_
  refine (modifyContract _).bind fun _ => ?_
  exact optional (note _ _) (pure _)

lemma answer (call : Address → Bytes → Run CallResponse) {request : HostFunction}
    (h : request ≠ .call) (data : Bytes) : Total (Host.answer call request data) := by
  cases request with
  | load => exact (lift _).bind fun _ => (loadPointer _).bind fun _ => lift _
  | store => exact (lift _).bind fun _ => (storePointer _ _).bind fun _ => pure _
  | nextPointer => exact (lift _).bind fun _ => contract.bind fun _ => lift _
  | call => exact absurd rfl h
  | deploy => exact (lift _).bind fun _ => (deployCopy _ _).bind fun _ => pure _
  | inputs => exact ledger.bind fun _ => pure _
  | outputs => exact ledger.bind fun _ => pure _
  | log =>
    exact (lift _).bind fun _ => (contract.bind fun _ => note _ _).bind fun _ => pure _
  | emit => exact (lift _).bind fun _ => (modifyContract _).bind fun _ => pure _

lemma interpret (call : Address → Bytes → Run CallResponse) (number : Nat) {p : Program}
    (hp : p.Closed) (gas : Int) : Total (interpret (Host.answer call) number p gas) := by
  induction hp generalizing gas with
  | done reply => exact pure reply
  | fail e => exact throw e
  | ask hrequest _ ih =>
    refine (answer call hrequest _).attempt.bind fun r => ?_
    cases r with
    | error e => exact ih _ gas
    | ok bs => exact optional (enter _) (ih _ gas)
  | charge amount _ ih =>
    exact (modifyContract _).bind fun _ => (observeGas _ _).bind fun _ => ih _
  | caught e _ ih => exact (enter _).bind fun _ => ih gas

end Total

variable {engine : Engine}

lemma load_program {f g : Frame} {handle : Handle} (he : f.ledger.engine = some engine)
    (h : load.outcome f = some (.ok handle, g)) :
    ∃ parameters, engine.instantiate parameters = .ok handle.program := by
  simp only [load, outcome_bind, outcome_dispose, outcome_modifyContract, outcome_contract,
    outcome_ledger, outcome_lift, outcome_modifyLedger, outcome_enter, outcome_pure,
    Outcome.some_andThen, Ledger.engine?, Frame.engine_modifyContract, Ledger.enter, he] at h
  split at h
  case h_2 => cases h
  split at h
  case h_2 => cases h
  rename_i hprogram
  cases h
  exact ⟨_, hprogram⟩

lemma isSome_outcome_load_bind {α : Type} (hclosed : engine.Closed) {f : Frame}
    (he : f.ledger.engine = some engine) {k : Handle → Run α}
    (hk : ∀ handle, handle.program.Closed → Total (k handle)) :
    ((load >>= k).outcome f).isSome = true := by
  obtain ⟨⟨r, g⟩, h⟩ := Option.isSome_iff_exists.mp (Total.load f)
  rw [outcome_bind, h, Outcome.some_andThen]
  cases r with
  | error e => rfl
  | ok handle =>
    obtain ⟨parameters, hprogram⟩ := load_program he h
    exact hk handle (hclosed parameters _ hprogram) g

lemma isSome_outcome_construct (hclosed : engine.Closed) {f : Frame}
    (he : f.ledger.engine = some engine) (call : Address → Bytes → Run CallResponse) :
    ((construct call).outcome f).isSome = true := by
  rw [construct]
  refine isSome_outcome_load_bind hclosed he fun handle hprogram => ?_
  refine Total.contract.bind fun c => (Total.setEnvironment _).bind fun record => ?_
  refine (Total.enter _).bind fun _ => ?_
  exact (Total.interpret call _ (hprogram.construct _ _) _).bind fun _ => Total.pure _

lemma isSome_outcome_runMethod (hclosed : engine.Closed) {f : Frame}
    (he : f.ledger.engine = some engine) (call : Address → Bytes → Run CallResponse)
    (calldata : Bytes) (given : EnvironmentGiven) :
    ((runMethod (Host.answer call) calldata given).outcome f).isSome = true := by
  rw [runMethod]
  refine isSome_outcome_load_bind hclosed he fun handle hprogram => ?_
  refine (Total.setEnvironment _).bind fun record => (Total.enter _).bind fun _ => ?_
  exact Total.interpret call _ (hprogram.execute _ _) _

lemma isSome_outcome_deploy (hclosed : engine.Closed) {f : Frame}
    (he : f.ledger.engine = some engine) (call : Address → Bytes → Run CallResponse) :
    ((deploy call).outcome f).isSome = true := by
  obtain ⟨⟨r, g⟩, h⟩ :=
    Option.isSome_iff_exists.mp (isSome_outcome_construct hclosed he call)
  have hattempt : (attempt (construct call)).outcome f = some (.ok r, g) := by
    rw [outcome_attempt, h, Outcome.some_andThen]
  rw [deploy]
  rw [outcome_bind, outcome_contract, Outcome.some_andThen]
  simp only
  split
  · rfl
  split
  · rfl
  rw [outcome_bind, hattempt, Outcome.some_andThen]
  cases r with
  | error e =>
    exact ((Total.modifyContract _).bind fun _ => Total.dispose.bind fun _ => Total.throw _) g
  | ok _ =>
    refine ((Total.modifyContract _).bind fun _ => Total.ledger.bind fun l => ?_) g
    exact Total.ite (Total.contract.bind fun _ => (Total.note _ _).bind fun _ => Total.dispose)
      Total.dispose

theorem isSome_outcome_execute (hclosed : engine.Closed) {f : Frame}
    (he : f.ledger.engine = some engine) (calldata : Bytes) (sender origin : Option Address) :
    ((execute (Run.call 0) calldata sender origin).outcome f).isSome = true := by
  obtain ⟨⟨r, g⟩, h⟩ :=
    Option.isSome_iff_exists.mp (isSome_outcome_deploy hclosed he (Run.call 0))
  have hcall := (Ledger.stable_continues f.ledger).call_add 0 0
  obtain ⟨_, _, _, _, rfl, hcont⟩ :=
    (lasting_continuing f.ledger).deploy hcall f f ⟨rfl, .refl _⟩ r g h
  rw [execute]
  rw [outcome_bind, outcome_attempt, h, Outcome.some_andThen]
  cases r with
  | error e => rfl
  | ok _ =>
    have hg : (Frame.mk g.ledger g.seat []).ledger.engine = some engine := hcont.engine.trans he
    obtain ⟨⟨q, g'⟩, h'⟩ := Option.isSome_iff_exists.mp
      (isSome_outcome_runMethod hclosed hg (Run.call 0) calldata (.caller sender origin))
    simp only [Outcome.some_andThen, outcome_bind, outcome_contract, outcome_modify,
      outcome_attempt, h']
    cases q with
    | ok reply => rfl
    | error e => rfl

end Run

end ChainReplay
