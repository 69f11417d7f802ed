import ChainReplay.Proofs.Execution.Simulation

/-! Frames that are alike except in storage. Whatever neither reads nor writes storage does the same
on both. -/

namespace ChainReplay

/-- Changes of a ledger that leave its contracts alone. -/
inductive Bookkeeping : (Ledger → Ledger) → Prop
  | enter (entries : List Entry) : Bookkeeping (·.enter entries)
  | note (level : Level) (text : Text) : Bookkeeping (·.note level text)
  | count (n : Nat) : Bookkeeping fun l => { l with handles := n }
  | code (a : Address) (code : Bytes) : Bookkeeping (·.setCode a code)

/-- A change of a contract that neither reads nor writes its storage. -/
structure Tending (k : Contract → Contract) : Prop where
  blind : ∀ c s, k { c with states := s } = { k c with states := s }
  address : ∀ c, (k c).address = c.address
  deployed : ∀ c, (k c).deployed = c.deployed

structure Alike (S : Frame → Frame → Prop) : Prop where
  contract : ∀ f g, S f g → ∃ s, g.contract = { f.contract with states := s }
  ledger : ∀ f g, S f g → ∃ t, g.ledger = { f.ledger with contracts := t }
  book : ∀ f g k, S f g → Bookkeeping k →
    S { f with ledger := k f.ledger } { g with ledger := k g.ledger }
  tend : ∀ f g k, S f g → Tending k → S (f.modifyContract k) (g.modifyContract k)

namespace Alike

open Run

variable {α β γ δ : Type} {S : Frame → Frame → Prop} {R : γ → δ → Prop}

lemma bind_contract (hS : Alike S) {k : Contract → Run γ} {m : Contract → Run δ}
    (h : ∀ c s, Simulates S R (k c) (m { c with states := s })) :
    Simulates S R (Run.contract >>= k) (Run.contract >>= m) := by
  refine Simulates.bind (R := fun c d => ∃ s, d = { c with states := s })
    (.step outcome_contract outcome_contract hS.contract fun f g hS => hS) ?_
  rintro c _ ⟨s, rfl⟩
  exact h c s

lemma bind_ledger (hS : Alike S) {k : Ledger → Run γ} {m : Ledger → Run δ}
    (h : ∀ l t, Simulates S R (k l) (m { l with contracts := t })) :
    Simulates S R (Run.ledger >>= k) (Run.ledger >>= m) := by
  refine Simulates.bind (R := fun l m => ∃ t, m = { l with contracts := t })
    (.step outcome_ledger outcome_ledger hS.ledger fun f g hS => hS) ?_
  rintro l _ ⟨t, rfl⟩
  exact h l t

lemma bind_eq {x y : Run α} {k : α → Run γ} {m : α → Run δ} (hx : Simulates S Eq x y)
    (h : ∀ a, Simulates S R (k a) (m a)) : Simulates S R (x >>= k) (y >>= m) :=
  hx.bind fun a _ hab => hab ▸ h a

lemma modifyLedger (hS : Alike S) {k : Ledger → Ledger} (hk : Bookkeeping k) :
    Simulates S Eq (modifyLedger k) (modifyLedger k) :=
  .step (outcome_modifyLedger k) (outcome_modifyLedger k) (fun _ _ _ => rfl)
    fun f g h => hS.book f g k h hk

lemma modifyContract (hS : Alike S) {k : Contract → Contract} (hk : Tending k) :
    Simulates S Eq (modifyContract k) (modifyContract k) :=
  .step (outcome_modifyContract k) (outcome_modifyContract k) (fun _ _ _ => rfl)
    fun f g h => hS.tend f g k h hk

lemma enter (hS : Alike S) (e : Entry) : Simulates S Eq (enter e) (enter e) :=
  hS.modifyLedger (.enter [e])

lemma note (hS : Alike S) (level : Level) (text : Text) :
    Simulates S Eq (note level text) (note level text) :=
  hS.modifyLedger (.note level text)

lemma lift (r : Except Failure α) : Simulates S Eq (lift r) (lift r) :=
  .lift (Agree.refl r)

lemma optional {x y : Run PUnit} {k : Run γ} {m : Run δ} {p : Prop} [Decidable p]
    (h : Simulates S Eq x y) (hk : Simulates S R k m) :
    Simulates S R (if p then x >>= fun _ => k else k) (if p then y >>= fun _ => m else m) :=
  .ite p (bind_eq h fun _ => hk) hk

lemma tending_dispose : Tending Contract.dispose := by
  constructor <;> intro c <;> rcases h : c.handle <;> simp [Contract.dispose, h]

lemma dispose (hS : Alike S) : Simulates S Eq dispose dispose :=
  hS.bind_contract fun _ _ =>
    bind_eq (hS.modifyLedger (.enter _)) fun _ => hS.modifyContract tending_dispose

lemma load (hS : Alike S) : Simulates S Eq load load := by
  rw [Run.load]
  refine bind_eq hS.dispose fun _ => ?_
  refine bind_eq (hS.modifyContract ⟨fun _ _ => rfl, fun _ => rfl, fun _ => rfl⟩) fun _ => ?_
  refine hS.bind_contract fun c _ => hS.bind_ledger fun l _ => ?_
  refine bind_eq (lift c.code?) fun code => bind_eq (lift l.engine?) fun engine => ?_
  refine bind_eq (hS.modifyLedger (.count _)) fun _ => bind_eq (hS.enter _) fun _ => ?_
  refine bind_eq (lift _) fun program => ?_
  refine bind_eq (hS.modifyContract ⟨fun _ _ => rfl, fun _ => rfl, fun _ => rfl⟩) fun _ => ?_
  exact .pure rfl

lemma setEnvironment (hS : Alike S) (given : EnvironmentGiven) :
    Simulates S Eq (setEnvironment given) (setEnvironment given) := by
  rw [Run.setEnvironment]
  refine hS.bind_contract fun c _ => hS.bind_ledger fun l _ => ?_
  refine bind_eq (lift (environmentRecord l c given)) fun record => ?_
  refine bind_eq (lift c.handle?) fun handle => bind_eq (hS.enter _) fun _ => ?_
  cases handle.program.refusal with
  | some e => exact .throw e
  | none => exact .pure rfl

lemma observeGas (hS : Alike S) (gas : Int) (method : Text) :
    Simulates S Eq (Host.observeGas gas method) (Host.observeGas gas method) := by
  rw [Host.observeGas]
  refine hS.bind_ledger fun l _ => .ite _ ?_ (.pure rfl)
  exact hS.bind_contract fun c _ => hS.note _ _

lemma interpret (hS : Alike S) {host host' : HostFunction → Bytes → Run Bytes}
    (hh : ∀ request data, Simulates S Eq (host request data) (host' request data)) (number : Nat)
    (p : Program) (gas : Int) :
    Simulates S Eq (interpret host number p gas) (interpret host' number p gas) := by
  induction p generalizing gas with
  | done reply => exact .pure rfl
  | fail e => exact .throw e
  | ask request data next ih =>
    refine (hh request data).attempt.bind fun q r hqr => ?_
    cases hqr.eq
    cases q with
    | error e => exact ih (.error e) gas
    | ok bs => exact .ite _ (bind_eq (hS.enter _) fun _ => ih (.ok bs) gas) (ih (.ok bs) gas)
  | charge amount next ih =>
    refine bind_eq (hS.modifyContract ⟨fun _ _ => rfl, fun _ => rfl, fun _ => rfl⟩) fun _ => ?_
    exact bind_eq (hS.observeGas _ _) fun _ => ih _
  | caught e next ih => exact bind_eq (hS.enter _) fun _ => ih gas

lemma runMethod (hS : Alike S) {host host' : HostFunction → Bytes → Run Bytes}
    (hh : ∀ request data, Simulates S Eq (host request data) (host' request data))
    (calldata : Bytes) (given : EnvironmentGiven) :
    Simulates S Eq (runMethod host calldata given) (runMethod host' calldata given) := by
  rw [Run.runMethod]
  refine bind_eq hS.load fun handle => bind_eq (hS.setEnvironment given) fun record => ?_
  exact bind_eq (hS.enter _) fun _ => hS.interpret hh _ _ _

lemma deployCopy (hS : Alike S) (source : Address) (salt : Bytes) :
    Simulates S Eq (Host.deployCopy source salt) (Host.deployCopy source salt) := by
  rw [Host.deployCopy]
  refine hS.bind_contract fun c _ => hS.bind_ledger fun l _ => ?_
  refine optional (hS.note _ _) (bind_eq (lift _) fun derived => ?_)
  refine .ite _ (.throw _) (.ite _ (.throw _) ?_)
  refine bind_eq (lift (l.code? source)) fun code => ?_
  refine bind_eq (hS.modifyLedger (.code _ code)) fun _ => ?_
  refine bind_eq (hS.modifyContract ⟨fun _ _ => rfl, fun _ => rfl, fun _ => rfl⟩) fun _ => ?_
  exact optional (hS.note _ _) (.pure rfl)

lemma logMessage (hS : Alike S) (message : Text) :
    Simulates S Eq (Host.logMessage message) (Host.logMessage message) :=
  hS.bind_contract fun _ _ => hS.note _ _

lemma emitEvent (hS : Alike S) (kind : Text) (data : Bytes) :
    Simulates S Eq (Host.emitEvent kind data) (Host.emitEvent kind data) :=
  hS.modifyContract ⟨fun _ _ => rfl, fun _ => rfl, fun _ => rfl⟩

lemma receive (hS : Alike S) (calldata : Bytes) {respond respond' : Run CallResponse}
    (h : Simulates S Eq respond respond') :
    Simulates S Eq (receive calldata respond) (receive calldata respond') := by
  rw [Run.receive]
  refine hS.bind_contract fun c _ => hS.bind_ledger fun l _ => ?_
  refine optional (hS.note _ _) (bind_eq h fun response => hS.bind_ledger fun l _ => ?_)
  exact optional (hS.note _ _) (bind_eq hS.dispose fun _ => .pure rfl)

lemma answer (hS : Alike S) {call call' : Address → Bytes → Run CallResponse}
    (hcall : ∀ target calldata, Simulates S Eq (call target calldata) (call' target calldata))
    (request : HostFunction) (data : Bytes) (hl : request ≠ .load) (hs : request ≠ .store)
    (hn : request ≠ .nextPointer) :
    Simulates S Eq (Host.answer call request data) (Host.answer call' request data) := by
  cases request with
  | load => exact absurd rfl hl
  | store => exact absurd rfl hs
  | nextPointer => exact absurd rfl hn
  | call =>
    refine bind_eq (lift _) fun target => bind_eq (hcall _ _) fun response => ?_
    exact bind_eq (lift _) fun gas => .pure rfl
  | deploy =>
    exact bind_eq (lift _) fun source => bind_eq (hS.deployCopy _ _) fun _ => .pure rfl
  | inputs => exact hS.bind_ledger fun _ _ => .pure rfl
  | outputs => exact hS.bind_ledger fun _ _ => .pure rfl
  | log => exact bind_eq (lift _) fun message => bind_eq (hS.logMessage _) fun _ => .pure rfl
  | emit => exact bind_eq (lift _) fun event => bind_eq (hS.emitEvent _ _) fun _ => .pure rfl

end Alike

end ChainReplay
