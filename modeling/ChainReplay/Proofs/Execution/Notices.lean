import ChainReplay.Proofs.Execution.Nesting

/-! No run reads the notices of its ledger: on ledgers that differ in nothing else it gives the same
result, and leaves ledgers behind that differ in nothing else. -/

namespace ChainReplay

namespace Ledger

/-- The second ledger is the first one, with other notices. -/
inductive Echoes (l : Ledger) : Ledger → Prop
  | intro (notices : List Notice) : Echoes l { l with notices }

variable {l m n : Ledger}

lemma Echoes.refl (l : Ledger) : l.Echoes l := .intro l.notices

lemma Echoes.symm (h : l.Echoes m) : m.Echoes l := by
  obtain ⟨notices⟩ := h
  exact .intro l.notices

lemma Echoes.trans (h : l.Echoes m) (h' : m.Echoes n) : l.Echoes n := by
  obtain ⟨notices⟩ := h
  obtain ⟨notices'⟩ := h'
  exact .intro notices'

lemma echoes_note (l : Ledger) (level : Level) (text : Text) : l.Echoes (l.note level text) :=
  .intro _

lemma Echoes.note (h : l.Echoes m) (level level' : Level) (text text' : Text) :
    (l.note level text).Echoes (m.note level' text') :=
  (echoes_note l level text).symm.trans (h.trans (echoes_note m level' text'))

lemma Echoes.contracts (h : l.Echoes m) : m.contracts = l.contracts := by
  obtain ⟨notices⟩ := h
  rfl

end Ledger

inductive Frame.Echoes (f : Frame) : Frame → Prop
  | intro {m : Ledger} (ledger : f.ledger.Echoes m) : Echoes f { f with ledger := m }

/-- A run whose result does not depend on notices. -/
abbrev Run.Heedless {α : Type} (x : Run α) : Prop := Simulates Frame.Echoes Eq x x

namespace Heedless

open Run Alike

variable {α β : Type} {x : Run α} {k : α → Run β}

lemma bind_contract {k : Contract → Run α} (h : ∀ c, Heedless (k c)) :
    Heedless (contract >>= k) := by
  apply bind_eq _ h
  apply Simulates.step outcome_contract outcome_contract
  · rintro f _ ⟨⟨notices⟩⟩
    rfl
  · exact fun _ _ h => h

lemma bind_ledger {k : Ledger → Run α}
    (h : ∀ l notices, Simulates Frame.Echoes Eq (k l) (k { l with notices })) :
    Heedless (ledger >>= k) := by
  apply Simulates.bind (R := Ledger.Echoes)
  · apply Simulates.step outcome_ledger outcome_ledger _ fun _ _ h => h
    rintro f _ ⟨h⟩
    exact h
  · rintro l _ ⟨notices⟩
    exact h l notices

lemma modifyLedger {k : Ledger → Ledger} (h : ∀ l m, l.Echoes m → (k l).Echoes (k m)) :
    Heedless (modifyLedger k) := by
  apply Simulates.step (outcome_modifyLedger k) (outcome_modifyLedger k) fun _ _ _ => rfl
  rintro f _ ⟨hl⟩
  exact .intro (h _ _ hl)

lemma modifyContract (k : Contract → Contract) : Heedless (modifyContract k) := by
  apply Simulates.step (outcome_modifyContract k) (outcome_modifyContract k) fun _ _ _ => rfl
  rintro ⟨l, seat, deployments⟩ _ ⟨⟨notices⟩⟩
  cases seat with
  | registered a => exact .intro (.intro notices)
  | apart c => exact .intro (.intro notices)

lemma book {k : Ledger → Ledger} (h : Bookkeeping k) : Heedless (Run.modifyLedger k) := by
  apply modifyLedger
  rintro l _ ⟨notices⟩
  cases h with
  | enter entries => exact .intro notices
  | note level text => exact .intro _
  | count n => exact .intro notices
  | code a code => exact .intro notices

lemma enter (e : Entry) : Heedless (enter e) := book (.enter [e])

lemma note (level : Level) (text : Text) : Heedless (note level text) := book (.note level text)

lemma dispose : Heedless dispose :=
  bind_contract fun c => bind_eq (book (.enter c.disposal)) fun _ => modifyContract _

lemma load : Heedless load := by
  rw [Run.load]
  refine bind_eq dispose fun _ => bind_eq (modifyContract _) fun _ => ?_
  refine bind_contract fun c => bind_ledger fun l notices => ?_
  refine bind_eq (lift c.code?) fun code => bind_eq (lift l.engine?) fun engine => ?_
  refine bind_eq (book (.count _)) fun _ => bind_eq (enter _) fun _ => ?_
  exact bind_eq (lift _) fun program => bind_eq (modifyContract _) fun _ => .pure rfl

lemma setEnvironment (given : EnvironmentGiven) : Heedless (setEnvironment given) := by
  rw [Run.setEnvironment]
  refine bind_contract fun c => bind_ledger fun l notices => ?_
  refine bind_eq (lift (environmentRecord l c given)) fun record => ?_
  refine bind_eq (lift c.handle?) fun handle => bind_eq (enter _) fun _ => ?_
  cases handle.program.refusal with
  | some e => exact .throw e
  | none => exact .pure rfl

lemma observeGas (gas : Int) (method : Text) : Heedless (Host.observeGas gas method) := by
  rw [Host.observeGas]
  refine bind_ledger fun l notices => .ite _ ?_ (.pure rfl)
  exact bind_contract fun c => note _ _

lemma loadPointer (pointer : Int) : Heedless (Host.loadPointer pointer) := by
  rw [Host.loadPointer]
  refine bind_contract fun c => bind_ledger fun l notices => ?_
  exact optional (note _ _) (.pure rfl)

lemma storePointer (pointer value : Int) : Heedless (Host.storePointer pointer value) := by
  rw [Host.storePointer]
  refine bind_contract fun c => bind_ledger fun l notices => ?_
  exact optional (note _ _) (modifyContract _)

lemma deployCopy (source : Address) (salt : Bytes) : Heedless (Host.deployCopy source salt) := by
  rw [Host.deployCopy]
  refine bind_contract fun c => bind_ledger fun l notices => ?_
  refine optional (note _ _) (bind_eq (lift _) fun derived => ?_)
  refine .ite _ (.throw _) (.ite _ (.throw _) ?_)
  refine bind_eq (lift (l.code? source)) fun code => bind_eq (book (.code _ code)) fun _ => ?_
  exact bind_eq (modifyContract _) fun _ => optional (note _ _) (.pure rfl)

lemma discardDeployments : Heedless discardDeployments := by
  have hwithdraw (deployments : List Deployment) (l m : Ledger) (h : l.Echoes m) :
      (withdraw l deployments).Echoes (withdraw m deployments) := by
    induction deployments generalizing l m with
    | nil => exact h
    | cons d rest ih =>
      obtain ⟨notices⟩ := h
      exact ih _ _ (.intro notices)
  apply Simulates.step outcome_discardDeployments outcome_discardDeployments fun _ _ _ => rfl
  rintro f _ ⟨hl⟩
  exact .intro (hwithdraw _ _ _ hl)

lemma interpret {host : HostFunction → Bytes → Run Bytes}
    (hh : ∀ request data, Heedless (host request data)) (number : Nat) (p : Program) (gas : Int) :
    Heedless (interpret host number p gas) := by
  induction p generalizing gas with
  | done reply => exact .pure rfl
  | fail e => exact .throw e
  | ask request data next ih =>
    refine (hh request data).attempt.bind fun q r hqr => ?_
    cases hqr.eq
    cases q with
    | error e => exact ih (.error e) gas
    | ok bs => exact .ite _ (bind_eq (enter _) fun _ => ih (.ok bs) gas) (ih (.ok bs) gas)
  | charge amount next ih =>
    exact bind_eq (modifyContract _) fun _ => bind_eq (observeGas _ _) fun _ => ih _
  | caught e next ih => exact bind_eq (enter _) fun _ => ih gas

lemma inSeat (seat : Seat) (h : Heedless x) : Heedless (inSeat seat x) := by
  rintro f _ ⟨hl⟩ q f' hx
  rw [outcome_inSeat] at hx
  obtain ⟨p, f₁, hx₁, hx₂⟩ := Outcome.andThen_eq_some hx
  obtain ⟨_, hy, ⟨hl₁⟩⟩ := Simulates.outcome (f := ⟨f.ledger, seat, []⟩) h (.intro hl) hx₁
  cases hx₂
  rw [outcome_inSeat, hy]
  exact ⟨_, _, rfl, .ok rfl, .intro hl₁⟩

section Calls

variable {call : Address → Bytes → Run CallResponse}
  (hcall : ∀ target calldata, Heedless (call target calldata))

include hcall

lemma answer (request : HostFunction) (data : Bytes) : Heedless (Host.answer call request data) := by
  cases request with
  | load =>
    exact bind_eq (lift _) fun pointer => bind_eq (loadPointer _) fun value => lift _
  | store => exact bind_eq (lift _) fun entry => bind_eq (storePointer _ _) fun _ => .pure rfl
  | nextPointer => exact bind_eq (lift _) fun query => bind_contract fun c => lift _
  | call =>
    refine bind_eq (lift _) fun target => bind_eq (hcall _ _) fun response => ?_
    exact bind_eq (lift _) fun gas => .pure rfl
  | deploy => exact bind_eq (lift _) fun source => bind_eq (deployCopy _ _) fun _ => .pure rfl
  | inputs => exact bind_ledger fun l notices => .pure rfl
  | outputs => exact bind_ledger fun l notices => .pure rfl
  | log =>
    refine bind_eq (lift _) fun message => bind_eq ?_ fun _ => .pure rfl
    exact bind_contract fun c => note _ _
  | emit => exact bind_eq (lift _) fun event => bind_eq (modifyContract _) fun _ => .pure rfl

lemma construct : Heedless (construct call) := by
  rw [Run.construct]
  refine bind_eq load fun handle => bind_contract fun c => ?_
  refine bind_eq (setEnvironment _) fun record => bind_eq (enter _) fun _ => ?_
  exact bind_eq (interpret (answer hcall) _ _ _) fun _ => .pure rfl

lemma deploy : Heedless (deploy call) := by
  rw [Run.deploy]
  refine bind_contract fun c => .ite _ (.pure rfl) (.ite _ ?_ ?_)
  · exact bind_eq (modifyContract _) fun _ => .pure rfl
  refine (construct hcall).attempt.bind fun q r hqr => ?_
  cases hqr.eq
  cases q with
  | error e =>
    exact bind_eq (modifyContract _) fun _ => bind_eq dispose fun _ => .throw _
  | ok _ =>
    refine bind_eq (modifyContract _) fun _ => bind_ledger fun l notices => ?_
    refine .ite _ (bind_contract fun c => ?_) dispose
    exact bind_eq (note _ _) fun _ => dispose

lemma runMethod (calldata : Bytes) (given : EnvironmentGiven) :
    Heedless (runMethod (Host.answer call) calldata given) := by
  rw [Run.runMethod]
  refine bind_eq load fun handle => bind_eq (setEnvironment given) fun record => ?_
  exact bind_eq (enter _) fun _ => interpret (answer hcall) _ _ _

lemma execute (calldata : Bytes) (sender origin : Option Address) :
    Heedless (execute call calldata sender origin) := by
  rw [Run.execute]
  refine (deploy hcall).attempt.bind fun q r hqr => ?_
  cases hqr.eq
  cases q with
  | error e => exact bind_contract fun c => .pure rfl
  | ok _ => ?_
  refine bind_contract fun before => bind_eq ?_ fun _ => ?_
  · apply Simulates.step (outcome_modify _) (outcome_modify _) fun _ _ _ => rfl
    rintro f _ ⟨hl⟩
    exact .intro hl
  refine (runMethod hcall _ _).attempt.bind fun q r hqr => ?_
  cases hqr.eq
  cases q with
  | ok reply => exact bind_contract fun c => .pure rfl
  | error e =>
    refine bind_eq (modifyContract _) fun _ => bind_eq discardDeployments fun _ => ?_
    refine bind_contract fun c => bind_eq (note _ _) fun _ => ?_
    exact bind_eq dispose fun _ => .pure rfl

lemma openCall (target : Address) : Heedless (openCall call target) := by
  rw [Run.openCall]
  refine bind_contract fun caller => bind_ledger fun l notices => .ite _ (.throw _) ?_
  refine optional (note _ _) (.ite _ (.throw _) ?_)
  exact bind_eq (inSeat _ (deploy hcall)) fun visited => lift visited.1

omit hcall in
lemma receive (calldata : Bytes) {respond : Run CallResponse} (h : Heedless respond) :
    Heedless (receive calldata respond) := by
  rw [Run.receive]
  refine bind_contract fun c => bind_ledger fun l notices => optional (note _ _) ?_
  refine bind_eq h fun response => bind_ledger fun l notices => optional (note _ _) ?_
  exact bind_eq dispose fun _ => .pure rfl

omit hcall in
lemma copyTarget (target : Address) : Heedless (copyTarget target) := by
  have hcopy (l m : Ledger) (c : Contract) (h : l.Echoes m) :
      Agree (fun p q => p.1.Echoes q.1 ∧ p.2 = q.2) (copyOf l c) (copyOf m c) := by
    obtain ⟨notices⟩ := h
    rw [copyOf_eq, copyOf_eq]
    cases c.code? with
    | error e => exact .error e
    | ok code =>
      change Agree _ (Except.map _ ((l.setCode c.address code).code? c.address))
        (Except.map _ ((l.setCode c.address code).code? c.address))
      cases (l.setCode c.address code).code? c.address with
      | error e => exact .error e
      | ok resolved => exact .ok ⟨.intro notices, rfl⟩
  rw [Run.copyTarget]
  refine bind_ledger fun l notices => Simulates.bind (.lift (hcopy _ _ _ (.intro notices))) ?_
  rintro ⟨m, copy⟩ ⟨m', _⟩ ⟨hm, rfl⟩
  refine bind_eq (.step (outcome_modifyLedger _) (outcome_modifyLedger _) (fun _ _ _ => rfl) ?_)
    fun _ => .pure rfl
  rintro f _ ⟨_⟩
  exact .intro hm

omit hcall in
lemma closeCall (target : Address) (copy : Contract) (deployments : List Deployment)
    (response : CallResponse) : Heedless (closeCall target copy deployments response) := by
  have hcarry (l : Ledger) (notices : List Notice) :
      carryOver { l with notices } target copy =
        ({ (carryOver l target copy).1 with notices }, (carryOver l target copy).2) := by
    rw [carryOver, carryOver]
    cases l.contracts.find? target with
    | none => rfl
    | some c => rfl
  rw [Run.closeCall]
  refine bind_ledger fun l notices => ?_
  rw [hcarry l notices]
  obtain ⟨carried, visits⟩ := carryOver l target copy
  refine bind_eq (.step (outcome_modify _) (outcome_modify _) (fun _ _ _ => rfl) ?_) fun _ => ?_
  · rintro f _ ⟨_⟩
    exact .intro (.intro notices)
  · exact bind_eq (modifyContract _) fun _ => bind_contract fun c => lift _

lemma callWith (target : Address) (calldata : Bytes) : Heedless (callWith call target calldata) := by
  rw [Run.callWith]
  refine bind_eq (openCall hcall target) fun _ => bind_eq (copyTarget target) fun copy => ?_
  refine bind_contract fun caller => bind_ledger fun l notices => ?_
  refine bind_eq (inSeat _ (receive _ (execute hcall _ _ _))) fun visited => ?_
  refine bind_ledger fun l notices => bind_eq (lift visited.1) fun response => ?_
  exact closeCall _ _ _ _

end Calls

lemma call (n : Nat) (target : Address) (calldata : Bytes) : Heedless (call n target calldata) := by
  induction n generalizing target calldata with
  | zero => exact .outOfFuel _
  | succ n ih => exact callWith ih target calldata

end Heedless

namespace Ledger

variable {l m : Ledger}

/-- Whether a run from a ledger ends, too, does not depend on notices. -/
theorem Echoes.perform {α : Type} {x : Run α} (hx : x.Heedless) (h : l.Echoes m) (seat : Seat) :
    Option.Rel (fun p q => q.1 = p.1 ∧ p.2.1.Echoes q.2.1 ∧ q.2.2 = p.2.2) (l.perform seat x)
      (m.perform seat x) := by
  rw [Run.perform_eq, Run.perform_eq]
  rcases hl : x.outcome ⟨l, seat, []⟩ with _ | ⟨q, f⟩
  · rcases hm : x.outcome ⟨m, seat, []⟩ with _ | ⟨q, g⟩
    · exact .none
    · obtain ⟨f, hf, -⟩ := Simulates.outcome (g := ⟨l, seat, []⟩) hx (.intro h.symm) hm
      rw [hl] at hf
      cases hf
  · obtain ⟨_, hg, ⟨hf⟩⟩ := Simulates.outcome (g := ⟨m, seat, []⟩) hx (.intro h) hl
    rw [hg]
    exact .some ⟨rfl, hf, rfl⟩

lemma Echoes.hasContract (h : l.Echoes m) (a : Address) : m.hasContract a = l.hasContract a := by
  rw [Ledger.hasContract, Ledger.hasContract, h.contracts]

lemma Echoes.register (h : l.Echoes m) (c : Contract) :
    Agree Ledger.Echoes (l.register c) (m.register c) := by
  rw [Ledger.register, Ledger.register, h.hasContract]
  obtain ⟨notices⟩ := h
  split
  · exact .error _
  · exact .ok (.intro _)

lemma Echoes.resolveCode (h : l.Echoes m) (c : Contract) :
    (l.resolveCode c).1.Echoes (m.resolveCode c).1 ∧
      (m.resolveCode c).2 = (l.resolveCode c).2 := by
  obtain ⟨notices⟩ := h
  cases hown : c.ownCode with
  | none =>
    simp only [Ledger.resolveCode, Ledger.code?, hown]
    cases l.codes.find? c.address <;> exact ⟨.intro notices, rfl⟩
  | some code =>
    simp only [Ledger.resolveCode, Ledger.code?, Ledger.setCode, hown]
    cases (l.codes.insertNew c.address code).find? c.address <;> exact ⟨.intro notices, rfl⟩

lemma Echoes.registerChildren (h : l.Echoes m) (parent : Contract)
    (children : List (Address × Bytes)) :
    (l.registerChildren parent children).1.Echoes (m.registerChildren parent children).1 ∧
      (m.registerChildren parent children).2 = (l.registerChildren parent children).2 := by
  induction children generalizing l m with
  | nil => exact ⟨h, rfl⟩
  | cons entry rest ih =>
    obtain ⟨a, code⟩ := entry
    rw [Ledger.registerChildren, Ledger.registerChildren, h.hasContract]
    split
    · exact ih h
    obtain ⟨hresolved, hchild⟩ := h.resolveCode
      (Contract.create a parent.address parent.gasLimit (some code) [])
    simp only
    generalize l.resolveCode (Contract.create a parent.address parent.gasLimit (some code) []) = p
      at hresolved hchild ⊢
    generalize m.resolveCode (Contract.create a parent.address parent.gasLimit (some code) []) = q
      at hresolved hchild ⊢
    obtain ⟨l₁, _⟩ := p
    obtain ⟨m₁, r⟩ := q
    obtain rfl := hchild
    cases r with
    | error e => exact ⟨hresolved, rfl⟩
    | ok child =>
      have hregister := hresolved.register child
      simp only at hregister ⊢
      generalize l₁.register child = p at hregister ⊢
      generalize m₁.register child = q at hregister ⊢
      cases hregister with
      | error e => exact ⟨hresolved, rfl⟩
      | ok hregistered =>
        obtain ⟨hlast, hrest⟩ := ih hregistered
        exact ⟨hlast, congrArg (Except.map (a :: ·)) hrest⟩

lemma Echoes.registerTouched (h : l.Echoes m) (addresses : List Address) :
    (l.registerTouched addresses).1.Echoes (m.registerTouched addresses).1 ∧
      (m.registerTouched addresses).2 = (l.registerTouched addresses).2 := by
  induction addresses generalizing l m with
  | nil => exact ⟨h, rfl⟩
  | cons a rest ih =>
    rw [Ledger.registerTouched, Ledger.registerTouched, h.contracts]
    cases l.contracts.find? a with
    | none => exact ih h
    | some c =>
      obtain ⟨hledger, hresult⟩ := h.registerChildren c c.children
      simp only [Ledger.registerDeployments]
      generalize l.registerChildren c c.children = p at hledger hresult ⊢
      generalize m.registerChildren c c.children = q at hledger hresult ⊢
      obtain ⟨l', _⟩ := p
      obtain ⟨m', r⟩ := q
      obtain rfl := hresult
      cases r with
      | error e => exact ⟨hledger, rfl⟩
      | ok created =>
        obtain ⟨hlast, hrest⟩ := ih hledger
        exact ⟨hlast, congrArg (Except.map (created ++ ·)) hrest⟩

end Ledger

end ChainReplay
