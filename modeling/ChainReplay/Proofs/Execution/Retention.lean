import ChainReplay.Proofs.Execution.Sustained

/-! Aspects of contracts that a run does not touch. Whatever a part of a run does to a contract but
changing the aspect itself, the contract that runs and all that are registered keep it. -/

namespace ChainReplay

variable {β : Type}

/-- An aspect that is left alone by whatever writes storage, records deployments, or gives a handle. -/
structure Inert (v : Contract → β) : Prop where
  handle : ∀ c gas handle, v { c with gasUsed := gas, handle := handle } = v c
  states : ∀ c states, v { c with states := states } = v c
  children : ∀ c children, v { c with children := children } = v c

namespace Inert

variable {v : Contract → β}

lemma dispose (hv : Inert v) (c : Contract) : v c.dispose = v c := by
  rw [Contract.dispose]
  split
  · rfl
  · exact hv.handle c _ _

lemma meter (hv : Inert v) (number : Nat) (gas : Int) (c : Contract) :
    v (c.meter number gas) = v c := hv.handle c c.gasUsed _

lemma equipped (hv : Inert v) (handle : Handle) (c : Contract) :
    v (Run.equipped handle c) = v c := hv.handle c c.gasUsed _

lemma restored (hv : Inert v) (states : Storage) (children : Table Address Bytes) (c : Contract) :
    v { c with states := states, children := children } = v c :=
  (hv.children { c with states := states } children).trans (hv.states c states)

end Inert

namespace Ledger

def aspect? (v : Contract → β) (l : Ledger) (a : Address) : Option β :=
  (l.contracts.find? a).map v

variable {v : Contract → β}

lemma aspect?_modifyContract (l : Ledger) (a : Address) {k : Contract → Contract}
    (hk : ∀ c, v (k c) = v c) (b : Address) :
    (l.modifyContract a k).aspect? v b = l.aspect? v b := by
  rw [aspect?, modifyContract, Table.find?_modify]
  split
  · rw [Option.map_map, aspect?]
    congr 1
    funext c
    exact hk c
  · rfl

end Ledger

lemma Frame.aspect?_modifyContract_of_ne {v : Contract → β} {f : Frame} {a : Address}
    (ha : f.seat.address? ≠ some a) (k : Contract → Contract) :
    (f.modifyContract k).ledger.aspect? v a = f.ledger.aspect? v a := by
  rw [Ledger.aspect?, find?_modifyContract_of_ne ha, Ledger.aspect?]

namespace Run

/-- The contract that runs and all that are registered have the same aspect as before. -/
structure Retains (v : Contract → β) (f g : Frame) : Prop where
  own : v g.contract = v f.contract
  all : ∀ a, g.ledger.aspect? v a = f.ledger.aspect? v a

namespace Retains

variable {v : Contract → β}

instance : IsPreorder Frame (Retains v) where
  refl := fun _ => ⟨rfl, fun _ => rfl⟩
  trans := fun _ _ _ h h' => ⟨h'.own.trans h.own, fun a => (h'.all a).trans (h.all a)⟩

lemma withLedger (f : Frame) {l : Ledger} (h : ∀ a, l.aspect? v a = f.ledger.aspect? v a)
    (deployments : List Deployment) : Retains v f ⟨l, f.seat, deployments⟩ where
  own := by
    obtain ⟨m, seat, deployments⟩ := f
    cases seat with
    | apart c => rfl
    | registered a =>
      have ha := h a
      simp only [Frame.contract, Seat.contract]
      simp only [Ledger.aspect?] at ha
      revert ha
      cases l.contracts.find? a <;> cases m.contracts.find? a
      · exact fun _ => rfl
      · intro h
        cases h
      · intro h
        cases h
      · exact Option.some.inj
  all := h

lemma of_contracts (f : Frame) {l : Ledger} (h : l.contracts = f.ledger.contracts) :
    Retains v f { f with ledger := l } :=
  withLedger f (fun a => by rw [Ledger.aspect?, h, Ledger.aspect?]) _

lemma modifyContract (f : Frame) {k : Contract → Contract} (hk : ∀ c, v (k c) = v c) :
    Retains v f (f.modifyContract k) := by
  obtain ⟨l, seat, deployments⟩ := f
  cases seat with
  | registered a =>
    exact withLedger ⟨l, .registered a, deployments⟩ (l.aspect?_modifyContract a hk) _
  | apart c => exact ⟨hk c, fun _ => rfl⟩

end Retains

variable {α : Type} {v : Contract → β} {f g : Frame}

lemma retains_contract : Leads (Retains v) f contract := .of_outcome (outcome_contract f) (refl f)

lemma retains_ledger : Leads (Retains v) f ledger := .of_outcome (outcome_ledger f) (refl f)

lemma retains_enter (e : Entry) : Leads (Retains v) f (enter e) :=
  .of_outcome (outcome_enter e f) (.of_contracts f rfl)

lemma retains_note (level : Level) (text : Text) : Leads (Retains v) f (note level text) :=
  .of_outcome (outcome_note level text f) (.of_contracts f rfl)

lemma retains_modifyLedger (k : Ledger → Ledger) (hk : ∀ l, (k l).contracts = l.contracts) :
    Leads (Retains v) f (modifyLedger k) :=
  .of_outcome (outcome_modifyLedger k f) (.of_contracts f (hk _))

lemma retains_modify (k : Contract → Contract) (hk : ∀ c, v (k c) = v c) :
    Leads (Retains v) f (modifyContract k) :=
  .of_outcome (outcome_modifyContract k f) (.modifyContract f hk)

lemma retains_optional {p : Prop} [Decidable p] (level : Level) (text : Text) {k : Run α}
    (hk : ∀ g, Leads (Retains v) g k) :
    Leads (Retains v) f (if p then note level text >>= fun _ => k else k) :=
  .ite ((retains_note level text).bind fun _ g => hk g) (hk f)

lemma retains_setEnvironment (given : EnvironmentGiven) :
    Leads (Retains v) f (setEnvironment given) :=
  .setEnvironment (fun f _ _ => .of_contracts f rfl) given

lemma retains_copyTarget (target : Address) : Leads (Retains v) f (copyTarget target) := by
  intro q g hx
  have hrun : (copyTarget target).outcome f = some (q, g) := hx
  rw [outcome_copyTarget] at hrun
  split at hrun
  case h_1 l copy hcopy =>
    obtain ⟨code, resolved, rfl, -⟩ := copyOf_eq_ok hcopy
    cases hrun
    exact .of_contracts f rfl
  case h_2 =>
    cases hrun
    exact refl _

lemma retains_answered (number : Nat) (request : HostFunction) (reply : Except Failure Bytes)
    (f : Frame) : Retains v f (answered number request reply f) := by
  cases reply with
  | error e => exact refl f
  | ok bs =>
    simp only [answered]
    split
    · exact .of_contracts f rfl
    · exact refl f

lemma retains_heard (calldata : Bytes) (f : Frame) : Retains v f (heard calldata f) := by
  rw [heard]
  split
  · exact .of_contracts f rfl
  · exact refl f

section Inertia

variable (hv : Inert v)

include hv

lemma retains_dispose : Leads (Retains v) f dispose :=
  retains_contract.bind fun c _ => (retains_modifyLedger (·.enter c.disposal) fun _ => rfl).bind
    fun _ _ => retains_modify Contract.dispose hv.dispose

lemma retains_equip : Leads (Retains v) f equip := by
  intro r g hx
  rcases equip_cases hx with ⟨e, -, rfl⟩ | ⟨engine, parameters, -, h⟩
  · exact refl _
  have hasked : Retains v f (asked parameters f) := .of_contracts f rfl
  rcases h with ⟨e, -, -, rfl⟩ | ⟨i, -, -, rfl⟩
  · exact hasked
  · exact trans_of (Retains v) hasked (.modifyContract _ (hv.equipped _))

lemma retains_deployCopy (source : Address) (salt : Bytes) :
    Leads (Retains v) f (Host.deployCopy source salt) := by
  rw [Host.deployCopy]
  refine retains_contract.bind fun c g => retains_ledger.bind fun l g => ?_
  refine retains_optional _ _ fun g => (Leads.lift _).bind fun address g => ?_
  obtain ⟨seed, derived⟩ := address
  refine .ite (.throw _) (.ite (.throw _) ((Leads.lift _).bind fun code g => ?_))
  refine (retains_modifyLedger (·.setCode derived code) fun _ => rfl).bind fun _ g => ?_
  refine (retains_modify (recording derived code) fun c => hv.children c _).bind fun _ g => ?_
  exact retains_optional _ _ fun g => .pure _

/-- Requests but calls; an event may be emitted if the aspect is none of the events. -/
lemma retains_answer (call : Address → Bytes → Run CallResponse) {request : HostFunction}
    (hcall : request ≠ .call)
    (hemit : request = .emit → ∀ c events, v { c with events := events } = v c) (data : Bytes) :
    Leads (Retains v) f (Host.answer call request data) := by
  cases request with
  | load =>
    refine (Leads.lift _).bind fun pointer g => Leads.bind ?_ fun value g => .lift _
    refine retains_contract.bind fun c g => retains_ledger.bind fun l g => ?_
    exact retains_optional _ _ fun g => .pure _
  | store =>
    refine (Leads.lift _).bind fun entry g => Leads.bind ?_ fun _ g => .pure _
    refine retains_contract.bind fun c g => retains_ledger.bind fun l g => ?_
    refine retains_optional _ _ fun g => retains_modify (fun c => { c with states := _ }) ?_
    exact fun c => hv.states c _
  | nextPointer => exact (Leads.lift _).bind fun query g => retains_contract.bind fun c g => .lift _
  | call => exact absurd rfl hcall
  | deploy =>
    exact (Leads.lift _).bind fun source g => (retains_deployCopy hv _ _).bind fun _ g => .pure _
  | inputs => exact retains_ledger.bind fun l g => .pure _
  | outputs => exact retains_ledger.bind fun l g => .pure _
  | log =>
    refine (Leads.lift _).bind fun message g => Leads.bind ?_ fun _ g => .pure _
    exact retains_contract.bind fun c g => retains_note _ _
  | emit =>
    refine (Leads.lift _).bind fun event g => Leads.bind ?_ fun _ g => .pure _
    exact retains_modify (fun c => { c with events := _ }) fun c => hemit rfl c _

lemma retains_charged (number : Nat) (gas : Int) (f : Frame) :
    Retains v f (charged number gas f) := by
  have hmeter : Retains v f (f.modifyContract (·.meter number gas)) :=
    .modifyContract f (hv.meter number gas)
  rw [charged]
  split
  · exact trans_of (Retains v) hmeter (retains_note .debug _ _ _ (outcome_note .debug _ _))
  · exact hmeter

lemma retains_reported (callee : Address) (response : CallResponse) :
    Leads (Retains v) f (reported callee response) :=
  retains_ledger.bind fun _ _ => retains_optional _ _ fun _ =>
    (retains_dispose hv).bind fun _ _ => .pure _

lemma retains_rolledBack (before : Contract) (f : Frame) : Retains v f (rolledBack before f) := by
  have hwithdraw (l : Ledger) (deployments : List Deployment) (a : Address) :
      (withdraw l deployments).aspect? v a = l.aspect? v a := by
    induction deployments generalizing l with
    | nil => rfl
    | cons d rest ih =>
      have hforget (c : Contract) : v (forget d.2 c) = v c := hv.children c _
      exact (ih _).trans (l.aspect?_modifyContract d.1 hforget a)
  exact trans_of (Retains v) (.modifyContract f (hv.restored before.states before.children))
    (.withLedger _ (hwithdraw _ _) _)

lemma retains_abandoned (f : Frame) (e : Failure) : Retains v f (abandoned f e) := by
  let detail := (e.fault?.map (·.detail)).getD []
  have hnoted := retains_note (v := v) .debug
    ("call into " ++ f.contract.address.text ++ " failed: " ++ detail) _ _ (outcome_note _ _ f)
  exact trans_of (Retains v) hnoted (retains_dispose hv _ _ (outcome_dispose _))

lemma aspect?_carryOver (l : Ledger) (target : Address) (copy : Contract) (a : Address) :
    (carryOver l target copy).1.aspect? v a = l.aspect? v a := by
  cases hc : l.contracts.find? target with
  | none => rw [carryOver, hc]
  | some c =>
    rw [Overlay.carryOver_of_find? copy hc]
    exact l.aspect?_modifyContract target (fun c => hv.restored _ _ c) a

end Inertia

end Run

end ChainReplay
