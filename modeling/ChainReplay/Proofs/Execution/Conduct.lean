import ChainReplay.Proofs.Execution.DeploymentRecords
import ChainReplay.Proofs.Leads

/-! How a contract that runs treats the others: whatever it asks for but calls, it changes itself
only, and no contract loses its place or its deployment. -/

namespace ChainReplay

variable {α : Type}

/-- The contracts that are found have the addresses under which they are found. -/
def Ledger.Filed (l : Ledger) : Prop := ∀ a c, l.contracts.find? a = some c → c.address = a

lemma Ledger.Keyed.filed {l : Ledger} (h : l.Keyed) : l.Filed :=
  fun _ _ hc => h _ (Table.mem_of_find? hc)

/-- The later ledger has the contracts of the former, and none has had its deployment taken back. -/
structure Ledger.Abides (l m : Ledger) : Prop where
  engine : m.engine = l.engine
  guard : m.reentrancyGuard = l.reentrancyGuard
  contract : ∀ a c, l.contracts.find? a = some c → ∃ d, m.contracts.find? a = some d ∧
    d.address = c.address ∧ (c.deployed = true → d.deployed = true)
  absent : ∀ a, l.contracts.find? a = none → m.contracts.find? a = none

namespace Ledger.Abides

variable {l m n : Ledger}

lemma of_contracts (hcontracts : m.contracts = l.contracts) (hengine : m.engine = l.engine)
    (hguard : m.reentrancyGuard = l.reentrancyGuard) : l.Abides m where
  engine := hengine
  guard := hguard
  contract := fun _ c hc => ⟨c, hcontracts ▸ hc, rfl, fun h => h⟩
  absent := fun _ h => hcontracts ▸ h

lemma refl (l : Ledger) : l.Abides l := of_contracts rfl rfl rfl

lemma trans (h : l.Abides m) (h' : m.Abides n) : l.Abides n where
  engine := h'.engine.trans h.engine
  guard := h'.guard.trans h.guard
  contract := by
    intro a c hc
    obtain ⟨d, hd, haddress, hdeployed⟩ := h.contract a c hc
    obtain ⟨e, he, haddress', hdeployed'⟩ := h'.contract a d hd
    exact ⟨e, he, haddress'.trans haddress, fun hc => hdeployed' (hdeployed hc)⟩
  absent := fun a ha => h'.absent a (h.absent a ha)

lemma modifyContract (l : Ledger) (a : Address) {k : Contract → Contract} (hk : Steady k) :
    l.Abides (l.modifyContract a k) where
  engine := rfl
  guard := rfl
  contract := by
    intro b c hc
    rw [Ledger.modifyContract, Table.find?_modify, hc]
    split
    · exact ⟨k c, rfl, hk.address c, hk.deployed c⟩
    · exact ⟨c, rfl, rfl, fun h => h⟩
  absent := by
    intro b hb
    rw [Ledger.modifyContract, Table.find?_modify, hb]
    split <;> rfl

lemma hasContract (h : l.Abides m) (a : Address) : m.hasContract a = l.hasContract a := by
  rw [Ledger.hasContract, Ledger.hasContract, Table.contains, Table.contains]
  cases hc : l.contracts.find? a with
  | none => rw [h.absent a hc]
  | some c =>
    obtain ⟨d, hd, -⟩ := h.contract a c hc
    rw [hd]
    rfl

lemma filed (h : l.Abides m) (hl : l.Filed) : m.Filed := by
  intro a d hd
  cases hc : l.contracts.find? a with
  | none =>
    rw [h.absent a hc] at hd
    cases hd
  | some c =>
    obtain ⟨d', hd', haddress, -⟩ := h.contract a c hc
    cases hd.symm.trans hd'
    exact haddress.trans (hl a c hc)

lemma seat (h : l.Abides m) (s : Seat) : (s.contract m).address = (s.contract l).address ∧
    ((s.contract l).deployed = true → (s.contract m).deployed = true) := by
  cases s with
  | apart c => exact ⟨rfl, fun h => h⟩
  | registered a =>
    rw [Seat.contract, Seat.contract]
    cases hc : l.contracts.find? a with
    | none =>
      rw [h.absent a hc]
      exact ⟨rfl, fun h => h⟩
    | some c =>
      obtain ⟨d, hd, haddress, hdeployed⟩ := h.contract a c hc
      rw [hd]
      exact ⟨haddress, hdeployed⟩

end Ledger.Abides

def Ledger.Awake (l : Ledger) : Prop :=
  ∀ a, l.hasContract a = true → (Seat.contract l (.registered a)).deployed = true

lemma Ledger.Settled.awake {l : Ledger} (h : l.Settled) : l.Awake := fun _ => h.deployed

lemma Ledger.Abides.awake {l m : Ledger} (h : l.Abides m) (hl : l.Awake) : m.Awake :=
  fun a ha => (h.seat (.registered a)).2 (hl a ((h.hasContract a).symm.trans ha))

def Entry.instantiated? : Entry → Option Address
  | .instantiated _ parameters => some parameters.address
  | _ => none

/-- The later ledger has the journal of the former, and after it the engine is asked for some of these
contracts, in this order. -/
def Ledger.Logs (l m : Ledger) (addresses : List Address) : Prop :=
  ∃ entries, m.journal = l.journal ++ entries ∧
    (entries.filterMap Entry.instantiated?).Sublist addresses

namespace Ledger.Logs

variable {l m n : Ledger} {xs ys : List Address}

lemma of_journal (h : m.journal = l.journal) : l.Logs m xs :=
  ⟨[], by rw [h, List.append_nil], List.nil_sublist xs⟩

lemma of_entries (entries : List Entry) (hjournal : m.journal = l.journal ++ entries)
    (h : (entries.filterMap Entry.instantiated?).Sublist xs) : l.Logs m xs :=
  ⟨entries, hjournal, h⟩

lemma mono (h : l.Logs m xs) (hsub : xs.Sublist ys) : l.Logs m ys := by
  obtain ⟨entries, hjournal, hentries⟩ := h
  exact ⟨entries, hjournal, hentries.trans hsub⟩

lemma trans (h : l.Logs m xs) (h' : m.Logs n ys) : l.Logs n (xs ++ ys) := by
  obtain ⟨entries, hjournal, hentries⟩ := h
  obtain ⟨more, hjournal', hmore⟩ := h'
  refine ⟨entries ++ more, by rw [hjournal', hjournal, List.append_assoc], ?_⟩
  rw [List.filterMap_append]
  exact hentries.append hmore

end Ledger.Logs

namespace Frame

/-- The same contract still runs, on a ledger that abides. -/
structure Abides (f g : Frame) : Prop where
  ledger : f.ledger.Abides g.ledger
  seat : g.seat.address? = f.seat.address?
  address : g.contract.address = f.contract.address
  deployed : f.contract.deployed = true → g.contract.deployed = true

lemma Abides.trans {f g h : Frame} (hfg : f.Abides g) (hgh : g.Abides h) : f.Abides h where
  ledger := hfg.ledger.trans hgh.ledger
  seat := hgh.seat.trans hfg.seat
  address := hgh.address.trans hfg.address
  deployed := fun hf => hgh.deployed (hfg.deployed hf)

lemma Abides.withLedger {f : Frame} {l : Ledger} (h : f.ledger.Abides l) (d : List Deployment) :
    f.Abides ⟨l, f.seat, d⟩ :=
  ⟨h, rfl, (h.seat f.seat).1, (h.seat f.seat).2⟩

lemma Abides.modifyContract (f : Frame) {k : Contract → Contract} (hk : Steady k) :
    f.Abides (f.modifyContract k) := by
  obtain ⟨l, seat, deployments⟩ := f
  cases seat with
  | registered a =>
    exact .withLedger (f := ⟨l, .registered a, deployments⟩) (.modifyContract l a hk) _
  | apart c => exact ⟨.refl l, rfl, hk.address c, hk.deployed c⟩

lemma find?_modifyContract_of_ne {f : Frame} {a : Address} (h : f.seat.address? ≠ some a)
    (k : Contract → Contract) :
    (f.modifyContract k).ledger.contracts.find? a = f.ledger.contracts.find? a := by
  obtain ⟨l, seat, deployments⟩ := f
  cases seat with
  | registered b =>
    have hne : a ≠ b := fun heq => h (congrArg some heq.symm)
    exact (Table.find?_modify ..).trans (if_neg hne)
  | apart c => rfl

lemma journal_modifyContract (f : Frame) (k : Contract → Contract) :
    (f.modifyContract k).ledger.journal = f.ledger.journal := by
  rw [modifyContract]
  cases f.seat <;> rfl

lemma callStack_modifyContract (f : Frame) {k : Contract → Contract}
    (hk : ∀ c, (k c).callStack = c.callStack) :
    (f.modifyContract k).contract.callStack = f.contract.callStack := by
  obtain ⟨l, seat, deployments⟩ := f
  cases seat with
  | registered a =>
    simp only [modifyContract, contract, Seat.contract]
    rw [Table.find?_modify, if_pos rfl]
    cases l.contracts.find? a with
    | none => rfl
    | some c => exact hk c
  | apart c => exact hk c

lemma callStack_withLedger {f : Frame} {l : Ledger} (hl : f.ledger.Abides l)
    (h : ∀ a c, f.seat.address? = some a → f.ledger.contracts.find? a = some c →
      ∃ d, l.contracts.find? a = some d ∧ d.callStack = c.callStack) {d : List Deployment} :
    (Frame.mk l f.seat d).contract.callStack = f.contract.callStack := by
  obtain ⟨m, seat, deployments⟩ := f
  cases seat with
  | registered a =>
    simp only [contract, Seat.contract]
    cases hc : m.contracts.find? a with
    | none => rw [hl.absent a hc]
    | some c =>
      obtain ⟨d, hd, hstack⟩ := h a c rfl hc
      rw [hd]
      exact hstack
  | apart c => rfl

lemma contract_of_find? {f : Frame} {a : Address} {c : Contract} (hseat : f.seat.address? = some a)
    (hc : f.ledger.contracts.find? a = some c) : f.contract = c := by
  obtain ⟨l, seat, deployments⟩ := f
  cases seat with
  | registered b =>
    cases hseat
    simp only [contract, Seat.contract, hc, Option.getD_some]
  | apart c => cases hseat

/-- The running contract is deployed, and it stands in its place if it runs in the registry. -/
def Anchored (f : Frame) : Prop :=
  f.contract.deployed = true ∧ ∀ a, f.seat.address? = some a → f.ledger.hasContract a = true

lemma Abides.anchored {f g : Frame} (h : f.Abides g) (hf : f.Anchored) : g.Anchored :=
  ⟨h.deployed hf.1, fun a ha => (h.ledger.hasContract a).trans (hf.2 a (h.seat.symm.trans ha))⟩

end Frame

lemma Ledger.Filed.address_contract {l : Ledger} (h : l.Filed) {a : Address}
    (ha : l.hasContract a = true) : (Frame.mk l (.registered a) []).contract.address = a := by
  obtain ⟨c, hc⟩ := Option.isSome_iff_exists.mp ha
  rw [Frame.contract_of_find? (f := ⟨l, .registered a, []⟩) rfl hc]
  exact h a c hc

namespace Run

/-- The running contract changes itself only, and not its call stack; and the engine is asked for some
of these contracts. -/
structure Minds (addresses : List Address) (f g : Frame) : Prop extends f.Abides g where
  others : ∀ a, f.seat.address? ≠ some a →
    g.ledger.contracts.find? a = f.ledger.contracts.find? a
  stack : g.contract.callStack = f.contract.callStack
  journal : f.ledger.Logs g.ledger addresses

/-- A change of a contract that leaves its address and its call stack, and does not take its
deployment back. -/
structure Modest (k : Contract → Contract) : Prop extends Steady k where
  callStack : ∀ c, (k c).callStack = c.callStack

namespace Minds

variable {xs ys : List Address}

lemma withLedger (f : Frame) {l : Ledger} (hcontracts : l.contracts = f.ledger.contracts)
    (hengine : l.engine = f.ledger.engine)
    (hguard : l.reentrancyGuard = f.ledger.reentrancyGuard) (hjournal : f.ledger.Logs l xs) :
    Minds xs f { f with ledger := l } where
  toAbides := .withLedger (.of_contracts hcontracts hengine hguard) _
  others := fun a _ => by rw [hcontracts]
  stack := by
    obtain ⟨m, seat, deployments⟩ := f
    cases seat with
    | registered a =>
      simp only [Frame.contract, Seat.contract]
      rw [hcontracts]
    | apart c => rfl
  journal := hjournal

lemma refl (f : Frame) : Minds [] f f := withLedger f rfl rfl rfl (.of_journal rfl)

lemma enter (f : Frame) {e : Entry} (he : e.instantiated? = none) :
    Minds [] f { f with ledger := f.ledger.enter [e] } := by
  refine withLedger f rfl rfl rfl (.of_entries [e] rfl ?_)
  rw [List.filterMap_cons_none he]
  exact .slnil

lemma mono {f g : Frame} (hfg : Minds xs f g) (hsub : xs.Sublist ys) : Minds ys f g :=
  { hfg with journal := hfg.journal.mono hsub }

lemma trans {f g h : Frame} (hfg : Minds xs f g) (hgh : Minds ys g h) :
    Minds (xs ++ ys) f h where
  toAbides := hfg.toAbides.trans hgh.toAbides
  others := fun a ha => (hgh.others a (hfg.seat ▸ ha)).trans (hfg.others a ha)
  stack := hgh.stack.trans hfg.stack
  journal := hfg.journal.trans hgh.journal

instance : IsPreorder Frame (Minds []) where
  refl := refl
  trans := fun _ _ _ => trans

lemma modifyContract (f : Frame) {k : Contract → Contract} (hk : Modest k) :
    Minds [] f (f.modifyContract k) where
  toAbides := .modifyContract f hk.toSteady
  others := fun _ ha => Frame.find?_modifyContract_of_ne ha k
  stack := f.callStack_modifyContract hk.callStack
  journal := .of_journal (f.journal_modifyContract k)

end Minds

variable {f : Frame}

lemma minds_of_outcome {x : Run α} {r : Except Failure α} {g : Frame}
    (hx : x.outcome f = some (r, g)) (h : Minds [] f g) : Leads (Minds []) f x := by
  intro q g' hrun
  cases hx.symm.trans hrun
  exact h

lemma minds_contract : Leads (Minds []) f contract :=
  minds_of_outcome (outcome_contract f) (.refl f)

lemma minds_ledger : Leads (Minds []) f ledger := minds_of_outcome (outcome_ledger f) (.refl f)

lemma minds_enter {e : Entry} (he : e.instantiated? = none) : Leads (Minds []) f (enter e) :=
  minds_of_outcome (outcome_enter e f) (.enter f he)

lemma minds_note (level : Level) (text : Text) : Leads (Minds []) f (note level text) :=
  minds_of_outcome (outcome_note level text f) (.withLedger f rfl rfl rfl (.of_journal rfl))

lemma minds_modify {k : Contract → Contract} (hk : Modest k) :
    Leads (Minds []) f (modifyContract k) :=
  minds_of_outcome (outcome_modifyContract k f) (.modifyContract f hk)

lemma minds_optional {x : Run PUnit} {k : Run α} {p : Prop} [Decidable p]
    (hx : Leads (Minds []) f x) (hk : ∀ g, Leads (Minds []) g k) :
    Leads (Minds []) f (if p then x >>= fun _ => k else k) :=
  .ite (hx.bind fun _ g => hk g) (hk f)

lemma modest_dispose : Modest Contract.dispose := by
  refine ⟨Alike.tending_dispose.steady, fun c => ?_⟩
  rcases h : c.handle <;> simp [Contract.dispose, h]

lemma minds_dispose : Leads (Minds []) f dispose := by
  refine minds_contract.bind fun c g => ?_
  have henter : Leads (Minds []) g (modifyLedger (·.enter c.disposal)) := by
    refine minds_of_outcome (outcome_modifyLedger _ g)
      (.withLedger g rfl rfl rfl (.of_entries c.disposal rfl ?_))
    cases hdisposal : c.handle <;> simp [Contract.disposal, hdisposal, Entry.instantiated?]
  exact henter.bind fun _ g => minds_modify modest_dispose

lemma minds_setEnvironment (given : EnvironmentGiven) :
    Leads (Minds []) f (setEnvironment given) := by
  rw [setEnvironment]
  refine minds_contract.bind fun c g => minds_ledger.bind fun l g => ?_
  refine (Leads.lift _).bind fun record g => (Leads.lift _).bind fun handle g => ?_
  refine (minds_enter rfl).bind fun _ g => ?_
  cases handle.program.refusal with
  | some e => exact .throw e
  | none => exact .pure _

lemma minds_deployCopy (source : Address) (salt : Bytes) :
    Leads (Minds []) f (Host.deployCopy source salt) := by
  rw [Host.deployCopy]
  refine minds_contract.bind fun c g => minds_ledger.bind fun l g => ?_
  refine minds_optional (minds_note _ _) fun g => (Leads.lift _).bind fun address g => ?_
  obtain ⟨seed, derived⟩ := address
  refine .ite (.throw _) (.ite (.throw _) ((Leads.lift _).bind fun code g => ?_))
  have hcode : Leads (Minds []) g (modifyLedger (·.setCode derived code)) :=
    minds_of_outcome (outcome_modifyLedger _ g) (.withLedger g rfl rfl rfl (.of_journal rfl))
  refine hcode.bind fun _ g => ?_
  have hrecord : Leads (Minds []) g (modifyContract (recording derived code)) :=
    minds_modify ⟨⟨fun _ => rfl, fun _ h => h⟩, fun _ => rfl⟩
  refine hrecord.bind fun _ g => ?_
  exact minds_optional (minds_note _ _) fun g => .pure _

lemma minds_answer (call : Address → Bytes → Run CallResponse) {request : HostFunction}
    (h : request ≠ .call) (data : Bytes) : Leads (Minds []) f (Host.answer call request data) := by
  cases request with
  | load =>
    refine (Leads.lift _).bind fun pointer g => Leads.bind ?_ fun value g => .lift _
    refine minds_contract.bind fun c g => minds_ledger.bind fun l g => ?_
    exact minds_optional (minds_note _ _) fun g => .pure _
  | store =>
    refine (Leads.lift _).bind fun entry g => Leads.bind ?_ fun _ g => .pure _
    refine minds_contract.bind fun c g => minds_ledger.bind fun l g => ?_
    refine minds_optional (minds_note _ _) fun g => ?_
    exact minds_modify ⟨⟨fun _ => rfl, fun _ h => h⟩, fun _ => rfl⟩
  | nextPointer => exact (Leads.lift _).bind fun query g => minds_contract.bind fun c g => .lift _
  | call => exact absurd rfl h
  | deploy =>
    exact (Leads.lift _).bind fun source g => (minds_deployCopy _ _).bind fun _ g => .pure _
  | inputs => exact minds_ledger.bind fun l g => .pure _
  | outputs => exact minds_ledger.bind fun l g => .pure _
  | log =>
    refine (Leads.lift _).bind fun message g => Leads.bind ?_ fun _ g => .pure _
    exact minds_contract.bind fun c g => minds_note _ _
  | emit =>
    refine (Leads.lift _).bind fun event g => Leads.bind ?_ fun _ g => .pure _
    exact minds_modify ⟨⟨fun _ => rfl, fun _ h => h⟩, fun _ => rfl⟩

lemma minds_answered (number : Nat) (request : HostFunction) (reply : Except Failure Bytes)
    (f : Frame) : Minds [] f (answered number request reply f) := by
  cases reply with
  | error e => exact .refl f
  | ok bs =>
    simp only [answered]
    split
    · exact .enter f rfl
    · exact .refl f

lemma minds_charged (number : Nat) (gas : Int) (f : Frame) : Minds [] f (charged number gas f) := by
  have hmeter : Minds [] f (f.modifyContract (·.meter number gas)) :=
    .modifyContract f ⟨⟨fun _ => rfl, fun _ h => h⟩, fun _ => rfl⟩
  rw [charged]
  split
  · exact hmeter.trans (.withLedger _ rfl rfl rfl (.of_journal rfl))
  · exact hmeter

lemma minds_heard (calldata : Bytes) (f : Frame) : Minds [] f (heard calldata f) := by
  rw [heard]
  split
  · exact .withLedger f rfl rfl rfl (.of_journal rfl)
  · exact .refl f

lemma minds_reported (callee : Address) (response : CallResponse) :
    Leads (Minds []) f (reported callee response) :=
  minds_ledger.bind fun _ _ => minds_optional (minds_note _ _) fun _ =>
    minds_dispose.bind fun _ _ => .pure _

end Run

end ChainReplay
