import ChainReplay.Proofs.Execution.Reentrancy
import ChainReplay.Proofs.Execution.Transcript
import ChainReplay.Proofs.Wire.Canonical

/-! Who acts in a call. Each activation is told the contract that has called it; but of those who began
the transaction it is told what stands in the ledger, unless it is called from outside. -/

namespace ChainReplay

/-- What contracts can see of a ledger beside each other. -/
structure Context where
  sender : Address
  origin : Address
  transactionId : Bytes
  inputs : Bytes
  outputs : Bytes
  blockNumber : Int
  medianTime : Int

/-- The number of the handle that begins to construct or to execute. -/
def Entry.started? : Entry → Option Nat
  | .construction n _ | .execution n _ => some n
  | _ => none

namespace Ledger

def context (l : Ledger) : Context :=
  ⟨l.sender, l.origin, l.transactionId, l.inputs, l.outputs, l.blockNumber, l.medianTime⟩

def deployer (l : Ledger) (a : Address) : Address := (Seat.contract l (.registered a)).deployer

lemma deployer_modifyContract (l : Ledger) (a : Address) {k : Contract → Contract}
    (hk : ∀ c, (k c).deployer = c.deployer) (d : Address) :
    (l.modifyContract a k).deployer d = l.deployer d := by
  simp only [deployer, Seat.contract, modifyContract, Table.find?_modify]
  split
  case isTrue h =>
    subst h
    cases l.contracts.find? d with
    | none => rfl
    | some c => exact hk c
  case isFalse => rfl

/-- What an activation of this contract is told, if these are its sender and its origin. -/
def environment (l : Ledger) (who : Address × Address) (a : Address) : environmentFormat.Value :=
  (who.1, who.2, l.transactionId, l.blockNumber, l.deployer a, a, l.medianTime, l.blockNumber / 2)

lemma environment_inj {l : Ledger} {who who' : Address × Address} {a : Address}
    (h : l.environment who a = l.environment who' a) : who = who' :=
  Prod.ext (congrArg (fun v : environmentFormat.Value => v.1) h)
    (congrArg (fun v : environmentFormat.Value => v.2.1) h)

/-- The record tells it this. A transaction's id has 32 bytes. -/
def Introduces (l : Ledger) (who : Address × Address) (a : Address) (record : Bytes) : Prop :=
  environmentFormat.encode (l.environment who a) = .ok record ∧
    (l.transactionId.length = 32 →
      environmentFormat.decode record = .ok (l.environment who a))

lemma introduces_of_encode {l : Ledger} {who : Address × Address} {a : Address} {record : Bytes}
    (h : environmentFormat.encode (l.environment who a) = .ok record) :
    l.Introduces who a record := by
  refine ⟨h, fun hid => Format.decode_of_encode ?_ h⟩
  exact ⟨trivial, trivial, congrArg Int.ofNat hid, trivial, trivial, trivial, trivial, trivial⟩

/-- What an activation is like whose entries are these: it runs nothing before it is told this, and it
is shown the transaction as the ledger has it. -/
structure Vouches (l : Ledger) (who : Address × Address) (a : Address) (own : List Entry) :
    Prop where
  environment : ∀ n record, .environment n record ∈ own → l.Introduces who a record
  started : ∀ n e, e ∈ own → e.started? = some n →
    ∃ record, [.environment n record, e].Sublist own
  inputs : ∀ n bs, .reply n .inputs bs ∈ own → bs = l.inputs
  outputs : ∀ n bs, .reply n .outputs bs ∈ own → bs = l.outputs

/-- The entry is what a program hears in answer to its requests, the transaction among it as the ledger
has it. -/
def Answers (l : Ledger) : Entry → Prop
  | .reply _ .inputs bs => bs = l.inputs
  | .reply _ .outputs bs => bs = l.outputs
  | .reply _ _ _ | .caught _ _ => True
  | _ => False

lemma Answers.started? {l : Ledger} {e : Entry} (h : l.Answers e) : e.started? = none := by
  cases e <;> first | rfl | exact h.elim

namespace Vouches

variable {l : Ledger} {who : Address × Address} {a : Address} {own : List Entry}

lemma append (h : l.Vouches who a own) {heard : List Entry} (hheard : ∀ e ∈ heard, l.Answers e) :
    l.Vouches who a (own ++ heard) where
  environment := by
    intro n record hmem
    rcases List.mem_append.mp hmem with hmem | hmem
    · exact h.environment n record hmem
    · exact (hheard _ hmem).elim
  started := by
    intro n e hmem hstarted
    rcases List.mem_append.mp hmem with hmem | hmem
    · obtain ⟨record, hrecord⟩ := h.started n e hmem hstarted
      exact ⟨record, hrecord.trans (List.sublist_append_left _ _)⟩
    · cases (hheard e hmem).started?.symm.trans hstarted
  inputs := by
    intro n bs hmem
    rcases List.mem_append.mp hmem with hmem | hmem
    · exact h.inputs n bs hmem
    · exact hheard _ hmem
  outputs := by
    intro n bs hmem
    rcases List.mem_append.mp hmem with hmem | hmem
    · exact h.outputs n bs hmem
    · exact hheard _ hmem

lemma of_asked (h : ∀ e ∈ own, ∃ n parameters, e = .instantiated n parameters) :
    l.Vouches who a own where
  environment := by
    intro n record hmem
    obtain ⟨_, _, h⟩ := h _ hmem
    cases h
  started := by
    intro n e hmem hstarted
    obtain ⟨_, _, rfl⟩ := h e hmem
    cases hstarted
  inputs := by
    intro n bs hmem
    obtain ⟨_, _, h⟩ := h _ hmem
    cases h
  outputs := by
    intro n bs hmem
    obtain ⟨_, _, h⟩ := h _ hmem
    cases h

lemma told (h : ∀ e ∈ own, ∃ n parameters, e = .instantiated n parameters) (n : Nat)
    {record : Bytes} (hrecord : l.Introduces who a record) :
    l.Vouches who a (own ++ [.environment n record]) := by
  have hasked : l.Vouches who a own := .of_asked h
  refine ⟨fun m other hmem => ?_, fun m e hmem hstarted => ?_, fun m bs hmem => ?_,
    fun m bs hmem => ?_⟩ <;> rcases List.mem_append.mp hmem with hmem | hmem
  · exact hasked.environment m other hmem
  · cases List.mem_singleton.mp hmem
    exact hrecord
  · obtain ⟨_, _, rfl⟩ := h e hmem
    cases hstarted
  · cases List.mem_singleton.mp hmem
    cases hstarted
  · exact hasked.inputs m bs hmem
  · cases List.mem_singleton.mp hmem
  · exact hasked.outputs m bs hmem
  · cases List.mem_singleton.mp hmem

lemma begun {n : Nat} {record : Bytes} (h : l.Vouches who a own)
    (hrecord : .environment n record ∈ own) {e : Entry} (he : e.started? = some n) :
    l.Vouches who a (own ++ [e]) where
  environment := by
    intro m other hmem
    rcases List.mem_append.mp hmem with hmem | hmem
    · exact h.environment m other hmem
    · cases List.mem_singleton.mp hmem
      cases he
  started := by
    intro m d hmem hstarted
    rcases List.mem_append.mp hmem with hmem | hmem
    · obtain ⟨record, hrecord⟩ := h.started m d hmem hstarted
      exact ⟨record, hrecord.trans (List.sublist_append_left _ _)⟩
    · cases List.mem_singleton.mp hmem
      cases he.symm.trans hstarted
      exact ⟨record, (List.singleton_sublist.mpr hrecord).append (List.Sublist.refl _)⟩
  inputs := by
    intro m bs hmem
    rcases List.mem_append.mp hmem with hmem | hmem
    · exact h.inputs m bs hmem
    · cases List.mem_singleton.mp hmem
      cases he
  outputs := by
    intro m bs hmem
    rcases List.mem_append.mp hmem with hmem | hmem
    · exact h.outputs m bs hmem
    · cases List.mem_singleton.mp hmem
      cases he

end Vouches

/-- The sender and the origin in an activation: those of a call from outside are given or stand in the
ledger, and constructors see the deployer. -/
def actors (l : Ledger) (sender origin : Option Address) (around : Option Address) (a : Address) :
    Phase → Address × Address
  | .construction => (l.deployer a, l.deployer a)
  | .execution =>
    match around with
    | none => (sender.getD l.sender, origin.getD l.origin)
    | some caller => (caller, l.origin)

end Ledger

namespace Run

variable {f g h : Frame}

/-- The ledger abides, and contracts see of it what they saw before. -/
structure Attends (f g : Frame) : Prop extends f.Abides g where
  context : g.ledger.context = f.ledger.context
  deployers : ∀ a, g.ledger.deployer a = f.ledger.deployer a
  deployer : g.contract.deployer = f.contract.deployer

namespace Attends

lemma withLedger {f : Frame} {l : Ledger} (hl : f.ledger.Abides l)
    (hcontext : l.context = f.ledger.context) (hdeployers : ∀ a, l.deployer a = f.ledger.deployer a)
    (d : List Deployment) : Attends f ⟨l, f.seat, d⟩ where
  toAbides := .withLedger hl d
  context := hcontext
  deployers := hdeployers
  deployer := by
    obtain ⟨m, seat, deployments⟩ := f
    cases seat with
    | registered a => exact hdeployers a
    | apart c => rfl

lemma book (f : Frame) {l : Ledger} (hcontracts : l.contracts = f.ledger.contracts)
    (hengine : l.engine = f.ledger.engine)
    (hguard : l.reentrancyGuard = f.ledger.reentrancyGuard)
    (hcontext : l.context = f.ledger.context) : Attends f { f with ledger := l } :=
  withLedger (.of_contracts hcontracts hengine hguard) hcontext
    (fun a => by simp only [Ledger.deployer, Seat.contract, hcontracts]) _

lemma modifyContract (f : Frame) {k : Contract → Contract} (hk : Steady k)
    (hdeployer : ∀ c, (k c).deployer = c.deployer) : Attends f (f.modifyContract k) := by
  refine ⟨.modifyContract f hk, ?_, ?_, ?_⟩ <;> obtain ⟨l, seat, deployments⟩ := f <;> cases seat
  case refine_1.registered => rfl
  case refine_1.apart => rfl
  case refine_2.registered a => exact l.deployer_modifyContract a hdeployer
  case refine_2.apart => exact fun _ => rfl
  case refine_3.registered a => exact l.deployer_modifyContract a hdeployer a
  case refine_3.apart c => exact hdeployer c

instance : IsPreorder Frame Attends where
  refl := fun f => book f rfl rfl rfl rfl
  trans := fun _ _ _ hfg hgh =>
    ⟨hfg.toAbides.trans hgh.toAbides, hgh.context.trans hfg.context,
      fun a => (hgh.deployers a).trans (hfg.deployers a), hgh.deployer.trans hfg.deployer⟩

lemma asked (parameters : Parameters) (f : Frame) : Attends f (Run.asked parameters f) :=
  book f rfl rfl rfl rfl

end Attends

namespace Attends

lemma environment (h : Attends f g) (who : Address × Address) (a : Address) :
    g.ledger.environment who a = f.ledger.environment who a := by
  have hid := congrArg Context.transactionId h.context
  have hblock := congrArg Context.blockNumber h.context
  have htime := congrArg Context.medianTime h.context
  simp only [Ledger.context] at hid hblock htime
  rw [Ledger.environment, Ledger.environment, hid, hblock, htime, h.deployers]

lemma introduces (h : Attends f g) {who : Address × Address} {a : Address} {record : Bytes}
    (hrecord : g.ledger.Introduces who a record) : f.ledger.Introduces who a record := by
  have hid := congrArg Context.transactionId h.context
  simp only [Ledger.context] at hid
  rw [Ledger.Introduces, h.environment, hid] at hrecord
  exact hrecord

lemma vouches (h : Attends f g) {who : Address × Address} {a : Address} {own : List Entry}
    (hown : g.ledger.Vouches who a own) : f.ledger.Vouches who a own where
  environment := fun n record hmem => h.introduces (hown.environment n record hmem)
  started := hown.started
  inputs := fun n bs hmem => (hown.inputs n bs hmem).trans (congrArg Context.inputs h.context)
  outputs := fun n bs hmem => (hown.outputs n bs hmem).trans (congrArg Context.outputs h.context)

lemma answers (h : Attends f g) {e : Entry} (he : g.ledger.Answers e) : f.ledger.Answers e := by
  cases e with
  | reply n request bs =>
    cases request with
    | inputs => exact he.trans (congrArg Context.inputs h.context)
    | outputs => exact he.trans (congrArg Context.outputs h.context)
    | _ => exact he
  | _ => exact he

lemma actors (h : Attends f g) (sender origin around : Option Address) (a : Address)
    (phase : Phase) :
    g.ledger.actors sender origin around a phase = f.ledger.actors sender origin around a phase := by
  have hsender := congrArg Context.sender h.context
  have horigin := congrArg Context.origin h.context
  simp only [Ledger.context] at hsender horigin
  cases phase with
  | construction => simp only [Ledger.actors, h.deployers]
  | execution => cases around <;> simp only [Ledger.actors, hsender, horigin]

end Attends

lemma steady_dispose : Steady Contract.dispose := Alike.tending_dispose.steady

lemma deployer_dispose (c : Contract) : c.dispose.deployer = c.deployer := by
  rcases h : c.handle <;> simp [Contract.dispose, h]

lemma attends_elsewhere {seat : Seat} (h : Attends ⟨f.ledger, seat, []⟩ g) :
    Attends f { f with ledger := g.ledger } :=
  .withLedger (f := f) h.ledger h.context h.deployers _

lemma sustained_attends : Sustained Attends where
  note := fun f _ _ => .book f rfl rfl rfl rfl
  code := fun f _ _ => .book f rfl rfl rfl rfl
  own := fun f _ hk => .modifyContract f hk.steady hk.deployer
  other := fun f a _ hk => .withLedger (.modifyContract f.ledger a hk.steady) rfl
    (f.ledger.deployer_modifyContract a hk.deployer) _
  deployments := fun f _ => .withLedger (.refl f.ledger) rfl (fun _ => rfl) _
  dispose := by
    intro f
    have hentered : Attends f { f with ledger := f.ledger.enter f.contract.disposal } :=
      .book f rfl rfl rfl rfl
    exact trans_of Attends hentered (.modifyContract _ steady_dispose deployer_dispose)
  enter := fun f _ _ => .book f rfl rfl rfl rfl
  equip := by
    intro f r g _ hx
    rcases equip_cases hx with ⟨e, -, rfl⟩ | ⟨engine, parameters, -, ⟨e, -, -, rfl⟩ | ⟨i, -, -, rfl⟩⟩
    · exact refl _
    · exact .asked parameters f
    · exact trans_of Attends (.asked parameters f)
        (.modifyContract _ (k := equipped _) ⟨fun _ => rfl, fun _ h => h⟩ fun _ => rfl)
  visit := fun _ _ _ _ h _ => attends_elsewhere h
  copy := fun _ _ _ _ h _ => attends_elsewhere h

lemma handle_equipped (f : Frame) (handle : Handle) :
    (f.modifyContract (equipped handle)).contract.handle = some handle ∨
      (f.modifyContract (equipped handle)).contract.handle = none := by
  obtain ⟨l, seat, deployments⟩ := f
  cases seat with
  | registered a =>
    simp only [Frame.modifyContract, Frame.contract, Seat.contract]
    rw [Table.find?_modify, if_pos rfl]
    cases l.contracts.find? a with
    | none => exact .inr rfl
    | some c => exact .inl rfl
  | apart c => exact .inl rfl

lemma traffic_load {r : Except Failure Handle} (hx : load.outcome f = some (r, g)) :
    (∃ es, g.ledger.traffic = f.ledger.traffic ++ es ∧
      ∀ e ∈ es, ∃ n parameters, e = .instantiated n parameters) ∧
      ∀ handle, r = .ok handle → g.contract.handle = some handle ∨ g.contract.handle = none := by
  have hbegun : ((disposed f).modifyContract begun).ledger.traffic = f.ledger.traffic :=
    (traffic_modifyContract _ begun).trans (traffic_disposed f)
  have hasked (parameters : Parameters) :
      (asked parameters ((disposed f).modifyContract begun)).ledger.traffic =
        f.ledger.traffic ++
          [.instantiated (((disposed f).modifyContract begun).ledger.handles + 1) parameters] := by
    rw [asked, traffic_enter, ← hbegun]
    rfl
  have hsingle (n : Nat) (parameters : Parameters) :
      ∀ e ∈ [Entry.instantiated n parameters], ∃ n parameters, e = .instantiated n parameters :=
    fun e he => ⟨n, parameters, List.mem_singleton.mp he⟩
  rw [load_eq, outcome_bind, outcome_dispose, Outcome.some_andThen] at hx
  simp only at hx
  rw [outcome_bind, outcome_modifyContract, Outcome.some_andThen] at hx
  rcases equip_cases hx with
    ⟨e, rfl, rfl⟩ | ⟨engine, parameters, -, ⟨e, -, rfl, rfl⟩ | ⟨i, -, rfl, rfl⟩⟩
  · exact ⟨⟨[], hbegun.trans (List.append_nil _).symm, fun _ h => absurd h List.not_mem_nil⟩,
      fun _ h => by cases h⟩
  · exact ⟨⟨_, hasked parameters, hsingle _ _⟩, fun _ h => by cases h⟩
  · refine ⟨⟨_, (traffic_modifyContract _ _).trans (hasked parameters), hsingle _ _⟩, ?_⟩
    rintro _ ⟨⟩
    exact handle_equipped _ _

/-- What an activation does between being loaded and running its program. -/
inductive Opens (sender origin : Option Address) (handle : Handle) (f : Frame) : Frame → Prop
  | unheard : Opens sender origin handle f f
  | told (own : Handle) (record : Bytes) (hown : f.contract.handle = some own)
      (hrecord : environmentRecord f.ledger f.contract (.caller sender origin) = .ok record) :
      Opens sender origin handle f
        { f with ledger := f.ledger.enter [.environment own.number record] }
  | started (own : Handle) (record : Bytes) (e : Entry) (hown : f.contract.handle = some own)
      (hrecord : environmentRecord f.ledger f.contract (.caller sender origin) = .ok record)
      (he : e.started? = some handle.number) :
      Opens sender origin handle f
        { f with ledger := (f.ledger.enter [.environment own.number record]).enter [e] }

lemma opens_setEnvironment {sender origin : Option Address} {handle : Handle} {α : Type}
    {a : Bytes → α} {e : Entry} (he : e.started? = some handle.number) {r : Except Failure α}
    (hx : (do
      let record ← setEnvironment (.caller sender origin)
      enter e
      return a record : Run α).outcome f = some (r, g)) : Opens sender origin handle f g := by
  simp only [setEnvironment, outcome_bind, outcome_contract, outcome_ledger, outcome_lift,
    Outcome.some_andThen] at hx
  cases hrecord : environmentRecord f.ledger f.contract (.caller sender origin) with
  | error e =>
    rw [hrecord] at hx
    cases hx
    exact .unheard
  | ok record =>
    cases hown : f.contract.handle with
    | none =>
      rw [hrecord, Contract.handle?, hown] at hx
      cases hx
      exact .unheard
    | some own =>
      simp only [hrecord, Contract.handle?, hown, outcome_enter, Outcome.some_andThen] at hx
      cases hrefusal : own.program.refusal with
      | some e =>
        simp only [hrefusal, outcome_throw, Outcome.some_andThen] at hx
        cases hx
        exact .told own record hown hrecord
      | none =>
        simp only [hrefusal, outcome_pure, Outcome.some_andThen] at hx
        cases hx
        exact .started own record e hown hrecord he

def Listed (f : Frame) : Prop :=
  f.ledger.Filed ∧ f.contract.deployer = f.ledger.deployer f.contract.address

lemma Attends.listed (h : Attends f g) (hf : Listed f) : Listed g := by
  refine ⟨h.ledger.filed hf.1, ?_⟩
  rw [h.deployer, h.deployers, h.address, hf.2]

lemma listed_registered {l : Ledger} (hl : l.Filed) {a : Address} (ha : l.hasContract a = true)
    (deployments : List Deployment) : Listed ⟨l, .registered a, deployments⟩ := by
  refine ⟨hl, ?_⟩
  have haddress : (Seat.contract l (.registered a)).address = a := hl.address_contract ha
  simp only [Frame.contract, haddress, Ledger.deployer]

lemma Listed.introduces (hf : Listed f) {sender origin : Option Address} {record : Bytes}
    (h : environmentRecord f.ledger f.contract (.caller sender origin) = .ok record) :
    f.ledger.Introduces (sender.getD f.ledger.sender, origin.getD f.ledger.origin)
      f.contract.address record := by
  rw [environmentRecord, EnvironmentGiven.caller] at h
  simp only [Option.getD_none, hf.2] at h
  exact Ledger.introduces_of_encode h

/-- An activation of the contract that begins so is told this sender and this origin. -/
def Declares (sender origin : Option Address) (start : Run (Nat × Program)) (f : Frame) : Prop :=
  ∀ r g, start.outcome f = some (r, g) →
    f.ledger.Vouches (sender.getD f.ledger.sender, origin.getD f.ledger.origin) f.contract.address
      (passed f g)

lemma passed_eq {es : List Entry} (h : g.ledger.traffic = f.ledger.traffic ++ es) :
    passed f g = es := by
  rw [passed, h, List.drop_left]

lemma Opens.vouches {sender origin : Option Address} {handle : Handle}
    (hopens : Opens sender origin handle g h) (hg : Listed g)
    (hhandle : g.contract.handle = some handle ∨ g.contract.handle = none) {es : List Entry}
    (hes : ∀ e ∈ es, ∃ n parameters, e = .instantiated n parameters) :
    ∃ more, h.ledger.traffic = g.ledger.traffic ++ more ∧
      g.ledger.Vouches (sender.getD g.ledger.sender, origin.getD g.ledger.origin)
        g.contract.address (es ++ more) := by
  cases hopens with
  | unheard => exact ⟨[], (List.append_nil _).symm, by rw [List.append_nil]; exact .of_asked hes⟩
  | told own record hown hrecord =>
    exact ⟨_, traffic_enter _ _, .told hes own.number (hg.introduces hrecord)⟩
  | started own record e hown hrecord he =>
    obtain rfl : own = handle := by
      rcases hhandle with hhandle | hhandle <;> cases hhandle.symm.trans hown
      rfl
    have htold := Ledger.Vouches.told hes own.number (hg.introduces hrecord)
    have htraffic : e.isTraffic = true := by
      cases e <;> first | rfl | cases he
    refine ⟨[.environment own.number record, e], ?_, ?_⟩
    · rw [traffic_enter, traffic_enter, List.append_assoc]
      rw [List.filter_cons_of_pos htraffic]
      rfl
    · have hbegun := htold.begun (List.mem_append_right _ (List.mem_singleton_self _)) he
      rwa [List.append_assoc] at hbegun

lemma declares_of_opens {sender origin : Option Address} {k : Handle → Run (Nat × Program)}
    (hf : Listed f) (hk : ∀ handle g r h, Attends f g → (k handle).outcome g = some (r, h) →
      Opens sender origin handle g h) : Declares sender origin (load >>= k) f := by
  intro r g hx
  rw [outcome_bind] at hx
  obtain ⟨p, h, hload, hx⟩ := Outcome.andThen_eq_some hx
  obtain ⟨⟨es, htraffic, hes⟩, hhandle⟩ := traffic_load hload
  have hattends : Attends f h := sustained_attends.leads_load p h hload
  have hwho := hattends.actors sender origin none f.contract.address .execution
  simp only [Ledger.actors] at hwho
  cases p with
  | error e =>
    cases hx
    rw [passed_eq htraffic]
    exact .of_asked hes
  | ok handle =>
    obtain ⟨more, hmore, hvouches⟩ := (hk handle h r g hattends hx).vouches (hattends.listed hf)
      (hhandle handle rfl) hes
    rw [passed_eq (hmore.trans (by rw [htraffic, List.append_assoc]))]
    rw [hwho, hattends.address] at hvouches
    exact hattends.vouches hvouches

lemma declares_entry (hf : Listed f) (calldata : Bytes) (sender origin : Option Address) :
    Declares sender origin (entry calldata (.caller sender origin)) f := by
  refine declares_of_opens hf fun handle g r h _ hx => ?_
  exact opens_setEnvironment (e := .execution handle.number calldata) rfl hx

lemma declares_inception (hf : Listed f) :
    Declares (some (f.ledger.deployer f.contract.address))
      (some (f.ledger.deployer f.contract.address)) inception f := by
  refine declares_of_opens hf fun handle g r h hattends hx => ?_
  rw [outcome_bind, outcome_contract, Outcome.some_andThen] at hx
  have hdeployer : g.contract.deployer = f.ledger.deployer f.contract.address :=
    hattends.deployer.trans hf.2
  simp only [hdeployer] at hx
  exact opens_setEnvironment (e := .construction handle.number g.contract.constructorCalldata) rfl hx

/-- Each activation is told who acts in it. -/
def Identified (l : Ledger) (sender origin around : Option Address) (t : Transcript) : Prop :=
  t.Each (fun around a phase own => l.Vouches (l.actors sender origin around a phase) a own) around

lemma Attends.identified (h : Attends f g) {sender origin around : Option Address} {t : Transcript}
    (ht : Identified g.ledger sender origin around t) :
    Identified f.ledger sender origin around t := by
  refine Transcript.Each.imp (fun around a phase own hown => ?_) ht
  rw [h.actors] at hown
  exact h.vouches hown

section Calls

variable {call : Address → Bytes → Run CallResponse}
  {nested : Address → Bytes → Frame → Transcript}
  (hcall : ∀ target calldata f, Leads Attends f (call target calldata))

def Identifies (nested : Address → Bytes → Frame → Transcript) : Prop :=
  ∀ target calldata f, Listed f → (nested target calldata f).own = [] ∧ ∀ sender origin,
    Identified f.ledger sender origin (some f.contract.address) (nested target calldata f)

lemma requestTranscript_identified (hnested : Identifies nested) (request : HostFunction)
    (data : Bytes) (hf : Listed f) :
    (requestTranscript nested request data f).own = [] ∧ ∀ sender origin,
      Identified f.ledger sender origin (some f.contract.address)
        (requestTranscript nested request data f) := by
  cases request with
  | call =>
    rw [requestTranscript]
    cases callRequest data with
    | error e => exact ⟨rfl, fun _ _ => trivial⟩
    | ok target => exact hnested _ _ f hf
  | _ => exact ⟨rfl, fun _ _ => trivial⟩

lemma returned_answers {request : HostFunction} {data : Bytes} {reply : Except Failure Bytes}
    (number : Nat) (hx : (Host.answer call request data).outcome f = some (reply, g)) :
    ∀ e ∈ returned number request reply, f.ledger.Answers e := by
  intro e he
  cases reply with
  | error _ => cases he
  | ok bs =>
    rw [returned] at he
    split at he
    case isFalse => cases he
    case isTrue =>
    cases List.mem_singleton.mp he
    cases request with
    | inputs =>
      cases hx
      rfl
    | outputs =>
      cases hx
      rfl
    | _ => trivial

include hcall

omit hcall in
lemma identified_behind {t : Transcript} (hfg : Attends f g)
    (ht : (∀ e ∈ t.own, g.ledger.Answers e) ∧
      ∀ sender origin, Identified g.ledger sender origin (some g.contract.address) t) :
    (∀ e ∈ t.own, f.ledger.Answers e) ∧
      ∀ sender origin, Identified f.ledger sender origin (some f.contract.address) t := by
  refine ⟨fun e he => hfg.answers (ht.1 e he), fun sender origin => ?_⟩
  rw [← hfg.address]
  exact hfg.identified (ht.2 sender origin)

lemma programTranscript_identified (hnested : Identifies nested) (number : Nat) (p : Program)
    (gas : Int) (hf : Listed f) :
    (∀ e ∈ (programTranscript call nested number p gas f).own, f.ledger.Answers e) ∧
      ∀ sender origin, Identified f.ledger sender origin (some f.contract.address)
        (programTranscript call nested number p gas f) := by
  -- contracts see at each point what they saw at the first, so what the rest is told holds from there
  induction p generalizing gas f with
  | done reply => exact ⟨fun _ h => absurd h List.not_mem_nil, fun _ _ => trivial⟩
  | fail e => exact ⟨fun _ h => absurd h List.not_mem_nil, fun _ _ => trivial⟩
  | ask request data next ih =>
    rw [programTranscript]
    cases hrequest : (Host.answer call request data).outcome f with
    | none => exact ⟨fun _ h => absurd h List.not_mem_nil, fun _ _ => trivial⟩
    | some o =>
      obtain ⟨reply, g⟩ := o
      obtain ⟨hown, hasked⟩ := requestTranscript_identified hnested request data hf
      have hfg : Attends f (answered number request reply g) :=
        trans_of Attends (sustained_attends.leads_request hcall request data reply g hrequest)
          (sustained_attends.answered number request reply g)
      obtain ⟨hrest, hafter⟩ := identified_behind hfg (ih reply gas (hfg.listed hf))
      refine ⟨fun e he => ?_, fun sender origin => ⟨hasked sender origin, hafter sender origin⟩⟩
      rw [Transcript.own, hown, List.nil_append, Transcript.own] at he
      rcases List.mem_append.mp he with he | he
      · exact returned_answers number hrequest e he
      · exact hrest e he
  | charge amount next ih =>
    have hfg := sustained_attends.charged number (gas + amount) f
    exact identified_behind hfg (ih _ (hfg.listed hf))
  | caught e next ih =>
    have hfg := sustained_attends.enter f (.caught number e) rfl
    obtain ⟨hrest, hafter⟩ := identified_behind hfg (ih gas (hfg.listed hf))
    refine ⟨fun d hd => ?_, hafter⟩
    rcases List.mem_append.mp hd with hd | hd
    · cases List.mem_singleton.mp hd
      trivial
    · exact hrest d hd

lemma transcriptOf_identified (hnested : Identifies nested) {start : Run (Nat × Program)}
    (hstart : Leads Attends f start) {sender origin : Option Address}
    (hdeclares : Declares sender origin start f) (hf : Listed f) :
    f.ledger.Vouches (sender.getD f.ledger.sender, origin.getD f.ledger.origin) f.contract.address
        (transcriptOf call nested start f).own ∧
      ∀ s o, Identified f.ledger s o (some f.contract.address)
        (transcriptOf call nested start f) := by
  rw [transcriptOf]
  cases hbegin : start.outcome f with
  | none => exact ⟨.of_asked fun _ h => absurd h List.not_mem_nil, fun _ _ => trivial⟩
  | some o =>
    obtain ⟨r, g⟩ := o
    have hfg : Attends f g := hstart r g hbegin
    have hvouches := hdeclares r g hbegin
    cases r with
    | error e =>
      refine ⟨?_, fun _ _ => trivial⟩
      rw [Transcript.own, Transcript.own, List.append_nil]
      exact hvouches
    | ok p =>
      obtain ⟨hheard, hrest⟩ :=
        programTranscript_identified hcall hnested p.1 p.2 0 (hfg.listed hf)
      refine ⟨hvouches.append fun e he => hfg.answers (hheard e he), fun s o => ?_⟩
      exact hfg.address ▸ hfg.identified (hrest s o)

lemma deployTranscript_identified (hnested : Identifies nested) (hf : Listed f)
    (sender origin around : Option Address) :
    Identified f.ledger sender origin around (deployTranscript call nested f) := by
  rw [deployTranscript]
  split
  case isTrue =>
    obtain ⟨hvouches, hrest⟩ := transcriptOf_identified hcall hnested
      sustained_attends.leads_inception (declares_inception hf) hf
    exact ⟨hvouches, hrest sender origin⟩
  case isFalse => trivial

lemma executeTranscript_identified (hnested : Identifies nested) (hf : Listed f)
    {sender origin around : Option Address} {calldata : Bytes} {s o : Option Address}
    (hwho : ∀ a, f.ledger.actors s o around a .execution =
      (sender.getD f.ledger.sender, origin.getD f.ledger.origin)) :
    Identified f.ledger s o around
      (executeTranscript call nested calldata sender origin f) := by
  refine ⟨deployTranscript_identified hcall hnested hf s o around, ?_⟩
  cases hdeploy : (deploy call).outcome f with
  | none => trivial
  | some r =>
    obtain ⟨_ | done, g⟩ := r
    · trivial
    · have hfg : Attends f { g with deployments := [] } :=
        trans_of Attends (sustained_attends.leads_deploy hcall _ g hdeploy)
          (sustained_attends.deployments g [])
      have hg := hfg.listed hf
      obtain ⟨hvouches, hrest⟩ := transcriptOf_identified hcall hnested
        (sustained_attends.leads_entry calldata (.caller sender origin))
        (declares_entry hg calldata sender origin) hg
      have htold := hfg.actors sender origin none g.contract.address .execution
      simp only [Ledger.actors] at htold
      rw [htold, ← hwho g.contract.address] at hvouches
      exact ⟨hfg.vouches hvouches, hfg.identified (hrest s o)⟩

lemma openTranscript_identified (hnested : Identifies nested) (target : Address) (hf : Listed f)
    (sender origin around : Option Address) :
    Identified f.ledger sender origin around (openTranscript call nested target f) := by
  rw [openTranscript]
  split
  case isTrue h =>
    have hopened : Attends f { f with ledger := opened f target } :=
      sustained_attends.opened f target
    have hknown : (opened f target).hasContract target = true :=
      (hopened.ledger.hasContract target).trans (Bool.and_eq_true_iff.mp h).2
    exact hopened.identified (deployTranscript_identified hcall hnested
      (listed_registered (hopened.listed hf).1 hknown []) sender origin around)
  case isFalse => trivial

lemma listed_copied {target : Address} {copy : Contract} (hf : f.ledger.Filed)
    (hx : (copied call target).outcome f = some (.ok copy, g)) :
    Listed ⟨g.ledger, .apart copy, []⟩ := by
  have hfg := sustained_attends.leads_copied hcall target (.ok copy) g hx
  rw [copied, outcome_bind] at hx
  obtain ⟨r, h, hopen, hx⟩ := Outcome.andThen_eq_some hx
  have hfh := sustained_attends.leads_openCall hcall target r h hopen
  cases r with
  | error e => cases hx
  | ok done =>
    simp only [outcome_copyTarget] at hx
    split at hx
    case h_2 => cases hx
    case h_1 l copy hcopy =>
      cases hx
      obtain ⟨code, resolved, rfl, rfl⟩ := copyOf_eq_ok hcopy
      have hknown : h.ledger.hasContract target = true :=
        (hfh.ledger.hasContract target).trans (hasContract_of_openCall hopen)
      exact ⟨hfg.ledger.filed hf, (listed_registered (hfh.ledger.filed hf) hknown []).2⟩

lemma visitTranscript_identified (hnested : Identifies nested) :
    Identifies (visitTranscript call nested) := by
  intro target calldata f hf
  constructor
  case left =>
    have hdeploy (g : Frame) : (deployTranscript call nested g).own = [] := by
      rw [deployTranscript]
      split <;> rfl
    have hopen : (openTranscript call nested target f).own = [] := by
      rw [openTranscript]
      split
      · exact hdeploy _
      · rfl
    rw [visitTranscript, Transcript.own, hopen, List.nil_append]
    split
    · rw [executeTranscript, Transcript.own, hdeploy, List.nil_append]
      split <;> rfl
    · rfl
  case right =>
    intro sender origin
    refine ⟨openTranscript_identified hcall hnested target hf sender origin _, ?_⟩
    cases hcopied : (copied call target).outcome f with
    | none => trivial
    | some r =>
      obtain ⟨_ | copy, g⟩ := r
      · trivial
      · have hfg : Attends f g := sustained_attends.leads_copied hcall target _ g hcopied
        have hheard : Attends ⟨g.ledger, .apart copy, []⟩ (heard calldata ⟨g.ledger, .apart copy, []⟩) :=
          sustained_attends.heard calldata _
        refine hfg.identified (hheard.identified (f := ⟨g.ledger, .apart copy, []⟩) ?_)
        refine executeTranscript_identified hcall hnested
          (hheard.listed (listed_copied hcall hf.1 hcopied)) fun a => ?_
        rw [hheard.actors]
        simp only [Ledger.actors, Option.getD_some, hfg.address]

end Calls

lemma callTranscript_identified (n : Nat) : Identifies (callTranscript n) := by
  induction n with
  | zero => exact fun _ _ _ _ => ⟨rfl, fun _ _ => trivial⟩
  | succ n ih =>
    exact visitTranscript_identified
      (fun target calldata _ => sustained_attends.leads_call n target calldata) ih

lemma transcript_identified {l : Ledger} (hl : l.Filed) {a : Address} (ha : l.hasContract a = true)
    (n : Nat) (calldata : Bytes) (sender origin : Option Address) :
    Identified l sender origin none (l.transcript n a calldata sender origin) :=
  executeTranscript_identified (f := ⟨l, .registered a, []⟩)
    (fun target calldata _ => sustained_attends.leads_call n target calldata)
    (callTranscript_identified n) (listed_registered hl ha []) fun _ => rfl

variable {n : Nat} {l l' : Ledger} {a : Address} {calldata : Bytes} {sender origin : Option Address}
  {response : CallResponse} {seat : Seat}

lemma transcript_execution (hsettled : l.Settled) (ha : l.hasContract a = true) (n : Nat)
    (calldata : Bytes) (sender origin : Option Address) :
    (l.transcript n a calldata sender origin).Each (fun _ _ phase _ => phase = .execution) none := by
  have hplain := plain_activity hsettled ha n calldata sender origin
  rw [← l.activity_transcript] at hplain
  exact Transcript.each_execution hplain

/-- An activation that is called from another is told the address of that contract, its own address and
deployer, and the transaction and the block; but the origin it is told is the one in the ledger, so
that only a call which gives none, or this one, has one origin throughout. -/
theorem identity_of_execute (hkeyed : l.Keyed) (hsettled : l.Settled)
    (ha : l.hasContract a = true)
    (hrun : l.perform (.registered a) (execute (Run.call n) calldata sender origin) =
      some (.ok response, l', seat)) :
    l'.traffic = l.traffic ++ (l.transcript n a calldata sender origin).entries ∧
      (l.transcript n a calldata sender origin).Each (fun around b phase own =>
        phase = .execution ∧
          (around = none → l.Vouches (sender.getD l.sender, origin.getD l.origin) b own) ∧
          ∀ caller, around = some caller → l.Vouches (caller, l.origin) b own) none ∧
      (origin = none ∨ origin = some l.origin →
        (l.transcript n a calldata sender origin).Each (fun around b _ own =>
          l.Vouches (around.getD (sender.getD l.sender), origin.getD l.origin) b own) none) := by
  have hidentified := transcript_identified hkeyed.filed ha n calldata sender origin
  have hexecution := transcript_execution hsettled ha n calldata sender origin
  refine ⟨Ledger.traffic_of_execute hrun, ?_, fun horigin => ?_⟩
  · refine (hexecution.and hidentified).imp ?_
    rintro around b phase own ⟨rfl, hvouches⟩
    refine ⟨rfl, ?_, ?_⟩
    · rintro rfl
      exact hvouches
    · rintro caller rfl
      exact hvouches
  · have hsame : origin.getD l.origin = l.origin := by
      rcases horigin with rfl | rfl <;> rfl
    refine (hexecution.and hidentified).imp ?_
    rintro around b phase own ⟨rfl, hvouches⟩
    cases around with
    | none => exact hvouches
    | some caller =>
      rw [hsame]
      exact hvouches

section Origins

def record? : Entry → Option Bytes
  | .environment _ record => some record
  | _ => none

def records (visit : Option Address × Address × Phase × List Entry) : List Bytes :=
  visit.2.2.2.filterMap record?

/-- The entrance, whose call is given the chamber as its origin, calls the chamber. -/
def commissioned : Transcript :=
  (awakened (.done [])).transcript 1 entrance [] none (some chamber)

lemma mem_commissioned : ∃ own n record,
    (some entrance, chamber, .execution, own) ∈ commissioned.activations none ∧
      .environment n record ∈ own ∧
      environmentFormat.encode ((awakened (.done [])).environment
        (entrance, (awakened (.done [])).origin) chamber) = .ok record := by
  have hfound : ∃ visit ∈ commissioned.activations none,
      (visit.1, visit.2.1, visit.2.2.1) = (some entrance, chamber, .execution) ∧
        (records visit).head? = (environmentFormat.encode ((awakened (.done [])).environment
          (entrance, (awakened (.done [])).origin) chamber)).toOption ∧
        (records visit).head?.isSome = true := by decide +kernel
  obtain ⟨⟨around, b, phase, own⟩, hmem, heq, hrecord, hsome⟩ := hfound
  simp only [Prod.mk.injEq] at heq
  obtain ⟨rfl, rfl, rfl⟩ := heq
  obtain ⟨record, hhead⟩ := Option.isSome_iff_exists.mp hsome
  obtain ⟨e, he, hbytes⟩ := List.mem_filterMap.mp (List.mem_of_mem_head? hhead)
  cases e with
  | environment n bytes =>
    cases hbytes
    refine ⟨own, n, _, hmem, he, ?_⟩
    rw [hhead] at hrecord
    cases hencode : environmentFormat.encode ((awakened (.done [])).environment
        (entrance, (awakened (.done [])).origin) chamber) with
    | error e =>
      rw [hencode] at hrecord
      cases hrecord
    | ok bytes =>
      rw [hencode] at hrecord
      exact congrArg Except.ok (Option.some.inj hrecord).symm
  | _ => cases hbytes

theorem identity_of_execute_commissioned :
    (∃ l' seat response, (awakened (.done [])).perform (.registered entrance)
        (execute (Run.call 1) [] none (some chamber)) = some (.ok response, l', seat)) ∧
      ∃ own, (some entrance, chamber, .execution, own) ∈ commissioned.activations none ∧
        (awakened (.done [])).Vouches (entrance, (awakened (.done [])).origin) chamber own := by
  obtain ⟨response, l', seat, hrun, -⟩ := exists_response ((awakened (.done [])).perform
    (.registered entrance) (execute (Run.call 1) [] none (some chamber))) [] (by decide +kernel)
  obtain ⟨own, n, record, hmem, -⟩ := mem_commissioned
  have htold := (identity_of_execute (l := awakened (.done []))
    (Ledger.keyed_standing (awakening (.done [])) _)
    (Ledger.settled_standing (awakening (.done [])) _) (by decide +kernel) hrun).2.1.of_mem hmem
  exact ⟨⟨l', seat, response, hrun⟩, own, hmem, htold.2.2 entrance rfl⟩

/-- A contract that is called from another does not learn the origin that the call was given. -/
theorem execute_loses_origin :
    ¬ ∀ (n : Nat) (l l' : Ledger) (a : Address) (calldata : Bytes) (sender origin : Option Address)
      (response : CallResponse) (seat : Seat), l.Keyed → l.Settled → l.hasContract a = true →
      l.transactionId.length = 32 →
      l.perform (.registered a) (execute (Run.call n) calldata sender origin) =
        some (.ok response, l', seat) →
      (l.transcript n a calldata sender origin).Each (fun around b _ own =>
        ∀ m record, .environment m record ∈ own → environmentFormat.decode record =
          .ok (l.environment (around.getD (sender.getD l.sender), origin.getD l.origin) b)) none := by
  intro h
  obtain ⟨response, l', seat, hrun, -⟩ := exists_response ((awakened (.done [])).perform
    (.registered entrance) (execute (Run.call 1) [] none (some chamber))) [] (by decide +kernel)
  obtain ⟨own, n, record, hmem, htold, hrecord⟩ := mem_commissioned
  have hid : (awakened (.done [])).transactionId.length = 32 := by decide +kernel
  have hclaimed := (h 1 (awakened (.done [])) l' entrance [] none (some chamber) response seat
    (Ledger.keyed_standing (awakening (.done [])) _)
    (Ledger.settled_standing (awakening (.done [])) _) (by decide +kernel) hid hrun).of_mem hmem
      n record htold
  have hdecoded := (Ledger.introduces_of_encode hrecord).2 hid
  have hsame := Ledger.environment_inj (Except.ok.inj (hclaimed.symm.trans hdecoded))
  exact absurd (congrArg Prod.snd hsame) (by decide +kernel)

end Origins

end Run

end ChainReplay
