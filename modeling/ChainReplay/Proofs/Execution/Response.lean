import Mathlib.Data.List.Induction
import ChainReplay.Proofs.Execution.Chronicle
import ChainReplay.Proofs.Execution.Retention

/-! What a response tells of the call tree: the contracts that were activated, in the order in which
they first were, and all events in the order in which they were emitted. Each nested call leaves its
part of both on its caller, and leaves every other contract alone. -/

namespace ChainReplay

/-- What a contract tells of its last activation. -/
def Contract.outline (c : Contract) : List Event × List Address := (c.events, c.callStack)

lemma inert_outline : Inert Contract.outline where
  handle := fun _ _ _ => rfl
  states := fun _ _ => rfl
  children := fun _ _ => rfl

/-- All contracts but the one that runs tell what they have told. -/
def Frame.Spares (f g : Frame) : Prop :=
  ∀ a, f.seat.address? ≠ some a →
    g.ledger.aspect? Contract.outline a = f.ledger.aspect? Contract.outline a

namespace Run

variable {α : Type} {f g : Frame}

lemma outline_of_load {k : Handle → Run α}
    (hk : ∀ handle g, Leads (Retains Contract.outline) g (k handle)) {r : Except Failure α}
    (hx : (load >>= k).outcome f = some (r, g))
    (hseat : ∀ a, f.seat.address? = some a → f.ledger.hasContract a = true) :
    g.contract.outline = ([], [f.contract.address]) ∧ f.Spares g := by
  let disposed := { f with ledger := f.ledger.enter f.contract.disposal }.modifyContract
    Contract.dispose
  have hdisposed : Retains Contract.outline f disposed :=
    retains_dispose inert_outline _ _ (outcome_dispose f)
  have habides : Minds [] f disposed := minds_dispose _ _ (outcome_dispose f)
  simp only [load_eq, bind_assoc] at hx
  rw [outcome_bind, outcome_dispose, Outcome.some_andThen] at hx
  simp only at hx
  rw [outcome_bind, outcome_modifyContract, Outcome.some_andThen] at hx
  have hrest : Retains Contract.outline (disposed.modifyContract begun) g :=
    (retains_equip inert_outline).bind hk r g hx
  refine ⟨?_, fun a ha => ?_⟩
  · rw [hrest.own, ← habides.address, Frame.contract_modifyContract fun a ha =>
      (habides.ledger.hasContract a).trans (hseat a (habides.seat.symm.trans ha))]
    rfl
  · rw [hrest.all, Frame.aspect?_modifyContract_of_ne (habides.seat ▸ ha), hdisposed.all]

lemma outline_of_entry {calldata : Bytes} {given : EnvironmentGiven}
    {r : Except Failure (Nat × Program)} (hx : (entry calldata given).outcome f = some (r, g))
    (hseat : ∀ a, f.seat.address? = some a → f.ledger.hasContract a = true) :
    g.contract.outline = ([], [f.contract.address]) ∧ f.Spares g :=
  outline_of_load (fun _ _ => (retains_setEnvironment given).bind fun _ _ =>
    (retains_enter _).bind fun _ _ => .pure _) hx hseat

/-- The stack once these contracts have been visited. -/
def visited (stack xs : List Address) : List Address :=
  xs.foldl (fun stack a => if stack.contains a then stack else stack ++ [a]) stack

lemma visited_append (stack xs ys : List Address) :
    visited stack (xs ++ ys) = visited (visited stack xs) ys := List.foldl_append ..

lemma mem_visited {stack xs : List Address} {a : Address} :
    a ∈ visited stack xs ↔ a ∈ stack ∨ a ∈ xs := by
  induction xs generalizing stack with
  | nil => simp [visited]
  | cons b xs ih =>
    rw [visited, List.foldl_cons, ← visited, ih]
    split
    case isTrue hb =>
      have hmem : b ∈ stack := List.contains_iff_mem.mp hb
      grind
    case isFalse => grind

/-- To visit what another stack has listed comes to the same as visiting what that stack was made of. -/
lemma visited_visited (stack other xs : List Address) :
    visited stack (visited other xs) = visited (visited stack other) xs := by
  induction xs using List.reverseRecOn with
  | nil => rfl
  | append_singleton xs a ih =>
    rw [visited_append, visited_append, ← ih]
    generalize visited other xs = seen
    by_cases ha : a ∈ seen
    · have hin : a ∈ visited stack seen := mem_visited.mpr (.inr ha)
      have hseen : visited seen [a] = seen := by simp [visited, ha]
      rw [hseen]
      exact (if_pos (List.contains_iff_mem.mpr hin)).symm
    · have hseen : visited seen [a] = seen ++ [a] := by simp [visited, ha]
      rw [hseen, visited_append]

lemma visited_nil (xs : List Address) : visited [] xs = xs.eraseDups := by
  induction xs using List.reverseRecOn with
  | nil => rfl
  | append_singleton xs a ih =>
    rw [visited_append, ih, List.eraseDups_append]
    by_cases ha : a ∈ xs
    · simp [visited, ha, List.removeAll]
    · simp [visited, ha, List.removeAll, List.eraseDups_cons]

/-- A part of a run with this chronicle, as the contract that runs tells of it. -/
structure Relates (t : Chronicle) (f g : Frame) : Prop extends f.Abides g where
  events : g.contract.events = f.contract.events ++ t.events
  callStack : g.contract.callStack = visited f.contract.callStack t.contracts
  others : f.Spares g

lemma Retains.events (h : Retains Contract.outline f g) : g.contract.events = f.contract.events :=
  congrArg Prod.fst h.own

lemma Retains.callStack (h : Retains Contract.outline f g) :
    g.contract.callStack = f.contract.callStack :=
  congrArg Prod.snd h.own

namespace Relates

variable {t u : Chronicle} {h : Frame}

lemma of_retains (hfg : f.Abides g) (hretains : Retains Contract.outline f g) (hevents : t.events = [])
    (hcontracts : t.contracts = []) : Relates t f g where
  toAbides := hfg
  events := by rw [hretains.events, hevents, List.append_nil]
  callStack := by rw [hretains.callStack, hcontracts, visited, List.foldl_nil]
  others := fun a _ => hretains.all a

lemma andThen (hfg : Relates t f g) (hgh : Relates u g h) : Relates (.andThen t u) f h where
  toAbides := hfg.toAbides.trans hgh.toAbides
  events := by rw [hgh.events, hfg.events, Chronicle.events, List.append_assoc]
  callStack := by rw [hgh.callStack, hfg.callStack, Chronicle.contracts, visited_append]
  others := fun a ha => (hgh.others a (hfg.seat ▸ ha)).trans (hfg.others a ha)

lemma retains_trans (hfg : f.Abides g) (hretains : Retains Contract.outline f g)
    (hgh : Relates t g h) : Relates t f h where
  toAbides := hfg.trans hgh.toAbides
  events := by rw [hgh.events, hretains.events]
  callStack := by rw [hgh.callStack, hretains.callStack]
  others := fun a ha => (hgh.others a (hfg.seat ▸ ha)).trans (hretains.all a)

end Relates

variable {call : Address → Bytes → Run CallResponse}
  {nested : Address → Bytes → Frame → Chronicle}

/-- Nested calls say what is in these chronicles, if all contracts are deployed. -/
def Spoken (call : Address → Bytes → Run CallResponse)
    (nested : Address → Bytes → Frame → Chronicle) : Prop :=
  ∀ target calldata f q g, f.ledger.Awake → f.Anchored →
    (call target calldata).outcome f = some (q, g) → Relates (nested target calldata f) f g

lemma requestChronicle_tacit {request : HostFunction} (hcall : request ≠ .call)
    (hemit : request ≠ .emit) (data : Bytes) (f : Frame) :
    (requestChronicle nested request data f).events = [] ∧
      (requestChronicle nested request data f).contracts = [] := by
  cases request with
  | call => exact absurd rfl hcall
  | emit => exact absurd rfl hemit
  | deploy =>
    rw [requestChronicle]
    split
    · split <;> exact ⟨rfl, rfl⟩
    · exact ⟨rfl, rfl⟩
  | _ => exact ⟨rfl, rfl⟩

def emitting (event : Event) (c : Contract) : Contract := { c with events := c.events ++ [event] }

lemma relates_emitting (hf : f.Anchored) (event : Event) :
    Relates (.emitted event) f (f.modifyContract (emitting event)) where
  toAbides := .modifyContract f ⟨fun _ => rfl, fun _ h => h⟩
  events := by
    rw [Frame.contract_modifyContract hf.2]
    rfl
  callStack := by
    rw [Frame.contract_modifyContract hf.2]
    rfl
  others := fun a ha => Frame.aspect?_modifyContract_of_ne ha _

lemma requestChronicle_relates (hcall : Spoken call nested) (hawake : f.ledger.Awake)
    (hf : f.Anchored) {request : HostFunction} {data : Bytes} {q : Except Failure Bytes}
    (hx : (Host.answer call request data).outcome f = some (q, g)) :
    Relates (requestChronicle nested request data f) f g := by
  by_cases hrequest : request = .call
  case pos =>
    subst hrequest
    rw [requestChronicle]
    rcases answer_call_cases hx with ⟨e, hdata, -, rfl⟩ | ⟨target, calldata, r, hdata, hrun, -⟩
    · rw [hdata]
      exact .of_retains (Minds.refl _).toAbides (refl _) rfl rfl
    · rw [hdata]
      exact hcall target calldata f r g hawake hf hrun
  have habides : f.Abides g := (minds_answer call hrequest data q g hx).toAbides
  by_cases hemit : request = .emit
  case neg =>
    have hretains : Retains Contract.outline f g :=
      retains_answer inert_outline call hrequest (absurd · hemit) data q g hx
    obtain ⟨hevents, hcontracts⟩ := requestChronicle_tacit hrequest hemit data f
    exact .of_retains habides hretains hevents hcontracts
  case pos =>
    subst hemit
    rw [answer_emit, outcome_bind, outcome_lift] at hx
    rw [requestChronicle]
    cases hdata : eventRequest data with
    | error e =>
      rw [hdata] at hx
      cases hx
      exact .of_retains habides (refl _) rfl rfl
    | ok event =>
      rw [hdata] at hx
      cases hx
      exact relates_emitting hf _

lemma programChronicle_relates (hcall : Spoken call nested) {number : Nat} {p : Program} {gas : Int}
    {q : Except Failure Bytes} (hawake : f.ledger.Awake) (hf : f.Anchored)
    (hx : (interpret (Host.answer call) number p gas).outcome f = some (q, g)) :
    Relates (programChronicle call nested number p gas f) f g := by
  induction p generalizing gas f with
  | done reply =>
    cases hx
    exact .of_retains (Minds.refl _).toAbides (refl _) rfl rfl
  | fail e =>
    cases hx
    exact .of_retains (Minds.refl _).toAbides (refl _) rfl rfl
  | ask request data next ih =>
    rw [outcome_interpret_ask] at hx
    obtain ⟨reply, h, hrequest, hx⟩ := Outcome.andThen_eq_some hx
    rw [programChronicle, hrequest]
    have hrelates := requestChronicle_relates hcall hawake hf hrequest
    have hanswered : h.Abides (answered number request reply h) := (minds_answered ..).toAbides
    have hready := hrelates.toAbides.trans hanswered
    exact hrelates.andThen (.retains_trans hanswered (retains_answered ..)
      (ih reply (hready.ledger.awake hawake) (hready.anchored hf) hx))
  | charge amount next ih =>
    rw [outcome_interpret_charge] at hx
    have hcharged : f.Abides (charged number (gas + amount) f) := (minds_charged ..).toAbides
    exact .retains_trans hcharged (retains_charged inert_outline ..)
      (ih (hcharged.ledger.awake hawake) (hcharged.anchored hf) hx)
  | caught e next ih =>
    rw [interpret, outcome_bind, outcome_enter, Outcome.some_andThen] at hx
    have hcaught : f.Abides { f with ledger := f.ledger.enter [.caught number e] } :=
      (Minds.enter f rfl).toAbides
    exact .retains_trans hcaught (.of_contracts f rfl)
      (ih (hcaught.ledger.awake hawake) (hcaught.anchored hf) hx)

lemma methodChronicle_relates (hcall : Spoken call nested) {calldata : Bytes}
    {given : EnvironmentGiven} {q : Except Failure Bytes} (hawake : f.ledger.Awake)
    (hf : f.Anchored)
    (hx : (runMethod (Host.answer call) calldata given).outcome f = some (q, g)) :
    g.contract.outline = ((methodChronicle call nested calldata given f).events,
        visited [] (methodChronicle call nested calldata given f).contracts) ∧
      f.Spares g := by
  rw [runMethod_eq, outcome_bind] at hx
  obtain ⟨r, h, hentry, hx⟩ := Outcome.andThen_eq_some hx
  obtain ⟨hfresh, hothers⟩ := outline_of_entry hentry hf.2
  rw [methodChronicle, chronicleOf, hentry]
  cases r with
  | error e =>
    cases hx
    exact ⟨hfresh, hothers⟩
  | ok p =>
    have hbegins : f.Abides h := (begins_entry hentry).toAbides
    have hrelates := programChronicle_relates hcall (hbegins.ledger.awake hawake)
      (hbegins.anchored hf) hx
    refine ⟨?_, fun a ha => (hrelates.others a (hbegins.seat ▸ ha)).trans (hothers a ha)⟩
    have hevents : h.contract.events = [] := congrArg Prod.fst hfresh
    have hstack : h.contract.callStack = [f.contract.address] := congrArg Prod.snd hfresh
    rw [Contract.outline, hrelates.events, hrelates.callStack, hevents, hstack]
    rfl

lemma executeChronicle_relates (hcall : Spoken call nested) {calldata : Bytes}
    {sender origin : Option Address} {response : CallResponse} (hawake : f.ledger.Awake)
    (hf : f.Anchored)
    (hx : (execute call calldata sender origin).outcome f = some (.ok response, g)) :
    response.events = (executeChronicle call nested calldata sender origin f).events ∧
      response.callStack =
        visited [] (executeChronicle call nested calldata sender origin f).contracts ∧
      f.Spares g := by
  rw [outcome_execute _ _ _ _ hf.1] at hx
  obtain ⟨r, h, hmethod, hx⟩ := Outcome.andThen_eq_some hx
  obtain ⟨hown, hothers⟩ := methodChronicle_relates hcall (f := { f with deployments := [] })
    hawake hf hmethod
  rw [executeChronicle_of_deployed hf.1]
  cases r with
  | ok reply =>
    cases hx
    exact ⟨congrArg Prod.fst hown, congrArg Prod.snd hown, hothers⟩
  | error e =>
    cases hx
    have hback := retains_rolledBack inert_outline f.contract h
    have habandoned := retains_abandoned inert_outline (rolledBack f.contract h)
      (e.wrap f.contract.address)
    refine ⟨hback.events.trans (congrArg Prod.fst hown),
      hback.callStack.trans (congrArg Prod.snd hown), fun a ha => ?_⟩
    rw [habandoned.all, hback.all, hothers a ha]

lemma deployed_opened (hawake : f.ledger.Awake) {target : Address}
    (ht : f.ledger.hasContract target = true) :
    (Frame.mk (opened f target) (.registered target) []).contract.deployed = true :=
  ((minds_opened f target).2.ledger.seat (.registered target)).2 (hawake target ht)

lemma openChronicle_of_awake (hawake : f.ledger.Awake) (target : Address) :
    openChronicle call nested target f = .quiet := by
  rw [openChronicle]
  split
  case isTrue h =>
    have hdeployed := deployed_opened hawake (Bool.and_eq_true_iff.mp h).2
    rw [deployChronicle, Contract.isNew_of_deployed hdeployed, if_neg Bool.false_ne_true,
      if_pos hdeployed]
  case isFalse => rfl

lemma retains_openCall (hawake : f.ledger.Awake) (target : Address) :
    Leads (Retains Contract.outline) f (openCall call target) := by
  intro q g hx
  have hrun : (openCall call target).outcome f = some (q, g) := hx
  have hopened : Retains Contract.outline f { f with ledger := opened f target } :=
    .of_contracts f (minds_opened f target).1
  rw [outcome_openCall_eq] at hrun
  split at hrun
  · cases hrun
    exact refl _
  split at hrun
  case isTrue ht =>
    rw [outcome_deploy_of_deployed call (deployed_opened hawake ht)] at hrun
    cases hrun
    exact hopened
  case isFalse =>
    cases hrun
    exact hopened

lemma relates_adopting {t : Chronicle} (hf : f.Anchored) {response : CallResponse}
    (hevents : response.events = t.events) (hstack : response.callStack = visited [] t.contracts) :
    Relates t f (f.modifyContract (adopt response)) where
  toAbides := .modifyContract f (tending_adopt response).steady
  events := by
    rw [Frame.contract_modifyContract hf.2, adopt, hevents]
  callStack := by
    have hadopted : (adopt response f.contract).callStack =
        visited f.contract.callStack response.callStack := rfl
    rw [Frame.contract_modifyContract hf.2, hadopted, hstack, visited_visited]
    rfl
  others := fun a ha => Frame.aspect?_modifyContract_of_ne ha _

lemma visitChronicle_relates {visits : Address → Bytes → Frame → Activity}
    (hfollowed : Followed call visits) (hcall : Spoken call nested) :
    Spoken (callWith call) (visitChronicle call nested) := by
  intro target calldata f q g hawake hf hx
  have hwhole := (visitActivity_follows hfollowed target calldata f q g hx).toAbides
  rw [outcome_callWith] at hx
  obtain ⟨r, h, hcopied, hx⟩ := Outcome.andThen_eq_some hx
  obtain ⟨hfollows, hcopy⟩ := copied_follows hfollowed hcopied
  have hretains : Retains Contract.outline f h :=
    (retains_openCall hawake target).bind (fun _ _ => retains_copyTarget target) r h hcopied
  rw [visitChronicle, openChronicle_of_awake hawake, hcopied]
  cases r with
  | error e =>
    cases hx
    exact .of_retains hwhole hretains rfl rfl
  | ok copy =>
    obtain ⟨response, k, k', hexecute, hreported, rfl, -⟩ := entered_cases hx
    have hheard := retains_heard (v := Contract.outline) calldata ⟨h.ledger, .apart copy, []⟩
    have hminds := minds_heard calldata ⟨h.ledger, .apart copy, []⟩
    have hanchored : (heard calldata ⟨h.ledger, .apart copy, []⟩).Anchored :=
      hminds.toAbides.anchored ⟨(hcopy copy rfl).1, fun _ h => by cases h⟩
    obtain ⟨hevents, hstack, hothers⟩ := executeChronicle_relates hcall
      ((hfollows.ledger.trans hminds.ledger).awake hawake) hanchored hexecute
    have hreport : Retains Contract.outline k k' := retains_reported inert_outline _ _ _ _ hreported
    let carried : Frame := ⟨(carryOver k'.ledger target k'.contract).1, h.seat,
      h.deployments ++ (carryOver k'.ledger target k'.contract).2 ++ k'.deployments⟩
    have hcarried : Retains Contract.outline h carried := by
      apply Retains.withLedger
      intro a
      have hapart : (heard calldata ⟨h.ledger, .apart copy, []⟩).seat.address? ≠ some a :=
        hminds.seat ▸ (Option.some_ne_none a).symm
      rw [aspect?_carryOver inert_outline, hreport.all, hothers a hapart, hheard.all]
    have habides : f.Abides carried := by
      apply hfollows.toAbides.trans
      apply Frame.Abides.withLedger
      exact ((hminds.ledger.trans (execute_tracks hfollowed hexecute).1.ledger).trans
        (minds_reported _ _ _ _ hreported).ledger).trans (carryOver_kept ..).1
    have hkept := trans_of (Retains Contract.outline) hretains hcarried
    exact (Relates.of_retains habides hkept rfl rfl).andThen
      (relates_adopting (habides.anchored hf) hevents hstack)

lemma callChronicle_relates (n : Nat) : Spoken (Run.call n) (callChronicle n) := by
  induction n with
  | zero => exact fun _ _ _ _ _ _ _ hx => by cases hx
  | succ n ih => exact visitChronicle_relates (callActivity_follows n) ih

/-- If all contracts are deployed, the call stack of a response lists all contracts that were activated
in the call, the called one first, in the order in which they first were, and each once; and its events
are all those that were emitted, in their order. -/
theorem response_of_execute {n : Nat} {l l' : Ledger} {a : Address} {calldata : Bytes}
    {sender origin : Option Address} {response : CallResponse} {seat : Seat} (hset : l.Settled)
    (ha : l.hasContract a = true)
    (hrun : l.perform (.registered a) (execute (Run.call n) calldata sender origin) =
      some (.ok response, l', seat)) :
    response.callStack = (l.chronicle n a calldata sender origin).contracts.eraseDups ∧
      response.callStack.head? = some (Seat.contract l (.registered a)).address ∧
      response.events = (l.chronicle n a calldata sender origin).events := by
  obtain ⟨g, -, hexecute⟩ := execute_of_perform hrun
  have hanchored : Frame.Anchored ⟨l, .registered a, []⟩ := by
    refine ⟨hset.deployed ha, ?_⟩
    rintro _ ⟨⟩
    exact ha
  obtain ⟨hevents, hstack, -⟩ :=
    executeChronicle_relates (callChronicle_relates n) hset.awake hanchored hexecute
  rw [visited_nil] at hstack
  refine ⟨hstack, ?_, hevents⟩
  rw [hstack, executeChronicle_of_deployed hanchored.1, Chronicle.contracts, Chronicle.contracts,
    List.nil_append, methodChronicle, Chronicle.contracts, List.eraseDups_cons]
  rfl

section Sounding

def sounding (mark : UInt8) (next : Program) : Program :=
  .ask .emit (Bytes.ofNat 4 0 ++ Bytes.ofNat 4 1 ++ [mark]) fun _ => next

/-- The entrance calls the chamber between two events. The chamber calls the entrance back, and fails
in the end. -/
def resounding : Engine where
  instantiate parameters := .ok
    { refusal := none
      construct := fun _ _ => .done []
      execute := fun _ calldata =>
        if calldata ≠ [] then sounding 3 (.done [])
        else if parameters.address = entrance then
          sounding 1 (calling chamber [] (sounding 4 (.done [])))
        else sounding 2 (calling entrance [1] (.fail .wrongValue)) }

def resounded : Ledger := Ledger.standing resounding [entrance, chamber]

theorem response_of_resounded :
    ∃ response l' seat, resounded.perform (.registered entrance)
        (execute (Run.call 2) [] none none) = some (.ok response, l', seat) ∧
      response.callStack = [entrance, chamber] ∧
      response.events = [⟨[], [1]⟩, ⟨[], [2]⟩, ⟨[], [3]⟩, ⟨[], [4]⟩] := by
  obtain ⟨hsome, hcontracts, hevents⟩ : (resounded.perform (.registered entrance)
        (execute (Run.call 2) [] none none)).isSome = true ∧
      (resounded.chronicle 2 entrance [] none none).contracts.eraseDups = [entrance, chamber] ∧
      (resounded.chronicle 2 entrance [] none none).events =
        [⟨[], [1]⟩, ⟨[], [2]⟩, ⟨[], [3]⟩, ⟨[], [4]⟩] := by decide +kernel
  obtain ⟨⟨r, l', seat⟩, hrun⟩ := Option.isSome_iff_exists.mp hsome
  obtain ⟨response, rfl⟩ := perform_execute_returns hrun
  obtain ⟨hstack, -, hemitted⟩ :=
    response_of_execute (l := resounded) (Ledger.settled_standing _ _) (by decide +kernel) hrun
  exact ⟨response, l', seat, hrun, hstack.trans hcontracts, hemitted.trans hevents⟩

end Sounding

end Run

end ChainReplay
