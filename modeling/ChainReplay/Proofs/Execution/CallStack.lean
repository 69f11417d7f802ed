import ChainReplay.Proofs.Execution.Tracking

/-! What the activities of calls leave behind: the call stack of a contract lists the contracts that
it has called. -/

namespace ChainReplay

namespace Run

variable {call : Address → Bytes → Run CallResponse} {nested : Address → Bytes → Frame → Activity}

lemma withdraw_kept (l : Ledger) (deployments : List Deployment) :
    l.Abides (withdraw l deployments) ∧ ∀ a c, l.contracts.find? a = some c →
      ∃ d, (withdraw l deployments).contracts.find? a = some d ∧ d.callStack = c.callStack := by
  induction deployments generalizing l with
  | nil => exact ⟨.refl l, fun a c hc => ⟨c, hc, rfl⟩⟩
  | cons deployment rest ih =>
    obtain ⟨habides, hstack⟩ := ih (l.modifyContract deployment.1 (forget deployment.2))
    have hforget : Steady (forget deployment.2) := ⟨fun _ => rfl, fun _ h => h⟩
    refine ⟨(Ledger.Abides.modifyContract l deployment.1 hforget).trans habides, ?_⟩
    intro a c hc
    have hforgotten : ∃ d, (l.modifyContract deployment.1 (forget deployment.2)).contracts.find? a =
        some d ∧ d.callStack = c.callStack := by
      rw [Ledger.modifyContract, Table.find?_modify, hc]
      split
      · exact ⟨forget deployment.2 c, rfl, rfl⟩
      · exact ⟨c, rfl, rfl⟩
    obtain ⟨d, hd, hsame⟩ := hforgotten
    obtain ⟨e, he, hsame'⟩ := hstack a d hd
    exact ⟨e, he, hsame'.trans hsame⟩

lemma journal_withdraw (l : Ledger) (deployments : List Deployment) :
    (withdraw l deployments).journal = l.journal := by
  induction deployments generalizing l with
  | nil => rfl
  | cons deployment rest ih => exact ih _

lemma rolledBack_kept (before : Contract) (f : Frame) : Tracks .quiet f (rolledBack before f) ∧
    (rolledBack before f).contract.callStack = f.contract.callStack := by
  let restore (c : Contract) : Contract :=
    { c with states := before.states, children := before.children }
  have hrestored : Minds [] f (f.modifyContract restore) :=
    .modifyContract f ⟨⟨fun _ => rfl, fun _ h => h⟩, fun _ => rfl⟩
  obtain ⟨habides, hstack⟩ := withdraw_kept (f.modifyContract restore).ledger
    (f.modifyContract restore).deployments.reverse
  have hwithdrawn : Tracks .quiet (f.modifyContract restore) (rolledBack before f) := by
    refine ⟨.withLedger habides _, fun a c _ hc _ => hstack a c hc, fun _ d child _ hin => ?_,
      .of_journal (journal_withdraw _ _)⟩
    simp only [rolledBack] at hin
    rw [Table.contains, find?_records_withdraw] at hin
    split at hin
    · cases hin
    · exact .inl hin
  refine ⟨.of_minds_trans hrestored hwithdrawn, ?_⟩
  exact (Frame.callStack_withLedger habides fun a c _ hc => hstack a c hc).trans hrestored.stack

lemma minds_abandoned (f : Frame) (e : Failure) : Minds [] f (abandoned f e) := by
  let detail := (e.fault?.map (·.detail)).getD []
  have hnoted := minds_note .debug
    ("call into " ++ f.contract.address.text ++ " failed: " ++ detail) _ _ (outcome_note _ _ f)
  exact hnoted.trans (minds_dispose _ _ (outcome_dispose _))

lemma called_deployActivity (call : Address → Bytes → Run CallResponse)
    (nested : Address → Bytes → Frame → Activity) (f : Frame) :
    (deployActivity call nested f).called = [] := by
  rw [deployActivity]
  split <;> rfl

/-- What becomes of a call: the deployment fails, or the method is run, and leaves its call stack to
the response whether it succeeds or fails. -/
lemma execute_cases {calldata : Bytes} {sender origin : Option Address} {f g : Frame}
    {response : CallResponse}
    (hx : (execute call calldata sender origin).outcome f = some (.ok response, g)) :
    (∃ e, (deploy call).outcome f = some (.error e, g) ∧
      response = ⟨.error e, [], [g.contract.address], 0⟩) ∨
    ∃ done h q k, (deploy call).outcome f = some (.ok done, h) ∧
      (running call (entry calldata (.caller sender origin))).outcome { h with deployments := [] } =
        some (q, k) ∧
      Tracks .quiet k g ∧ response.callStack = k.contract.callStack ∧
      ∀ reply, response.result = .ok reply → q = .ok reply := by
  cases hdeploy : (deploy call).outcome f with
  | none =>
    rw [execute, outcome_bind, outcome_attempt, hdeploy] at hx
    cases hx
  | some p =>
    obtain ⟨_ | done, h⟩ := p
    · rw [execute, outcome_bind, outcome_attempt, hdeploy] at hx
      cases hx
      exact .inl ⟨_, rfl, rfl⟩
    · rw [outcome_execute_of_deploy hdeploy, runMethod_eq] at hx
      obtain ⟨q, k, hmethod, hx⟩ := Outcome.andThen_eq_some hx
      refine .inr ⟨done, h, q, k, rfl, hmethod, ?_⟩
      cases q with
      | ok reply =>
        cases hx
        exact ⟨.of_minds (.refl _), rfl, fun _ h => h⟩
      | error e =>
        cases hx
        obtain ⟨hback, hstack⟩ := rolledBack_kept h.contract k
        exact ⟨hback.trans_minds (minds_abandoned _ (e.wrap h.contract.address)), hstack,
          fun _ h => by cases h⟩

lemma execute_tracks (hcall : Followed call nested) {calldata : Bytes}
    {sender origin : Option Address} {f g : Frame} {response : CallResponse}
    (hx : (execute call calldata sender origin).outcome f = some (.ok response, g)) :
    Tracks (executeActivity call nested calldata sender origin f) f g ∧
      ((∀ a, f.seat.address? = some a → f.ledger.hasContract a = true) → ∀ a,
        a ∈ response.callStack ↔ a = f.contract.address ∨
          a ∈ (executeActivity call nested calldata sender origin f).called) := by
  rcases execute_cases hx with
    ⟨e, hdeploy, rfl⟩ | ⟨done, h, q, k, hdeploy, hmethod, hend, hstack, -⟩
  · have hdeployed := deploy_tracks hcall hdeploy
    rw [executeActivity, hdeploy]
    refine ⟨hdeployed.andThen (.of_minds (.refl _)), fun _ a => ?_⟩
    rw [Activity.called, called_deployActivity, hdeployed.address]
    simp [Activity.called]
  · have hdeployed := deploy_tracks hcall hdeploy
    obtain ⟨htracks, hadded⟩ :=
      running_tracks hcall (fun _ _ _ => begins_entry) hmethod .execution
    have hstart : Minds [] h { h with deployments := [] } :=
      ⟨.withLedger (.refl _) _, fun _ _ => rfl, rfl, .of_journal rfl⟩
    rw [executeActivity, hdeploy]
    refine ⟨hdeployed.andThen (.of_minds_trans hstart (htracks.andThen_quiet hend)),
      fun hseat a => ?_⟩
    have hdone : h.contract.deployed = true := deployed_of_deploy hcall hdeploy hseat
    have hanchored : Frame.Anchored { h with deployments := [] } :=
      ⟨hdone, fun a ha =>
        (hdeployed.ledger.hasContract a).trans (hseat a (hdeployed.seat.symm.trans ha))⟩
    have haddress : Frame.contract { h with deployments := [] } = h.contract := rfl
    rw [hstack, hadded hanchored, haddress, Activity.called, called_deployActivity,
      Activity.called, List.nil_append, List.mem_cons, hdeployed.address]
    exact (or_self_left).symm

lemma activated_of_execute (hcall : Followed call nested) {calldata : Bytes}
    {sender origin : Option Address} {f g : Frame} {response : CallResponse}
    (hx : (execute call calldata sender origin).outcome f = some (.ok response, g)) :
    f.contract.address ∈ (executeActivity call nested calldata sender origin f).contracts := by
  rcases execute_cases hx with ⟨e, hdeploy, rfl⟩ | ⟨done, h, q, k, hdeploy, -⟩
  · rcases deploy_cases hdeploy with ⟨-, hok, -⟩ | ⟨hnew, -⟩
    · cases hok
    · rw [executeActivity, deployActivity, if_pos hnew]
      exact List.mem_append_left _ List.mem_cons_self
  · rw [executeActivity, hdeploy, ← (deploy_tracks hcall hdeploy).address]
    exact List.mem_append_right _ List.mem_cons_self

lemma minds_opened (f : Frame) (target : Address) :
    (opened f target).contracts = f.ledger.contracts ∧
      Minds [] f { f with ledger := opened f target } := by
  rw [opened]
  split
  · exact ⟨rfl, .withLedger f rfl rfl rfl (.of_journal rfl)⟩
  · exact ⟨rfl, .refl f⟩

/-- A part of a run that sits in another seat of the ledger, and calls no contract from this one. -/
lemma Follows.elsewhere {t : Activity} {f : Frame} {l : Ledger} (hl : f.ledger.Abides l)
    (hjournal : f.ledger.Logs l t.contracts)
    (hspared : ∀ a c, f.ledger.contracts.find? a = some c → c.deployed = true →
      ∃ d, l.contracts.find? a = some d ∧ d.callStack = c.callStack)
    (hrecords : f.ledger.Filed → ∀ d child, (l.records d).contains child = true →
      (f.ledger.records d).contains child = true ∨ d ∈ t.contracts)
    (hcalled : t.called = []) : Follows t f { f with ledger := l } where
  toAbides := .withLedger hl _
  spared := fun a c _ hc => hspared a c hc
  records := fun hfiled d child _ => hrecords hfiled d child
  journal := hjournal
  stack := by
    intro hf a
    rw [hcalled, Frame.callStack_withLedger hl]
    · exact (or_iff_left List.not_mem_nil).symm
    · intro b c hb hc
      have hdeployed := hf.1
      rw [Frame.contract_of_find? hb hc] at hdeployed
      exact hspared b c hc hdeployed

lemma openCall_follows (hcall : Followed call nested) {target : Address} {f g : Frame}
    {q : Except Failure Unit} (hx : (openCall call target).outcome f = some (q, g)) :
    Follows (openActivity call nested target f) f g := by
  obtain ⟨hcontracts, hopened⟩ := minds_opened f target
  rw [outcome_openCall_eq] at hx
  rw [openActivity]
  cases hn : f.ledger.nestedCalls with
  | false =>
    rw [hn, if_pos rfl] at hx
    cases hx
    exact .of_minds (.refl f)
  | true =>
  rw [hn, if_neg (Bool.false_ne_true ∘ Eq.symm)] at hx
  cases ht : f.ledger.hasContract target with
  | false =>
    rw [ht, if_neg Bool.false_ne_true] at hx
    cases hx
    exact .of_minds hopened
  | true =>
    rw [ht, if_pos rfl] at hx
    obtain ⟨r, h, hdeploy, hx⟩ := Outcome.andThen_eq_some hx
    cases hx
    have htracks := deploy_tracks hcall hdeploy
    refine .elsewhere (hopened.ledger.trans htracks.ledger)
      (hopened.journal.trans htracks.journal) (fun a c hc hdeployed => ?_)
      (fun hfiled d child hin => ?_) (called_deployActivity ..)
    · exact spared_deploy hcall hdeploy (hcontracts ▸ hc) hdeployed
    · have hseat : ∀ a, (Seat.registered target).address? = some a →
          (opened f target).hasContract a = true := by
        rintro a ⟨⟩
        rw [hopened.ledger.hasContract, ht]
      have hthere := records_deploy hcall hdeploy (hopened.ledger.filed hfiled) hseat d child hin
      rwa [Ledger.records, hcontracts] at hthere

lemma hasContract_of_openCall {target : Address} {f g : Frame} {done : Unit}
    (hx : (openCall call target).outcome f = some (.ok done, g)) :
    f.ledger.hasContract target = true := by
  rw [outcome_openCall_eq] at hx
  split at hx
  · cases hx
  · split at hx
    case isTrue ht => exact ht
    case isFalse => cases hx

/-- What becomes of a nested call up to the point at which its copy runs. -/
lemma copied_follows (hcall : Followed call nested) {target : Address} {f g : Frame}
    {q : Except Failure Contract} (hx : (copied call target).outcome f = some (q, g)) :
    Follows (openActivity call nested target f) f g ∧ ∀ copy, q = .ok copy →
      copy.deployed = true ∧ ∃ c, g.ledger.contracts.find? target = some c ∧
        copy.address = c.address := by
  rw [copied, outcome_bind] at hx
  obtain ⟨r, h, hopen, hx⟩ := Outcome.andThen_eq_some hx
  have hfollows := openCall_follows hcall hopen
  cases r with
  | error e =>
    cases hx
    exact ⟨hfollows, fun copy h => by cases h⟩
  | ok done =>
    simp only [outcome_copyTarget] at hx
    split at hx
    case h_2 =>
      cases hx
      exact ⟨hfollows, fun copy h => by cases h⟩
    case h_1 l copy hcopy =>
      cases hx
      obtain ⟨code, resolved, rfl, rfl⟩ := copyOf_eq_ok hcopy
      have hknown : h.ledger.hasContract target = true :=
        (hfollows.ledger.hasContract target).trans (hasContract_of_openCall hopen)
      obtain ⟨c, hc⟩ := Option.isSome_iff_exists.mp hknown
      refine ⟨hfollows.trans_minds (.withLedger h rfl rfl rfl (.of_journal rfl)), ?_⟩
      rintro _ ⟨⟩
      refine ⟨rfl, c, hc, ?_⟩
      rw [Seat.contract, hc]
      rfl

lemma mem_adopt (response : CallResponse) (c : Contract) (a : Address) :
    a ∈ (adopt response c).callStack ↔ a ∈ c.callStack ∨ a ∈ response.callStack := by
  simp only [adopt]
  generalize c.callStack = stack
  induction response.callStack generalizing stack with
  | nil => exact (or_iff_left List.not_mem_nil).symm
  | cons b rest ih =>
    rw [List.foldl_cons, ih]
    split
    case isTrue hb =>
      have hmem : b ∈ stack := List.contains_iff_mem.mp hb
      rw [List.mem_cons]
      constructor
      · rintro (h | h)
        · exact .inl h
        · exact .inr (.inr h)
      · rintro (h | rfl | h)
        · exact .inl h
        · exact .inl hmem
        · exact .inr h
    case isFalse =>
      rw [List.mem_append, List.mem_singleton, List.mem_cons, or_assoc]

lemma carryOver_kept (l : Ledger) (target : Address) (copy : Contract) :
    l.Abides (carryOver l target copy).1 ∧
      (∀ a c, l.contracts.find? a = some c →
        ∃ d, (carryOver l target copy).1.contracts.find? a = some d ∧
          d.callStack = c.callStack) ∧
      (∀ d, d ≠ target → (carryOver l target copy).1.records d = l.records d) ∧
      (carryOver l target copy).1.journal = l.journal := by
  cases hc : l.contracts.find? target with
  | none =>
    have hsame : carryOver l target copy = (l, []) := by rw [carryOver, hc]
    rw [hsame]
    exact ⟨.refl l, fun a c hc => ⟨c, hc, rfl⟩, fun _ _ => rfl, rfl⟩
  | some c =>
    have htaken : Steady (Overlay.taken copy (Overlay.fresh copy c)) :=
      ⟨fun _ => rfl, fun _ h => h⟩
    rw [Overlay.carryOver_of_find? copy hc]
    refine ⟨.modifyContract l target htaken, fun a b hb => ?_, fun d hd => ?_, rfl⟩
    · rw [Ledger.modifyContract, Table.find?_modify, hb]
      split
      · exact ⟨_, rfl, rfl⟩
      · exact ⟨b, rfl, rfl⟩
    · exact l.records_modifyContract_of_ne hd _

/-- What an activity on a copy does to the frame of the caller, once the copy is carried over. -/
lemma closed_follows {t : Activity} {f h : Frame} {target : Address} {copy : Contract}
    {response : CallResponse} (htarget : f.ledger.Filed → target ∈ t.contracts)
    (ht : Tracks t ⟨f.ledger, .apart copy, []⟩ h)
    (hstack : ∀ a, a ∈ response.callStack ↔ a ∈ t.called) :
    Follows t f
      (closed target h.contract h.deployments response { f with ledger := h.ledger }) := by
  have hseat (a : Address) : (Seat.apart copy).address? ≠ some a := (Option.some_ne_none a).symm
  obtain ⟨habides, hkept, hrecords, hjournal⟩ := carryOver_kept h.ledger target h.contract
  have hcarried : f.ledger.Abides (carryOver h.ledger target h.contract).1 :=
    ht.ledger.trans habides
  have hspared (a : Address) (c : Contract) (hc : f.ledger.contracts.find? a = some c)
      (hdeployed : c.deployed = true) :
      ∃ d, (carryOver h.ledger target h.contract).1.contracts.find? a = some d ∧
        d.callStack = c.callStack := by
    obtain ⟨d, hd, hsame⟩ := ht.spared a c (hseat a) hc hdeployed
    obtain ⟨e, he, hsame'⟩ := hkept a d hd
    exact ⟨e, he, hsame'.trans hsame⟩
  -- The frame before the response is adopted: the copy is carried over to its target.
  let carried : Frame := ⟨(carryOver h.ledger target h.contract).1, f.seat,
    f.deployments ++ (carryOver h.ledger target h.contract).2 ++ h.deployments⟩
  have hframe : f.Abides carried := .withLedger hcarried _
  refine ⟨⟨hframe.trans (.modifyContract carried (tending_adopt response).steady), ?_, ?_, ?_⟩, ?_⟩
  · intro a c ha hc hdeployed
    obtain ⟨d, hd, hsame⟩ := hspared a c hc hdeployed
    exact ⟨d, (Frame.find?_modifyContract_of_ne (f := carried) ha _).trans hd, hsame⟩
  · intro hfiled d child hd hin
    have hadopted : (carried.modifyContract (adopt response)).ledger.records d =
        carried.ledger.records d := Frame.records_modifyContract_of_ne (f := carried) hd _
    rw [closed, hadopted] at hin
    by_cases heq : d = target
    · exact .inr (heq ▸ htarget hfiled)
    · rw [hrecords d heq] at hin
      exact ht.records hfiled d child (hseat d) hin
  · obtain ⟨entries, hentries, hsub⟩ := ht.journal
    exact .of_entries entries
      ((carried.journal_modifyContract _).trans (hjournal.trans hentries)) hsub
  · intro hf a
    have hcontract := Frame.contract_modifyContract (hframe.anchored hf).2 (adopt response)
    rw [closed, hcontract, mem_adopt, hstack, Frame.callStack_withLedger hcarried]
    intro b c hb hc
    have hdeployed := hf.1
    rw [Frame.contract_of_find? hb hc] at hdeployed
    exact hspared b c hc hdeployed

variable (call nested) in
lemma executeActivity_of_deployed {f : Frame} (h : f.contract.deployed = true) (calldata : Bytes)
    (sender origin : Option Address) :
    executeActivity call nested calldata sender origin f =
      .andThen .quiet (.activation f.contract.address .execution
        (activityOf call nested (entry calldata (.caller sender origin))
          { f with deployments := [] })) := by
  rw [executeActivity, outcome_deploy_of_deployed call h, deployActivity,
    Contract.isNew_of_deployed h, if_neg Bool.false_ne_true]

lemma contract_heard (calldata : Bytes) (l : Ledger) (copy : Contract) :
    (heard calldata ⟨l, .apart copy, []⟩).contract = copy := by
  rw [heard]
  split <;> rfl

lemma visitActivity_of_copied {target : Address} {calldata : Bytes} {f h : Frame} {copy : Contract}
    (hcopied : (copied call target).outcome f = some (.ok copy, h)) :
    visitActivity call nested target calldata f =
      .andThen (openActivity call nested target f)
        (executeActivity call nested calldata (some h.contract.address) (some h.ledger.origin)
          (heard calldata ⟨h.ledger, .apart copy, []⟩)) := by
  rw [visitActivity, hcopied]

/-- The copy that a nested call runs on stands on the call stack, as if it had been called. -/
lemma mem_callStack_apart (hcall : Followed call nested) {calldata : Bytes}
    {sender origin : Option Address} {l : Ledger} {copy : Contract}
    (hdeployed : copy.deployed = true) {g : Frame} {response : CallResponse}
    (hx : (execute call calldata sender origin).outcome (heard calldata ⟨l, .apart copy, []⟩) =
      some (.ok response, g)) :
    copy.address ∈ (executeActivity call nested calldata sender origin
        (heard calldata ⟨l, .apart copy, []⟩)).called ∧
      ∀ a, a ∈ response.callStack ↔ a ∈ (executeActivity call nested calldata sender origin
        (heard calldata ⟨l, .apart copy, []⟩)).called := by
  have hheard := minds_heard calldata ⟨l, .apart copy, []⟩
  have hcontract := contract_heard calldata l copy
  have hactivity := executeActivity_of_deployed call nested (hcontract ▸ hdeployed) calldata sender
    origin
  have hcopy : copy.address ∈ (executeActivity call nested calldata sender origin
      (heard calldata ⟨l, .apart copy, []⟩)).called := by
    rw [hactivity, hcontract]
    exact List.mem_cons_self
  refine ⟨hcopy, fun a => ?_⟩
  rw [(execute_tracks hcall hx).2 fun b hb =>
    absurd (hheard.seat.symm.trans hb) (Option.some_ne_none b).symm, hcontract]
  exact or_iff_right_of_imp fun ha => ha ▸ hcopy

lemma visitActivity_follows (hcall : Followed call nested) :
    Followed (callWith call) (visitActivity call nested) := by
  intro target calldata f q g hx
  rw [outcome_callWith] at hx
  obtain ⟨r, h, hcopied, hx⟩ := Outcome.andThen_eq_some hx
  obtain ⟨hfollows, hcopy⟩ := copied_follows hcall hcopied
  cases r with
  | error e =>
    rw [visitActivity, hcopied]
    cases hx
    exact hfollows.andThen (.of_minds (.refl _))
  | ok copy =>
    obtain ⟨hdeployed, c, hc, haddress⟩ := hcopy copy rfl
    obtain ⟨response, k, k', hexecute, hreported, rfl, -⟩ := entered_cases hx
    obtain ⟨hcalled, hstack⟩ := mem_callStack_apart hcall hdeployed hexecute
    have hheard := minds_heard calldata ⟨h.ledger, .apart copy, []⟩
    have hreport : Minds [] k k' := minds_reported _ _ _ _ hreported
    have hexecuted := (execute_tracks hcall hexecute).1
    have hwhole := (Tracks.of_minds_trans hheard hexecuted).trans_minds hreport
    rw [visitActivity_of_copied hcopied]
    refine hfollows.andThen (closed_follows (fun hfiled => ?_) hwhole hstack)
    rw [haddress, hfiled target c hc] at hcalled
    exact Activity.contracts_of_called hcalled

lemma callActivity_follows (n : Nat) : Followed (Run.call n) (callActivity n) := by
  induction n with
  | zero => exact fun _ _ _ _ _ hx => by cases hx
  | succ n ih => exact visitActivity_follows ih

/-- Nested calls run no constructors if the contracts that they find are deployed. -/
def Settles (nested : Address → Bytes → Frame → Activity) : Prop :=
  ∀ target calldata f, f.ledger.Awake → (nested target calldata f).Plain

lemma programActivity_plain (hcall : Followed call nested) (hnested : Settles nested) (number : Nat)
    (p : Program) (gas : Int) {f : Frame} (hf : f.ledger.Awake) :
    (programActivity call nested number p gas f).Plain := by
  induction p generalizing gas f with
  | done reply => trivial
  | fail e => trivial
  | ask request data next ih =>
    rw [programActivity]
    cases hrequest : (Host.answer call request data).outcome f with
    | none => trivial
    | some o =>
      obtain ⟨reply, g⟩ := o
      have hplain : (requestActivity nested request data f).Plain := by
        unfold requestActivity
        split
        · split
          · exact hnested _ _ f hf
          · trivial
        · trivial
      have habides : f.Abides (answered number request reply g) :=
        (requestActivity_follows hcall hrequest).toAbides.trans (minds_answered ..).toAbides
      exact ⟨hplain, ih reply gas (habides.ledger.awake hf)⟩
  | charge amount next ih => exact ih _ ((minds_charged number (gas + amount) f).ledger.awake hf)
  | caught e next ih =>
    have hcaught : Minds [] f { f with ledger := f.ledger.enter [.caught number e] } :=
      .enter f rfl
    exact ih gas (hcaught.ledger.awake hf)

lemma activityOf_plain (hcall : Followed call nested) (hnested : Settles nested)
    {start : Run (Nat × Program)} (hstart : ∀ f r g, start.outcome f = some (r, g) → Begins f g)
    {f : Frame} (hf : f.ledger.Awake) : (activityOf call nested start f).Plain := by
  rw [activityOf]
  split
  case h_1 number program g hbegin =>
    exact programActivity_plain hcall hnested number program 0
      ((hstart f _ g hbegin).ledger.awake hf)
  case h_2 => trivial

lemma executeActivity_plain (hcall : Followed call nested) (hnested : Settles nested)
    (calldata : Bytes) (sender origin : Option Address) {f : Frame} (hf : f.ledger.Awake)
    (hdeployed : f.contract.deployed = true) :
    (executeActivity call nested calldata sender origin f).Plain := by
  rw [executeActivity_of_deployed call nested hdeployed]
  have hrun : (activityOf call nested (entry calldata (.caller sender origin))
      { f with deployments := [] }).Plain :=
    activityOf_plain hcall hnested (fun _ _ _ => begins_entry) hf
  exact ⟨trivial, rfl, hrun⟩

lemma openActivity_plain (target : Address) {f : Frame} (hf : f.ledger.Awake) :
    (openActivity call nested target f).Plain := by
  rw [openActivity]
  split
  case isFalse => trivial
  case isTrue h =>
    have hdeployed := hf target (Bool.and_eq_true_iff.mp h).2
    have hcontract :
        (Frame.mk (opened f target) (.registered target) []).contract.deployed = true :=
      ((minds_opened f target).2.ledger.seat (.registered target)).2 hdeployed
    rw [deployActivity, Contract.isNew_of_deployed hcontract, if_neg Bool.false_ne_true]
    trivial

lemma visitActivity_plain (hcall : Followed call nested) (hnested : Settles nested) :
    Settles (visitActivity call nested) := by
  intro target calldata f hf
  refine ⟨openActivity_plain target hf, ?_⟩
  split
  case h_1 copy g hcopied =>
    obtain ⟨hfollows, hcopy⟩ := copied_follows hcall hcopied
    have hheard := minds_heard calldata ⟨g.ledger, .apart copy, []⟩
    refine executeActivity_plain hcall hnested _ _ _
      ((hfollows.ledger.trans hheard.ledger).awake hf) ?_
    rw [contract_heard]
    exact (hcopy copy rfl).1
  case h_2 => trivial

lemma callActivity_plain (n : Nat) : Settles (callActivity n) := by
  induction n with
  | zero => exact fun _ _ _ _ => trivial
  | succ n ih => exact visitActivity_plain (callActivity_follows n) ih

section Calls

variable {n : Nat} {l l' : Ledger} {a : Address} {calldata : Bytes} {sender origin : Option Address}
  {response : CallResponse} {start seat : Seat}

lemma plain_activity (h : l.Settled) (ha : l.hasContract a = true) (n : Nat) (calldata : Bytes)
    (sender origin : Option Address) :
    (l.activity n (.registered a) calldata sender origin).Plain :=
  executeActivity_plain (callActivity_follows n) (callActivity_plain n) calldata sender origin
    (f := ⟨l, .registered a, []⟩) h.awake (h.deployed ha)

lemma execute_of_perform (hrun : l.perform start
      (execute (Run.call n) calldata sender origin) = some (.ok response, l', seat)) :
    ∃ g, g.ledger = l' ∧ (execute (Run.call n) calldata sender origin).outcome ⟨l, start, []⟩ =
      some (.ok response, g) := by
  rw [perform_eq, Option.map_eq_some_iff] at hrun
  obtain ⟨⟨r, g⟩, hexecute, heq⟩ := hrun
  cases heq
  exact ⟨g, rfl, hexecute⟩

lemma abides_of_execute (hrun : l.perform start
    (execute (Run.call n) calldata sender origin) = some (.ok response, l', seat)) :
    l.Abides l' := by
  obtain ⟨g, rfl, hexecute⟩ := execute_of_perform hrun
  exact (execute_tracks (callActivity_follows n) hexecute).1.ledger

/-- The call stack of a response lists the contract itself and those which it has called, directly or
in turn, but not those which only a constructor has called. -/
theorem mem_callStack_of_execute (hfiled : l.Filed) (ha : l.hasContract a = true)
    (hrun : l.perform (.registered a) (execute (Run.call n) calldata sender origin) =
      some (.ok response, l', seat)) (b : Address) :
    b ∈ response.callStack ↔
      b = a ∨ b ∈ (l.activity n (.registered a) calldata sender origin).called := by
  obtain ⟨g, rfl, hexecute⟩ := execute_of_perform hrun
  rw [(execute_tracks (callActivity_follows n) hexecute).2 (fun b hb => by cases hb; exact ha) b,
    hfiled.address_contract ha]
  rfl

/-- Only a contract that was activated, be it by a constructor, has new deployments on record. -/
theorem mem_contracts_of_records (hfiled : l.Filed) (ha : l.hasContract a = true)
    (hrun : l.perform (.registered a) (execute (Run.call n) calldata sender origin) =
      some (.ok response, l', seat)) {d child : Address}
    (hnew : (l'.records d).contains child = true) (hold : (l.records d).contains child = false) :
    d ∈ (l.activity n (.registered a) calldata sender origin).contracts := by
  obtain ⟨g, rfl, hexecute⟩ := execute_of_perform hrun
  have hfollowed := callActivity_follows n
  by_cases hd : d = a
  · subst hd
    have hactivated := activated_of_execute hfollowed hexecute
    rwa [hfiled.address_contract ha] at hactivated
  · have hrecords := (execute_tracks hfollowed hexecute).1.records hfiled d child
      (fun h => hd (Option.some.inj h).symm) hnew
    exact hrecords.resolve_left fun hbefore => Bool.false_ne_true (hold.symm.trans hbefore)

/-- In a call the engine is asked for no contracts but those that are activated, and in that order. -/
theorem logs_of_execute (hrun : l.perform start
    (execute (Run.call n) calldata sender origin) = some (.ok response, l', seat)) :
    l.Logs l' (l.activity n start calldata sender origin).contracts := by
  obtain ⟨g, rfl, hexecute⟩ := execute_of_perform hrun
  exact (execute_tracks (callActivity_follows n) hexecute).1.journal

end Calls

end Run

end ChainReplay
