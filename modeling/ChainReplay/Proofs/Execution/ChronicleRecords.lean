import ChainReplay.Proofs.Execution.Deposits

/-! Runs leave what is in their chronicles. A copy that runs apart is carried over to the registered
contract, or rolled back; a constructor runs in the registry, and what it does there stays. -/

namespace ChainReplay

namespace Run

variable {call : Address → Bytes → Run CallResponse}
  {nested : Address → Bytes → Frame → Chronicle} {f g : Frame}

def Noted (call : Address → Bytes → Run CallResponse)
    (nested : Address → Bytes → Frame → Chronicle) : Prop :=
  ∀ target calldata f q g, Fit f → (call target calldata).outcome f = some (q, g) →
    Notes (nested target calldata f) f g

lemma notes_recorded (hf : Fit f) {f' : Frame} {child : Address} {code : Bytes}
    (hchild : f.contract.children.contains child = false) (hstill : Still f f')
    (hstill' : Still (f'.modifyContract (recording child code)) g) (habides : f.Abides g)
    (hretains : Retains Contract.deployed f g) : Notes (.recorded child code) f g where
  toAbides := habides
  founds := hretains.founds
  own := fun hseat => by
    rw [hstill'.own, Frame.contract_modifyContract fun a ha => by simp [hstill.seat, hseat] at ha,
      recording, hstill.own]
    exact (Table.Sown.insert _ hchild code).congr fun _ _ => by simp [Chronicle.own]
  records := by
    intro d
    rw [hstill'.records]
    by_cases hd : f.seat.address? = some d
    · rw [Frame.records_modifyContract_self (hstill.seat.trans hd)
        ((hstill.hasContract d).trans (hf.seat d hd)), recording, hstill.own,
        ← Frame.children_contract hd]
      have hsown := Table.Sown.insert f.contract.children hchild code
      refine hsown.congr fun _ _ => ?_
      rw [Chronicle.adds_recorded, hd, eq_self, true_and]
    · rw [Frame.records_modifyContract_of_ne (hstill.seat ▸ hd), hstill.records]
      exact .of_find? (fun _ => rfl) fun _ _ h => hd (Chronicle.adds_recorded.mp h).1
  noted := by
    refine ⟨[], ?_, .nil fun d child code hd hin => .inl ?_⟩
    · rw [hstill'.deployments, f'.deployments_modifyContract, hstill.deployments, List.append_nil]
    · rw [hstill'.records, Frame.records_modifyContract_of_ne (hstill.seat ▸ hd),
        hstill.records] at hin
      exact Table.contains_of_find? hin

lemma requestChronicle_deploy (hf : Fit f) {data : Bytes} {q : Except Failure Bytes}
    (hx : (Host.answer call .deploy data).outcome f = some (q, g)) :
    Notes (requestChronicle nested .deploy data f) f g := by
  have hdeploy : HostFunction.deploy ≠ .call := by decide
  have habides : f.Abides g := (minds_answer call hdeploy data q g hx).toAbides
  have hretains : Retains Contract.deployed f g :=
    retains_answer inert_deployed call hdeploy (fun h => by cases h) data q g hx
  rw [answer_deploy, outcome_bind, outcome_lift] at hx
  rw [requestChronicle]
  cases hdata : deployRequest data with
  | error e =>
    rw [hdata] at hx
    cases hx
    exact .of_idles (.refl f)
  | ok p =>
    obtain ⟨source, salt⟩ := p
    simp only [hdata, Outcome.some_andThen, outcome_bind] at hx ⊢
    obtain ⟨r, h, hcopy, hx⟩ := Outcome.andThen_eq_some hx
    rcases deployCopy_cases hcopy with
      ⟨e, rfl, hstill⟩ | ⟨seed, derived, code, f', rfl, hcode, hnew, hstill, hstill'⟩
    · cases hx
      rw [hcopy]
      exact .of_idles ⟨habides, hstill, hretains⟩
    · cases hx
      simp only [hcopy, hcode]
      exact notes_recorded hf hnew hstill hstill' habides hretains

lemma requestChronicle_notes (hcall : Noted call nested) (hf : Fit f) {request : HostFunction}
    {data : Bytes} {q : Except Failure Bytes}
    (hx : (Host.answer call request data).outcome f = some (q, g)) :
    Notes (requestChronicle nested request data f) f g := by
  by_cases hc : request = .call
  · subst hc
    rw [requestChronicle]
    rcases answer_call_cases hx with ⟨e, hdata, -, rfl⟩ | ⟨target, calldata, r, hdata, hrun, -⟩
    · rw [hdata]
      exact .of_idles (.refl _)
    · rw [hdata]
      exact hcall target calldata f r g hf hrun
  by_cases hd : request = .deploy
  · subst hd
    exact requestChronicle_deploy hf hx
  have hidles : Idles f g := idles_answer hc hd hx
  have hmatches : Chronicle.quiet.Matches (requestChronicle nested request data f) := by
    cases request with
    | call => exact absurd rfl hc
    | deploy => exact absurd rfl hd
    | emit =>
      rw [requestChronicle]
      split <;> exact ⟨rfl, fun _ => rfl, fun _ => rfl, rfl⟩
    | _ => exact ⟨rfl, fun _ => rfl, fun _ => rfl, rfl⟩
  exact (Notes.of_idles hidles).congr hmatches

lemma programChronicle_notes (hcall : Noted call nested) {number : Nat} {p : Program} {gas : Int}
    (hf : Fit f) {q : Except Failure Bytes}
    (hx : (interpret (Host.answer call) number p gas).outcome f = some (q, g)) :
    Notes (programChronicle call nested number p gas f) f g := by
  -- Each request is answered from where the one before has led, so the frame is general.
  induction p generalizing gas f with
  | done reply =>
    cases hx
    exact .of_idles (.refl _)
  | fail e =>
    cases hx
    exact .of_idles (.refl _)
  | ask request data next ih =>
    rw [outcome_interpret_ask] at hx
    obtain ⟨reply, h, hrequest, hx⟩ := Outcome.andThen_eq_some hx
    rw [programChronicle, hrequest]
    have hnotes := requestChronicle_notes hcall hf hrequest
    have hidles := idles_answered number request reply h
    exact hnotes.andThen (.idles_trans hidles
      (ih reply ((hf.of_abides hnotes.toAbides).of_abides hidles.abides) hx))
  | charge amount next ih =>
    rw [outcome_interpret_charge] at hx
    have hidles := idles_charged number (gas + amount) f
    exact .idles_trans hidles (ih (hf.of_abides hidles.abides) hx)
  | caught e next ih =>
    rw [interpret, outcome_bind, outcome_enter, Outcome.some_andThen] at hx
    have hidles := idles_enter (e := .caught number e) rfl f
    exact .idles_trans hidles (ih (hf.of_abides hidles.abides) hx)

lemma running_notes (hcall : Noted call nested) {start : Run (Nat × Program)}
    (hstart : ∀ r g, start.outcome f = some (r, g) → Idles f g) (hf : Fit f)
    {q : Except Failure Bytes} (hx : (running call start).outcome f = some (q, g)) :
    Notes (chronicleOf call nested start f) f g := by
  rw [running, outcome_bind] at hx
  obtain ⟨r, h, hbegin, hx⟩ := Outcome.andThen_eq_some hx
  have hidles := hstart r h hbegin
  rw [chronicleOf, hbegin]
  cases r with
  | error e =>
    cases hx
    exact .of_idles hidles
  | ok p => exact .idles_trans hidles (programChronicle_notes hcall (hf.of_abides hidles.abides) hx)

lemma construct_notes (hcall : Noted call nested) (hf : Fit f) {r : Except Failure Unit}
    (hx : (construct call).outcome f = some (r, g)) :
    Notes (chronicleOf call nested inception f) f g := by
  rw [construct_eq, outcome_bind] at hx
  obtain ⟨p, h, hrun, hx⟩ := Outcome.andThen_eq_some hx
  obtain rfl : h = g := by
    cases p <;> (cases hx; rfl)
  exact running_notes hcall (fun _ _ => idles_inception) hf hrun

lemma deposits_awakened {a : Address} (hseat : f.seat.address? = some a)
    {k : Contract → Contract} (hk : Discreet k) (haddress : ∀ c, (k c).address = c.address)
    (hdeployed : ∀ c, (k c).deployed = true) :
    Deposits (.awakened a) f (f.modifyContract k) where
  toAbides := .modifyContract f ⟨haddress, hk.deployed⟩
  founds := by
    intro b
    by_cases hb : b = a
    case neg =>
      have hne : f.seat.address? ≠ some b := by
        rw [hseat]
        exact fun h => hb (Option.some.inj h).symm
      rw [Frame.aspect?_modifyContract_of_ne hne]
      cases f.ledger.aspect? Contract.deployed b <;> simp [Chronicle.founded, hb]
    case pos =>
      subst hb
      obtain ⟨l, seat, deployments⟩ := f
      cases seat with
      | apart c => cases hseat
      | registered b =>
        cases hseat
        simp only [Frame.modifyContract, Ledger.aspect?]
        rw [Table.find?_modify, if_pos rfl]
        cases l.contracts.find? b <;> simp [hdeployed, Chronicle.founded]
  own := fun hnone => by
    rw [hseat] at hnone
    cases hnone
  records := fun d => .of_find? (fun _ => by rw [(Still.modifyContract f hk).records])
    fun _ _ => Chronicle.not_adds_awakened

lemma deposits_construction {t : Chronicle} {a : Address} {failed : Bool}
    (hseat : f.seat.address? = some a)
    (hfg : Deposits (.andThen t (if failed then .quiet else .awakened a)) f g) :
    Deposits (.activation a .construction failed t) f g where
  toAbides := hfg.toAbides
  founds := by
    cases failed <;> exact hfg.founds
  own := fun hnone => by
    rw [hseat] at hnone
    cases hnone
  records := by
    intro d
    refine (hfg.records d).congr fun child code => ?_
    rw [hseat, Chronicle.adds_andThen, Chronicle.adds_construction]
    refine or_iff_left ?_
    cases failed
    · exact Chronicle.not_adds_awakened
    · exact Chronicle.not_adds_quiet

/-- What is left of a contract whose constructor has failed. -/
def emptied (c : Contract) : Contract := { c with states := [] }

lemma idles_announce {c : Contract} {q : Except Failure Unit}
    (hx : (announce c).outcome f = some (q, g)) : q = .ok ⟨⟩ ∧ Idles f g := by
  have hreturns : Returns (announce c) := by
    refine Returns.ledger.bind fun l => ?_
    split
    · exact Returns.contract.bind fun _ => (Returns.note _ _).bind fun _ => .dispose
    · exact .dispose
  have hcalm : Calm (announce c) := Calm.ledger.bind fun l =>
    .ite _ (Calm.contract.bind fun _ => (Calm.note _ _).bind fun _ => .dispose) .dispose
  have hretains : Leads (Retains Contract.deployed) f (announce c) := retains_ledger.bind fun l _ =>
    .ite (retains_contract.bind fun _ _ => (retains_note _ _).bind fun _ _ =>
      retains_dispose inert_deployed) (retains_dispose inert_deployed)
  obtain ⟨_, rfl⟩ := hreturns f q g hx
  exact ⟨rfl, (minds_announce c _ _ hx).toAbides, hcalm f _ g hx, hretains _ _ hx⟩

lemma idles_emptied (hx : dispose.outcome (f.modifyContract emptied) = some (.ok ⟨⟩, g)) :
    Idles f g where
  abides := .trans (.modifyContract f (k := emptied) ⟨fun _ => rfl, fun _ h => h⟩)
    (minds_dispose _ _ hx).toAbides
  still := .trans (.modifyContract f (k := emptied) ⟨fun _ => rfl, fun _ h => h⟩)
    (Calm.dispose _ _ _ hx)
  deployed := trans_of (Retains Contract.deployed) (.modifyContract f (k := emptied) fun _ => rfl)
    (retains_dispose inert_deployed _ _ hx)

lemma settling_cases {c : Contract} {r q : Except Failure Unit}
    (hx : (settling c r).outcome f = some (q, g)) :
    (∃ e, q = .error e ∧ dispose.outcome (f.modifyContract emptied) = some (.ok ⟨⟩, g)) ∨
      q = .ok ⟨⟩ ∧ Idles (f.modifyContract constructed) g := by
  cases r with
  | error e =>
    cases hx
    exact .inl ⟨_, rfl, rfl⟩
  | ok done => exact .inr (idles_announce hx)

lemma failed_of_outcome {α : Type} {x : Run α} {q : Except Failure α}
    (hx : x.outcome f = some (q, g)) : failed x f = q.toOption.isNone := by
  rw [failed, hx]
  cases q <;> rfl

lemma deploy_deposits (hcall : Noted call nested) (hf : Fit f) {a : Address}
    (hseat : f.seat.address? = some a) {q : Except Failure Unit}
    (hx : (deploy call).outcome f = some (q, g)) :
    Deposits (deployChronicle call nested f) f g := by
  have haddress : f.contract.address = a := by
    obtain ⟨c, hc⟩ := Option.isSome_iff_exists.mp (hf.seat a hseat)
    rw [Frame.contract_of_find? hseat hc, hf.filed a c hc]
  rw [deployChronicle, haddress]
  rcases deploy_cases hx with
    ⟨hnew, -, ⟨hdeployed, rfl⟩ | ⟨hdeployed, rfl⟩⟩ | ⟨hnew, r, h, hconstruct, hsettle⟩
  · rw [hnew, hdeployed, if_neg Bool.false_ne_true, if_pos rfl]
    exact .of_idles (.refl g)
  · rw [hnew, hdeployed, if_neg Bool.false_ne_true, if_neg Bool.false_ne_true]
    exact deposits_awakened hseat ⟨fun _ => rfl, fun _ _ => rfl⟩ (fun _ => rfl) fun _ => rfl
  · rw [hnew, if_pos rfl, failed_of_outcome hx]
    have hnotes := construct_notes hcall hf hconstruct
    refine deposits_construction hseat (hnotes.toDeposits.andThen ?_)
    rcases settling_cases hsettle with ⟨e, rfl, hemptied⟩ | ⟨rfl, hidles⟩
    · exact .of_idles (idles_emptied hemptied)
    · have hset := deposits_awakened (k := constructed) (hnotes.seat.trans hseat)
        ⟨fun _ => rfl, fun _ _ => rfl⟩ (fun _ => rfl) fun _ => rfl
      exact (hset.andThen (.of_idles hidles)).congr ⟨rfl, fun _ => rfl, fun _ => rfl, rfl⟩

lemma children_rolledBack {before : Contract} (hseat : f.seat.address? = none) :
    (rolledBack before f).contract.children = before.children := by
  obtain ⟨l, seat, deployments⟩ := f
  cases seat with
  | registered a => cases hseat
  | apart c => rfl

lemma find?_records_withdrawn (hseat : f.seat.address? = none) (before : Contract)
    (d child : Address) : ((rolledBack before f).ledger.records d).find? child =
      if (d, child) ∈ f.deployments then none else (f.ledger.records d).find? child := by
  simp only [rolledBack]
  rw [find?_records_withdraw, f.deployments_modifyContract,
    Frame.records_modifyContract_of_ne (hseat ▸ (Option.some_ne_none d).symm)]
  simp only [List.mem_reverse]

lemma sown_rolledBack {t : Chronicle} (hseat : f.seat.address? = none) (hfg : Notes t f g)
    (hstart : f.deployments = []) (before : Contract) (d : Address) :
    Table.Sown (f.ledger.records d) ((rolledBack before g).ledger.records d)
      fun child code => (child, code) ∈ t.final d := by
  obtain ⟨new, hnew, hpending⟩ := hfg.noted
  rw [hstart, List.nil_append] at hnew
  have hapart : f.seat.address? ≠ some d := hseat ▸ (Option.some_ne_none d).symm
  have hfind (child : Address) :=
    hnew ▸ find?_records_withdrawn (hfg.seat.trans hseat) before d child
  -- What the failure withdraws is what was noted, and nothing that is final ever is.
  refine ⟨⟨fun child code hin => ?_, fun child code hin => ?_, fun child code hin => ?_⟩,
    fun child code hin => (hfg.records d).fresh child code (.inr (.inl hin))⟩
  · rw [hfind, if_neg fun hmem => ?_]
    · exact (hfg.records d).kept child code hin
    · have hbefore := hpending.fresh d child hmem
      rw [Table.contains_of_find? hin] at hbefore
      cases hbefore
  · rw [hfind] at hin
    split at hin
    case isTrue => cases hin
    case isFalse hnot => exact hpending.origin hfg.toDeposits hapart hin hnot
  · rw [Table.contains, hfind, if_neg fun hmem => hpending.passing d child code hmem hin]
    exact (hfg.records d).added child code (.inr (.inl hin))

lemma notes_rolledBack {t : Chronicle} {a : Address} (hseat : f.seat.address? = none)
    (hfg : Notes t f g) (hstart : f.deployments = []) :
    Notes (.activation a .execution true t) f (rolledBack f.contract g) where
  toAbides := hfg.toAbides.trans (rolledBack_kept f.contract g).1.toAbides
  founds := by
    intro b
    rw [(retains_rolledBack inert_deployed f.contract g).all]
    exact hfg.founds b
  own := by
    intro _
    refine .of_find? (fun child => ?_) fun _ _ => List.not_mem_nil
    rw [children_rolledBack (hfg.seat.trans hseat)]
  records := fun d => (sown_rolledBack hseat hfg hstart f.contract d).congr
    fun _ _ => Chronicle.adds_failed.symm
  noted := by
    refine ⟨[], by rw [hstart]; rfl, .nil fun d child code _ hin => ?_⟩
    exact ((sown_rolledBack hseat hfg hstart f.contract d).origin child code hin).imp_left
      Table.contains_of_find?

/-- A call of a deployed contract leaves what is in its chronicle, but for what it has recorded on the
copy on which it runs. -/
lemma execute_notes (hcall : Noted call nested) (hf : Fit f) (hseat : f.seat.address? = none)
    (hdeployed : f.contract.deployed = true) (hstart : f.deployments = []) {calldata : Bytes}
    {sender origin : Option Address} {response : CallResponse}
    (hx : (execute call calldata sender origin).outcome f = some (.ok response, g)) :
    ∃ t, Notes t f g ∧ (Chronicle.activation f.contract.address .execution false t).Matches
      (executeChronicle call nested calldata sender origin f) := by
  have hsame : { f with deployments := [] } = f := by
    rw [← hstart]
  rw [outcome_execute _ _ _ _ hdeployed, hsame] at hx
  obtain ⟨q, h, hmethod, hx⟩ := Outcome.andThen_eq_some hx
  rw [executeChronicle_of_deployed hdeployed, hsame, methodChronicle, failed_of_outcome hmethod]
  have hrunning := hmethod
  rw [runMethod_eq] at hrunning
  have hnotes := running_notes hcall (fun _ _ => idles_entry) hf hrunning
  cases q with
  | ok reply =>
    cases hx
    exact ⟨_, hnotes, rfl, fun _ => rfl, fun _ => rfl, rfl⟩
  | error e =>
    cases hx
    have hback := notes_rolledBack (a := f.contract.address) hseat hnotes hstart
    refine ⟨_, hback.trans_idles (idles_abandoned _ _), rfl, fun d => ?_, fun _ => rfl, rfl⟩
    simp [Chronicle.provisional, Chronicle.own, Except.toOption]

section Carrying

variable {t : Chronicle} {h : Frame} {target : Address} {copy : Contract}
  (htarget : f.ledger.hasContract target = true) (hcopy : copy.children = f.ledger.records target)
  (ht : Notes t ⟨f.ledger, .apart copy, []⟩ h)

include htarget ht

lemma records_carried : ∃ c, h.ledger.contracts.find? target = some c ∧
    ∀ d, (carryOver h.ledger target h.contract).1.records d =
      if d = target then h.ledger.records target ++ Overlay.fresh h.contract c
      else h.ledger.records d := by
  obtain ⟨c, hc⟩ := Option.isSome_iff_exists.mp ((ht.ledger.hasContract target).trans htarget)
  exact ⟨c, hc, records_carryOver h.contract hc⟩

include hcopy in
lemma sown_carried (d : Address) : Table.Sown (f.ledger.records d)
    ((carryOver h.ledger target h.contract).1.records d) (t.Adds (some target) d) := by
  obtain ⟨c, hc, hrecords⟩ := records_carried htarget ht
  -- The copy began with the record of the target, which the calls it made may have added to.
  have hown : Table.Sown (f.ledger.records target) h.contract.children
      fun child code => (child, code) ∈ t.own := hcopy ▸ ht.own rfl
  rw [hrecords]
  by_cases hd : d = target
  · subst hd
    rw [if_pos rfl, Overlay.fresh, ← Ledger.records_of_find? hc]
    refine (hown.join (ht.records d)).congr fun child code => ?_
    rw [Chronicle.adds_some, eq_self, true_and]
    exact or_comm
  · rw [if_neg hd]
    refine (ht.records d).congr fun child code => ?_
    rw [Chronicle.adds_some]
    exact (or_iff_left fun hin => hd hin.1.symm).symm

lemma pending_carried (deployments : List Deployment) : Pending t f
    ⟨(carryOver h.ledger target h.contract).1, f.seat, deployments⟩
    ((carryOver h.ledger target h.contract).2 ++ h.deployments) := by
  obtain ⟨c, hc, hrecords⟩ := records_carried htarget ht
  have hcarried := mem_carryOver h.contract hc
  obtain ⟨new, hnew, hpending⟩ := ht.noted
  rw [List.nil_append] at hnew
  subst hnew
  refine ⟨fun d child hmem => ?_, fun d child hmem => ?_, fun d child code hmem hfinal => ?_,
    fun d child code _ hin => ?_⟩
  · rcases List.mem_append.mp hmem with hmem | hmem
    · obtain ⟨rfl, hin⟩ := (hcarried d child).mp hmem
      exact Table.Sown.absent (ht.records d).toGrown ((contains_fresh h.contract hc child).mp hin).1
    · exact hpending.fresh d child hmem
  · simp only [hrecords]
    rcases List.mem_append.mp hmem with hmem | hmem
    · obtain ⟨rfl, hin⟩ := (hcarried d child).mp hmem
      rw [if_pos rfl, Table.contains_append, hin, Bool.or_true]
    · have hin := hpending.recorded d child hmem
      split
      case isTrue hd => rw [Table.contains_append, ← hd, hin, Bool.true_or]
      case isFalse => exact hin
  · rcases List.mem_append.mp hmem with hmem | hmem
    · obtain ⟨rfl, hin⟩ := (hcarried d child).mp hmem
      have hthere := (ht.records d).added child code (.inr (.inl hfinal))
      rw [((contains_fresh h.contract hc child).mp hin).1] at hthere
      cases hthere
    · exact hpending.passing d child code hmem hfinal
  · rcases find?_records_carryOver h.contract hc hin with hin | hmem
    · exact (hpending.all d child code (Option.some_ne_none d).symm hin).imp_right
        (.imp_left (List.mem_append_right _))
    · exact .inr (.inl (List.mem_append_left _ hmem))

include hcopy in
lemma notes_closed (response : CallResponse) : Notes (.activation target .execution false t) f
    (closed target h.contract h.deployments response { f with ledger := h.ledger }) := by
  let carried : Frame := ⟨(carryOver h.ledger target h.contract).1, f.seat,
    f.deployments ++ (carryOver h.ledger target h.contract).2 ++ h.deployments⟩
  have hnotes : Notes (.activation target .execution false t) f carried := by
    refine ⟨⟨?_, fun a => ?_, fun hseat => ?_, fun d => ?_⟩, _, List.append_assoc ..,
      (pending_carried htarget ht _).congr fun _ => rfl⟩
    · exact .withLedger (f := f) (ht.ledger.trans (carryOver_kept h.ledger target h.contract).1) _
    · exact (aspect?_carryOver inert_deployed h.ledger target h.contract a).trans (ht.founds a)
    · have hsame : carried.contract = f.contract := Frame.contract_of_apart hseat
      rw [hsame]
      exact .of_find? (fun _ => rfl) fun _ _ => List.not_mem_nil
    · exact (sown_carried htarget hcopy ht d).congr fun _ _ => Chronicle.adds_execution.symm
  exact hnotes.trans_idles ⟨.modifyContract carried (tending_adopt response).steady,
    .modifyContract carried ⟨fun _ => rfl, fun _ h => h⟩, .modifyContract carried fun _ => rfl⟩

end Carrying

lemma notes_elsewhere {t : Chronicle} {target : Address} {deployments : List Deployment} {h : Frame}
    (hown : t.own = []) (hprovisional : ∀ d, t.provisional d = [])
    (ht : Deposits t ⟨f.ledger, .registered target, deployments⟩ h) :
    Notes t f { f with ledger := h.ledger } := by
  have hadds {seat : Option Address} {d child : Address} {code : Bytes} :
      t.Adds seat d child code ↔ (child, code) ∈ t.final d :=
    Chronicle.adds_iff_final hown hprovisional
  refine ⟨⟨.withLedger (f := f) ht.ledger _, ht.founds, fun hseat => ?_, fun d => ?_⟩, [],
    (List.append_nil _).symm, .nil fun d child code _ hin => ?_⟩
  · have hsame : Frame.contract { f with ledger := h.ledger } = f.contract :=
      Frame.contract_of_apart hseat
    rw [hsame]
    exact .of_find? (fun _ => rfl) fun _ _ => hown ▸ List.not_mem_nil
  · exact (ht.records d).congr fun child code => hadds.trans hadds.symm
  · exact ((ht.records d).origin child code hin).imp Table.contains_of_find? hadds.mp

/-- What a constructor has recorded, no failure of a method takes back. -/
lemma deployChronicle_own : (deployChronicle call nested f).own = [] ∧
    ∀ d, (deployChronicle call nested f).provisional d = [] := by
  rw [deployChronicle]
  split
  · exact ⟨rfl, fun _ => rfl⟩
  · split <;> exact ⟨rfl, fun _ => rfl⟩

lemma openCall_notes (hcall : Noted call nested) (hf : Fit f) {target : Address}
    {q : Except Failure Unit} (hx : (openCall call target).outcome f = some (q, g)) :
    Notes (openChronicle call nested target f) f g ∧
      (q = .ok ⟨⟩ → f.ledger.hasContract target = true) := by
  have hopened := idles_opened f target
  rw [outcome_openCall_eq] at hx
  rw [openChronicle]
  cases hn : f.ledger.nestedCalls with
  | false =>
    rw [hn, if_pos rfl] at hx
    cases hx
    exact ⟨.of_idles (.refl f), fun h => by cases h⟩
  | true =>
  rw [hn, if_neg (Bool.false_ne_true ∘ Eq.symm)] at hx
  cases ht : f.ledger.hasContract target with
  | false =>
    rw [ht, if_neg Bool.false_ne_true] at hx
    cases hx
    exact ⟨.of_idles hopened, fun h => by cases h⟩
  | true =>
    rw [ht, if_pos rfl] at hx
    obtain ⟨r, h, hdeploy, hx⟩ := Outcome.andThen_eq_some hx
    cases hx
    have hfit : Fit ⟨opened f target, .registered target, []⟩ :=
      .registered (hopened.abides.ledger.filed hf.filed)
        ((hopened.abides.ledger.hasContract target).trans ht)
    have hdeposits := deploy_deposits hcall hfit rfl hdeploy
    obtain ⟨hown, hprovisional⟩ := deployChronicle_own
    exact ⟨.idles_trans hopened (notes_elsewhere hown hprovisional hdeposits), fun _ => rfl⟩

lemma copied_notes (hcall : Noted call nested) (hf : Fit f) {target : Address}
    {q : Except Failure Contract} (hx : (copied call target).outcome f = some (q, g)) :
    Notes (openChronicle call nested target f) f g ∧ ∀ copy, q = .ok copy →
      g.ledger.hasContract target = true ∧ copy.address = target ∧ copy.deployed = true ∧
        copy.children = g.ledger.records target := by
  rw [copied, outcome_bind] at hx
  obtain ⟨r, h, hopen, hx⟩ := Outcome.andThen_eq_some hx
  obtain ⟨hnotes, htarget⟩ := openCall_notes hcall hf hopen
  cases r with
  | error e =>
    cases hx
    exact ⟨hnotes, fun _ h => by cases h⟩
  | ok done =>
    simp only [outcome_copyTarget] at hx
    split at hx
    case h_2 =>
      cases hx
      exact ⟨hnotes, fun _ h => by cases h⟩
    case h_1 l copy hcopy =>
      cases hx
      obtain ⟨code, resolved, rfl, rfl⟩ := copyOf_eq_ok hcopy
      have hknown : h.ledger.hasContract target = true :=
        (hnotes.ledger.hasContract target).trans (htarget rfl)
      refine ⟨hnotes.trans_idles (idles_setCode h _ _), ?_⟩
      rintro _ ⟨⟩
      refine ⟨hknown, ?_, rfl, ?_⟩
      · exact (hnotes.ledger.filed hf.filed).address_contract hknown
      · exact Frame.children_contract (f := ⟨h.ledger, .registered target, []⟩) rfl

lemma visitChronicle_notes (hcall : Noted call nested) :
    Noted (callWith call) (visitChronicle call nested) := by
  intro target calldata f q g hf hx
  rw [outcome_callWith] at hx
  obtain ⟨r, h, hcopied, hx⟩ := Outcome.andThen_eq_some hx
  obtain ⟨hnotes, hcopy⟩ := copied_notes hcall hf hcopied
  rw [visitChronicle, hcopied]
  cases r with
  | error e =>
    cases hx
    exact hnotes.andThen (.of_idles (.refl _))
  | ok copy =>
    obtain ⟨htarget, haddress, hdeployed, hchildren⟩ := hcopy copy rfl
    obtain ⟨response, k, k', hexecute, hreported, rfl, -⟩ := entered_cases hx
    have hheard := idles_heard calldata ⟨h.ledger, .apart copy, []⟩
    have hstart : Fit ⟨h.ledger, .apart copy, []⟩ :=
      ⟨hnotes.ledger.filed hf.filed, fun _ h => by cases h⟩
    have hcontract := contract_heard calldata h.ledger copy
    obtain ⟨t, ht, hmatches⟩ := execute_notes hcall (hstart.of_abides hheard.abides)
      hheard.abides.seat (by rwa [hcontract]) hheard.still.deployments hexecute
    rw [hcontract, haddress] at hmatches
    have hwhole := Notes.idles_trans hheard (ht.trans_idles (idles_reported hreported))
    exact hnotes.andThen ((notes_closed htarget hchildren hwhole response).congr hmatches)

lemma callChronicle_notes (n : Nat) : Noted (Run.call n) (callChronicle n) := by
  induction n with
  | zero => exact fun _ _ _ _ _ _ hx => by cases hx
  | succ n ih => exact visitChronicle_notes ih

end Run

end ChainReplay
