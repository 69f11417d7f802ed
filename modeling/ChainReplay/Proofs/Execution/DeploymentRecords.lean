import ChainReplay.Proofs.Execution.Coherence
import ChainReplay.Proofs.Execution.Records

/-! Which deployments are on record after a call: those that were before, and those recorded by
activations that have not failed, nor any activation around them. -/

namespace ChainReplay.Run

lemma find?_records_withdraw (l : Ledger) (deployments : List Deployment) (d child : Address) :
    ((withdraw l deployments).records d).find? child =
      if (d, child) ∈ deployments then none else (l.records d).find? child := by
  induction deployments generalizing l with
  | nil => rfl
  | cons deployment rest ih =>
    obtain ⟨owner, other⟩ := deployment
    have hforget : ((l.modifyContract owner (forget other)).records d).find? child =
        if (d, child) = (owner, other) then none else (l.records d).find? child := by
      rw [Ledger.records_modifyContract]
      by_cases hd : d = owner
      · subst hd
        rw [if_pos rfl, Ledger.records]
        cases l.contracts.find? d with
        | none => exact (ite_self none).symm
        | some c =>
          have herase := Table.find?_erase c.children other child
          simp only [Prod.mk.injEq, true_and]
          exact herase
      · rw [if_neg hd, if_neg fun h => hd (congrArg Prod.fst h)]
    refine (ih (l.modifyContract owner (forget other))).trans ?_
    rw [hforget]
    by_cases hhead : (d, child) = (owner, other) <;> by_cases hrest : (d, child) ∈ rest <;>
      simp [hhead, hrest]

lemma hasContract_withdraw (l : Ledger) (deployments : List Deployment) (d : Address) :
    (withdraw l deployments).hasContract d = l.hasContract d := by
  induction deployments generalizing l with
  | nil => rfl
  | cons deployment rest ih => exact (ih _).trans (l.hasContract_modifyContract _ _ d)

lemma settled_withdraw {l : Ledger} (h : l.Settled) (deployments : List Deployment) :
    (withdraw l deployments).Settled := by
  induction deployments generalizing l with
  | nil => exact h
  | cons deployment rest ih => exact ih (h.modifyContract _ fun _ hc => hc)

lemma find?_records_rolledBack {t : Trail} {f g : Frame} (hf : Ready f) (hfg : Marks t f g)
    (hstart : f.deployments = []) (d child : Address) :
    ((rolledBack f.contract g).ledger.records d).find? child =
      (f.ledger.records d).find? child := by
  obtain ⟨new, hnew, hfresh, hall⟩ := hfg.noted
  rw [hstart, List.nil_append] at hnew
  simp only [rolledBack]
  rw [find?_records_withdraw, g.deployments_modifyContract, hnew]
  by_cases hmem : (d, child) ∈ new
  · rw [if_pos (List.mem_reverse.mpr hmem)]
    exact ((Table.contains_eq_false_iff _ _).mp (hfresh d child hmem)).symm
  rw [if_neg (mt List.mem_reverse.mp hmem)]
  by_cases hseat : f.seat.address? = some d
  · rw [Frame.records_modifyContract_self (hfg.seat.trans hseat)
      ((hfg.hasContract d).trans (hf.seat d hseat)), Frame.children_contract hseat]
  · rw [Frame.records_modifyContract_of_ne (hfg.seat ▸ hseat)]
    cases hg : (g.ledger.records d).find? child with
    | none =>
      cases hbefore : (f.ledger.records d).find? child with
      | none => rfl
      | some code =>
        rw [(hfg.records d).kept child code hbefore] at hg
        cases hg
    | some code =>
      rcases hall d child hseat (Table.contains_of_find? hg) with hin | hin
      · obtain ⟨code', hcode'⟩ := Option.isSome_iff_exists.mp hin
        rw [hcode', ← hg, (hfg.records d).kept child code' hcode']
      · exact absurd hin hmem

lemma marks_rolledBack {t : Trail} {f g : Frame} (hf : Ready f) (hfg : Marks t f g)
    (hstart : f.deployments = []) : Marks .quiet f (rolledBack f.contract g) where
  seat := (g.address?_modifyContract _).trans hfg.seat
  hasContract := fun d => (hasContract_withdraw _ _ d).trans
    ((g.hasContract_modifyContract _ d).trans (hfg.hasContract d))
  settled := by
    intro h
    refine settled_withdraw (Frame.settled_modifyContract (hfg.settled h) ?_) _
    exact fun _ hc => hc
  own := by
    intro hseat
    refine .of_find? (fun child => ?_) fun _ _ => List.not_mem_nil
    have hg := hfg.seat.trans hseat
    obtain ⟨l, seat, deployments⟩ := g
    cases seat with
    | registered a => cases hg
    | apart c => rfl
  records := fun d =>
    .of_find? (find?_records_rolledBack hf hfg hstart d) fun _ _ h =>
      h.elim List.not_mem_nil fun h => List.not_mem_nil h.2
  noted := by
    refine ⟨[], by rw [hstart]; rfl, nofun, fun d child _ hin => .inl ?_⟩
    rwa [Table.contains, find?_records_rolledBack hf hfg hstart] at hin

lemma still_abandoned (f : Frame) (e : Failure) : Still f (abandoned f e) := by
  refine Still.trans ?_ (.modifyContract _ discreet_dispose)
  exact .withLedger f rfl

lemma reported_cases {callee : Address} {response : CallResponse} {f g : Frame}
    {q : Except Failure CallResponse} (hx : (reported callee response).outcome f = some (q, g)) :
    q = .ok response ∧ Still f g := by
  have hcalm : Calm (reported callee response) := by
    rw [reported]
    exact Calm.ledger.bind fun l => .optional (.note _ _) (Calm.dispose.bind fun _ => .pure _)
  refine ⟨?_, hcalm f q g hx⟩
  rw [reported, outcome_bind, outcome_ledger] at hx
  simp only [Outcome.some_andThen] at hx
  obtain ⟨f', _, hx⟩ := still_of_optional hx
  cases hx
  rfl

variable {call : Address → Bytes → Run CallResponse} {nested : Address → Bytes → Frame → Trail}

lemma execute_marks (hcall : Leaves call nested) {calldata : Bytes}
    {sender origin : Option Address} {f g : Frame} (hf : Ready f)
    (hdeployed : f.contract.deployed = true) (hstart : f.deployments = []) {response : CallResponse}
    (hx : (execute call calldata sender origin).outcome f = some (.ok response, g)) :
    Marks (if response.result.toOption.isNone then .quiet
      else methodTrail call nested calldata (.caller sender origin) { f with deployments := [] })
      f g := by
  have hsame : { f with deployments := [] } = f := by
    rw [← hstart]
  rw [outcome_execute _ _ _ _ hdeployed, hsame] at hx
  rw [hsame]
  obtain ⟨q, h, hmethod, hx⟩ := Outcome.andThen_eq_some hx
  have hmarks := methodTrail_marks hcall hf hmethod
  cases q with
  | ok reply =>
    cases hx
    exact hmarks
  | error e =>
    cases hx
    exact (marks_rolledBack hf hmarks hstart).trans_still (still_abandoned _ _)

lemma receive_parts {respond : Run CallResponse} (hreturns : Returns respond) {calldata : Bytes}
    {f g : Frame} {q : Except Failure CallResponse}
    (hx : (receive calldata respond).outcome f = some (q, g)) :
    ∃ response h, q = .ok response ∧ respond.outcome (heard calldata f) = some (.ok response, h) ∧
      (reported f.contract.address response).outcome h = some (q, g) := by
  rw [outcome_receive] at hx
  obtain ⟨r, h, hrun, hx⟩ := Outcome.andThen_eq_some hx
  obtain ⟨response, rfl⟩ := hreturns _ _ _ hrun
  exact ⟨response, h, (reported_cases hx).1, hrun, hx⟩

lemma copied_cases {f g : Frame} (hf : Ready f) {target : Address} {q : Except Failure Contract}
    (hx : (copied call target).outcome f = some (q, g)) :
    Still f g ∧ ∀ copy, q = .ok copy → f.ledger.hasContract target = true ∧
      copy.deployed = true ∧ copy.children = f.ledger.records target := by
  have hopened : Still f { f with ledger := opened f target } := by
    rw [opened]
    split
    · exact .withLedger f rfl
    · exact .refl f
  rw [copied, outcome_bind, outcome_openCall call target hf.settled] at hx
  split at hx
  case isTrue =>
    cases hx
    exact ⟨.refl _, fun _ h => by cases h⟩
  case isFalse =>
    split at hx
    case isFalse =>
      cases hx
      exact ⟨hopened, fun _ h => by cases h⟩
    case isTrue htarget =>
      simp only [Outcome.some_andThen, outcome_copyTarget] at hx
      split at hx
      case h_2 =>
        cases hx
        exact ⟨hopened, fun _ h => by cases h⟩
      case h_1 l copy hcopy =>
        cases hx
        obtain ⟨code, resolved, rfl, rfl⟩ := copyOf_eq_ok hcopy
        refine ⟨hopened.trans (.withLedger _ rfl), ?_⟩
        rintro _ ⟨⟩
        have hrecords : (Frame.mk (opened f target) (.registered target) []).contract.children =
            f.ledger.records target :=
          (Frame.children_contract rfl).trans (hopened.records target)
        exact ⟨htarget, rfl, hrecords⟩

lemma records_carryOver {l : Ledger} {target : Address} {c : Contract} (copy : Contract)
    (hc : l.contracts.find? target = some c) (d : Address) :
    (carryOver l target copy).1.records d =
      if d = target then l.records target ++ Overlay.fresh copy c else l.records d := by
  rw [Overlay.carryOver_of_find? copy hc, Ledger.records_modifyContract, Ledger.records_of_find? hc]
  by_cases hd : d = target
  · rw [if_pos hd, if_pos hd, hd, hc]
    rfl
  · rw [if_neg hd, if_neg hd]

lemma contains_fresh {l : Ledger} {target : Address} {c : Contract} (copy : Contract)
    (hc : l.contracts.find? target = some c) (child : Address) :
    Table.contains (Overlay.fresh copy c) child = true ↔
      (l.records target).contains child = false ∧ copy.children.contains child = true := by
  have hfind := Table.find?_filter_new c.children copy.children child
  rw [Ledger.records_of_find? hc, Overlay.fresh, Table.contains, hfind]
  cases hin : c.children.contains child <;> simp [Table.contains]

lemma mem_carryOver {l : Ledger} {target : Address} {c : Contract} (copy : Contract)
    (hc : l.contracts.find? target = some c) (d child : Address) :
    (d, child) ∈ (carryOver l target copy).2 ↔
      d = target ∧ Table.contains (Overlay.fresh copy c) child = true := by
  rw [Overlay.carryOver_of_find? copy hc, Table.contains_iff, Table.keys]
  simp only [List.mem_map, Prod.mk.injEq]
  constructor
  · rintro ⟨entry, hmem, rfl, rfl⟩
    exact ⟨rfl, entry, hmem, rfl⟩
  · rintro ⟨rfl, entry, hmem, rfl⟩
    exact ⟨entry, hmem, rfl, rfl⟩

lemma find?_records_carryOver {l : Ledger} {target : Address} {c : Contract} (copy : Contract)
    (hc : l.contracts.find? target = some c) {d child : Address} {code : Bytes}
    (h : ((carryOver l target copy).1.records d).find? child = some code) :
    (l.records d).find? child = some code ∨ (d, child) ∈ (carryOver l target copy).2 := by
  rw [records_carryOver copy hc] at h
  split at h
  case isTrue hd =>
    rw [Table.find?_append, Option.or_eq_some_iff] at h
    rw [mem_carryOver copy hc, hd]
    exact h.imp_right fun hin => ⟨rfl, Table.contains_of_find? hin.2⟩
  case isFalse => exact .inl h

lemma marks_closed {t : Trail} {f h : Frame} {target : Address} {copy : Contract}
    (htarget : f.ledger.hasContract target = true)
    (hcopy : copy.children = f.ledger.records target)
    (hmarks : Marks t ⟨f.ledger, .apart copy, []⟩ h) (response : CallResponse) :
    Marks (.called target false t) f
      (closed target h.contract h.deployments response { f with ledger := h.ledger }) := by
  have hknown : h.ledger.hasContract target = true := (hmarks.hasContract target).trans htarget
  obtain ⟨c, hc⟩ := Option.isSome_iff_exists.mp hknown
  have hrecords := records_carryOver h.contract hc
  have hcarried := mem_carryOver h.contract hc
  have hown := hmarks.own rfl
  rw [show Frame.contract ⟨f.ledger, .apart copy, []⟩ = copy from rfl, hcopy] at hown
  obtain ⟨new, hnew, hfresh, hall⟩ := hmarks.noted
  rw [List.nil_append] at hnew
  -- Adopting the response leaves all records, so it is enough to follow the copy.
  refine Marks.trans_still ?_ (.modifyContract _ ⟨fun _ => rfl, fun _ h => h⟩)
  refine ⟨rfl, fun d => ?_, fun hf => ?_,
    fun hseat => .of_find? (fun child => ?_) fun _ _ => List.not_mem_nil, fun d => ?_,
    (carryOver h.ledger target h.contract).2 ++ h.deployments, List.append_assoc ..,
    fun d child hmem => ?_, fun d child _ hin => ?_⟩
  · change (carryOver h.ledger target h.contract).1.hasContract d = _
    rw [Overlay.carryOver_of_find? _ hc, Ledger.hasContract_modifyContract]
    exact hmarks.hasContract d
  · change (carryOver h.ledger target h.contract).1.Settled
    rw [Overlay.carryOver_of_find? _ hc]
    exact (hmarks.settled hf).modifyContract target fun _ hc => hc
  · obtain ⟨l, seat, deployments⟩ := f
    cases seat with
    | registered a => cases hseat
    | apart c => rfl
  · change Table.Grown _ ((carryOver h.ledger target h.contract).1.records d) _
    rw [hrecords]
    by_cases hd : d = target
    · subst hd
      rw [if_pos rfl, Overlay.fresh, ← Ledger.records_of_find? hc]
      refine (hown.join (hmarks.records d)).congr fun a b => ?_
      simp [Trail.retained, Trail.own, Seat.address?]
    · rw [if_neg hd]
      refine (hmarks.records d).congr fun a b => ?_
      simp [Trail.retained, Trail.own, Seat.address?, Ne.symm hd]
  · rcases List.mem_append.mp hmem with hmem | hmem
    · obtain ⟨rfl, hin⟩ := (hcarried d child).mp hmem
      have hnew := ((contains_fresh h.contract hc child).mp hin).1
      rw [Bool.eq_false_iff] at hnew ⊢
      exact fun hin => hnew ((hmarks.records d).contains hin)
    · exact hfresh d child (hnew ▸ hmem)
  · obtain ⟨code, hcode⟩ := Option.isSome_iff_exists.mp hin
    have hthere := (find?_records_carryOver h.contract hc hcode).imp_left Table.contains_of_find?
    rcases hthere with hin | hmem
    · exact (hall d child (Option.some_ne_none d).symm hin).imp_right fun hmem =>
        List.mem_append_right _ (hnew ▸ hmem)
    · exact .inr (List.mem_append_left _ hmem)

/-- Of a failed activation nothing is retained, whatever it did. -/
lemma retained_called (target : Address) (failed : Bool) (t : Trail) (d : Address) :
    (Trail.called target false (if failed then .quiet else t)).retained d =
      (Trail.called target failed t).retained d := by
  cases failed <;> simp [Trail.retained, Trail.own]

lemma entered_cases {calldata : Bytes} {target : Address} {copy : Contract} {f g : Frame}
    {q : Except Failure CallResponse}
    (hx : entered (execute call calldata) (fun _ c => c) target calldata copy f = some (q, g)) :
    ∃ response h k,
      (execute call calldata (some f.contract.address) (some f.ledger.origin)).outcome
        (heard calldata ⟨f.ledger, .apart copy, []⟩) = some (.ok response, h) ∧
      (reported copy.address response).outcome h = some (.ok response, k) ∧
      g = closed target k.contract k.deployments response { f with ledger := k.ledger } ∧
      q = checkResponse (carryOver k.ledger target k.contract).1 g.contract response := by
  simp only [entered] at hx
  obtain ⟨r, k, hreceive, hx⟩ := Outcome.andThen_eq_some hx
  obtain ⟨response, h, rfl, hexecute, hreported⟩ := receive_parts (Returns.execute _ _ _ _) hreceive
  simp only [outcome_closeCall] at hx
  cases hx
  exact ⟨response, h, k, hexecute, hreported, rfl, rfl⟩

lemma visitTrail_marks (hcall : Leaves call nested) :
    Leaves (callWith call) (visitTrail call nested) := by
  intro target calldata f q g hf hx
  rw [outcome_callWith] at hx
  obtain ⟨r, f', hcopied, hx⟩ := Outcome.andThen_eq_some hx
  obtain ⟨hstill, hcopy⟩ := copied_cases hf hcopied
  rw [visitTrail, hcopied]
  cases r with
  | error e =>
    cases hx
    exact .of_still hstill
  | ok copy =>
    obtain ⟨htarget, hdeployed, hchildren⟩ := hcopy copy rfl
    obtain ⟨response, h, h', hexecute, hreported, rfl, -⟩ := entered_cases hx
    have hstill' := (reported_cases hreported).2
    have hstart : Ready ⟨f'.ledger, .apart copy, []⟩ :=
      ⟨(hstill.ready hf).settled, fun a hseat => absurd hseat.symm (Option.some_ne_none a)⟩
    have hheard := still_heard calldata ⟨f'.ledger, .apart copy, []⟩
    have hcontract : (heard calldata ⟨f'.ledger, .apart copy, []⟩).contract = copy := by
      rw [heard]
      split <;> rfl
    have hmarks := execute_marks hcall (hheard.ready hstart) (by rwa [hcontract])
      hheard.deployments hexecute
    have hclosed := marks_closed ((hstill.hasContract target).trans htarget)
      (hchildren.trans (hstill.records target).symm)
      (.still_trans hheard (hmarks.trans_still hstill')) response
    refine .still_trans hstill (hclosed.congr ?_ fun d => ?_)
    · simp only [activationTrail, hexecute, Trail.own]
    · simp only [activationTrail, hexecute]
      exact retained_called _ _ _ d

lemma callTrail_marks (n : Nat) : Leaves (Run.call n) (callTrail n) := by
  induction n with
  | zero => exact fun _ _ _ _ _ _ hx => (by cases hx)
  | succ n ih => exact visitTrail_marks ih

lemma perform_execute_returns {call : Address → Bytes → Run CallResponse} {l l' : Ledger}
    {start seat : Seat} {calldata : Bytes} {sender origin : Option Address}
    {r : Except Failure CallResponse}
    (hrun : l.perform start (execute call calldata sender origin) = some (r, l', seat)) :
    ∃ response, r = .ok response := by
  rw [perform_eq, Option.map_eq_some_iff] at hrun
  obtain ⟨⟨q, g⟩, hexecute, heq⟩ := hrun
  cases heq
  exact Returns.execute _ _ _ _ _ _ _ hexecute

/-- After a call, the copies that a contract has on record as deployed are those that it had before,
and those that its activations in this call recorded such that neither they nor any activation around
them failed. So a call that fails changes no records, and no call takes any away. -/
theorem records_of_call {n : Nat} {l l' : Ledger} {a : Address} {calldata : Bytes}
    {sender origin : Option Address} {response : CallResponse} {seat : Seat}
    (hset : l.Settled) (ha : l.hasContract a = true)
    (hrun : l.perform (.registered a) (execute (Run.call n) calldata sender origin) =
      some (.ok response, l', seat)) :
    (∀ d, Table.Grown (l.records d) (l'.records d) fun child code =>
      (child, code) ∈ (l.trail n a calldata sender origin).retained d) ∧
    (response.result.toOption = none →
      ∀ d child, (l'.records d).find? child = (l.records d).find? child) := by
  have hf : Ready ⟨l, .registered a, []⟩ := ⟨hset, by rintro _ ⟨⟩; exact ha⟩
  rw [perform_eq, Option.map_eq_some_iff] at hrun
  obtain ⟨⟨r, g⟩, hexecute, heq⟩ := hrun
  cases heq
  have hmarks := execute_marks (callTrail_marks n) hf (hset.deployed ha) rfl hexecute
  have hgrown (d : Address) : Table.Grown (l.records d) (g.ledger.records d) fun child code =>
      (child, code) ∈ (l.trail n a calldata sender origin).retained d := by
    refine (hmarks.records d).congr fun child code => ?_
    rw [Ledger.trail, activationTrail, hexecute, ← retained_called]
    by_cases hd : a = d <;> simp [Trail.retained, Seat.address?, hd, or_comm]
  refine ⟨hgrown, fun hfailed d child => ?_⟩
  have hnone : (l.trail n a calldata sender origin).retained d = [] := by
    rw [Ledger.trail, activationTrail, hexecute]
    simp [Trail.retained, hfailed]
  have hsame := hgrown d
  rw [hnone] at hsame
  cases hafter : (g.ledger.records d).find? child with
  | some code => exact ((hsame.origin child code hafter).resolve_right List.not_mem_nil).symm
  | none =>
    cases hbefore : (l.records d).find? child with
    | none => rfl
    | some code =>
      rw [hsame.kept child code hbefore] at hafter
      cases hafter

section Founding

def vault : Address := Ledger.numbered 3

def deploying (source : Address) (next : Program) : Program :=
  .ask .deploy (source.bytes ++ Bytes.zeros 32) fun _ => next

/-- The entrance calls the chamber, which deploys a copy of the vault and fails; the entrance goes on,
and deploys one itself. -/
def founding : Engine where
  instantiate parameters := .ok
    { refusal := none
      construct := fun _ _ => .done []
      execute := fun _ _ =>
        if parameters.address = entrance then calling chamber [] (deploying vault (.done []))
        else deploying vault (.fail .wrongValue) }

def founded : Ledger :=
  { Ledger.standing founding [entrance, chamber] with codes := [(vault, [])] }

theorem records_of_call_founding :
    ∃ response l' seat, founded.perform (.registered entrance)
        (execute (Run.call 1) [] none none) = some (.ok response, l', seat) ∧
      (∀ child, (l'.records chamber).contains child = false) ∧
      ∃ child, (l'.records entrance).contains child = true := by
  obtain ⟨hsome, hchamber, hentrance⟩ : (founded.perform (.registered entrance)
        (execute (Run.call 1) [] none none)).isSome = true ∧
      (founded.trail 1 entrance [] none none).retained chamber = [] ∧
      (founded.trail 1 entrance [] none none).retained entrance ≠ [] := by decide +kernel
  obtain ⟨⟨r, l', seat⟩, hrun⟩ := Option.isSome_iff_exists.mp hsome
  obtain ⟨response, rfl⟩ := perform_execute_returns hrun
  have hgrown := (records_of_call (l := founded) (Ledger.settled_standing founding _)
    (by decide +kernel) hrun).1
  refine ⟨response, l', seat, hrun, fun child => ?_, ?_⟩
  · have hsame := hgrown chamber
    rw [hchamber] at hsame
    rw [Table.contains_eq_false_iff, Option.eq_none_iff_forall_not_mem]
    intro code hcode
    rcases hsame.origin child code hcode with hbefore | hnew
    · cases hbefore
    · cases hnew
  · obtain ⟨⟨child, code⟩, hmem⟩ := List.exists_mem_of_ne_nil _ hentrance
    exact ⟨child, (hgrown entrance).added child code hmem⟩

end Founding

end ChainReplay.Run
