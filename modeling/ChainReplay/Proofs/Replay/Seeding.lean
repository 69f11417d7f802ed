import Mathlib.Data.List.Nodup
import ChainReplay.Proofs.Ledger.Overriding
import ChainReplay.Proofs.Replay.Independence

/-! What loading storage leaves: the contracts of the plan as they are configured, with the storage of
their feeds. Whatever the stage held before is gone, and it does not matter how it came to hold it. -/

namespace ChainReplay

namespace Ledger

variable {l m n : Ledger}

/-- The contracts stay as they are, but for their code. -/
structure Coded (l m : Ledger) : Prop where
  keys : m.contracts.keys = l.contracts.keys
  contract : ∀ a c, l.contracts.find? a = some c →
    ∃ code, m.contracts.find? a = some { c with code }

namespace Coded

lemma of_contracts (h : m.contracts = l.contracts) : l.Coded m :=
  ⟨congrArg Table.keys h, fun _ c hc => ⟨c.code, h ▸ hc⟩⟩

lemma trans (h : l.Coded m) (h' : m.Coded n) : l.Coded n where
  keys := h'.keys.trans h.keys
  contract := by
    intro a c hc
    obtain ⟨code, hm⟩ := h.contract a c hc
    obtain ⟨code', hn⟩ := h'.contract a _ hm
    exact ⟨code', hn⟩

lemma replace {a : Address} {c : Contract} (hc : l.contracts.find? a = some c)
    (code : Option Bytes) : l.Coded (l.modifyContract a fun _ => { c with code }) where
  keys := Table.keys_modify l.contracts a fun _ => { c with code }
  contract := by
    intro b d hd
    have hfind : (l.modifyContract a fun _ => { c with code }).contracts.find? b =
        if b = a then (l.contracts.find? b).map (fun _ => { c with code })
        else l.contracts.find? b := Table.find?_modify l.contracts a (fun _ => { c with code }) b
    rw [hfind, hd]
    split
    case isTrue hb =>
      subst hb
      cases hc.symm.trans hd
      exact ⟨code, rfl⟩
    case isFalse => exact ⟨d.code, rfl⟩

lemma resolveAll (l : Ledger) (addresses : List Address) :
    l.Coded (l.resolveAll addresses).1 := by
  induction addresses generalizing l with
  | nil => exact of_contracts rfl
  | cons a rest ih =>
    rw [Ledger.resolveAll]
    cases hc : l.contracts.find? a with
    | none => exact ih l
    | some c =>
      have hcontracts := l.contracts_resolveCode c
      simp only
      cases hresolved : l.resolveCode c with | mk m r =>
      rw [hresolved] at hcontracts
      have hresolve : l.Coded m := of_contracts hcontracts
      cases r with
      | error f => exact hresolve
      | ok d =>
        obtain ⟨code, rfl⟩ := Ledger.resolveCode_eq_ok hresolved
        have hfind := (congrArg (Table.find? · a) hcontracts).trans hc
        have hreplace : m.Coded (m.modifyContract a fun _ => { c with code := some code }) :=
          replace hfind (some code)
        exact (hresolve.trans hreplace).trans (ih _)

end Coded

lemma coded_init (h : ∀ entry ∈ l.contracts, entry.2.handle = none) : l.Coded l.init.1 := by
  have hdisposed : l.dispose.contracts = l.contracts := by
    have hdispose : ∀ entry ∈ l.contracts, (entry.1, entry.2.dispose) = entry := by
      intro entry hentry
      rw [Contract.dispose, h entry hentry]
    exact (List.map_congr_left hdispose).trans (List.map_id _)
  exact (Coded.of_contracts hdisposed).trans (.resolveAll _ _)

end Ledger

namespace Stage

variable {height : Int} {s t u : Stage} {plans : List ContractPlan}

lemma planned_of_plan {c : ContractPlan} (hplan : t.plan = s.plan)
    (hsettings : t.ledger.settings = s.ledger.settings) : t.planned c = s.planned c := by
  rw [planned, planned, hplan, hsettings]

section Registering

structure Enrolled (plans : List ContractPlan) (s t : Stage) : Prop where
  contracts : t.ledger.contracts = (s.ledger.contracts ++
    plans.map fun c => (c.address, s.planned c) : List (Address × Contract))
  distinct : s.ledger.contracts.keys.Nodup → t.ledger.contracts.keys.Nodup
  members : t.members = s.members ++ plans.map (·.address)
  overrides : t.overrides = s.overrides
  files : t.files = s.files
  plan : t.plan = s.plan
  settings : t.ledger.settings = s.ledger.settings

namespace Enrolled

lemma nil (s : Stage) : Enrolled [] s s where
  contracts := (List.append_nil _).symm
  distinct := id
  members := (List.append_nil _).symm
  overrides := rfl
  files := rfl
  plan := rfl
  settings := rfl

lemma cons {c : ContractPlan} (h : Enrolled [c] s t) (h' : Enrolled plans t u) :
    Enrolled (c :: plans) s u where
  contracts := by
    have hplanned : t.planned = s.planned :=
      funext fun d => planned_of_plan (c := d) h.plan h.settings
    rw [h'.contracts, h.contracts, hplanned, List.append_assoc]
    rfl
  distinct := h'.distinct ∘ h.distinct
  members := by
    rw [h'.members, h.members, List.append_assoc]
    rfl
  overrides := h'.overrides.trans h.overrides
  files := h'.files.trans h.files
  plan := h'.plan.trans h.plan
  settings := h'.settings.trans h.settings

lemma registerOne {c : ContractPlan} (h : (registerOne c).outcome s = some (.ok ⟨⟩, t)) :
    Enrolled [c] s t := by
  rw [outcome_registerOne, Ledger.register] at h
  split at h
  case h_2 => cases h
  case h_1 l hl =>
    split at hl
    case isTrue => cases hl
    case isFalse hnew =>
      cases hl
      cases h
      refine ⟨rfl, fun hdistinct => ?_, rfl, rfl, rfl, rfl, rfl⟩
      have happend : s.ledger.contracts.insertNew c.address (s.planned c) =
          s.ledger.contracts ++ [(c.address, s.planned c)] := if_neg hnew
      exact happend ▸ Table.nodup_keys_insertNew hdistinct _ _

lemma forIn {r : PUnit} (h : Staged.outcome (forIn plans PUnit.unit fun c _ => do
      Stage.registerOne c
      pure (ForInStep.yield PUnit.unit)) s = some (.ok r, t)) : Enrolled plans s t := by
  induction plans generalizing s with
  | nil =>
    cases h
    exact nil _
  | cons c plans ih =>
    simp only [List.forIn_cons, bind_assoc, pure_bind] at h
    obtain ⟨⟨⟩, u, hfirst, h⟩ := Staged.outcome_bind_ok h
    exact (registerOne hfirst).cons (ih h)

lemma registerContracts {r : Unit} (h : registerContracts.outcome s = some (.ok r, t)) :
    Enrolled s.plan.contracts { s with members := [] } t := by
  rw [Stage.registerContracts] at h
  obtain ⟨_, _, ⟨⟩, h⟩ := Staged.outcome_bind_ok h
  obtain ⟨_, _, ⟨⟩, h⟩ := Staged.outcome_bind_ok h
  obtain ⟨_, _, hloop, ⟨⟩⟩ := Staged.outcome_bind_ok h
  exact forIn hloop

end Enrolled

lemma outcome_initLedger (s : Stage) :
    initLedger.outcome s = some (s.ledger.init.2, { s with ledger := s.ledger.init.1 }) := by
  rw [initLedger]
  change Staged.outcome (do
    modifyLedger fun _ => s.ledger.init.1
    liftM s.ledger.init.2) s = _
  cases s.ledger.init.2 <;> rfl

/-- The contracts of the plan are registered anew, and have their code. -/
structure Founded (s t : Stage) : Prop where
  keys : t.ledger.contracts.keys = s.plan.contracts.map (·.address)
  distinct : t.ledger.contracts.keys.Nodup
  contract : ∀ c ∈ s.plan.contracts, ∃ code,
    t.ledger.contracts.find? c.address = some { s.planned c with code }
  members : t.members = s.plan.contracts.map (·.address)
  overrides : t.overrides = []
  files : t.files = s.files
  plan : t.plan = s.plan

lemma Founded.nodup (h : Founded s t) : (s.plan.contracts.map (·.address)).Nodup :=
  h.keys ▸ h.distinct

lemma founded {r : Unit} (h : registerContracts.outcome s.cleared = some (.ok r, t))
    (h' : initLedger.outcome t = some (.ok r, u)) : Founded s u := by
  obtain ⟨hempty, -, -, hsetup⟩ := s.cleared_spec
  have henrolled := Enrolled.registerContracts h
  have hplanned : { s.cleared with members := [] }.planned = s.planned :=
    funext fun c => planned_of_plan rfl (Ledger.settings_of_setup hsetup)
  have hcontracts : t.ledger.contracts =
      s.plan.contracts.map fun c => (c.address, s.planned c) := by
    rw [henrolled.contracts, hplanned, hempty]
    rfl
  have hkeys : t.ledger.contracts.keys = s.plan.contracts.map (·.address) := by
    rw [hcontracts, Table.keys, List.map_map]
    rfl
  have hdistinct : t.ledger.contracts.keys.Nodup := henrolled.distinct (hempty ▸ List.nodup_nil)
  have hcoded : t.ledger.Coded t.ledger.init.1 := by
    apply Ledger.coded_init
    intro entry hentry
    rw [hcontracts] at hentry
    obtain ⟨c, -, rfl⟩ := List.mem_map.mp hentry
    rfl
  rw [outcome_initLedger] at h'
  obtain ⟨-, rfl⟩ := Prod.mk.inj (Option.some.inj h')
  constructor
  case keys => exact hcoded.keys.trans hkeys
  case distinct => exact hcoded.keys ▸ hdistinct
  case contract =>
    intro c hc
    apply hcoded.contract
    rw [Table.find?_eq_some_iff hdistinct, hcontracts]
    exact List.mem_map_of_mem hc
  case members => exact henrolled.members
  case overrides => exact henrolled.overrides
  case files => exact henrolled.files
  case plan => exact henrolled.plan

end Registering

section Sowing

lemma outcome_lift_bind_ok {α β : Type} {q : Except Failure α} {k : α → Staged β} {b : β}
    (h : (liftM q >>= k).outcome s = some (.ok b, t)) :
    ∃ a, q = .ok a ∧ (k a).outcome s = some (.ok b, t) := by
  cases q with
  | error e => cases h
  | ok a => exact ⟨a, rfl, h⟩

/-- The feed of a contract has been looked up. -/
def fetched (height : Int) (c : ContractPlan) (feed : Path) (s : Stage) : Stage :=
  let l := s.ledger.note .info
    ("loading states for " ++ c.label.shown ++ " at block " ++ .ofInt height)
  let found := s.cache.get s.disk feed feed.text height
  { s with
    cache := found.cache, disk := found.disk
    ledger := { l with notices := l.notices ++ found.notices } }

def sow (c : ContractPlan) (states : Storage) : Staged Unit := do
  let s ← get
  let (overrides, l) ← liftM (s.overrides.overrideStates s.ledger c.address states)
  let (overrides, l) ← liftM (overrides.overrideDeployment l c.address)
  set { s with overrides, ledger := l }

lemma outcome_seed (height : Int) {c : ContractPlan} {feed : Path} (hc : c.states = some feed)
    (s : Stage) : (seed height c).outcome s =
      Staged.outcome (liftM (s.cache.get s.disk feed feed.text height).result >>= sow c)
        (s.fetched height c feed) := by
  simp only [seed, hc]
  rfl

/-- The contract has this storage and is deployed, and what it was before is put aside. -/
structure Sown (c : ContractPlan) (states : Storage) (s t : Stage) : Prop where
  contracts : t.ledger.contracts =
    s.ledger.contracts.modify c.address fun d => { d with states, deployed := true }
  overrides : ∃ before, t.overrides = s.overrides.insertNew c.address before
  members : t.members = s.members
  files : t.files = s.files

lemma sown_of_sow {c : ContractPlan} {states : Storage} {r : Unit}
    (h : (sow c states).outcome s = some (.ok r, t)) : Sown c states s t := by
  obtain ⟨_, _, ⟨⟩, h⟩ := Staged.outcome_bind_ok h
  obtain ⟨⟨o, l⟩, hfirst, h⟩ := outcome_lift_bind_ok h
  obtain ⟨⟨o', l'⟩, hsecond, h⟩ := outcome_lift_bind_ok h
  have hstates := s.overrides.result_overrideStates s.ledger c.address states
  have hdeployment := o.result_overrideDeployment l c.address
  rw [hfirst] at hstates
  rw [hsecond] at hdeployment
  cases h
  obtain ⟨-, hcontracts⟩ := hstates
  obtain ⟨-, hcontracts'⟩ := hdeployment
  refine ⟨?_, ⟨_, if_pos (Table.contains_insertNew_self _ _ _)⟩, rfl, rfl⟩
  rw [hcontracts', hcontracts, Table.modify_modify]
  rfl

lemma Sown.keys_overrides {c : ContractPlan} {states : Storage} (h : Sown c states s t)
    (hnew : c.address ∉ s.overrides.keys) : t.overrides.keys = s.overrides.keys ++ [c.address] := by
  obtain ⟨before, hput⟩ := h.overrides
  rw [hput]
  exact Table.keys_insertNew hnew before

lemma lookUps_of_found {c : ContractPlan} {feed : Path} (hc : c.states = some feed)
    {x y : Cache × Disk} {states : Storage} {maps : List Storage}
    (hfound : (x.1.get x.2 feed feed.text height).result = .ok states)
    (h : lookUps height plans ((x.1.get x.2 feed feed.text height).cache,
      (x.1.get x.2 feed feed.text height).disk) = (.ok maps, y)) :
    lookUps height (c :: plans) x = (.ok (states :: maps), y) := by
  rw [lookUps, hc]
  simp only [hfound, h]
  rfl

/-- The contracts that have a feed have been given what it holds, one after the other. -/
structure Stocked (height : Int) (plans : List ContractPlan) (s t : Stage) : Prop where
  keys : t.ledger.contracts.keys = s.ledger.contracts.keys
  members : t.members = s.members
  overridden : t.overrides.keys =
    s.overrides.keys ++ (plans.filter (·.states.isSome)).map (·.address)
  fed : ∀ before c after feed, plans = before ++ c :: after → c.states = some feed →
    ∃ maps files states, lookUps height before s.files = (.ok maps, files) ∧
      (files.1.get files.2 feed feed.text height).result = .ok states ∧
      t.ledger.contracts.find? c.address =
        (s.ledger.contracts.find? c.address).map fun d => { d with states, deployed := true }
  others : ∀ a, (∀ c ∈ plans, c.states.isSome = true → c.address ≠ a) →
    t.ledger.contracts.find? a = s.ledger.contracts.find? a

namespace Stocked

variable {c : ContractPlan}

lemma nil (height : Int) (s : Stage) : Stocked height [] s s where
  keys := rfl
  members := rfl
  overridden := (List.append_nil _).symm
  fed := by
    intro before c after feed hplans
    simp at hplans
  others := fun _ _ => rfl

lemma cons_of_none (hc : c.states = none) (h : Stocked height plans s t) :
    Stocked height (c :: plans) s t where
  keys := h.keys
  members := h.members
  overridden := by
    rw [h.overridden, List.filter_cons_of_neg (by simp [hc])]
  fed := by
    intro before d after feed hplans hd
    cases before with
    | nil =>
      cases hplans
      cases hc.symm.trans hd
    | cons first before =>
      cases hplans
      obtain ⟨maps, files, states, hmaps, hstates, hfind⟩ := h.fed before d after feed rfl hd
      refine ⟨maps, files, states, ?_, hstates, hfind⟩
      rw [lookUps, hc]
      exact hmaps
  others := fun a ha => h.others a fun d hd => ha d (List.mem_cons_of_mem _ hd)

lemma cons_of_some {feed : Path} (hc : c.states = some feed) {states : Storage}
    (hstates : (s.cache.get s.disk feed feed.text height).result = .ok states)
    (hsown : Sown c states (s.fetched height c feed) t) (h : Stocked height plans t u)
    (hplans : c.address ∉ plans.map (·.address)) (hnew : c.address ∉ s.overrides.keys) :
    Stocked height (c :: plans) s u where
  keys := by
    rw [h.keys, hsown.contracts, Table.keys_modify]
    rfl
  members := h.members.trans hsown.members
  overridden := by
    rw [h.overridden, hsown.keys_overrides hnew, List.filter_cons_of_pos (by simp [hc]),
      List.append_assoc]
    rfl
  fed := by
    intro before d after feed' hsplit hd
    cases before with
    | nil =>
      cases hsplit
      cases hc.symm.trans hd
      refine ⟨[], s.files, states, rfl, hstates, ?_⟩
      -- the others have other addresses, so it keeps what it has been given
      rw [h.others c.address fun d hd _ heq => hplans (heq ▸ List.mem_map_of_mem hd),
        hsown.contracts, Table.find?_modify, if_pos rfl]
      rfl
    | cons first before =>
      cases hsplit
      obtain ⟨maps, files, states', hmaps, hstates', hfind⟩ := h.fed before d after feed' rfl hd
      rw [hsown.files] at hmaps
      refine ⟨states :: maps, files, states', lookUps_of_found hc hstates hmaps, hstates', ?_⟩
      have hne : d.address ≠ c.address := by
        rintro heq
        exact hplans (heq ▸ List.mem_map_of_mem (List.mem_append_right _ List.mem_cons_self))
      rw [hfind, hsown.contracts, Table.find?_modify, if_neg hne]
      rfl
  others := by
    intro a ha
    have hca : c.address ≠ a := ha c List.mem_cons_self (by simp [hc])
    rw [h.others a fun d hd => ha d (List.mem_cons_of_mem _ hd), hsown.contracts,
      Table.find?_modify, if_neg (Ne.symm hca)]
    rfl

lemma forIn {r : PUnit} (hdistinct : (plans.map (·.address)).Nodup)
    (hnew : ∀ c ∈ plans, c.address ∉ s.overrides.keys)
    (h : Staged.outcome (forIn plans PUnit.unit fun c _ => do
      seed height c
      pure (ForInStep.yield PUnit.unit)) s = some (.ok r, t)) : Stocked height plans s t := by
  induction plans generalizing s with
  | nil =>
    cases h
    exact nil height _
  | cons c plans ih =>
    simp only [List.forIn_cons, bind_assoc, pure_bind] at h
    obtain ⟨hfirst, hdistinct⟩ := List.nodup_cons.mp hdistinct
    obtain ⟨⟨⟩, u, hseed, h⟩ := Staged.outcome_bind_ok h
    cases hc : c.states with
    | none =>
      simp only [seed, hc] at hseed
      cases hseed
      exact (ih hdistinct (fun d hd => hnew d (List.mem_cons_of_mem _ hd)) h).cons_of_none hc
    | some feed =>
      rw [outcome_seed height hc] at hseed
      obtain ⟨states, hstates, hsow⟩ := outcome_lift_bind_ok hseed
      have hsown := sown_of_sow hsow
      have hnew' : ∀ d ∈ plans, d.address ∉ u.overrides.keys := by
        intro d hd
        rw [hsown.keys_overrides (hnew c List.mem_cons_self), List.mem_append, List.mem_singleton]
        rintro (hold | heq)
        · exact hnew d (List.mem_cons_of_mem _ hd) hold
        · exact hfirst (List.mem_map.mpr ⟨d, hd, heq⟩)
      exact (ih hdistinct hnew' h).cons_of_some hc hstates hsown hfirst (hnew c List.mem_cons_self)

end Stocked

end Sowing

/-- The stage has what the plan says and what its feeds hold at a height, and nothing else. -/
structure Seeded (height : Int) (s t : Stage) : Prop where
  contracts : t.ledger.contracts.keys = s.plan.contracts.map (·.address)
  members : t.members = s.plan.contracts.map (·.address)
  fed : ∀ before c after feed, s.plan.contracts = before ++ c :: after → c.states = some feed →
    ∃ maps files states code, lookUps height before s.files = (.ok maps, files) ∧
      (files.1.get files.2 feed feed.text height).result = .ok states ∧
      t.ledger.contracts.find? c.address =
        some { Contract.create c.address (c.deployer.getD s.plan.admin)
            (c.gasLimit.getD (.amount s.ledger.settings.gasLimit)) none [] with
          states, deployed := true, code }
  unfed : ∀ c ∈ s.plan.contracts, c.states = none → ∃ code,
    t.ledger.contracts.find? c.address =
      some { Contract.create c.address (c.deployer.getD s.plan.admin)
        (c.gasLimit.getD (.amount s.ledger.settings.gasLimit)) none [] with code }
  overridden : t.overrides.keys =
    (s.plan.contracts.filter (·.states.isSome)).map (·.address)

lemma phases_of_loadStates (h : (loadStates height).outcome s = some (.ok ⟨⟩, t)) :
    ∃ u, Founded s u ∧ Stocked height s.plan.contracts u t := by
  have hphases : (loadStates height).outcome s = Staged.outcome (do
      registerContracts
      initLedger
      for c in (← get).plan.contracts do seed height c) s.cleared := rfl
  rw [hphases] at h
  obtain ⟨⟨⟩, u, hregistered, h⟩ := Staged.outcome_bind_ok h
  obtain ⟨⟨⟩, v, hinit, h⟩ := Staged.outcome_bind_ok h
  obtain ⟨_, _, ⟨⟩, h⟩ := Staged.outcome_bind_ok h
  obtain ⟨_, _, hseeds, ⟨⟩⟩ := Staged.outcome_bind_ok h
  have hfounded := founded hregistered hinit
  rw [hfounded.plan] at hseeds
  refine ⟨v, hfounded, Stocked.forIn hfounded.nodup (fun c _ => ?_) hseeds⟩
  rw [hfounded.overrides]
  exact List.not_mem_nil

/-- Loading storage leads there from any stage, if it succeeds. -/
theorem loadStates_seeds (height : Int) (h : (loadStates height).outcome s = some (.ok ⟨⟩, t)) :
    Seeded height s t := by
  obtain ⟨u, hfounded, hstocked⟩ := phases_of_loadStates h
  constructor
  case contracts => exact hstocked.keys.trans hfounded.keys
  case members => exact hstocked.members.trans hfounded.members
  case fed =>
    intro before c after feed hsplit hfeed
    obtain ⟨maps, files, states, hmaps, hstates, hfind⟩ :=
      hstocked.fed before c after feed hsplit hfeed
    obtain ⟨code, hcontract⟩ := hfounded.contract c (by simp [hsplit])
    rw [hfounded.files] at hmaps
    rw [hcontract] at hfind
    exact ⟨maps, files, states, code, hmaps, hstates, hfind⟩
  case unfed =>
    intro c hc hnone
    obtain ⟨code, hcontract⟩ := hfounded.contract c hc
    refine ⟨code, (hstocked.others c.address fun d hd hfeed heq => ?_).trans hcontract⟩
    obtain rfl := List.inj_on_of_nodup_map hfounded.nodup hd hc heq
    rw [hnone] at hfeed
    cases hfeed
  case overridden =>
    rw [hstocked.overridden, hfounded.overrides]
    rfl

/-- The second contract has been called before, and the first alone has a feed. -/
theorem loadStates_seeds_experienced :
    ∃ t, (loadStates 4).outcome experienced = some (.ok ⟨⟩, t) ∧
      t.ledger.contracts.keys = [first, second] ∧ t.overrides.keys = [first] ∧
      Seeded 4 experienced t := by
  obtain ⟨hreturns, hplan, hfeeds⟩ :
      ((loadStates 4).outcome experienced).map (·.1.toOption) = some (some ⟨⟩) ∧
      experienced.plan.contracts.map (·.address) = [first, second] ∧
      (experienced.plan.contracts.filter (·.states.isSome)).map (·.address) = [first] := by
    decide +kernel
  obtain ⟨⟨q, t⟩, hrun, hq⟩ := Option.map_eq_some_iff.mp hreturns
  obtain rfl := Decoding.eq_ok_of_toOption hq
  have hseeded := loadStates_seeds 4 hrun
  exact ⟨t, hrun, hseeded.contracts.trans hplan, hseeded.overridden.trans hfeeds, hseeded⟩

end Stage

end ChainReplay
