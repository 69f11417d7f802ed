import ChainReplay.Proofs.Replay.History
import ChainReplay.Proofs.Replay.Reenactment

/-! Reseeding a stage. It drops all contracts, registers those of the plan anew and gives them the
storage of their feeds, so that of the stage's history no more is left than the code that it has
made known. -/

namespace ChainReplay

namespace Stage

variable {α β : Type} {o : Offset} {p : Plan} {s t s' t' : Stage}

/-- Stages of one plan whose ledgers are counterparts; the code of the plan's contracts is known. -/
structure Beside (o : Offset) (p : Plan) (s t : Stage) : Prop where
  ledger : s.ledger.Counterpart o t.ledger
  setup : s.ledger.setup = t.ledger.setup
  first : s.plan = p
  second : t.plan = p
  equipped : ∀ c ∈ p.contracts, s.ledger.codes.contains c.address = true

def files (s : Stage) : Cache × Disk := (s.cache, s.disk)

structure Filed (x y : Cache × Disk) (s t : Stage) : Prop where
  first : s.files = x
  second : t.files = y

lemma Beside.moved (h : Beside o p s t) {l m : Ledger}
    (hmoved : Ledger.Moved o s.ledger t.ledger l m) (overrides overrides' : Overrides)
    (members members' : List Address) :
    Beside o p { s with ledger := l, overrides := overrides, members := members }
      { t with ledger := m, overrides := overrides', members := members' } where
  ledger := hmoved.counterpart
  setup := hmoved.setup h.setup
  first := h.first
  second := h.second
  equipped := fun c hc => hmoved.included.contains (h.equipped c hc)

/-- The two have the same result and leave stages beside one another; if they succeed, these are
also in the given relation. -/
def Agrees (o : Offset) (p : Plan) (R : Stage → Stage → Prop) (x y : Staged α) (s t : Stage) :
    Prop :=
  ∃ q s' t', x.outcome s = some (q, s') ∧ y.outcome t = some (q, t') ∧ Beside o p s' t' ∧
    ∀ a, q = .ok a → R s' t'

namespace Agrees

variable {R Q : Stage → Stage → Prop}

lemma error {x y : Staged α} {e : Failure} (hx : x.outcome s = some (.error e, s'))
    (hy : y.outcome t = some (.error e, t')) (h : Beside o p s' t') : Agrees o p R x y s t :=
  ⟨.error e, s', t', hx, hy, h, nofun⟩

lemma bind {x y : Staged α} {k k' : α → Staged β} (h : Agrees o p R x y s t)
    (hk : ∀ a s' t', Beside o p s' t' → R s' t' → Agrees o p Q (k a) (k' a) s' t') :
    Agrees o p Q (x >>= k) (y >>= k') s t := by
  obtain ⟨q, s', t', hx, hy, hbeside, hR⟩ := h
  cases q with
  | error e =>
    exact .error (Staged.outcome_bind_of_error hx) (Staged.outcome_bind_of_error hy) hbeside
  | ok a =>
    obtain ⟨q, s'', t'', hx', hy', h'⟩ := hk a s' t' hbeside (hR a rfl)
    exact ⟨q, s'', t'', (Staged.outcome_bind_of_ok hx).trans hx',
      (Staged.outcome_bind_of_ok hy).trans hy', h'⟩

lemma bind_get {k k' : Stage → Staged β} (h : Agrees o p R (k s) (k' t) s t) :
    Agrees o p R (get >>= k) (get >>= k') s t := h

lemma bind_lift {γ : Type} {S : α → γ → Prop} {q : Except Failure α} {r : Except Failure γ}
    (h : Beside o p s t) (hqr : Agree S q r) {k : α → Staged β} {k' : γ → Staged β}
    (hk : ∀ a b, S a b → Agrees o p R (k a) (k' b) s t) :
    Agrees o p R (liftM q >>= k) (liftM r >>= k') s t := by
  cases hqr with
  | ok hab => exact hk _ _ hab
  | error e => exact .error rfl rfl h

lemma pure (h : Beside o p s t) (hR : R s t) (a : α) : Agrees o p R (pure a) (pure a) s t :=
  ⟨.ok a, s, t, rfl, rfl, h, fun _ _ => hR⟩

lemma note (h : Beside o p s t) {x y : Cache × Disk} (hfiled : Filed x y s t) (level : Level)
    (text : Text) : Agrees o p (Filed x y) (note level text) (note level text) s t := by
  refine ⟨.ok ⟨⟩, _, _, rfl, rfl, ?_, fun _ _ => ⟨hfiled.first, hfiled.second⟩⟩
  exact h.moved ⟨h.ledger.note _ _ _ _, rfl, rfl, .refl _⟩ _ _ _ _

lemma forIn {xs : List α} {body : α → Staged PUnit} (h : Beside o p s t) (hR : R s t)
    (hbody : ∀ a ∈ xs, ∀ s t, Beside o p s t → R s t →
      Agrees o p R (body a) (body a) s t) :
    Agrees o p R
      (forIn xs PUnit.unit fun a _ => do
        body a
        Pure.pure (ForInStep.yield PUnit.unit))
      (forIn xs PUnit.unit fun a _ => do
        body a
        Pure.pure (ForInStep.yield PUnit.unit)) s t := by
  induction xs generalizing s t with
  | nil => exact pure h hR _
  | cons a xs ih =>
    simp only [List.forIn_cons, bind_assoc, pure_bind]
    refine (hbody a List.mem_cons_self s t h hR).bind fun _ s' t' h' hR' => ?_
    exact ih h' hR' fun b hb => hbody b (List.mem_cons_of_mem _ hb)

end Agrees

section Registering

variable {x y : Cache × Disk}

/-- Beside that, each registered contract has code. -/
structure Supplied (x y : Cache × Disk) (s t : Stage) : Prop extends Filed x y s t where
  supplied : ∀ entry ∈ s.ledger.contracts, s.ledger.codes.contains entry.2.address = true

def planned (s : Stage) (c : ContractPlan) : Contract :=
  Contract.create c.address (c.deployer.getD s.plan.admin)
    (c.gasLimit.getD (.amount s.ledger.settings.gasLimit)) none []

lemma outcome_registerOne (c : ContractPlan) (s : Stage) :
    (registerOne c).outcome s =
      match s.ledger.register (s.planned c) with
      | .ok l => some (.ok ⟨⟩, { s with ledger := l, members := s.members ++ [c.address] })
      | .error f => some (.error f, s) := by
  rw [registerOne]
  change (liftM (s.ledger.register (s.planned c)) >>= _ : Staged Unit).outcome s = _
  cases s.ledger.register (s.planned c) <;> rfl

lemma Beside.planned (h : Beside o p s t) (c : ContractPlan) : t.planned c = s.planned c := by
  rw [Stage.planned, Stage.planned, Ledger.settings_of_setup h.setup, h.first, h.second]

lemma agrees_registerOne (h : Beside o p s t) (hs : Supplied x y s t) {c : ContractPlan}
    (hc : c ∈ p.contracts) : Agrees o p (Supplied x y) (registerOne c) (registerOne c) s t := by
  have hsupplied {l : Ledger} (hl : s.ledger.register (s.planned c) = .ok l) :
      ∀ entry ∈ l.contracts, l.codes.contains entry.2.address = true := by
    rw [Ledger.register] at hl
    split at hl
    · cases hl
    · cases hl
      intro entry hmem
      rcases List.mem_append.mp hmem with hmem | hmem
      · exact hs.supplied entry hmem
      · rw [List.mem_singleton.mp hmem]
        exact h.equipped c hc
  have hregister : Agree (Ledger.Moved o s.ledger t.ledger)
      (s.ledger.register (s.planned c)) (t.ledger.register (s.planned c)) :=
    h.ledger.register (Contract.counterpart_create o _ _ _ _ _)
      (Contract.known_create _ _ _ _ _ _)
  have hfirst := outcome_registerOne c s
  have hsecond := outcome_registerOne c t
  rw [h.planned] at hsecond
  revert hregister hsupplied hfirst hsecond
  generalize s.ledger.register (s.planned c) = first
  generalize t.ledger.register (s.planned c) = second
  rintro hsupplied (hmoved | e) hfirst hsecond
  · refine ⟨_, _, _, hfirst, hsecond, h.moved hmoved _ _ _ _, fun _ _ => ?_⟩
    exact ⟨⟨hs.first, hs.second⟩, hsupplied rfl⟩
  · exact .error hfirst hsecond h

lemma agrees_registerContracts (h : Beside o p s t) (hs : Supplied x y s t) :
    Agrees o p (Supplied x y) registerContracts registerContracts s t := by
  have hcleared : Agrees o p (Supplied x y) (modify fun s => { s with members := [] })
      (modify fun s => { s with members := [] }) s t :=
    ⟨.ok ⟨⟩, _, _, rfl, rfl, h.moved h.ledger.stay _ _ _ _,
      fun _ _ => ⟨⟨hs.first, hs.second⟩, hs.supplied⟩⟩
  rw [registerContracts]
  refine hcleared.bind fun _ s' t' h' hs' => ?_
  refine Agrees.bind_get ?_
  rw [h'.first, h'.second]
  refine (Agrees.forIn h' hs' fun c hc u v hb hf => agrees_registerOne hb hf hc).bind ?_
  exact fun _ u v hb hf => .pure hb hf _

lemma agrees_initLedger (h : Beside o p s t) (hs : Supplied x y s t) :
    Agrees o p (Filed x y) initLedger initLedger s t := by
  obtain ⟨l, m, hl, hm, hmoved⟩ := h.ledger.init hs.supplied
  rw [initLedger]
  refine Agrees.bind_get ?_
  rw [hl, hm]
  refine ⟨.ok ⟨⟩, _, _, rfl, rfl, h.moved hmoved _ _ _ _, fun _ _ => ?_⟩
  exact ⟨hs.first, hs.second⟩

end Registering

section Seeding

variable {x y : Cache × Disk}

/-- What the feeds of these contracts give at a height, looked up one after the other. -/
def lookUps (height : Int) :
    List ContractPlan → Cache × Disk → Except Failure (List Storage) × Cache × Disk
  | [], files => (.ok [], files)
  | c :: rest, files =>
    match c.states with
    | none => lookUps height rest files
    | some feed =>
      let found := files.1.get files.2 feed feed.text height
      match found.result with
      | .error f => (.error f, found.cache, found.disk)
      | .ok states =>
        let (maps, files) := lookUps height rest (found.cache, found.disk)
        (maps.map (states :: ·), files)

lemma lookUps_cons {height : Int} {c : ContractPlan} {feed : Path} (hc : c.states = some feed)
    {rest : List ContractPlan} {maps : List Storage}
    (h : lookUps height (c :: rest) x = (.ok maps, y)) :
    ∃ states more, (x.1.get x.2 feed feed.text height).result = .ok states ∧
      lookUps height rest ((x.1.get x.2 feed feed.text height).cache,
        (x.1.get x.2 feed feed.text height).disk) = (.ok more, y) ∧ maps = states :: more := by
  rw [lookUps, hc] at h
  simp only at h
  generalize x.1.get x.2 feed feed.text height = found at h ⊢
  cases hfound : found.result with
  | error f =>
    rw [hfound] at h
    cases h
  | ok states =>
    rw [hfound] at h
    simp only at h
    generalize lookUps height rest (found.cache, found.disk) = looked at h ⊢
    obtain ⟨_ | more, z⟩ := looked
    · cases h
    · cases h
      exact ⟨states, more, rfl, rfl, rfl⟩

lemma agrees_seed_of_none (height : Int) {c : ContractPlan} (hc : c.states = none)
    (h : Beside o p s t) (hf : Filed x y s t) :
    Agrees o p (Filed x y) (seed height c) (seed height c) s t := by
  simp only [seed, hc]
  exact .pure h hf _

lemma agrees_seed (height : Int) {c : ContractPlan} {feed : Path} (hc : c.states = some feed)
    (h : Beside o p s t) {cache cache' : Cache} {d d' : Disk}
    (hf : Filed (cache, d) (cache', d') s t) {found found' : Lookup}
    (hfound : cache.get d feed feed.text height = found)
    (hfound' : cache'.get d' feed feed.text height = found') {states states' : Storage}
    (hstates : found.result = .ok states) (hstates' : found'.result = .ok states')
    (hsimilar : states.Similar states') :
    Agrees o p (Filed (found.cache, found.disk) (found'.cache, found'.disk)) (seed height c)
      (seed height c) s t := by
  simp only [seed, hc]
  refine (Agrees.note h hf _ _).bind fun _ u v huv hfiled => Agrees.bind_get ?_
  obtain ⟨⟨⟩, ⟨⟩⟩ := hfiled
  rw [hfound, hfound']
  have hnoted : Agrees o p (Filed (found.cache, found.disk) (found'.cache, found'.disk))
      (modify fun s => { s with
        cache := found.cache, disk := found.disk
        ledger := { s.ledger with notices := s.ledger.notices ++ found.notices } })
      (modify fun s => { s with
        cache := found'.cache, disk := found'.disk
        ledger := { s.ledger with notices := s.ledger.notices ++ found'.notices } }) u v :=
    ⟨.ok ⟨⟩, _, _, rfl, rfl,
      ⟨huv.ledger.withBooks _ _ _ _ _ _, huv.setup, huv.first, huv.second, huv.equipped⟩,
      fun _ _ => ⟨rfl, rfl⟩⟩
  refine hnoted.bind fun _ u v huv hfiled => ?_
  rw [hstates, hstates']
  refine Agrees.bind_lift huv (.ok hsimilar) fun _ _ hsimilar => Agrees.bind_get ?_
  refine Agrees.bind_lift huv
    (huv.ledger.overrideStates u.overrides v.overrides c.address hsimilar)
    fun first second hseeded => ?_
  refine Agrees.bind_lift huv
    (hseeded.counterpart.overrideDeployment first.1 second.1 c.address)
    fun first second hmarked => ?_
  refine ⟨.ok ⟨⟩, _, _, rfl, rfl, huv.moved (hseeded.trans hmarked) _ _ _ _, fun _ _ => ?_⟩
  exact ⟨hfiled.first, hfiled.second⟩

lemma agrees_seeds (height : Int) {contracts : List ContractPlan} (h : Beside o p s t)
    (hf : Filed x y s t) {x' y' : Cache × Disk} {maps maps' : List Storage}
    (hmaps : lookUps height contracts x = (.ok maps, x'))
    (hmaps' : lookUps height contracts y = (.ok maps', y'))
    (hsimilar : List.Forall₂ Storage.Similar maps maps') :
    Agrees o p (Filed x' y')
      (forIn contracts PUnit.unit fun c _ => do
        seed height c
        pure (ForInStep.yield PUnit.unit))
      (forIn contracts PUnit.unit fun c _ => do
        seed height c
        pure (ForInStep.yield PUnit.unit)) s t := by
  induction contracts generalizing s t x y maps maps' with
  | nil =>
    cases hmaps
    cases hmaps'
    exact .pure h hf _
  | cons c rest ih =>
    simp only [List.forIn_cons, bind_assoc, pure_bind]
    cases hc : c.states with
    | none =>
      rw [lookUps, hc] at hmaps hmaps'
      refine (agrees_seed_of_none height hc h hf).bind fun _ s t h hf => ?_
      exact ih h hf hmaps hmaps' hsimilar
    | some feed =>
      obtain ⟨states, more, hstates, hmore, rfl⟩ := lookUps_cons hc hmaps
      obtain ⟨states', more', hstates', hmore', rfl⟩ := lookUps_cons hc hmaps'
      obtain ⟨hfirst, hrest⟩ := List.forall₂_cons.mp hsimilar
      refine (agrees_seed height hc h hf rfl rfl hstates hstates' hfirst).bind ?_
      exact fun _ s t h hf => ih h hf hmore hmore' hrest

end Seeding

/-- Stages of one plan and one setup, whatever contracts they have; the code of the plan's contracts
is known, and the second stage knows beside the code of the first what the offset says. -/
structure Akin (o : Offset) (p : Plan) (s t : Stage) : Prop where
  codes : ∀ a, t.ledger.codes.find? a = (s.ledger.codes.find? a).or (o.extra a)
  handles : s.ledger.handles + o.second = t.ledger.handles + o.first
  setup : s.ledger.setup = t.ledger.setup
  first : s.plan = p
  second : t.plan = p
  equipped : ∀ c ∈ p.contracts, s.ledger.codes.contains c.address = true

def cleared (s : Stage) : Stage :=
  { s with ledger := (s.overrides.purge s.ledger).dispose.cleanup, overrides := [] }

lemma cleared_spec (s : Stage) :
    s.cleared.ledger.contracts = [] ∧ s.cleared.ledger.codes = s.ledger.codes ∧
      s.cleared.ledger.handles = s.ledger.handles ∧ s.cleared.ledger.setup = s.ledger.setup := by
  obtain ⟨hsurface, hcodes, hhandles⟩ := s.overrides.purge_spec s.ledger
  obtain ⟨hcontracts, hsurface', hcodes', hhandles'⟩ :=
    (s.overrides.purge s.ledger).emptied_spec
  rw [cleared]
  exact ⟨hcontracts, hcodes'.trans hcodes, hhandles'.trans hhandles,
    Ledger.setup_of_surface (hsurface'.trans hsurface)⟩

lemma Akin.cleared (h : Akin o p s t) : Beside o p s.cleared t.cleared := by
  obtain ⟨hcontracts, hcodes, hhandles, hsetup⟩ := s.cleared_spec
  obtain ⟨hcontracts', hcodes', hhandles', hsetup'⟩ := t.cleared_spec
  constructor
  · constructor
    · rw [hcontracts, hcontracts']
      exact .nil
    · rw [hcontracts]
      nofun
    · rw [hcodes, hcodes']
      exact h.codes
    · rw [hhandles, hhandles']
      exact h.handles
  · rw [hsetup, hsetup', h.setup]
  · exact h.first
  · exact h.second
  · rw [hcodes]
    exact h.equipped

lemma agrees_loadStates (h : Akin o p s t) (height : Int) {x y : Cache × Disk}
    {maps maps' : List Storage} (hmaps : lookUps height p.contracts s.files = (.ok maps, x))
    (hmaps' : lookUps height p.contracts t.files = (.ok maps', y))
    (hsimilar : List.Forall₂ Storage.Similar maps maps') :
    Agrees o p (Filed x y) (loadStates height) (loadStates height) s t := by
  have hrest (u : Stage) : (loadStates height).outcome u = Staged.outcome (do
      registerContracts
      initLedger
      for c in (← get).plan.contracts do seed height c) u.cleared := rfl
  have hsupplied : Supplied s.files t.files s.cleared t.cleared := ⟨⟨rfl, rfl⟩, nofun⟩
  rw [Agrees, hrest, hrest]
  refine (agrees_registerContracts h.cleared hsupplied).bind fun _ u v h hs => ?_
  refine (agrees_initLedger h hs).bind fun _ u v h hf => Agrees.bind_get ?_
  rw [h.first, h.second]
  exact (agrees_seeds height h hf hmaps hmaps' hsimilar).bind fun _ _ _ h hf => .pure h hf _

def loadBlock (height : Int) (ignoreUnknown allowReverts : Bool) : Staged (Block × Ledger) := do
  note .info ("replaying block " ++ .ofInt height)
  let s ← get
  liftM (Block.load s.ledger s.disk s.ledger.settings.blockDir height ignoreUnknown allowReverts)

lemma outcome_loadBlock (height : Int) (ignoreUnknown allowReverts : Bool) (s : Stage) :
    (loadBlock height ignoreUnknown allowReverts).outcome s =
      some (Block.load (s.ledger.note .info ("replaying block " ++ .ofInt height)) s.disk
          s.ledger.settings.blockDir height ignoreUnknown allowReverts,
        { s with ledger := s.ledger.note .info ("replaying block " ++ .ofInt height) }) := by
  rw [loadBlock]
  exact Staged.outcome_liftM _ _

lemma replayBlock_eq (fuel : Nat) (height : Int) (ignoreUnknown allowReverts : Bool) :
    replayBlock fuel height ignoreUnknown allowReverts = (do
      let (b, l) ← loadBlock height ignoreUnknown allowReverts
      ExceptT.mk fun s =>
        (b.replay fuel l).map fun (result, _, l) => (result, { s with ledger := l })) := by
  simp only [replayBlock, loadBlock, bind_assoc]

lemma agree_load {l m : Ledger} (h : l.Counterpart o m) {d d' : Disk} {directory : Path}
    {height : Int}
    (hblock : Block.loadTransactions d directory height =
      Block.loadTransactions d' directory height) (ignoreUnknown allowReverts : Bool) :
    Agree (fun b c => b.1 = c.1 ∧ Ledger.Moved o l m b.2 c.2)
      (Block.load l d directory height ignoreUnknown allowReverts)
      (Block.load m d' directory height ignoreUnknown allowReverts) := by
  rw [Block.load, Block.load, ← hblock]
  split
  · exact .ok ⟨rfl, h.stay⟩
  · exact .ok ⟨rfl, h.note _ _ _ _, rfl, rfl, .refl _⟩
  · exact .error _

/-- Replays a block on storage as of the height before it. -/
def reseededReplay (fuel : Nat) (height : Int) (ignoreUnknown allowReverts : Bool) :
    Staged ReplayResult := do
  loadStates (height - 1)
  replayBlock fuel height ignoreUnknown allowReverts

/-- The calls from outside that this makes. -/
def reseededCalls (fuel : Nat) (height : Int) (ignoreUnknown allowReverts : Bool) (s : Stage) :
    List (Ledger × Transaction) :=
  match Staged.outcome (do
      loadStates (height - 1)
      loadBlock height ignoreUnknown allowReverts) s with
  | some (.ok (b, l), _) => b.outerCalls fuel l
  | _ => []

lemma reseededReplay_counterpart {others : List (Table Address Bytes)} (hothers : o.Within others)
    (h : Akin o p s t) {fuel : Nat} {height : Int} {ignoreUnknown allowReverts : Bool}
    {x y : Cache × Disk} {maps maps' : List Storage}
    (hmaps : lookUps (height - 1) p.contracts s.files = (.ok maps, x))
    (hmaps' : lookUps (height - 1) p.contracts t.files = (.ok maps', y))
    (hsimilar : List.Forall₂ Storage.Similar maps maps')
    (hblock : Block.loadTransactions x.2 s.ledger.settings.blockDir height =
      Block.loadTransactions y.2 s.ledger.settings.blockDir height)
    (hdiscreet : ∀ call ∈ reseededCalls fuel height ignoreUnknown allowReverts s,
      Block.Discreet others fuel call.1 call.2) :
    ∃ q s' t', (reseededReplay fuel height ignoreUnknown allowReverts).outcome s = some (q, s') ∧
      (reseededReplay fuel height ignoreUnknown allowReverts).outcome t = some (q, t') ∧
      s'.ledger.Counterpart o t'.ledger := by
  obtain ⟨q, u, v, hu, hv, huv, hfiled⟩ := agrees_loadStates h (height - 1) hmaps hmaps' hsimilar
  cases q with
  | error e =>
    exact ⟨.error e, u, v, Staged.outcome_bind_of_error hu, Staged.outcome_bind_of_error hv,
      huv.ledger⟩
  | ok _ =>
    obtain ⟨rfl, rfl⟩ := hfiled _ rfl
    have hsettings : u.ledger.settings = s.ledger.settings :=
      Ledger.settings_of_setup (leads_loadStates _ _ _ hu).ledger.setup
    have hsettings' : v.ledger.settings = u.ledger.settings :=
      (Ledger.settings_of_setup huv.setup).symm
    have hnoted := huv.ledger.note .info .info ("replaying block " ++ .ofInt height)
      ("replaying block " ++ .ofInt height)
    have hblock : Block.loadTransactions u.disk s.ledger.settings.blockDir height =
        Block.loadTransactions v.disk s.ledger.settings.blockDir height := hblock
    have hloaded := agree_load hnoted hblock ignoreUnknown allowReverts
    rw [reseededCalls, Staged.outcome_bind_of_ok hu, outcome_loadBlock, hsettings] at hdiscreet
    rw [reseededReplay, Staged.outcome_bind_of_ok hu, Staged.outcome_bind_of_ok hv, replayBlock_eq,
      Staged.outcome_bind, Staged.outcome_bind, outcome_loadBlock, outcome_loadBlock, hsettings',
      hsettings]
    -- Both blocks are loaded alike, so the two loads are opened together.
    revert hloaded hdiscreet
    generalize Block.load (u.ledger.note _ _) _ _ _ _ _ = first
    generalize Block.load (v.ledger.note _ _) _ _ _ _ _ = second
    rintro hdiscreet (⟨hb, hmoved⟩ | e)
    case error => exact ⟨.error e, _, _, rfl, rfl, hnoted⟩
    case ok first second =>
      obtain ⟨b, l⟩ := first
      obtain ⟨_, m⟩ := second
      obtain rfl : b = _ := hb
      obtain ⟨q, b', l', m', hl, hm, hlm⟩ := Block.replay_counterpart hothers hmoved.counterpart
        (hmoved.setup huv.setup) b hdiscreet
      exact ⟨q, _, _, congrArg (Option.map _) hl, congrArg (Option.map _) hm, hlm⟩

end Stage

end ChainReplay
