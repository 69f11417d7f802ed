import ChainReplay.Proofs.Custody.Ledger
import ChainReplay.Proofs.Custody.Demand

/-! What each operation preserves: the account of handles is balanced, and a runtime has a handle only
from an execution that has succeeded. -/

namespace ChainReplay

lemma numbers_of_getElem? {rs : List Runtime} {i : Nat} {r : Runtime} (h : rs[i]? = some r) (n : Nat) :
    (numbers (rs.map Runtime.contract)).count n = r.contract.number?.toList.count n +
        (numbers ((rs.eraseIdx i).map Runtime.contract)).count n ∧
      ∀ s, (numbers ((rs.set i s).map Runtime.contract)).count n = s.contract.number?.toList.count n +
        (numbers ((rs.eraseIdx i).map Runtime.contract)).count n := by
  induction rs generalizing i with
  | nil => cases h
  | cons first rs ih =>
    cases i with
    | zero =>
      cases h
      simp [List.count_append]
    | succ i =>
      obtain ⟨hcount, hset⟩ := ih h
      simp only [List.eraseIdx_cons_succ, List.set_cons_succ, List.map_cons, numbers_cons,
        List.count_append]
      exact ⟨by omega, fun s => by have := hset s; omega⟩

/-- Registered contracts have their handles from executions that have succeeded. -/
def Ledger.Earned (l : Ledger) (verdicts : Address → Option Bool) : Prop :=
  ∀ a, Runtime.Earned ⟨Seat.contract l (.registered a), verdicts a⟩

variable {l m : Ledger} {verdicts : Address → Option Bool}

lemma Ledger.Rests.earned (h : l.Rests m) (hl : l.Earned verdicts) : m.Earned verdicts :=
  fun a => (hl a).imp rfl (h.numbers a)

namespace Frame.Custody

variable {a : Address} {deployments : List Deployment} {g : Frame}
  (h : Custody ⟨l, .registered a, deployments⟩ g)

include h

lemma accounts : l.Accounts g.ledger where
  turnover := by
    have hturnover := h.turnover
    rw [held, held, Seat.eq_registered h.seat, Seat.held, List.append_nil, List.append_nil]
      at hturnover
    exact hturnover
  keys := fun hkeys => h.keys.symm ▸ hkeys
  retired := fun _ hc => .inl (h.retired ▸ hc)

lemma earned (hl : l.Earned verdicts) {verdict : Option Bool}
    (hg : Runtime.Earned ⟨g.contract, verdict⟩) :
    g.ledger.Earned (Function.update verdicts a verdict) := by
  intro b
  by_cases hb : b = a
  · subst hb
    rw [Function.update_self, ← Seat.eq_registered h.seat]
    exact hg
  · rw [Function.update_of_ne hb]
    exact (hl b).imp rfl (h.others b fun heq => hb (Option.some.inj heq).symm)

end Frame.Custody

/-- What holds of the contracts behind a turn follows from what has become of its execution. -/
lemma Block.Turn.Presents.custody {fuel : Nat} {t : Block.Turn} {response : CallResponse} {seat : Seat}
    (h : t.Presents l) (hrun : t.outcome fuel = some (.ok response, m, seat))
    (hkeys : l.contracts.keys.Nodup) (hl : l.Earned verdicts) :
    l.Accounts (withdrawnFrom l m) ∧
      (withdrawnFrom l m).Earned (World.turned fuel verdicts t) := by
  obtain ⟨inputs, outputs, -, -, hshown⟩ := h.shown
  have hturned : World.turned fuel verdicts t = Function.update verdicts t.transaction.target
      (some response.result.isOk) := by
    rw [World.turned, hrun]
  have hrests : l.Rests t.shown := by
    rw [hshown]
    exact .of_contracts rfl rfl rfl rfl rfl
  have hwithdrawn : m.Rests (withdrawnFrom l m) := .of_contracts rfl rfl rfl rfl rfl
  have hplaced : Frame.Placed ⟨t.shown, .registered t.transaction.target, []⟩ := by
    apply Frame.Placed.registered (hrests.keys hkeys)
    rw [hshown]
    exact h.known
  obtain ⟨g, rfl, hexecute⟩ := Run.execute_of_perform hrun
  have hjudged : (Demand.run fuel (.execute t.transaction.calldata (some t.transaction.sender)
      (some t.transaction.sender))).outcome ⟨t.shown, .registered t.transaction.target, []⟩ =
        some (.ok (some response.result.isOk), g) := by
    rw [Demand.run, Demand.judging, Run.outcome_bind, hexecute]
    rfl
  have hearned := hrests.earned hl
  obtain ⟨hcustody, hown⟩ := Demand.custody hplaced (hearned _) hjudged
  rw [hturned]
  exact ⟨hrests.toAccounts.trans (hcustody.accounts.trans hwithdrawn.toAccounts),
    hwithdrawn.earned (hcustody.earned hearned hown)⟩

lemma Block.Course.custody {fuel : Nat} {ts : List Block.Turn}
    (h : Block.Course Ledger.Rests fuel l ts m) (hkeys : l.contracts.keys.Nodup)
    (hl : l.Earned verdicts) :
    l.Accounts m ∧ m.Earned (ts.foldl (World.turned fuel) verdicts) := by
  induction h generalizing verdicts with
  | ended l => exact ⟨(refl l : l.Rests l).toAccounts, hl⟩
  | idle h _ ih =>
    obtain ⟨haccounts, hearned⟩ := ih (h.keys hkeys) (h.earned hl)
    exact ⟨h.toAccounts.trans haccounts, hearned⟩
  | turn hpresents hrun _ ih =>
    obtain ⟨hturn, hbehind⟩ := hpresents.custody hrun hkeys hl
    obtain ⟨hrest, hearned⟩ := ih (hturn.keys hkeys) hbehind
    exact ⟨hturn.trans hrest, hearned⟩

lemma Block.custody_of_replay {fuel : Nat} {b b' : Block} {q : Except Failure ReplayResult}
    (h : b.replay fuel l = some (q, b', m)) (hkeys : l.contracts.keys.Nodup)
    (hl : l.Earned verdicts) :
    l.Accounts m ∧ m.Earned ((b.turns fuel l).foldl (World.turned fuel) verdicts) := by
  obtain ⟨k, hk, hcourse, -⟩ := course_replay Ledger.Rests.enlists h
  rcases hcourse with ⟨hnone, hend⟩ | hcourse
  · have hrests : l.Rests m := trans_of Ledger.Rests hk hend
    rw [hnone]
    exact ⟨hrests.toAccounts, hrests.earned hl⟩
  · have hraised : k.Rests { k with blockNumber := b.height } := .of_contracts rfl rfl rfl rfl rfl
    have hrests : l.Rests { k with blockNumber := b.height } := trans_of Ledger.Rests hk hraised
    obtain ⟨haccounts, hearned⟩ := hcourse.custody (hrests.keys hkeys) (hrests.earned hl)
    exact ⟨hrests.toAccounts.trans haccounts, hearned⟩

namespace World

variable {w v : World}

def held (w : World) : List Nat := w.ledger.held ++ numbers (w.loose.map Runtime.contract)

/-- Each handle that was given out has either been given back, once, or is held, once. -/
structure Balanced (w : World) : Prop where
  nodup : w.granted.Nodup
  bound : ∀ n ∈ w.granted, n ≤ w.ledger.handles
  balance : ∀ n, (releases w.ledger.journal).count n + w.held.count n = w.granted.count n

namespace Balanced

lemma follow (hw : w.Balanced) (h : w.ledger.Turnover v.ledger w.held v.held)
    (hgranted : v.granted = (w.follow v.ledger).granted) : v.Balanced := by
  obtain ⟨entries, hentries, hbalance, hnodup, hrange⟩ := h.entries
  rw [World.follow, hentries, List.drop_left] at hgranted
  refine ⟨?_, fun i hi => ?_, fun i => ?_⟩
  · rw [hgranted]
    refine List.nodup_append.mpr ⟨hw.nodup, hnodup, fun i hi j hj => ?_⟩
    have := hw.bound i hi
    have := hrange j hj
    omega
  · have := h.handles
    rw [hgranted, List.mem_append] at hi
    rcases hi with hi | hi
    · have := hw.bound i hi
      omega
    · exact (hrange i hi).2
  · have := hw.balance i
    have := hbalance i
    rw [hgranted, hentries, releases_append, List.count_append, List.count_append]
    omega

lemma congr (hw : w.Balanced) (hjournal : v.ledger.journal = w.ledger.journal)
    (hhandles : v.ledger.handles = w.ledger.handles) (hgranted : v.granted = w.granted)
    (hheld : w.held.Perm v.held) : v.Balanced where
  nodup := hgranted ▸ hw.nodup
  bound := by
    rw [hgranted, hhandles]
    exact hw.bound
  balance := fun i => by
    rw [hjournal, hgranted, ← hheld.count_eq]
    exact hw.balance i

end Balanced

/-- The account is balanced, and runtimes have their handles from successes. -/
structure Sound (w : World) : Prop extends Balanced w where
  keys : w.ledger.contracts.keys.Nodup
  registered : w.ledger.Earned w.verdicts
  retired : ∀ c ∈ w.ledger.retired, c.number? = none
  loose : ∀ r ∈ w.loose, r.Earned

lemma sound_start (settings : Settings) (engine : Option Engine) : (start settings engine).Sound where
  nodup := List.nodup_nil
  bound := fun _ h => absurd h List.not_mem_nil
  balance := fun _ => rfl
  keys := List.nodup_nil
  registered := fun _ => .inl rfl
  retired := fun _ h => absurd h List.not_mem_nil
  loose := fun _ h => absurd h List.not_mem_nil

namespace Sound

lemma forget (hw : w.Sound) (h : ∀ a, w.ledger.number a = none) : w.forget.Sound :=
  { hw with
    toBalanced := hw.toBalanced.congr rfl rfl rfl (.refl _)
    registered := fun a => .inl (h a) }

lemma follow (hw : w.Sound) (haccounts : w.ledger.Accounts m) (hearned : m.Earned verdicts) :
    ({ w.follow m with verdicts } : World).Sound where
  toBalanced := hw.toBalanced.follow (haccounts.turnover.frame _) rfl
  keys := haccounts.keys hw.keys
  registered := hearned
  retired := fun c hc => (haccounts.retired c hc).elim (hw.retired c) id
  loose := hw.loose

lemma rest (hw : w.Sound) (h : w.ledger.Rests m) : (w.follow m).Sound :=
  hw.follow h.toAccounts (h.earned hw.registered)

lemma create (hw : w.Sound) {c : Contract} (hc : c.number? = none) :
    ({ w with loose := w.loose ++ [⟨c, none⟩] } : World).Sound :=
  { hw with
    toBalanced := by
      refine hw.toBalanced.congr rfl rfl rfl ?_
      simp [held, hc, numbers]
    loose := by
      intro r hr
      rcases List.mem_append.mp hr with hr | hr
      · exact hw.loose r hr
      · rw [List.mem_singleton.mp hr]
        exact .inl hc }

lemma register (hw : w.Sound) (index : Nat) : (w.register index).Sound := by
  rw [World.register]
  split
  · exact hw
  next r hr =>
  split
  · exact hw
  next l hregister =>
  have htakes := Ledger.takes_of_register hregister
  have hgranted : (w.follow l).granted = w.granted := by simp [World.follow, htakes.journal, grants]
  refine ⟨hw.toBalanced.congr htakes.journal htakes.handles hgranted ?_, htakes.keys hw.keys,
    fun a => ?_, ?_, ?_⟩
  · apply List.perm_iff_count.mpr
    intro n
    have hl := htakes.held.count_eq n
    have hloose := (numbers_of_getElem? hr n).1
    simp only [held, judge, World.follow, List.count_append] at hl ⊢
    omega
  · simp only [judge, World.follow, htakes.contract]
    by_cases ha : a = r.contract.address
    · subst ha
      rw [if_pos rfl, Function.update_self]
      exact hw.loose r (List.mem_of_getElem? hr)
    · rw [if_neg ha, Function.update_of_ne ha]
      exact hw.registered a
  · simp only [judge, World.follow, htakes.retired]
    exact hw.retired
  · exact fun s hs => hw.loose s (List.mem_of_mem_eraseIdx hs)

lemma put_loose (hw : w.Sound) {i : Nat} {r : Runtime} (hr : w.loose[i]? = some r) {g : Frame}
    (hcustody : Frame.Custody ⟨w.ledger, .apart r.contract, []⟩ g) {verdict : Option Bool}
    (hown : Runtime.Earned ⟨g.contract, verdict⟩) :
    ((w.follow g.ledger).put g.seat verdict (.loose i)).Sound := by
  have hothers (b : Address) := hcustody.others b (by simp [Seat.address?])
  refine ⟨hw.toBalanced.follow (v := (w.follow g.ledger).put g.seat verdict (.loose i)) ?_ rfl,
    hcustody.keys.symm ▸ hw.keys, fun b => (hw.registered b).imp rfl (hothers b),
    fun c hc => hw.retired c (hcustody.retired ▸ hc), fun s hs => ?_⟩
  · have hseat : g.seat.held = g.contract.number?.toList := by
      obtain ⟨k, seat, deployments⟩ := g
      cases seat with
      | registered a => cases hcustody.seat
      | apart c => rfl
    have hframed := hcustody.turnover.frame (numbers ((w.loose.eraseIdx i).map Runtime.contract))
    apply hframed.perm
    · apply List.perm_iff_count.mpr
      intro n
      have hloose := (numbers_of_getElem? hr n).1
      simp only [held, Frame.held, Seat.held, List.count_append]
      omega
    · apply List.perm_iff_count.mpr
      intro n
      have hloose := (numbers_of_getElem? hr n).2 ⟨g.contract, verdict⟩
      simp only [held, Frame.held, hseat, put, World.follow, List.count_append]
      simp only [Frame.contract] at hloose ⊢
      omega
  · rcases List.mem_or_eq_of_mem_set hs with hs | rfl
    · exact hw.loose s hs
    · exact hown

lemma placed (hw : w.Sound) {place : Place} {seat : Seat} (hseat : w.seat? place = some seat) :
    Frame.Placed ⟨w.ledger, seat, []⟩ ∧
      Runtime.Earned ⟨Frame.contract ⟨w.ledger, seat, []⟩, w.verdict place⟩ := by
  cases place with
  | registered a =>
    rw [seat?, Option.ite_none_right_eq_some] at hseat
    obtain ⟨hknown, heq⟩ := hseat
    cases heq
    exact ⟨.registered hw.keys hknown, hw.registered a⟩
  | loose i =>
    obtain ⟨r, hr, rfl⟩ := Option.map_eq_some_iff.mp hseat
    have hverdict : w.verdict (.loose i) = r.verdict := by
      rw [verdict, hr]
      rfl
    exact ⟨⟨hw.keys, fun a ha => by cases ha⟩, hverdict ▸ hw.loose r (List.mem_of_getElem? hr)⟩

lemma put (hw : w.Sound) {place : Place} {seat : Seat} (hseat : w.seat? place = some seat)
    {g : Frame} (hcustody : Frame.Custody ⟨w.ledger, seat, []⟩ g) {verdict : Option Bool}
    (hown : Runtime.Earned ⟨g.contract, verdict⟩) :
    ((w.follow g.ledger).put g.seat verdict place).Sound := by
  cases place with
  | registered a =>
    rw [seat?, Option.ite_none_right_eq_some] at hseat
    obtain ⟨-, heq⟩ := hseat
    cases heq
    exact hw.follow hcustody.accounts (hcustody.earned hw.registered hown)
  | loose i =>
    obtain ⟨r, hr, rfl⟩ := Option.map_eq_some_iff.mp hseat
    exact hw.put_loose hr hcustody hown

/-- A run keeps the world sound if it keeps the account, and earns what it leaves to its contract. -/
lemma enact (hw : w.Sound) {place : Place} {x : Run (Option Bool)}
    (hx : ∀ {f g : Frame} {q : Except Failure (Option Bool)} {before : Option Bool}, f.Placed →
      Runtime.Earned ⟨f.contract, before⟩ → x.outcome f = some (q, g) →
      f.Custody g ∧ Runtime.Earned ⟨g.contract, verdictOf before q⟩)
    (h : w.enact place x = some v) : v.Sound := by
  rcases enact_cases h with ⟨-, rfl⟩ | ⟨seat, q, g, hseat, hrun, rfl⟩
  · exact hw
  · obtain ⟨hplaced, hbefore⟩ := hw.placed hseat
    obtain ⟨hcustody, hown⟩ := hx hplaced hbefore hrun
    exact hw.put hseat hcustody hown

lemma perform (hw : w.Sound) {fuel : Nat} {place : Place} {demand : Demand}
    (h : w.perform fuel place demand = some v) : v.Sound := by
  rw [perform_eq_enact] at h
  exact hw.enact Demand.custody h

lemma earned (hw : w.Sound) {r : Runtime} (hr : r ∈ w.runtimes) : r.Earned := by
  rw [runtimes, List.mem_append, List.mem_append] at hr
  rcases hr with (hr | hr) | hr
  · obtain ⟨⟨a, c⟩, hmem, rfl⟩ := List.mem_map.mp hr
    have hfind := (Table.find?_eq_some_iff hw.keys).mpr hmem
    have hregistered := hw.registered a
    rwa [Seat.contract, hfind] at hregistered
  · obtain ⟨c, hmem, rfl⟩ := List.mem_map.mp hr
    exact .inl (hw.retired c hmem)
  · exact hw.loose r hr

lemma clear (hw : w.Sound) : ({ w.forget with
    ledger := { w.ledger with contracts := [] }, loose := w.registered ++ w.loose } : World).Sound where
  toBalanced := by
    refine hw.toBalanced.congr rfl rfl rfl ?_
    apply List.perm_iff_count.mpr
    intro n
    simp [held, Ledger.held, World.registered, Table.values, Function.comp_def, numbers]
    omega
  keys := List.nodup_nil
  registered := fun _ => .inl rfl
  retired := hw.retired
  loose := by
    intro r hr
    rcases List.mem_append.mp hr with hr | hr
    · exact hw.earned (List.mem_append_left _ (List.mem_append_left _ hr))
    · exact hw.loose r hr

lemma recover (hw : w.Sound) : ({ w with
    ledger := { w.ledger with retired := [] }, loose := w.retired ++ w.loose } : World).Sound where
  toBalanced := by
    refine hw.toBalanced.congr rfl rfl rfl ?_
    apply List.perm_iff_count.mpr
    intro n
    simp [held, Ledger.held, World.retired, Function.comp_def, numbers]
  keys := hw.keys
  registered := hw.registered
  retired := fun _ h => absurd h List.not_mem_nil
  loose := by
    intro r hr
    rcases List.mem_append.mp hr with hr | hr
    · exact hw.earned (List.mem_append_left _ (List.mem_append_right _ hr))
    · exact hw.loose r hr

lemma adjust (hw : w.Sound) (hcontracts : m.contracts = w.ledger.contracts)
    (hretired : m.retired = w.ledger.retired) (hhandles : m.handles = w.ledger.handles)
    (hjournal : m.journal = w.ledger.journal) : ({ w with ledger := m } : World).Sound where
  toBalanced := by
    refine hw.toBalanced.congr hjournal hhandles rfl ?_
    simp only [held, Ledger.held, hcontracts, hretired]
    exact .refl _
  keys := hcontracts ▸ hw.keys
  registered := by
    intro a
    simp only [Seat.contract, hcontracts]
    exact hw.registered a
  retired := hretired ▸ hw.retired
  loose := hw.loose

lemma prepare (hw : w.Sound) {stage stage' : Stage} {preparation : Preparation}
    {q : Except Failure Unit}
    (h : (ExceptT.run preparation.run).run { stage with ledger := w.ledger } = some (q, stage')) :
    (if preparation.forsakes then (w.follow stage'.ledger).forget
      else w.follow stage'.ledger).Sound := by
  have hpurge (o : Overrides) : w.ledger.Rests (o.purge w.ledger).dispose.cleanup :=
    trans_of Ledger.Rests (Ledger.Rests.stages.purge o _) (Ledger.Rests.stages.clean _)
  cases preparation with
  | setUp => exact hw.rest (Ledger.Rests.stages.works.leads_setUp q stage' h).ledger
  | loadStates height =>
    have hrest := (Ledger.Rests.stages.works.leads_reload height q stage' h).ledger
    apply (hw.rest (trans_of Ledger.Rests (hpurge _) hrest)).forget
    intro a
    exact (hrest.numbers a).elim id id
  | cleanUp =>
    cases h
    exact (hw.rest (hpurge _)).forget fun _ => rfl

lemma step (hw : w.Sound) {fuel : Nat} {operation : Operation} (h : w.step fuel operation = some v) :
    v.Sound := by
  cases operation with
  | create address deployer gasLimit ownCode constructorCalldata =>
    cases h
    exact hw.create rfl
  | register index =>
    cases h
    exact hw.register index
  | perform place demand => exact hw.perform h
  | registerDeployments place =>
    simp only [World.step] at h
    split at h
    · cases h
      exact hw
    · cases h
      exact hw.rest (Ledger.Rests.enlists.registerChildren _ _ _)
  | registerTouched addresses =>
    cases h
    exact hw.rest (Ledger.Rests.enlists.registerTouched _ _)
  | init =>
    cases h
    exact hw.rest (.init _)
  | dispose =>
    cases h
    exact hw.rest (.dispose _)
  | cleanup =>
    cases h
    exact (hw.rest (.cleanup _)).forget fun _ => rfl
  | clear =>
    cases h
    exact hw.clear
  | backup =>
    cases h
    exact hw.rest (.modifyAll _ fun _ => rfl)
  | restore =>
    cases h
    exact hw.rest (.modifyAll _ fun _ => rfl)
  | recover =>
    cases h
    exact hw.recover
  | adjust g hg =>
    cases h
    obtain ⟨hcontracts, hretired, hhandles, hjournal⟩ := hg w.ledger
    exact hw.adjust hcontracts hretired hhandles hjournal
  | prepare stage preparation =>
    obtain ⟨⟨q, stage'⟩, hrun, rfl⟩ := Option.map_eq_some_iff.mp h
    exact hw.prepare hrun
  | replay b =>
    obtain ⟨⟨q, b', l⟩, hrun, rfl⟩ := Option.map_eq_some_iff.mp h
    obtain ⟨haccounts, hearned⟩ := Block.custody_of_replay hrun hw.keys hw.registered
    exact hw.follow haccounts hearned

end Sound

end World

end ChainReplay
