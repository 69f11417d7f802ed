import ChainReplay.Proofs.Custody.Sound
import ChainReplay.Proofs.Execution.Coherence

/-! No handle is lost and none is given back twice, whatever is asked of a ledger and its runtimes. -/

namespace ChainReplay.World

variable {w v : World}

lemma Sound.run (hw : w.Sound) {fuel : Nat} {operations : List Operation}
    (h : w.run fuel operations = some v) : v.Sound := by
  induction operations generalizing w with
  | nil =>
    cases h
    exact hw
  | cons operation rest ih =>
    obtain ⟨u, hstep, h⟩ := Option.bind_eq_some_iff.mp h
    exact ih (hw.step hstep) h

lemma numbers_runtimes (w : World) : numbers (w.runtimes.map Runtime.contract) = w.held := by
  simp [runtimes, registered, retired, held, Ledger.held, Table.values, Function.comp_def]

lemma length_holders (w : World) (n : Nat) : (w.holders n).length = w.held.count n := by
  rw [← numbers_runtimes, holders]
  induction w.runtimes with
  | nil => rfl
  | cons r rs ih =>
    rw [List.filter_cons, List.map_cons, numbers_cons, List.count_append, ← ih]
    cases hr : r.contract.number? with
    | none => simp
    | some k => by_cases hk : k = n <;> simp [hk, Nat.add_comm]

lemma Sound.custody (hw : w.Sound) {n : Nat} (hn : n ∈ w.granted) :
    (releases w.ledger.journal).count n = 1 ∧ w.holders n = [] ∨
      (releases w.ledger.journal).count n = 0 ∧
        ∃ r, w.holders n = [r] ∧ r.verdict = some true := by
  have honce : w.granted.count n = 1 :=
    Nat.le_antisymm (List.nodup_iff_count.mp hw.nodup n) (List.count_pos_iff.mpr hn)
  have hbalance := hw.balance n
  rw [← length_holders, honce] at hbalance
  rcases hholders : w.holders n with _ | ⟨r, rs⟩
  · rw [hholders] at hbalance
    exact .inl ⟨hbalance, rfl⟩
  · rw [hholders, List.length_cons] at hbalance
    have hrs : rs = [] := List.eq_nil_of_length_eq_zero (by omega)
    subst hrs
    refine .inr ⟨by simpa using hbalance, r, rfl, ?_⟩
    have hr : r ∈ w.holders n := hholders ▸ List.mem_singleton_self r
    obtain ⟨hmem, hnumber⟩ := List.mem_filter.mp hr
    rcases hw.earned hmem with hnone | hsuccess
    · rw [of_decide_eq_true hnumber] at hnone
      cases hnone
    · exact hsuccess

/-- Whatever has been asked of a ledger and its runtimes: no handle is given out twice, none is given
back that was not given out, and each has been given back once, unless it is held by one runtime, whose
last execution has succeeded, and by no other. -/
theorem custody_of_run {settings : Settings} {engine : Option Engine} {fuel : Nat}
    {operations : List Operation} {w : World}
    (h : (start settings engine).run fuel operations = some w) :
    w.granted.Nodup ∧ (∀ n ∈ releases w.ledger.journal, n ∈ w.granted) ∧ ∀ n ∈ w.granted,
      (releases w.ledger.journal).count n = 1 ∧ w.holders n = [] ∨
        (releases w.ledger.journal).count n = 0 ∧
          ∃ r, w.holders n = [r] ∧ r.verdict = some true := by
  have hw := (sound_start settings engine).run h
  refine ⟨hw.nodup, fun n hn => ?_, fun n hn => hw.custody hn⟩
  have hbalance := hw.balance n
  have hreleased := List.count_pos_iff.mpr hn
  exact List.count_pos_iff.mp (by omega)

section Visiting

open Run (entrance chamber reentering)

/-- Both contracts are made known, and the entrance is called, which calls the chamber. -/
def visiting : List Operation :=
  [.create entrance entrance (.amount 0) (some []) [], .perform (.loose 0) .init, .register 0,
    .create chamber chamber (.amount 0) (some []) [], .perform (.loose 0) .init, .register 0,
    .perform (.registered entrance) (.execute [] none none)]

/-- The constructor of the entrance, the constructor of the chamber and the nested call have given their
handles back, and the entrance still has the one of its call. -/
theorem custody_of_run_visiting :
    ∃ w, (start Settings.default (some (reentering (.done []) (.done [])))).run 2 visiting = some w ∧
      w.granted = [1, 2, 3, 4] ∧ releases w.ledger.journal = [1, 3, 4] ∧
      ∃ r, w.holders 2 = [r] ∧ r.verdict = some true := by
  have hends : ((start Settings.default (some (reentering (.done []) (.done [])))).run 2 visiting).map
      (fun w => (w.granted, releases w.ledger.journal)) = some ([1, 2, 3, 4], [1, 3, 4]) := by
    decide +kernel
  obtain ⟨w, hrun, haccount⟩ := Option.map_eq_some_iff.mp hends
  obtain ⟨hgranted, hreleases⟩ := Prod.mk.inj haccount
  refine ⟨w, hrun, hgranted, hreleases, ?_⟩
  have hcustody := (custody_of_run hrun).2.2 2 (by simp [hgranted])
  rw [hreleases] at hcustody
  exact (hcustody.resolve_left fun h => absurd h.1 (by decide)).2

end Visiting

/-- Work on a stage that does no more than these operations do. -/
def Operates (fuel : Nat) (s t : Stage) : Prop := ∀ w : World, w.ledger = s.ledger →
  ∃ operations v, w.run fuel operations = some v ∧ v.ledger = t.ledger

lemma run_append (fuel : Nat) (w : World) (xs ys : List Operation) :
    w.run fuel (xs ++ ys) = (w.run fuel xs).bind fun w => w.run fuel ys := by
  induction xs generalizing w with
  | nil => rfl
  | cons x xs ih =>
    rw [List.cons_append, run, run, Option.bind_assoc]
    congr 1
    funext w
    exact ih w

instance (fuel : Nat) : IsPreorder Stage (Operates fuel) where
  refl := fun _ w h => ⟨[], w, rfl, h⟩
  trans := by
    intro s t u h h' w hw
    obtain ⟨xs, v, hv, hledger⟩ := h w hw
    obtain ⟨ys, x, hx, hledger'⟩ := h' v hledger
    refine ⟨xs ++ ys, x, ?_, hledger'⟩
    rw [run_append, hv, Option.bind_some, hx]

section Operates

variable {fuel : Nat} {s : Stage}

lemma operates_of_step {t : Stage} (operation : Operation)
    (h : ∀ w : World, w.ledger = s.ledger → ∃ v, w.step fuel operation = some v ∧ v.ledger = t.ledger) :
    Operates fuel s t := by
  intro w hw
  obtain ⟨v, hv, hledger⟩ := h w hw
  exact ⟨[operation], v, by rw [run, hv]; rfl, hledger⟩

lemma operates_note (level : Level) (text : Text) :
    Leads (Operates fuel) s (Stage.note level text) := by
  refine .modify (operates_of_step (.adjust (·.note level text) fun l => ⟨rfl, rfl, rfl, rfl⟩) ?_)
  intro w hw
  exact ⟨_, rfl, congrArg (·.note level text) hw⟩

lemma operates_preparation (preparation : Preparation) :
    Leads (Operates fuel) s preparation.run := by
  intro q t hrun
  apply operates_of_step (.prepare s preparation)
  intro w hw
  rw [step, hw, hrun]
  refine ⟨_, rfl, ?_⟩
  split <;> rfl

lemma operates_replayBlock (height : Int) (ignoreUnknown allowReverts : Bool) :
    Leads (Operates fuel) s (Stage.replayBlock fuel height ignoreUnknown allowReverts) := by
  rw [Stage.replayBlock]
  refine (operates_note _ _).bind fun _ t => .bind_get (.bind_lift fun loaded hloaded => ?_)
  obtain ⟨b, l⟩ := loaded
  intro q u hrun
  obtain ⟨⟨result, b', m⟩, hreplay, heq⟩ := Option.map_eq_some_iff.mp hrun
  cases heq
  have hnoted : Operates fuel t { t with ledger := l } := by
    rw [Block.load] at hloaded
    split at hloaded
    · cases hloaded
      exact refl _
    · cases hloaded
      exact operates_note _ _ _ _ rfl
    · cases hloaded
  have hreplayed : Operates fuel { t with ledger := l } { t with ledger := m } := by
    apply operates_of_step (.replay b)
    intro w hw
    rw [step, hw, hreplay]
    exact ⟨_, rfl, rfl⟩
  exact trans_of (Operates fuel) hnoted hreplayed

/-- So a replay over blocks is covered as well. -/
lemma operates_replay (start count : Int) (keepStates ignoreUnknown allowReverts : Bool) :
    Leads (Operates fuel) s (Stage.replay fuel start count keepStates ignoreUnknown allowReverts) :=
  .replayFrom (fun _ height => operates_preparation (.loadStates height))
    (fun _ height => operates_replayBlock height _ _) _ _ _ _

end Operates

end ChainReplay.World
