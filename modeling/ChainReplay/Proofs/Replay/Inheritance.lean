import ChainReplay.Proofs.Ledger.Inheritance
import ChainReplay.Proofs.Replay.Staging

/-! All that is done on a ledger or on a stage leaves the setup, the plan and the known code. -/

namespace ChainReplay

lemma Ledger.Inherits.stages : Stages Ledger.Inherits where
  toEnlists := enlists
  notices := fun _ _ => ⟨rfl, .refl _⟩
  actors := fun _ _ _ => ⟨rfl, .refl _⟩
  change := fun _ _ _ _ => ⟨rfl, .refl _⟩
  init := init
  clean := emptied

namespace Chain

variable {α : Type} {l : Ledger}

lemma leads_execute (fuel : Nat) (a : Address) (calldata : Bytes) (sender origin : Option Address) :
    Leads Ledger.Inherits l (execute fuel a calldata sender origin) := by
  intro r m h
  obtain ⟨⟨q, m', seat⟩, hrun, heq⟩ := Option.map_eq_some_iff.mp h
  cases heq
  exact .perform (.execute fuel calldata sender origin) hrun

lemma leads_withIdentity (sender origin : Address) {act : Chain α}
    (h : ∀ m, Leads Ledger.Inherits m act) :
    Leads Ledger.Inherits l (withIdentity sender origin act) := by
  intro r m hrun
  obtain ⟨⟨q, m'⟩, hact, heq⟩ := Option.map_eq_some_iff.mp hrun
  cases heq
  have hlent : l.Inherits { l with sender, origin } := ⟨rfl, .refl _⟩
  exact (hlent.trans (h _ _ _ hact)).trans ⟨rfl, .refl _⟩

lemma leads_withTransaction (id inputs outputs : Bytes) {act : Chain α}
    (h : ∀ m, Leads Ledger.Inherits m act) :
    Leads Ledger.Inherits l (withTransaction id inputs outputs act) := by
  rw [withTransaction]
  refine .bind_get (.bind_lift fun m hm => (Leads.set ?_).bind fun _ n => ?_)
  · rw [Ledger.setTransaction] at hm
    split at hm
    · cases hm
      exact ⟨rfl, .refl _⟩
    · cases hm
  · intro r m' hrun
    obtain ⟨⟨q, m''⟩, hact, heq⟩ := Option.map_eq_some_iff.mp hrun
    cases heq
    exact (h _ _ _ hact).trans ⟨rfl, .refl _⟩

end Chain

namespace Block

variable {l : Ledger}

lemma leads_executeOne (fuel index : Nat) (tx : Transaction) (r : ReplayResult) :
    Leads Ledger.Inherits l (executeOne fuel index tx r) := by
  rw [executeOne]
  split
  · exact .pure _
  · refine .bind_get (.bind_lift fun c _ => ?_)
    refine .bind_lift fun inputs _ => .bind_lift fun outputs _ => ?_
    refine (Chain.leads_withTransaction _ _ _ fun m => ?_).bind fun response m =>
      Ledger.Inherits.enlists.leads_judge index tx response _
    exact Chain.leads_withIdentity _ _ fun m => Chain.leads_execute _ _ _ _ _

lemma leads_round (fuel : Nat) (b : Block) (r : ReplayResult) (entry : Transaction × Nat) :
    Leads Ledger.Inherits l (round fuel b r entry) := by
  rw [round]
  split
  · exact .pure _
  · exact (leads_executeOne _ _ _ _).bind fun judged m =>
      Ledger.Inherits.enlists.leads_settle b entry.1 judged

lemma leads_executeAll (fuel : Nat) (b : Block) (r : ReplayResult)
    (entries : List (Transaction × Nat)) :
    Leads Ledger.Inherits l (executeAll fuel b r entries) := by
  induction entries generalizing l r with
  | nil => exact .pure _
  | cons entry rest ih =>
    intro q m hrun
    have hrun : (executeAll fuel b r (entry :: rest)).outcome l = some (q, m) := hrun
    rw [outcome_executeAll_cons] at hrun
    obtain ⟨⟨o, n⟩, hround, hrun⟩ := Option.bind_eq_some_iff.mp hrun
    have hn : l.Inherits n := leads_round fuel b r entry _ _ hround
    rcases o with e | ⟨r', _ | failure⟩
    · cases hrun
      exact hn
    · exact hn.trans (ih r' _ _ hrun)
    · cases hrun
      exact hn

lemma inherits_replay {fuel : Nat} {b b' : Block} {l m : Ledger} {q : Except Failure ReplayResult}
    (h : b.replay fuel l = some (q, b', m)) : l.Inherits m := by
  have hverify := Ledger.Inherits.enlists.verify b l
  rw [replay] at h
  generalize b.verify l = verified at h hverify
  obtain ⟨skipped, b₁, n⟩ := verified
  simp only at h hverify
  split at h
  · cases h
    exact hverify.trans (.note _ _ _)
  · obtain ⟨⟨o, n'⟩, hrun, heq⟩ := Option.map_eq_some_iff.mp h
    have hrun := leads_executeAll _ _ _ _ _ _ hrun
    have hraised : n.Inherits { n with blockNumber := b₁.height } := ⟨rfl, .refl _⟩
    have hn : l.Inherits n' := (hverify.trans hraised).trans hrun
    rcases o with e | ⟨r, failure⟩
    · cases heq
      exact hn
    · cases failure <;> cases heq <;> exact hn.trans (.note _ _ _)

lemma inherits_load {l m : Ledger} {d : Disk} {directory : Path} {height : Int}
    {ignoreUnknown allowReverts : Bool} {b : Block}
    (h : load l d directory height ignoreUnknown allowReverts = .ok (b, m)) : l.Inherits m := by
  rw [load] at h
  split at h
  · cases h
    exact .refl l
  · cases h
    exact .note _ _ _
  · cases h

end Block

namespace Stage

structure Inherits (s t : Stage) : Prop where
  plan : t.plan = s.plan
  ledger : s.ledger.Inherits t.ledger

instance : IsPreorder Stage Stage.Inherits where
  refl := fun _ => ⟨rfl, .refl _⟩
  trans := fun _ _ _ h h' => ⟨h'.plan.trans h.plan, h.ledger.trans h'.ledger⟩

variable {s t : Stage}

lemma leads_modifyLedger {g : Ledger → Ledger} (h : s.ledger.Inherits (g s.ledger)) :
    Leads Inherits s (modifyLedger g) :=
  .modify ⟨rfl, h⟩

lemma leads_of_along {α : Type} {x : Staged α} (h : Leads (Along Ledger.Inherits) s x) :
    Leads Inherits s x :=
  fun r t hrun => ⟨(h r t hrun).plan, (h r t hrun).ledger⟩

lemma leads_note (level : Level) (text : Text) : Leads Inherits s (note level text) :=
  leads_of_along (Ledger.Inherits.stages.works.leads_note level text)

lemma leads_loadCode (c : ContractPlan) : Leads Inherits s (loadCode c) :=
  leads_of_along (Ledger.Inherits.stages.works.leads_loadCode c)

lemma leads_registerContracts : Leads Inherits s registerContracts :=
  leads_of_along Ledger.Inherits.stages.works.leads_registerContracts

lemma leads_initLedger : Leads Inherits s initLedger :=
  leads_of_along Ledger.Inherits.stages.works.leads_initLedger

lemma leads_purge : Leads Inherits s purge :=
  leads_of_along Ledger.Inherits.stages.works.leads_purge

lemma leads_loadStates (height : Int) : Leads Inherits s (loadStates height) :=
  leads_of_along (Ledger.Inherits.stages.works.leads_loadStates height)

lemma leads_cleanUp : Leads Inherits s cleanUp :=
  leads_of_along Ledger.Inherits.stages.works.leads_cleanUp

lemma leads_setUp : Leads Inherits s setUp :=
  leads_of_along Ledger.Inherits.stages.works.leads_setUp

lemma leads_replayBlock (fuel : Nat) (height : Int) (ignoreUnknown allowReverts : Bool) :
    Leads Inherits s (replayBlock fuel height ignoreUnknown allowReverts) := by
  rw [replayBlock]
  refine (leads_note _ _).bind fun _ t => .bind_get (.bind_lift fun loaded hloaded => ?_)
  obtain ⟨b, l⟩ := loaded
  intro r u hrun
  obtain ⟨⟨q, b', m⟩, hreplay, heq⟩ := Option.map_eq_some_iff.mp hrun
  cases heq
  exact ⟨rfl, (Block.inherits_load hloaded).trans (Block.inherits_replay hreplay)⟩

end Stage

end ChainReplay
