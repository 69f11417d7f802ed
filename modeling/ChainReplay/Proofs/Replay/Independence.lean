import ChainReplay.Proofs.Ledger.Storage
import ChainReplay.Proofs.Replay.Reseeding
import ChainReplay.Proofs.Text.Utf8

/-! What a reseeded replay depends on. Two stages set up by one configuration may have any history:
if their feeds give the same storage, a block is replayed in the same way on both, unless one of its
calls asks for code that the two do not share. -/

namespace ChainReplay

namespace Table

variable {κ α β γ : Type}

lemma find?_filter_key [DecidableEq κ] (t : Table κ α) (p : κ → Bool) (k : κ) :
    find? (List.filter (fun entry => p entry.1) t) k = if p k then find? t k else none := by
  induction t with
  | nil => simp
  | cons entry t ih =>
    rw [List.filter_cons, find?_cons]
    by_cases hk : entry.1 = k
    · subst hk
      split
      · rw [find?_cons, if_pos rfl, if_pos rfl]
      · rw [ih, if_neg ‹_›]
    · rw [if_neg hk, ← ih]
      split
      · rw [find?_cons, if_neg hk]
      · rfl

lemma Lined.join {R : α → β → Prop} {S : α → γ → Prop} {T : β → γ → Prop} {t : Table κ α}
    {u : Table κ β} {v : Table κ γ} (h : Lined R t u) (h' : Lined S t v)
    (hT : ∀ a b c, R a b → S a c → T b c) : Lined T u v := by
  induction h generalizing v with
  | nil =>
    cases h'
    exact .nil
  | cons hentry _ ih =>
    cases h' with
    | cons hentry' hrest =>
      exact .cons ⟨hentry.1.symm.trans hentry'.1, hT _ _ _ hentry.2 hentry'.2⟩ (ih hrest)

end Table

section Join

variable {extra extra' extra'' : Address → Option Bytes} {first second third : Nat}

lemma Handle.Counterpart.join {h k j : Handle} (hk : h.Counterpart ⟨extra, first, second⟩ k)
    (hj : h.Counterpart ⟨extra', first, third⟩ j) :
    k.Counterpart ⟨extra'', second, third⟩ j := by
  obtain ⟨hn⟩ := hk
  obtain ⟨hm⟩ := hj
  refine .intro ?_
  simp only at hn hm ⊢
  omega

lemma Contract.Counterpart.join {c d e : Contract} (h : c.Counterpart ⟨extra, first, second⟩ d)
    (h' : c.Counterpart ⟨extra', first, third⟩ e) : d.Counterpart ⟨extra'', second, third⟩ e := by
  obtain ⟨hs, ht, hh⟩ := h
  obtain ⟨hs', ht', hh'⟩ := h'
  refine .intro (fun k w => (hs k w).symm.trans (hs' k w))
    (fun k w => (ht k w).symm.trans (ht' k w)) ?_
  revert hh hh'
  generalize c.handle = handle
  rintro (hk | _) (hj | _)
  · exact .some (hk.join hj)
  · exact .none

end Join

namespace Ledger

/-- The ledger with no more code than it shares with the other. -/
def sharing (l m : Ledger) : Ledger :=
  { l with codes := l.codes.filter fun entry => l.codes.find? entry.1 = m.codes.find? entry.1 }

lemma find?_sharing (l m : Ledger) (a : Address) :
    (l.sharing m).codes.find? a =
      if l.codes.find? a = m.codes.find? a then l.codes.find? a else none := by
  have hfind := Table.find?_filter_key l.codes
    (fun a => decide (l.codes.find? a = m.codes.find? a)) a
  simp only [decide_eq_true_eq] at hfind
  exact hfind

end Ledger

namespace Stage

variable {s t s₀ t₀ : Stage} {fuel : Nat} {ignoreUnknown allowReverts : Bool}

def sharing (s t : Stage) : Stage := { s with ledger := s.ledger.sharing t.ledger }

/-- Set up alike: the same plan, the same settings, and the same code for the plan's contracts. -/
structure Configured (s t : Stage) : Prop where
  plan : s.plan = t.plan
  setup : s.ledger.setup = t.ledger.setup
  code : ∀ c ∈ s.plan.contracts,
    s.ledger.codes.find? c.address = t.ledger.codes.find? c.address

/-- What the feeds of the plan give at a height. -/
def found (s : Stage) (height : Int) : Except Failure (List Storage) × Cache × Disk :=
  lookUps height s.plan.contracts s.files

/-- The feeds give both stages the same storage as of the height before, the block is the same, and
no call of it asks for code that the stages do not share. -/
structure Comparable (fuel : Nat) (height : Int) (ignoreUnknown allowReverts : Bool)
    (s t : Stage) : Prop where
  maps : ∃ maps maps', (s.found (height - 1)).1 = .ok maps ∧
    (t.found (height - 1)).1 = .ok maps' ∧ List.Forall₂ Storage.Similar maps maps'
  block : Block.loadTransactions (s.found (height - 1)).2.2 s.ledger.settings.blockDir height =
    Block.loadTransactions (t.found (height - 1)).2.2 t.ledger.settings.blockDir height
  discreet : ∀ call ∈ reseededCalls fuel height ignoreUnknown allowReverts (s.sharing t),
    Block.Discreet [s.ledger.codes, t.ledger.codes] fuel call.1 call.2

/-- The offset from what two stages share to one of them. -/
def offset (s t u : Stage) : Offset where
  extra := fun a =>
    if s.ledger.codes.find? a = t.ledger.codes.find? a then none else u.ledger.codes.find? a
  first := s.ledger.handles
  second := u.ledger.handles

lemma within_offset (s t : Stage) {u : Stage} (hu : u = s ∨ u = t) :
    (offset s t u).Within [s.ledger.codes, t.ledger.codes] := by
  refine ⟨u.ledger.codes, ?_, fun a => ?_⟩
  · rcases hu with rfl | rfl
    · exact List.mem_cons_self
    · exact List.mem_cons_of_mem _ List.mem_cons_self
  · by_cases ha : s.ledger.codes.find? a = t.ledger.codes.find? a
    · exact .inl (if_pos ha)
    · exact .inr (if_neg ha)

lemma Configured.reached (h : s₀.Configured t₀) (hs₀ : s₀.Equipped)
    (hs : s₀.Reaches s) (ht : t₀.Reaches t) : s.Configured t where
  plan := by rw [hs.inherits.plan, ht.inherits.plan, h.plan]
  setup := by rw [hs.inherits.ledger.setup, ht.inherits.ledger.setup, h.setup]
  code := by
    intro c hc
    rw [hs.inherits.plan] at hc
    obtain ⟨code, hcode⟩ := Option.isSome_iff_exists.mp (hs₀ c hc)
    rw [hs.inherits.ledger.codes _ _ hcode, ht.inherits.ledger.codes _ _ (h.code c hc ▸ hcode)]

lemma Configured.akin (h : s.Configured t) (hs : s.Equipped) {u : Stage} (hu : u = s ∨ u = t) :
    Akin (offset s t u) s.plan (s.sharing t) u where
  codes := by
    intro a
    have hshared := s.ledger.find?_sharing t.ledger a
    simp only [Stage.sharing, offset, hshared]
    by_cases ha : s.ledger.codes.find? a = t.ledger.codes.find? a
    · rw [if_pos ha, if_pos ha, Option.or_none]
      rcases hu with rfl | rfl
      · rfl
      · exact ha.symm
    · rw [if_neg ha, if_neg ha, Option.none_or]
  handles := Nat.add_comm _ _
  setup := by
    rcases hu with rfl | rfl
    · rfl
    · exact h.setup
  first := rfl
  second := by
    rcases hu with rfl | rfl
    · rfl
    · exact h.plan.symm
  equipped := by
    intro c hc
    obtain ⟨code, hcode⟩ := Option.isSome_iff_exists.mp (hs c hc)
    refine Table.contains_of_find? (a := code) ?_
    have hshared := s.ledger.find?_sharing t.ledger c.address
    rw [Stage.sharing, hshared, if_pos (h.code c hc), hcode]

lemma Configured.replays (h : s.Configured t) (hs : s.Equipped) {height : Int}
    (hst : Comparable fuel height ignoreUnknown allowReverts s t) :
    ∃ q s' t', (reseededReplay fuel height ignoreUnknown allowReverts).outcome s = some (q, s') ∧
      (reseededReplay fuel height ignoreUnknown allowReverts).outcome t = some (q, t') ∧
      Table.Lined (Contract.Counterpart ⟨fun _ => none, s.ledger.handles, t.ledger.handles⟩)
        s'.ledger.contracts t'.ledger.contracts := by
  obtain ⟨maps, maps', hmaps, hmaps', hsimilar⟩ := hst.maps
  have hfound : lookUps (height - 1) s.plan.contracts s.files =
      (.ok maps, (s.found (height - 1)).2) := Prod.ext hmaps rfl
  have hfound' : lookUps (height - 1) s.plan.contracts t.files =
      (.ok maps', (t.found (height - 1)).2) := by
    rw [h.plan]
    exact Prod.ext hmaps' rfl
  have hblock := hst.block
  rw [← Ledger.settings_of_setup h.setup] at hblock
  -- Neither need know all the code of the other, so both are compared with what they share.
  obtain ⟨q, u, s', hu, hs', hus⟩ := reseededReplay_counterpart (within_offset s t (.inl rfl))
    (h.akin hs (.inl rfl)) hfound hfound (List.forall₂_same.mpr fun _ _ => .refl _) rfl hst.discreet
  obtain ⟨q', u', t', hu', ht', hut⟩ := reseededReplay_counterpart (within_offset s t (.inr rfl))
    (h.akin hs (.inr rfl)) hfound hfound' hsimilar hblock hst.discreet
  obtain ⟨rfl, rfl⟩ := Prod.mk.inj (Option.some.inj (hu.symm.trans hu'))
  exact ⟨q, s', t', hs', ht', hus.contracts.join hut.contracts fun _ _ _ hcd hce => hcd.join hce⟩

section Loop

variable {seeded : Bool} {n : Nat}

lemma replayFrom_succ (fuel : Nat) (ignoreUnknown allowReverts seeded : Bool) (n : Nat)
    (height : Int) :
    replayFrom fuel false ignoreUnknown allowReverts seeded (n + 1) height = (do
      let result ← reseededReplay fuel height ignoreUnknown allowReverts
      if !result.isOk then return [result]
      return result ::
        (← replayFrom fuel false ignoreUnknown allowReverts true n (height + 1))) := by
  simp only [replayFrom, reseededReplay, Bool.and_false, Bool.not_false, if_true, bind_assoc]

lemma replayFrom_inv {height : Int} {results : List ReplayResult}
    (h : (replayFrom fuel false ignoreUnknown allowReverts seeded n height).outcome s =
      some (.ok results, t)) (hresults : results ≠ []) :
    ∃ n' r rest u, results = r :: rest ∧
      (reseededReplay fuel height ignoreUnknown allowReverts).outcome s = some (.ok r, u) ∧
      (rest ≠ [] → r.isOk = true ∧
        (replayFrom fuel false ignoreUnknown allowReverts true n' (height + 1)).outcome u =
          some (.ok rest, t)) := by
  cases n with
  | zero =>
    cases h
    exact absurd rfl hresults
  | succ n =>
    rw [replayFrom_succ] at h
    obtain ⟨r, u, hr, h⟩ := Staged.outcome_bind_ok h
    cases hok : r.isOk with
    | false =>
      rw [hok] at h
      cases h
      exact ⟨n, r, [], _, rfl, hr, fun hrest => absurd rfl hrest⟩
    | true =>
      rw [hok] at h
      obtain ⟨rest, v, hrest, h⟩ := Staged.outcome_bind_ok h
      cases h
      exact ⟨n, r, rest, u, rfl, hr, fun _ => ⟨hok, hrest⟩⟩

/-- Each result of a replay is that of a block replayed on its own, on the stage that the replay of
the blocks before it has reached. -/
lemma replayFrom_nth {height : Int} {results : List ReplayResult}
    (h : (replayFrom fuel false ignoreUnknown allowReverts seeded n height).outcome s =
      some (.ok results, t)) {k : Nat} {r : ReplayResult} (hr : results[k]? = some r) :
    ∃ u u', (replayFrom fuel false ignoreUnknown allowReverts seeded k height).outcome s =
        some (.ok (results.take k), u) ∧
      (reseededReplay fuel (height + k) ignoreUnknown allowReverts).outcome u =
        some (.ok r, u') := by
  induction k generalizing n s height results seeded with
  | zero =>
    obtain ⟨n', first, rest, u, rfl, hfirst, -⟩ := replayFrom_inv h (by rintro rfl; cases hr)
    cases hr
    exact ⟨s, u, rfl, by simpa using hfirst⟩
  | succ k ih =>
    obtain ⟨n', first, rest, u, rfl, hfirst, hrest⟩ := replayFrom_inv h (by rintro rfl; cases hr)
    obtain ⟨hok, hrest⟩ := hrest (by rintro rfl; cases hr)
    obtain ⟨v, v', hv, hv'⟩ := ih hrest hr
    refine ⟨v, v', ?_, ?_⟩
    · rw [replayFrom_succ, Staged.outcome_bind_of_ok hfirst, hok]
      exact Staged.outcome_bind_of_ok hv
    · rwa [Int.natCast_succ, Int.add_comm (k : Int) 1, ← Int.add_assoc]

lemma replay_one {height : Int} {r : ReplayResult}
    (h : (reseededReplay fuel height ignoreUnknown allowReverts).outcome s = some (.ok r, t)) :
    (replay fuel height 1 false ignoreUnknown allowReverts).outcome s = some (.ok [r], t) := by
  change (replayFrom fuel false ignoreUnknown allowReverts false (0 + 1) height).outcome s = _
  rw [replayFrom_succ, Staged.outcome_bind_of_ok h]
  split <;> rfl

end Loop

/-- Reseeding makes the replay of a block independent of history, but for the code that a history
has made known. Take two stages set up alike, each with a history of its own. If the feeds give both
the same storage and no call of the block asks for code that only one of them knows, the block has
the same result on both, and the same contracts are left with the same storage. So each result of a
replay of several blocks is that of the block on its own, on a stage that has just been set up. -/
theorem reseeded_replay_independent (hs₀ : s₀.Initialised)
    (hconfigured : s₀.Configured t₀) (fuel : Nat) (ignoreUnknown allowReverts : Bool) :
    (∀ s t height, s₀.Reaches s → t₀.Reaches t →
      Comparable fuel height ignoreUnknown allowReverts s t →
      ∃ q s' t',
        (reseededReplay fuel height ignoreUnknown allowReverts).outcome s = some (q, s') ∧
        (reseededReplay fuel height ignoreUnknown allowReverts).outcome t = some (q, t') ∧
        Table.Lined (Contract.Counterpart ⟨fun _ => none, s.ledger.handles, t.ledger.handles⟩)
          s'.ledger.contracts t'.ledger.contracts) ∧
    ∀ t start count results t', t₀.Reaches t →
      (replay fuel start count false ignoreUnknown allowReverts).outcome t =
        some (.ok results, t') →
      ∀ (k : Nat) r, results[k]? = some r → ∃ u,
        (replay fuel start k false ignoreUnknown allowReverts).outcome t =
          some (.ok (results.take k), u) ∧
        (Comparable fuel (start + k) ignoreUnknown allowReverts s₀ u → ∃ s',
          (replay fuel (start + k) 1 false ignoreUnknown allowReverts).outcome s₀ =
            some (.ok [r], s')) := by
  constructor
  · intro s t height hs ht hst
    have hreached := hconfigured.reached hs₀.equipped hs ht
    exact hreached.replays (hs₀.equipped.inherits hs.inherits) hst
  · intro t start count results t' ht hrun k r hr
    obtain ⟨u, u', hbefore, hu⟩ := replayFrom_nth hrun hr
    refine ⟨u, hbefore, fun hcomparable => ?_⟩
    have htu : t₀.Reaches u := ht.trans (leads_replayFrom _ _ _ _ _ _ _ _ _ hbefore)
    obtain ⟨q, s', v, hs', hv, -⟩ :=
      (hconfigured.reached hs₀.equipped .refl htu).replays hs₀.equipped hcomparable
    obtain ⟨rfl, -⟩ := Prod.mk.inj (Option.some.inj (hv.symm.trans hu))
    exact ⟨s', replay_one hs'⟩

section Experience

def sameReading {α : Type} [DecidableEq α] : Except Failure α → Except Failure α → Bool
  | .ok a, .ok b => a = b
  | _, _ => false

lemma eq_of_sameReading {α : Type} [DecidableEq α] {x y : Except Failure α}
    (h : sameReading x y = true) : ∃ a, x = .ok a ∧ y = .ok a := by
  cases x with
  | error e => cases h
  | ok a =>
    cases y with
    | error e => cases h
    | ok b => exact ⟨a, rfl, congrArg Except.ok (of_decide_eq_true h).symm⟩

instance (others : List (Table Address Bytes)) (fuel : Nat) (l : Ledger) (tx : Transaction) :
    Decidable (Block.Discreet others fuel l tx) :=
  inferInstanceAs (Decidable (_ = true))

/-- Feeds that give the same in the same order. -/
def isComparable (fuel : Nat) (height : Int) (ignoreUnknown allowReverts : Bool) (s t : Stage) :
    Bool :=
  sameReading (s.found (height - 1)).1 (t.found (height - 1)).1 &&
  sameReading (Block.loadTransactions (s.found (height - 1)).2.2 s.ledger.settings.blockDir height)
    (Block.loadTransactions (t.found (height - 1)).2.2 t.ledger.settings.blockDir height) &&
  (reseededCalls fuel height ignoreUnknown allowReverts (s.sharing t)).all fun call =>
    Block.Discreet [s.ledger.codes, t.ledger.codes] fuel call.1 call.2

lemma comparable_of_isComparable {height : Int}
    (h : isComparable fuel height ignoreUnknown allowReverts s t = true) :
    Comparable fuel height ignoreUnknown allowReverts s t := by
  rw [isComparable, Bool.and_eq_true, Bool.and_eq_true, List.all_eq_true] at h
  obtain ⟨⟨hmaps, hblock⟩, hdiscreet⟩ := h
  obtain ⟨maps, hs, ht⟩ := eq_of_sameReading hmaps
  obtain ⟨transactions, hs', ht'⟩ := eq_of_sameReading hblock
  refine ⟨⟨maps, maps, hs, ht, List.forall₂_same.mpr fun _ _ => .refl _⟩, hs'.trans ht'.symm, ?_⟩
  exact fun call hcall => of_decide_eq_true (hdiscreet call hcall)

def first : Address := Ledger.numbered 1

def second : Address := Ledger.numbered 2

def copyOfFirst : Address := Ledger.derivedAddress second (Bytes.zeros 32) [1]

/-- The second contract deploys a copy of the first one, and the first a copy of that copy. -/
def copying : Engine where
  instantiate parameters := .ok
    { refusal := none
      construct := fun _ _ => .done []
      execute := fun _ _ =>
        let source := if parameters.address = first then copyOfFirst else first
        .ask .deploy (source.bytes ++ Bytes.zeros 32) fun
          | .ok reply => .done reply
          | .error f => .fail f }

def blockOf (height : Int) (target : Address) : Bytes :=
  let document : Json := .object [("_id", .object [("$oid", .text "call")]), ("index", .int 0),
    ("blockHeight", Json.ofDecimal height), ("id", Json.ofBinary (Bytes.zeros 32)),
    ("from", Json.ofBinary Address.zero.bytes),
    ("contractTweakedPublicKey", Json.ofBinary target.bytes), ("calldata", Json.ofBinary [])]
  (Utf8.encode? (Json.array [document]).compact).getD []

/-- The first contract is called in the first block, the second one in the others. -/
def threeBlocks : Disk where
  files := [(["a"], [1]), (["b"], [2]),
    (["feed"], Utf8.asciiBytes ("\x7b\"pointer\": \"".toList ++ List.replicate 42 'A' ++
      "E=\", \"value\": \"".toList ++ List.replicate 42 'A' ++
      "c=\", \"lastSeenAt\": 1\x7d".toList)),
    (["block", "5.json"], blockOf 5 first), (["block", "6.json"], blockOf 6 second),
    (["block", "7.json"], blockOf 7 second)]
  directories := [["block"]]

def twoContracts : Plan where
  admin := Address.zero
  base := "."
  contracts := [⟨first, .null, none, some "a", some "feed", none⟩,
    ⟨second, .null, none, some "b", none, none⟩]

def unset : Stage :=
  create (Ledger.create Settings.default (some copying)) threeBlocks twoContracts
    (Cache.create "cache")

def untouched : Stage := ((setUp.outcome unset).map (·.2)).getD unset

/-- The second contract has been called once. -/
def experienced : Stage :=
  { untouched with
    ledger := ((untouched.ledger.perform (.registered second)
      (Run.execute (Run.call 1) [] none none)).map (·.2.1)).getD untouched.ledger }

lemma initialised_untouched : untouched.Initialised := by
  have hok : ((setUp.outcome unset).map (·.1.toOption)) = some (some ⟨⟩) := by decide +kernel
  refine ⟨unset, ?_⟩
  rw [untouched]
  revert hok
  generalize setUp.outcome unset = x
  rintro hok
  obtain ⟨⟨_ | a, s⟩, rfl, hs⟩ := Option.map_eq_some_iff.mp hok
  · cases hs
  · rfl

lemma reaches_experienced : untouched.Reaches experienced := by
  have hsome : (untouched.ledger.perform (.registered second)
      (Run.execute (Run.call 1) [] none none)).isSome = true := by decide +kernel
  obtain ⟨⟨r, l, seat⟩, hrun⟩ := Option.isSome_iff_exists.mp hsome
  have heq : experienced = { untouched with ledger := l } := by
    rw [experienced, hrun]
    rfl
  rw [heq]
  exact .single (.run (.execute 1 [] none none) hrun)

lemma configured_untouched : untouched.Configured untouched := ⟨rfl, rfl, fun _ _ => rfl⟩

/-- The call has made a copy known, and calling the second contract again makes the same copy. -/
theorem reseeded_replay_of_second :
    (∃ q s' t', (reseededReplay 1 6 false false).outcome untouched = some (q, s') ∧
      (reseededReplay 1 6 false false).outcome experienced = some (q, t') ∧
      Table.Lined (Contract.Counterpart
          ⟨fun _ => none, untouched.ledger.handles, experienced.ledger.handles⟩)
        s'.ledger.contracts t'.ledger.contracts) ∧
    ∃ r r' s' t', (replay 1 6 2 false false false).outcome untouched = some (.ok [r, r'], t') ∧
      (replay 1 7 1 false false false).outcome untouched = some (.ok [r'], s') := by
  have hsixth : isComparable 1 6 false false untouched experienced = true := by decide +kernel
  have hseventh : (((replay 1 6 1 false false false).outcome untouched).map fun p =>
      isComparable 1 7 false false untouched p.2) = some true := by decide +kernel
  have hresults : (((replay 1 6 2 false false false).outcome untouched).map fun p =>
      p.1.toOption.map List.length) = some (some 2) := by decide +kernel
  obtain ⟨hagree, hparts⟩ := reseeded_replay_independent initialised_untouched
    configured_untouched 1 false false
  refine ⟨hagree untouched experienced 6 .refl reaches_experienced
    (comparable_of_isComparable hsixth), ?_⟩
  obtain ⟨⟨_ | results, t'⟩, hrun, hlength⟩ := Option.map_eq_some_iff.mp hresults
  · cases hlength
  obtain ⟨r, r', rfl⟩ := List.length_eq_two.mp (Option.some.inj hlength)
  obtain ⟨u, hu, halone⟩ := hparts untouched 6 2 [r, r'] t' .refl hrun 1 r' rfl
  obtain ⟨⟨_, v⟩, hv, hcomparable⟩ := Option.map_eq_some_iff.mp hseventh
  obtain ⟨rfl, rfl⟩ := Prod.mk.inj (Option.some.inj (hv.symm.trans hu))
  obtain ⟨s', hs'⟩ := halone (comparable_of_isComparable hcomparable)
  exact ⟨r, r', s', t', hrun, hs'⟩

def statusOf (x : Option (Except Failure ReplayResult × Stage)) : Option (Option ReplayStatus) :=
  x.map fun p => p.1.toOption.map (·.status)

/-- The first contract asks for the code of a copy that only a call of the second has made known. -/
theorem reseeded_replay_remembers_code :
    ¬ ∀ (s₀ t₀ s t : Stage) (fuel : Nat) (height : Int) (ignoreUnknown allowReverts : Bool),
      s₀.Initialised → t₀.Initialised → s₀.Configured t₀ → s₀.Reaches s → t₀.Reaches t →
      (∃ maps, (s.found (height - 1)).1 = .ok maps ∧ (t.found (height - 1)).1 = .ok maps) →
      Block.loadTransactions (s.found (height - 1)).2.2 s.ledger.settings.blockDir height =
        Block.loadTransactions (t.found (height - 1)).2.2 t.ledger.settings.blockDir height →
      ∀ q q' s' t',
        (reseededReplay fuel height ignoreUnknown allowReverts).outcome s = some (q, s') →
        (reseededReplay fuel height ignoreUnknown allowReverts).outcome t = some (q', t') →
        q = q' := by
  intro h
  have hread : (sameReading (untouched.found (5 - 1)).1 (experienced.found (5 - 1)).1 &&
      sameReading (Block.loadTransactions (untouched.found (5 - 1)).2.2
          untouched.ledger.settings.blockDir 5)
        (Block.loadTransactions (experienced.found (5 - 1)).2.2
          experienced.ledger.settings.blockDir 5)) = true := by decide +kernel
  have hfailed : statusOf ((reseededReplay 1 5 false false).outcome untouched) =
      some (some .failed) := by decide +kernel
  have hcompleted : statusOf ((reseededReplay 1 5 false false).outcome experienced) =
      some (some .completed) := by decide +kernel
  obtain ⟨hmaps, hblock⟩ := Bool.and_eq_true_iff.mp hread
  obtain ⟨transactions, hs, ht⟩ := eq_of_sameReading hblock
  obtain ⟨⟨q, s'⟩, hq, hfailed⟩ := Option.map_eq_some_iff.mp hfailed
  obtain ⟨⟨q', t'⟩, hq', hcompleted⟩ := Option.map_eq_some_iff.mp hcompleted
  obtain rfl := h untouched untouched untouched experienced 1 5 false false
    initialised_untouched initialised_untouched configured_untouched .refl reaches_experienced
    (eq_of_sameReading hmaps) (hs.trans ht.symm) q q' s' t' hq hq'
  rw [hfailed] at hcompleted
  cases hcompleted

end Experience

end Stage

end ChainReplay
