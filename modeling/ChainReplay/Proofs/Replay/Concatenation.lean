import ChainReplay.Proofs.Replay.Renumbering

/-! Blocks that are replayed in two parts. Only the ledger crosses from one transaction to the next, so
a replay may stop between two of them and go on from what it has left. -/

namespace ChainReplay

namespace Ledger

structure Onward (l m : Ledger) : Prop where
  hasContract : ∀ a, l.hasContract a = true → m.hasContract a = true
  blockNumber : m.blockNumber = l.blockNumber

instance : IsPreorder Ledger Onward where
  refl := fun _ => ⟨fun _ h => h, rfl⟩
  trans := fun _ _ _ h h' =>
    ⟨fun a ha => h'.hasContract a (h.hasContract a ha), h'.blockNumber.trans h.blockNumber⟩

lemma enlists_onward : Enlists Onward where
  note := fun _ _ _ => ⟨fun _ h => h, rfl⟩
  code := fun _ _ _ => ⟨fun _ h => h, rfl⟩
  register := by
    intro l c m _ _ h
    rw [register] at h
    split at h
    · cases h
    · cases h
      refine ⟨fun a ha => ?_, rfl⟩
      change Table.contains (l.contracts ++ [(c.address, c)]) a = true
      rw [Table.contains_append, Bool.or_eq_true]
      exact .inl ha

end Ledger

namespace Block

open Chain Decoding

variable {fuel : Nat} {l m : Ledger}

lemma onward_executeAll {b : Block} {r : ReplayResult} {entries : List (Transaction × Nat)}
    {o : Except Failure (ReplayResult × Option ReplayFailure)}
    (h : (executeAll fuel b r entries).outcome l = some (o, m)) : l.Onward m := by
  have hcourse := (course_executeAll Ledger.enlists_onward h).1
  generalize turnsOf fuel b r entries l = turns at hcourse
  clear h
  induction hcourse with
  | ended l => exact refl l
  | idle h _ ih => exact trans_of Ledger.Onward h ih
  | turn hpresents hrun _ ih =>
    obtain ⟨-, hcontext, -⟩ := Turn.withdrawn hpresents hrun
    refine trans_of Ledger.Onward ⟨fun a ha => ?_, (Ledger.withdrawn_of_context hcontext).2.2.1⟩ ih
    obtain ⟨g, rfl, hexecute⟩ := Run.execute_of_perform hrun
    obtain ⟨inputs, outputs, -, -, hshown⟩ := hpresents.shown
    have hcontinues := (Run.outcome_execute_of_le (Nat.le_refl fuel) hexecute).2.hasContract a
    rw [hshown] at hcontinues
    exact hcontinues.trans ha

/-- The loop over a list goes on where the loop over its first part has ended. -/
lemma outcome_executeAll_append (b : Block) (r : ReplayResult) (xs ys : List (Transaction × Nat))
    (l : Ledger) :
    (executeAll fuel b r (xs ++ ys)).outcome l =
      ((executeAll fuel b r xs).outcome l).bind fun (o, m) =>
        match o with
        | .ok (r, none) => (executeAll fuel b r ys).outcome m
        | o => some (o, m) := by
  induction xs generalizing r l with
  | nil => rfl
  | cons entry rest ih =>
    rw [List.cons_append, outcome_executeAll_cons, outcome_executeAll_cons, Option.bind_assoc]
    congr 1
    funext ⟨o, m⟩
    rcases o with e | ⟨r', _ | failure⟩
    · rfl
    · exact ih r' m
    · rfl

/-- What a block decides about single transactions is the same for one that has more of them. -/
lemma executeAll_congr (b b' : Block) (h : b'.allowReverts = b.allowReverts) (r : ReplayResult)
    (entries : List (Transaction × Nat)) :
    executeAll fuel b' r entries = executeAll fuel b r entries := by
  induction entries generalizing r with
  | nil => rfl
  | cons entry rest ih =>
    rw [executeAll, executeAll, h]
    simp only [ih]

lemma forall₂_shifted (transactions : List Transaction) (n : Nat) :
    List.Forall₂ (fun e e' => e'.1 = e.1 ∧ ((e.2 : Int) + n = (e'.2 : Int))) transactions.zipIdx
      (transactions.zipIdx n) := by
  rw [List.forall₂_iff_get]
  refine ⟨by simp, fun i hi hj => ?_⟩
  simp [Int.add_comm]

variable {height : Int} {earlier later : List Transaction} {ignoreUnknown allowReverts : Bool}
  {q : Except Failure ReplayResult} {b : Block}

lemma retells_later {r : ReplayResult} {n : Ledger} (level : Level) (text : Text)
    (hknown : ∀ tx ∈ later, l.hasContract tx.target = true)
    (hrun : (executeAll fuel (underway height earlier ignoreUnknown allowReverts)
      ⟨height, .verified, [], [], 0, none, []⟩ earlier.zipIdx).outcome
        { l with blockNumber := height } =
        some (.ok (r, none), n)) :
    Option.Rel
      (Retells (· + earlier.length) fun s => r.append (s.renumber (· + earlier.length)))
      ((create height later ignoreUnknown allowReverts).replay fuel (n.note level text))
      (((executeAll fuel (underway height (earlier ++ later) ignoreUnknown allowReverts) r
        (later.zipIdx earlier.length)).outcome n).map
          (concluded (underway height (earlier ++ later) ignoreUnknown allowReverts))) := by
  have honward := onward_executeAll hrun
  have hraised : { n.note level text with blockNumber := height } = n.note level text := by
    rw [← show n.blockNumber = height from honward.blockNumber]
    rfl
  have hlater (tx : Transaction) (htx : tx ∈ later) :
      (n.note level text).hasContract tx.target = true :=
    honward.hasContract _ (hknown tx htx)
  rw [replay_of_known hlater, hraised]
  have hskipped : r.skipped = [] := (adds_of_executeAll hrun).skipped
  have hentries := forall₂_shifted later earlier.length
  have hnone : (later.zipIdx earlier.length).filter (fun e' => !r.skipped.contains (e'.2 : Int)) =
      later.zipIdx earlier.length := by
    rw [hskipped]
    exact List.filter_eq_self.mpr fun _ _ => rfl
  rw [← hnone] at hentries
  have hstart : r.tally (ReplayResult.renumber (· + earlier.length)
      ⟨height, .verified, [], [], 0, none, []⟩) = r := by
    simp [ReplayResult.tally, ReplayResult.renumber]
  have hallow : (underway height (earlier ++ later) ignoreUnknown allowReverts).allowReverts =
      (underway height later ignoreUnknown allowReverts).allowReverts := rfl
  have hloop : Matches (Restates (· + (earlier.length : Int)) r)
      (executeAll fuel (underway height later ignoreUnknown allowReverts)
        ⟨height, .verified, [], [], 0, none, []⟩ later.zipIdx)
      (executeAll fuel (underway height (earlier ++ later) ignoreUnknown allowReverts)
        (r.tally (ReplayResult.renumber (· + earlier.length)
          ⟨height, .verified, [], [], 0, none, []⟩)) (later.zipIdx earlier.length))
      (n.note level text) n :=
    matches_executeAll (n.echoes_note level text).symm fuel hallow hentries rfl
  rw [hstart] at hloop
  exact retells_of_matches hloop rfl rfl rfl fun _ _ _ _ _ _ => rfl

/-- If the earlier transactions complete, the later ones go on from the ledger that they leave. If they
do not, then it is as if there were no later ones. -/
theorem replay_append (hknown : ∀ tx ∈ earlier ++ later, l.hasContract tx.target = true)
    (h : (create height earlier ignoreUnknown allowReverts).replay fuel l = some (q, b, m)) :
    (∀ r, q = .ok r → r.status = .completed →
      Option.Rel
        (Retells (· + earlier.length) fun s => r.append (s.renumber (· + earlier.length)))
        ((create height later ignoreUnknown allowReverts).replay fuel m)
        ((create height (earlier ++ later) ignoreUnknown allowReverts).replay fuel l)) ∧
    ((∀ r, q = .ok r → r.status ≠ .completed) →
      (create height (earlier ++ later) ignoreUnknown allowReverts).replay fuel l =
        some (q, { b with transactions := earlier ++ later }, m)) := by
  rw [replay_of_known (fun tx htx => hknown tx (List.mem_append_left _ htx)),
    Option.map_eq_some_iff] at h
  obtain ⟨⟨o, n⟩, hrun, heq⟩ := h
  have hwhole := replay_of_known hknown fuel height ignoreUnknown allowReverts
  rw [List.zipIdx_append, Nat.zero_add, outcome_executeAll_append,
    executeAll_congr (underway height earlier ignoreUnknown allowReverts)
      (underway height (earlier ++ later) ignoreUnknown allowReverts) rfl, hrun,
    Option.bind_some] at hwhole
  rcases o with e | ⟨r, _ | failure⟩
  · cases heq
    exact ⟨nofun, fun _ => hwhole⟩
  · cases heq
    refine ⟨?_, fun hfailed => absurd rfl (hfailed _ rfl)⟩
    rintro _ ⟨⟩ -
    rw [hwhole]
    exact retells_later _ _ (fun tx htx => hknown tx (List.mem_append_right _ htx)) hrun
  · cases heq
    refine ⟨?_, fun _ => hwhole⟩
    rintro _ ⟨⟩ hcompleted
    cases hcompleted

/-- The first of the later transactions is tolerated; where reverts are not, the block ends with it. -/
theorem replay_append_of_reverted :
    (∃ r b m, (create 7 [revertedOnChain 32 Address.zero] false true).replay 0 silentLedger =
        some (.ok r, b, m) ∧ r.status = .completed ∧ ∃ s b' n,
      (create 7 ([revertedOnChain 32 Address.zero] ++
          [revertedOnChain 31 Address.zero, revertedOnChain 32 Address.zero]) false true).replay 0
        silentLedger = some (.ok s, b', n) ∧
      s.executed = [0, 2] ∧ s.tolerated.map (·.index) = [1]) ∧
    ∃ r b m, (create 7 [revertedOnChain 31 Address.zero] false false).replay 0 silentLedger =
        some (.ok r, b, m) ∧ r.status = .failed ∧ ∃ b',
      (create 7 ([revertedOnChain 31 Address.zero] ++ [revertedOnChain 32 Address.zero]) false
        false).replay 0 silentLedger = some (.ok r, b', m) := by
  constructor
  · have hrun : ((create 7 [revertedOnChain 32 Address.zero] false true).replay 0 silentLedger).bind
        (fun o => o.1.toOption.bind fun r =>
          ((create 7 [revertedOnChain 31 Address.zero, revertedOnChain 32 Address.zero] false
            true).replay 0 o.2.2).bind fun o => o.1.toOption.map fun s =>
              (r.status, r.executed, r.tolerated, s.executed, s.tolerated.map (·.index))) =
          some (.completed, [0], [], [1], [0]) := by decide +kernel
    obtain ⟨⟨q, b, m⟩, hearlier, hrest⟩ := Option.bind_eq_some_iff.mp hrun
    obtain ⟨r, hr, hsecond⟩ := Option.bind_eq_some_iff.mp hrest
    obtain rfl : q = .ok r := eq_ok_of_toOption hr
    obtain ⟨⟨q, b', n⟩, hlater, hresult⟩ := Option.bind_eq_some_iff.mp hsecond
    obtain ⟨s, hs, hlists⟩ := Option.map_eq_some_iff.mp hresult
    obtain rfl : q = .ok s := eq_ok_of_toOption hs
    obtain ⟨hcompleted, hexecuted, htolerated, hexecuted', htolerated'⟩ : r.status = .completed ∧
        r.executed = [0] ∧ r.tolerated = [] ∧ s.executed = [1] ∧
        s.tolerated.map (·.index) = [0] := by
      simpa only [Prod.mk.injEq] using hlists
    have hknown : ∀ tx ∈ [revertedOnChain 32 Address.zero] ++
        [revertedOnChain 31 Address.zero, revertedOnChain 32 Address.zero],
        silentLedger.hasContract tx.target = true := by decide +kernel
    have hwhole := (replay_append hknown hearlier).1 r rfl hcompleted
    rw [hlater] at hwhole
    refine ⟨r, b, m, hearlier, hcompleted, ?_⟩
    generalize replay 0 _ silentLedger = o at hwhole ⊢
    cases hwhole with
    | @some _ p h =>
      obtain ⟨q, b'', n'⟩ := p
      obtain ⟨h, -, -, -⟩ := h
      cases h with
      | ok h =>
        refine ⟨_, b'', n', rfl, ?_, ?_⟩
        · simp [h, ReplayResult.append, ReplayResult.tally, ReplayResult.renumber, hexecuted,
            hexecuted']
        · rw [h, ReplayResult.append, ReplayResult.tally, ReplayResult.renumber, htolerated,
            List.nil_append, ReplayFailure.map_index_renumber, htolerated']
          rfl
  · have hrun : ((create 7 [revertedOnChain 31 Address.zero] false false).replay 0 silentLedger).bind
        (fun o => o.1.toOption.map (·.status)) = some .failed := by decide +kernel
    obtain ⟨⟨q, b, m⟩, hearlier, hresult⟩ := Option.bind_eq_some_iff.mp hrun
    obtain ⟨r, hr, hstatus⟩ := Option.map_eq_some_iff.mp hresult
    obtain rfl : q = .ok r := eq_ok_of_toOption hr
    have hknown : ∀ tx ∈ [revertedOnChain 31 Address.zero] ++ [revertedOnChain 32 Address.zero],
        silentLedger.hasContract tx.target = true := by decide +kernel
    have hwhole := (replay_append hknown hearlier).2 fun _ h hcompleted => by
        cases h
        cases hstatus.symm.trans hcompleted
    exact ⟨r, b, m, hearlier, hstatus, _, hwhole⟩

end Block

end ChainReplay
