import ChainReplay.Proofs.Replay.Loop

/-! What replaying a block ends with. -/

namespace ChainReplay.Block

lemma scan_spec (b : Block) (l : Ledger) (entries : List (Transaction × Nat)) :
    ∃ m r, b.scan l entries = (m, r) ∧ m.engine = l.engine ∧ m.contracts = l.contracts ∧
      ∀ skipped, r = .ok skipped → ∀ entry ∈ entries,
        skipped.contains (entry.2 : Int) = false → l.hasContract entry.1.target = true := by
  induction entries generalizing l with
  | nil => exact ⟨l, .ok [], rfl, rfl, rfl, fun _ _ _ h => nomatch h⟩
  | cons entry rest ih =>
    obtain ⟨tx, index⟩ := entry
    rw [scan]
    split
    case isTrue hknown =>
      obtain ⟨m, r, hscan, hengine, hcontracts, hspec⟩ := ih l
      refine ⟨m, r, hscan, hengine, hcontracts, fun skipped hr entry hmem hs => ?_⟩
      rcases List.mem_cons.mp hmem with rfl | hmem
      · exact hknown
      · exact hspec skipped hr entry hmem hs
    case isFalse hunknown =>
      split
      case isTrue =>
        obtain ⟨m, r, hscan, hengine, hcontracts, hspec⟩ := ih (l.note .debug
          ("skipping transaction #" ++ Text.ofNat index ++ ", contract " ++ tx.target.text
            ++ " is not loaded"))
        refine ⟨m, r.map ((index : Int) :: ·), by simp only [hscan], hengine, hcontracts, ?_⟩
        intro skipped hr entry hmem hs
        cases r with
        | error f => cases hr
        | ok rest =>
          cases hr
          rw [List.contains_cons, Bool.or_eq_false_iff] at hs
          rcases List.mem_cons.mp hmem with rfl | hmem
          · simp at hs
          · exact hspec rest rfl entry hmem hs.2
      case isFalse => exact ⟨_, _, rfl, rfl, rfl, fun _ h => nomatch h⟩

/-- The block passes its check, and its loop arrives at a transaction without a form for contracts.
-/
def Arrives (fuel : Nat) (b : Block) (l : Ledger) : Prop :=
  ∃ skipped b' m, b.verify l = (skipped, b', m) ∧ b'.status = .verified ∧
    Hits fuel { b' with status := .executing } skipped
      ⟨b'.height, b'.status, [], skipped, 0, none, []⟩ b'.transactions.zipIdx
      { m with blockNumber := b'.height }

lemma verify_of_scan_ok {b : Block} {l m : Ledger} {skipped : List Int}
    (hstatus : b.status ≠ .failed)
    (hscan : b.scan l b.transactions.zipIdx = (m, .ok skipped)) :
    b.verify l = (skipped, { b with status := .verified }, m) := by
  rw [verify, if_neg hstatus, hscan]

lemma verify_of_scan_error {b : Block} {l m : Ledger} {failure : ReplayFailure}
    (hstatus : b.status ≠ .failed)
    (hscan : b.scan l b.transactions.zipIdx = (m, .error failure)) :
    b.verify l = ([], b.fail failure, m) := by
  rw [verify, if_neg hstatus, hscan]

/-- A new block either fails its check, or goes on with the ledger that it was given. -/
lemma verify_create (height : Int) (transactions : List Transaction)
    (ignoreUnknown allowReverts : Bool) (l : Ledger) :
    (∃ failure m, (create height transactions ignoreUnknown allowReverts).verify l =
      ([], (create height transactions ignoreUnknown allowReverts).fail failure, m)) ∨
    ∃ skipped m, (create height transactions ignoreUnknown allowReverts).verify l =
        (skipped,
          { create height transactions ignoreUnknown allowReverts with status := .verified }, m) ∧
      l.Extends m ∧ ∀ entry ∈ transactions.zipIdx, skipped.contains (entry.2 : Int) = false →
        m.hasContract entry.1.target = true := by
  obtain ⟨m, r, hscan, hengine, hcontracts, hspec⟩ :=
    scan_spec (create height transactions ignoreUnknown allowReverts) l transactions.zipIdx
  have hhas (a : Address) : m.hasContract a = l.hasContract a := by
    simp only [Ledger.hasContract]
    rw [hcontracts]
  cases r with
  | error failure => exact .inl ⟨failure, m, verify_of_scan_error ReplayStatus.noConfusion hscan⟩
  | ok skipped =>
    have hverify := verify_of_scan_ok ReplayStatus.noConfusion hscan
    refine .inr ⟨skipped, m, hverify, ⟨hengine, fun a h => (hhas a).trans h⟩, ?_⟩
    exact fun entry hmem hs => (hhas _).trans (hspec skipped rfl entry hmem hs)

def concluded (b : Block) :
    Except Failure (ReplayResult × Option ReplayFailure) × Ledger →
      Except Failure ReplayResult × Block × Ledger
  | (.error f, l) => (.error f, b, l)
  | (.ok (r, failure), l) =>
    let (r, b, l) := finish b r failure l
    (.ok r, b, l)

lemma replay_of_verify {b b' : Block} {l m : Ledger} {skipped : List Int} (fuel : Nat)
    (hverify : b.verify l = (skipped, b', m)) (hstatus : b'.status = .verified) :
    b.replay fuel l = ((executeAll fuel { b' with status := .executing }
      ⟨b'.height, b'.status, [], skipped, 0, none, []⟩ b'.transactions.zipIdx).outcome
        { m with blockNumber := b'.height }).map (concluded { b' with status := .executing }) := by
  simp only [replay, hverify]
  rw [if_neg (by rw [hstatus]; exact ReplayStatus.noConfusion)]
  rfl

lemma arrives_iff {b b' : Block} {l m : Ledger} {skipped : List Int} (fuel : Nat)
    (hverify : b.verify l = (skipped, b', m)) (hstatus : b'.status = .verified) :
    b.Arrives fuel l ↔ Hits fuel { b' with status := .executing } skipped
      ⟨b'.height, b'.status, [], skipped, 0, none, []⟩ b'.transactions.zipIdx
      { m with blockNumber := b'.height } := by
  refine ⟨?_, fun h => ⟨skipped, b', m, hverify, hstatus, h⟩⟩
  rintro ⟨_, _, _, hverify', _, hhits⟩
  rw [hverify] at hverify'
  cases hverify'
  exact hhits

lemma not_arrives_of_fail {b : Block} {l m : Ledger} {failure : ReplayFailure} {fuel : Nat}
    (hverify : b.verify l = ([], b.fail failure, m)) : ¬b.Arrives fuel l := by
  rintro ⟨_, _, _, hverify', hstatus, _⟩
  rw [hverify] at hverify'
  cases hverify'
  cases hstatus

lemma not_viewable_of_hits {fuel : Nat} {b : Block} {skipped : List Int} {r : ReplayResult}
    {transactions : List Transaction} {l : Ledger}
    (h : Hits fuel b skipped r transactions.zipIdx l) :
    ∃ tx ∈ transactions, tx.txId.length = 32 ∧ ¬tx.Viewable := by
  obtain ⟨before, entry, after, _, _, hsplit, _, _, hid, hnot⟩ := h
  have hentry : entry ∈ transactions.zipIdx := by simp [hsplit]
  have hmem : entry.1 ∈ transactions := (List.mem_zipIdx' hentry).2 ▸ List.getElem_mem _
  exact ⟨entry.1, hmem, hid, hnot⟩

lemma finish_final {b : Block} (hb : b.failure = none) (r : ReplayResult)
    (failure : Option ReplayFailure) (l : Ledger) :
    ((finish b r failure l).1.status = .completed ∨ (finish b r failure l).1.status = .failed) ∧
      ((finish b r failure l).1.failure.isSome = true ↔
        (finish b r failure l).1.status = .failed) := by
  cases failure with
  | none =>
    refine ⟨.inl rfl, fun h => ?_, nofun⟩
    change b.failure.isSome = true at h
    rw [hb] at h
    cases h
  | some failure => exact ⟨.inr rfl, fun _ => rfl, fun _ => rfl⟩

/-- Where all calls terminate, replaying a block has an outcome. Either this is an error, exactly if
the loop arrives at a transaction whose inputs or outputs have no form for contracts, or the block
has completed or failed, and reports a failure exactly if it has failed. -/
theorem replay_reaches_final_state {l : Ledger} (hterm : l.Terminates) (height : Int)
    (transactions : List Transaction) (ignoreUnknown allowReverts : Bool) :
    ∃ n, ∀ fuel, n ≤ fuel → ∃ result b l',
      (create height transactions ignoreUnknown allowReverts).replay fuel l =
        some (result, b, l') ∧
      (∀ r, result = .ok r → (r.status = .completed ∨ r.status = .failed) ∧
        (r.failure.isSome = true ↔ r.status = .failed)) ∧
      ((∃ f, result = .error f) ↔
        (create height transactions ignoreUnknown allowReverts).Arrives fuel l) ∧
      ((∀ tx ∈ transactions, tx.txId.length = 32 → tx.Viewable) → ∃ r, result = .ok r) := by
  obtain ⟨failure, m, hverify⟩ | ⟨skipped, m, hverify, hext, hknown⟩ :=
    verify_create height transactions ignoreUnknown allowReverts l
  · refine ⟨0, fun fuel _ => ⟨_, _, _, by rw [replay, hverify]; rfl, ?_, ?_, fun _ => ⟨_, rfl⟩⟩⟩
    · rintro r ⟨⟩
      exact ⟨.inr rfl, fun _ => rfl, fun _ => rfl⟩
    · exact ⟨nofun, fun h => absurd h (not_arrives_of_fail hverify)⟩
  · obtain ⟨n, o, m', hloop⟩ := outcome_executeAll (l := { m with blockNumber := height })
      (fun m' he => hterm m' (he.trans hext.engine))
      { create height transactions ignoreUnknown allowReverts with status := .executing }
      ⟨height, .verified, [], skipped, 0, none, []⟩ transactions.zipIdx hknown
    refine ⟨n, fun fuel hfuel => ?_⟩
    obtain ⟨hrun, hiff⟩ := hloop fuel hfuel
    have harrives := arrives_iff fuel hverify rfl
    have hreplay := (replay_of_verify fuel hverify rfl).trans (congrArg (Option.map _) hrun)
    cases o with
    | error f =>
      have hhits := hiff.mp ⟨f, rfl⟩
      refine ⟨.error f, _, _, hreplay, nofun, ⟨fun _ => harrives.mpr hhits, fun _ => ⟨f, rfl⟩⟩, ?_⟩
      intro hview
      obtain ⟨tx, hmem, hid, hnot⟩ := not_viewable_of_hits hhits
      exact absurd (hview tx hmem hid) hnot
    | ok result =>
      obtain ⟨r, failure⟩ := result
      refine ⟨.ok (finish _ r failure m').1, _, _, hreplay, ?_, ?_, fun _ => ⟨_, rfl⟩⟩
      · rintro _ ⟨⟩
        exact finish_final rfl r failure m'
      · exact ⟨nofun, fun h => nomatch hiff.mpr (harrives.mp h)⟩

lemma replay_single_of_not_viewable {l : Ledger} {tx : Transaction}
    (hknown : l.hasContract tx.target = true) (hid : tx.txId.length = 32) (hview : ¬tx.Viewable)
    (fuel : Nat) (height : Int) (ignoreUnknown allowReverts : Bool) :
    ∃ f b l', (create height [tx] ignoreUnknown allowReverts).replay fuel l =
      some (.error f, b, l') := by
  have hverify : (create height [tx] ignoreUnknown allowReverts).verify l =
      ([], { create height [tx] ignoreUnknown allowReverts with status := .verified }, l) := by
    simp [verify, create, scan, hknown]
  obtain ⟨f, hrun⟩ := outcome_present_of_not_viewable 0 ⟨height, .verified, [], [], 0, none, []⟩
    { l with blockNumber := height } hview
  have hone := (outcome_executeOne_of_known fuel 0 ⟨height, .verified, [], [], 0, none, []⟩
    (l := { l with blockNumber := height }) hid hknown).trans (hrun fuel)
  have hround : (round fuel
      { create height [tx] ignoreUnknown allowReverts with status := .executing }
      ⟨height, .verified, [], [], 0, none, []⟩ (tx, 0)).outcome { l with blockNumber := height } =
        some (.error f, { l with blockNumber := height }) := outcome_round_of_error rfl hone
  refine ⟨f, { create height [tx] ignoreUnknown allowReverts with status := .executing },
    { l with blockNumber := height }, ?_⟩
  have hloop := (outcome_executeAll_cons fuel _ _ (tx, 0) [] _).trans
    (congrArg (Option.bind · _) hround)
  exact (replay_of_verify fuel hverify rfl).trans (congrArg (Option.map _) hloop)

section Inputs

/-- An engine whose programs give an empty reply. -/
def silent : Engine where
  instantiate _ := .ok
    { refusal := none
      construct := fun _ _ => .done []
      execute := fun _ _ => .done [] }

lemma closed_silent : silent.Closed := by
  rintro parameters i ⟨⟩
  exact ⟨fun _ _ => .done [], fun _ _ => .done []⟩

lemma terminates_of_closed {l : Ledger} {engine : Engine} (he : l.engine = some engine)
    (hclosed : engine.Closed) : l.Terminates := by
  intro m hm a calldata sender origin
  refine ⟨0, ?_⟩
  rw [Run.perform_eq, Option.isSome_map]
  exact Run.isSome_outcome_execute hclosed (hm.trans he) calldata sender origin

/-- A transaction that spends an output with this index. -/
def spending (outputIndex : Int) : Transaction :=
  { Transaction.plain [] 1 (Bytes.zeros 32) 0 Address.zero [] Address.zero [] with
    inputs := [⟨[], outputIndex, none, 0⟩] }

def silentLedger : Ledger := .standing silent [Address.zero]

/-- The largest index that has a form. -/
theorem replay_reaches_final_state_of_spending :
    silentLedger.Terminates ∧ ∃ n, ∀ fuel, n ≤ fuel → ∃ r b l',
      (create 7 [spending (2 ^ 32 - 1)] false false).replay fuel silentLedger =
        some (.ok r, b, l') ∧ (r.status = .completed ∨ r.status = .failed) := by
  have hterm : silentLedger.Terminates := terminates_of_closed rfl closed_silent
  refine ⟨hterm, ?_⟩
  obtain ⟨n, hreplay⟩ := replay_reaches_final_state hterm 7 [spending (2 ^ 32 - 1)] false false
  refine ⟨n, fun fuel hfuel => ?_⟩
  obtain ⟨result, b, l', hrun, hfinal, _, hok⟩ := hreplay fuel hfuel
  have hview : (spending (2 ^ 32 - 1)).Viewable := by
    refine ⟨by decide, ?_, by decide, fun o ho => absurd ho List.not_mem_nil⟩
    intro i hi
    rw [List.mem_singleton.mp hi]
    exact ⟨by decide, by decide, by decide⟩
  obtain ⟨r, rfl⟩ := hok fun tx hmem _ => List.mem_singleton.mp hmem ▸ hview
  exact ⟨r, b, l', hrun, (hfinal r rfl).1⟩

/-- The first index that has none, in a transaction that is read from a document. -/
theorem replay_raises_on_spending :
    ¬ ∀ (l : Ledger) (height : Int) (transactions : List Transaction)
      (ignoreUnknown allowReverts : Bool), l.Terminates →
      (∀ tx ∈ transactions, ∃ document, Transaction.ofJson document = .ok tx) →
      ∃ n, ∀ fuel, n ≤ fuel → ∃ r b l',
        (create height transactions ignoreUnknown allowReverts).replay fuel l =
          some (.ok r, b, l') := by
  intro h
  have hread : Transaction.ofJson (spending (2 ^ 32)).toJson = .ok (spending (2 ^ 32)) := by
    have hsome : (Transaction.ofJson (spending (2 ^ 32)).toJson).toOption =
      some (spending (2 ^ 32)) := by decide +kernel
    cases hdocument : Transaction.ofJson (spending (2 ^ 32)).toJson with
    | error f =>
      rw [hdocument] at hsome
      cases hsome
    | ok tx =>
      rw [hdocument] at hsome
      exact congrArg Except.ok (Option.some.inj hsome)
  have hview : ¬(spending (2 ^ 32)).Viewable := by
    intro hv
    exact absurd (hv.inputs _ (List.mem_singleton.mpr rfl)).outputIndex.2 (by decide)
  obtain ⟨n, hn⟩ := h silentLedger 7 [spending (2 ^ 32)] false false
    (terminates_of_closed rfl closed_silent)
    fun tx hmem => ⟨_, List.mem_singleton.mp hmem ▸ hread⟩
  obtain ⟨r, b, l', hrun⟩ := hn n (Nat.le_refl n)
  have hknown : silentLedger.hasContract (spending (2 ^ 32)).target = true := by decide +kernel
  obtain ⟨f, b', m, hraise⟩ :=
    replay_single_of_not_viewable hknown (by decide) hview n 7 false false
  rw [hraise] at hrun
  cases hrun

end Inputs

end ChainReplay.Block
