import ChainReplay.Proofs.Decoding
import ChainReplay.Proofs.Replay.FinalState

/-! What the lists in a result say about the transactions of a block. -/

namespace ChainReplay

lemma Chain.outcome_bind_eq_ok {α β : Type} {x : Chain α} {k : α → Chain β} {l n : Ledger} {b : β} :
    (x >>= k).outcome l = some (.ok b, n) ↔
      ∃ a m, x.outcome l = some (.ok a, m) ∧ (k a).outcome m = some (.ok b, n) := by
  rw [outcome_bind]
  rcases x.outcome l with _ | ⟨_ | a, m⟩
  · simp
  · simp
  · simp only [Option.bind_some, Option.some.injEq, Prod.mk.injEq, Except.ok.injEq]
    exact ⟨fun h => ⟨a, m, ⟨rfl, rfl⟩, h⟩, by rintro ⟨_, _, ⟨rfl, rfl⟩, h⟩; exact h⟩

namespace Block

open Decoding

def positions (entries : List (Transaction × Nat)) : List Int :=
  entries.map fun entry => (entry.2 : Int)

@[simp] lemma positions_nil : positions [] = [] := rfl

@[simp] lemma positions_cons (entry : Transaction × Nat) (entries : List (Transaction × Nat)) :
    positions (entry :: entries) = (entry.2 : Int) :: positions entries := rfl

lemma positions_append (xs ys : List (Transaction × Nat)) :
    positions (xs ++ ys) = positions xs ++ positions ys := List.map_append

/-- The indexes of the transactions with a property. -/
def indexes (p : Transaction × Nat → Bool) (entries : List (Transaction × Nat)) : List Int :=
  positions (entries.filter p)

lemma mem_indexes {p : Transaction × Nat → Bool} {entries : List (Transaction × Nat)} {i : Int} :
    i ∈ indexes p entries ↔ ∃ entry ∈ entries, p entry = true ∧ (entry.2 : Int) = i := by
  simp only [indexes, positions, List.mem_map, List.mem_filter, and_assoc]

lemma pairwise_positions (transactions : List Transaction) :
    (positions transactions.zipIdx).Pairwise (· < ·) := by
  have hmap : positions transactions.zipIdx = (List.range' 0 transactions.length).map Nat.cast := by
    rw [← List.zipIdx_map_snd, List.map_map]
    rfl
  rw [hmap, List.pairwise_map]
  exact (List.pairwise_lt_range' 1).imp Int.ofNat_lt.mpr

lemma indexes_sublist (p : Transaction × Nat → Bool) (entries : List (Transaction × Nat)) :
    (indexes p entries).Sublist (positions entries) :=
  List.filter_sublist.map _

lemma scan_skipped {b : Block} {l m : Ledger} {entries : List (Transaction × Nat)}
    {skipped : List Int} (h : b.scan l entries = (m, .ok skipped)) :
    skipped = indexes (fun entry => !l.hasContract entry.1.target) entries := by
  induction entries generalizing l skipped with
  | nil =>
    cases h
    rfl
  | cons entry rest ih =>
    obtain ⟨tx, index⟩ := entry
    rw [scan] at h
    split at h
    case isTrue hknown =>
      rw [ih h, indexes, indexes, List.filter_cons_of_neg (by simp [hknown])]
    case isFalse hunknown =>
      split at h
      case isFalse => cases h
      case isTrue =>
        rw [indexes, List.filter_cons_of_pos (by simp [hunknown]), positions_cons]
        generalize hnote : l.note .debug _ = l' at h
        have hsame : l'.hasContract = l.hasContract := hnote ▸ rfl
        rcases hscan : b.scan l' rest with ⟨m', f | others⟩
        · simp [hscan, Except.map] at h
        · simp only [hscan, Except.map] at h
          cases h
          rw [ih hscan, hsame]
          rfl

lemma judge_spec {index : Nat} {tx : Transaction} {response : CallResponse} {r r' : ReplayResult}
    {failure : Option ReplayFailure} {l m : Ledger}
    (h : (judge index tx response r).outcome l = some (.ok (r', failure), m)) :
    r' = r ∧ ∀ f ∈ failure, f.index = index := by
  rw [judge] at h
  split at h
  · obtain ⟨_, _, -, h⟩ := Chain.outcome_bind_eq_ok.mp h
    obtain ⟨_, _, -, h⟩ := Chain.outcome_bind_eq_ok.mp h
    cases h
    exact ⟨rfl, fun f hf => absurd hf (Option.not_mem_none f)⟩
  · next f _ =>
    obtain ⟨_, _, -, h⟩ := Chain.outcome_bind_eq_ok.mp h
    have hfailure : r' = r ∧ failure = some (failureOf index tx f) := by
      split at h
      · obtain ⟨_, _, -, h⟩ := Chain.outcome_bind_eq_ok.mp h
        cases h
        exact ⟨rfl, rfl⟩
      · cases h
        exact ⟨rfl, rfl⟩
    obtain ⟨rfl, rfl⟩ := hfailure
    refine ⟨rfl, ?_⟩
    rintro _ ⟨⟩
    rw [failureOf]
    split <;> rfl

lemma hasContract_of_executeOne {fuel index : Nat} {tx : Transaction} {r : ReplayResult}
    {o : ReplayResult × Option ReplayFailure} {l m : Ledger} (hid : tx.txId.length = 32)
    (h : (executeOne fuel index tx r).outcome l = some (.ok o, m)) :
    l.hasContract tx.target = true := by
  rw [executeOne] at h
  rw [if_neg (fun hwrong => hwrong hid), Chain.outcome_bind_of_ok (Chain.outcome_get l)] at h
  obtain ⟨c, _, hcontract, -⟩ := Chain.outcome_bind_eq_ok.mp h
  rw [Chain.outcome_liftM, Ledger.contract?] at hcontract
  rw [Ledger.hasContract, Table.contains]
  cases hfind : l.contracts.find? tx.target with
  | some c => rfl
  | none =>
    rw [hfind] at hcontract
    cases hcontract

lemma executeOne_spec {fuel index : Nat} {tx : Transaction} {r r' : ReplayResult}
    {failure : Option ReplayFailure} {l m : Ledger}
    (h : (executeOne fuel index tx r).outcome l = some (.ok (r', failure), m)) :
    (∀ f ∈ failure, f.index = index) ∧
      if tx.txId.length = 32 then ∃ gas, r' = addExecuted r index gas
      else r' = r ∧ failure.isSome = true := by
  by_cases hid : tx.txId.length = 32
  case neg =>
    rw [executeOne] at h
    rw [if_pos hid] at h
    cases h
    rw [if_neg hid]
    refine ⟨?_, rfl, rfl⟩
    rintro f ⟨⟩
    rfl
  case pos =>
    rw [if_pos hid]
    rw [outcome_executeOne_of_known fuel index r hid (hasContract_of_executeOne hid h), present] at h
    obtain ⟨_, _, -, h⟩ := Chain.outcome_bind_eq_ok.mp h
    obtain ⟨_, _, -, h⟩ := Chain.outcome_bind_eq_ok.mp h
    obtain ⟨response, _, -, h⟩ := Chain.outcome_bind_eq_ok.mp h
    obtain ⟨rfl, hindex⟩ := judge_spec h
    exact ⟨hindex, response.usedGas, rfl⟩

/-- The transaction is run, and has an identifier of the right length. -/
def runs (skipped : List Int) (entry : Transaction × Nat) : Bool :=
  !skipped.contains (entry.2 : Int) && decide (entry.1.txId.length = 32)

lemma runs_of_skipped {skipped : List Int} {entry : Transaction × Nat}
    (h : skipped.contains (entry.2 : Int) = true) : ¬runs skipped entry = true := by
  rw [runs, h]
  exact Bool.false_ne_true

lemma runs_iff {skipped : List Int} {entry : Transaction × Nat}
    (h : skipped.contains (entry.2 : Int) = false) :
    runs skipped entry = true ↔ entry.1.txId.length = 32 := by
  rw [runs, h, Bool.not_false, Bool.true_and, decide_eq_true_iff]

/-- What running some transactions adds to a result if none of them ends the replay. -/
structure Adds (b : Block) (entries : List (Transaction × Nat)) (r r' : ReplayResult) : Prop where
  skipped : r'.skipped = r.skipped
  executed : r'.executed = r.executed ++ indexes (runs r.skipped) entries
  tolerated : ∃ reverted more, List.Sublist reverted entries ∧
    r'.tolerated = r.tolerated ++ more ∧
    more.map (·.index) = positions reverted ∧
    (∀ entry ∈ reverted, r.skipped.contains (entry.2 : Int) = false ∧
      entry.1.revert.isSome = true ∧ b.allowReverts = true) ∧
    ∀ entry ∈ entries, r.skipped.contains (entry.2 : Int) = false → entry.1.txId.length ≠ 32 →
      entry ∈ reverted

variable {b : Block} {r r' r'' : ReplayResult}

lemma height_of_settle {tx : Transaction} {failure failure' : Option ReplayFailure} {l m : Ledger}
    (h : (settle b tx (r, failure)).outcome l = some (.ok (r', failure'), m)) :
    r'.height = r.height := by
  cases failure with
  | none =>
    cases h
    rfl
  | some f =>
    rw [settle] at h
    split at h
    case isTrue =>
      obtain ⟨_, _, -, h⟩ := Chain.outcome_bind_eq_ok.mp h
      cases h
      rfl
    case isFalse =>
      split at h
      · obtain ⟨_, _, -, h⟩ := Chain.outcome_bind_eq_ok.mp h
        cases h
        rfl
      · cases h
        rfl

lemma height_of_round {fuel : Nat} {entry : Transaction × Nat} {failure : Option ReplayFailure}
    {l m : Ledger}
    (h : (round fuel b r entry).outcome l = some (.ok (r', failure), m)) :
    r'.height = r.height := by
  rw [round] at h
  split at h
  case isTrue =>
    cases h
    rfl
  case isFalse =>
    obtain ⟨⟨r₁, failure₁⟩, m₁, hone, h⟩ := Chain.outcome_bind_eq_ok.mp h
    have hr₁ : r₁.height = r.height := by
      have hspec := (executeOne_spec hone).2
      split at hspec
      · obtain ⟨gas, rfl⟩ := hspec
        rfl
      · rw [hspec.1]
    rw [height_of_settle h, hr₁]

lemma height_of_executeAll {fuel : Nat} {entries : List (Transaction × Nat)}
    {failure : Option ReplayFailure} {l m : Ledger}
    (h : (executeAll fuel b r entries).outcome l = some (.ok (r', failure), m)) :
    r'.height = r.height := by
  induction entries generalizing r l with
  | nil =>
    cases h
    rfl
  | cons entry rest ih =>
    rw [outcome_executeAll_cons, Option.bind_eq_some_iff] at h
    obtain ⟨⟨_ | ⟨r₁, _ | f⟩, m₁⟩, hround, h⟩ := h
    · cases h
    · exact (ih h).trans (height_of_round hround)
    · cases h
      exact height_of_round hround

lemma Adds.refl : Adds b [] r r where
  skipped := rfl
  executed := (List.append_nil _).symm
  tolerated := ⟨[], [], .slnil, (List.append_nil _).symm, rfl,
    fun _ h => absurd h List.not_mem_nil, fun _ h => absurd h List.not_mem_nil⟩

lemma Adds.append {xs ys : List (Transaction × Nat)} (hxs : Adds b xs r r')
    (hys : Adds b ys r' r'') : Adds b (xs ++ ys) r r'' := by
  obtain ⟨revertedX, moreX, hsubX, htolX, hindexX, hrevX, hwrongX⟩ := hxs.tolerated
  obtain ⟨revertedY, moreY, hsubY, htolY, hindexY, hrevY, hwrongY⟩ := hys.tolerated
  rw [hxs.skipped] at hrevY hwrongY
  refine ⟨hys.skipped.trans hxs.skipped, ?_, revertedX ++ revertedY, moreX ++ moreY,
    hsubX.append hsubY, ?_, ?_, ?_, ?_⟩
  · rw [hys.executed, hxs.executed, hxs.skipped, indexes, indexes, indexes, List.filter_append,
      positions_append, List.append_assoc]
  · rw [htolY, htolX, List.append_assoc]
  · rw [List.map_append, hindexX, hindexY, positions_append]
  · exact List.forall_mem_append.mpr ⟨hrevX, hrevY⟩
  · refine List.forall_mem_append.mpr ⟨fun entry hentry hs hid => ?_, fun entry hentry hs hid => ?_⟩
    · exact List.mem_append_left _ (hwrongX entry hentry hs hid)
    · exact List.mem_append_right _ (hwrongY entry hentry hs hid)

lemma settle_spec {tx : Transaction} {failure : Option ReplayFailure} {l m : Ledger}
    (h : (settle b tx (r, failure)).outcome l = some (.ok (r', none), m)) :
    match failure with
    | none => r' = r
    | some f => b.allowReverts = true ∧ tx.revert.isSome = true ∧
        r' = { r with tolerated := r.tolerated ++ [f] } := by
  cases failure with
  | none =>
    cases h
    rfl
  | some f =>
    rw [settle] at h
    split at h
    case isTrue hallowed =>
      obtain ⟨_, _, -, h⟩ := Chain.outcome_bind_eq_ok.mp h
      cases h
      exact ⟨(Bool.and_eq_true_iff.mp hallowed).1, (Bool.and_eq_true_iff.mp hallowed).2, rfl⟩
    case isFalse =>
      split at h
      · obtain ⟨_, _, -, h⟩ := Chain.outcome_bind_eq_ok.mp h
        cases h
      · cases h

lemma adds_of_round {fuel : Nat} {entry : Transaction × Nat} {l m : Ledger}
    (h : (round fuel b r entry).outcome l = some (.ok (r', none), m)) : Adds b [entry] r r' := by
  obtain ⟨tx, index⟩ := entry
  rw [round] at h
  cases hskip : r.skipped.contains (index : Int) with
  | true =>
    rw [if_pos hskip] at h
    cases h
    refine ⟨rfl, ?_, [], [], List.nil_sublist _, (List.append_nil _).symm, rfl,
      fun _ h => absurd h List.not_mem_nil, fun entry hentry hs => ?_⟩
    · rw [indexes, List.filter_cons_of_neg (runs_of_skipped hskip), List.filter_nil,
        positions_nil, List.append_nil]
    · rw [List.mem_singleton.mp hentry, hskip] at hs
      cases hs
  | false =>
    rw [if_neg (hskip ▸ Bool.false_ne_true)] at h
    obtain ⟨⟨r₁, failure⟩, m₁, hone, h⟩ := Chain.outcome_bind_eq_ok.mp h
    obtain ⟨hindex, hresult⟩ := executeOne_spec hone
    have hsettle := settle_spec h
    have hexecuted : r₁.skipped = r.skipped ∧ r₁.tolerated = r.tolerated ∧
        r₁.executed = r.executed ++ indexes (runs r.skipped) [(tx, index)] := by
      by_cases hid : tx.txId.length = 32
      · rw [if_pos hid] at hresult
        obtain ⟨gas, rfl⟩ := hresult
        rw [indexes, List.filter_cons_of_pos ((runs_iff hskip).mpr hid), List.filter_nil]
        exact ⟨rfl, rfl, rfl⟩
      · rw [if_neg hid] at hresult
        rw [indexes, List.filter_cons_of_neg (mt (runs_iff hskip).mp hid), List.filter_nil, hresult.1]
        exact ⟨rfl, rfl, (List.append_nil _).symm⟩
    obtain ⟨hskipped, htolerated, hexecuted⟩ := hexecuted
    cases failure with
    | none =>
      rw [hsettle]
      refine ⟨hskipped, hexecuted, [], [], List.nil_sublist _, ?_, rfl,
        fun _ h => absurd h List.not_mem_nil, fun entry hentry _ hid => ?_⟩
      · rw [htolerated, List.append_nil]
      · obtain rfl := List.mem_singleton.mp hentry
        rw [if_neg hid] at hresult
        cases hresult.2
    | some f =>
      obtain ⟨hallowed, hrevert, rfl⟩ := hsettle
      refine ⟨hskipped, hexecuted, [(tx, index)], [f], .refl _, ?_, ?_, ?_, fun _ h _ _ => h⟩
      · rw [htolerated]
      · rw [List.map_singleton, hindex f rfl, positions_cons, positions_nil]
      · intro entry hentry
        obtain rfl := List.mem_singleton.mp hentry
        exact ⟨hskip, hrevert, hallowed⟩

theorem adds_of_executeAll {fuel : Nat} {entries : List (Transaction × Nat)} {l m : Ledger}
    (h : (executeAll fuel b r entries).outcome l = some (.ok (r', none), m)) :
    Adds b entries r r' := by
  induction entries generalizing r l with
  | nil =>
    cases h
    exact .refl
  | cons entry rest ih =>
    rw [outcome_executeAll_cons, Option.bind_eq_some_iff] at h
    obtain ⟨⟨_ | ⟨r₁, _ | failure⟩, m₁⟩, hround, h⟩ := h
    · cases h
    · exact (adds_of_round hround).append (ih h)
    · cases h

/-- What the lists in the result of a block say about its transactions. -/
structure Accounts (b : Block) (l : Ledger) (r : ReplayResult) : Prop where
  executed_increasing : r.executed.Pairwise (· < ·)
  skipped_increasing : r.skipped.Pairwise (· < ·)
  tolerated_increasing : (r.tolerated.map (·.index)).Pairwise (· < ·)
  disjoint : ∀ i ∈ r.executed, i ∉ r.skipped
  covered : ∀ i, i ∈ r.executed ∨ i ∈ r.skipped ∨ i ∈ r.tolerated.map (·.index) ↔
    ∃ n < b.transactions.length, (n : Int) = i
  skipped_iff : ∀ (n : Nat) (tx : Transaction), b.transactions[n]? = some tx →
    ((n : Int) ∈ r.skipped ↔ l.hasContract tx.target = false)
  executed_iff : ∀ (n : Nat) (tx : Transaction), b.transactions[n]? = some tx →
    ((n : Int) ∈ r.executed ↔ l.hasContract tx.target = true ∧ tx.txId.length = 32)
  tolerated : ∀ f ∈ r.tolerated, ∃ (n : Nat) (tx : Transaction), b.transactions[n]? = some tx ∧
    (n : Int) = f.index ∧ l.hasContract tx.target = true ∧ tx.revert.isSome = true ∧
    b.allowReverts = true

lemma replay_completed {fuel : Nat} {b' : Block} {l l' : Ledger}
    (h : b.replay fuel l = some (.ok r, b', l')) (hcompleted : r.status = .completed) :
    ∃ skipped m m' r₀, b.scan l b.transactions.zipIdx = (m, .ok skipped) ∧
      (executeAll fuel { b with status := .executing }
        ⟨b.height, .verified, [], skipped, 0, none, []⟩ b.transactions.zipIdx).outcome
          { m with blockNumber := b.height } = some (.ok (r₀, none), m') ∧
      r = { r₀ with status := .completed, failure := b.failure } := by
  by_cases hstatus : b.status = .failed
  · have hverify : b.verify l = ([], b, l) := by rw [verify, if_pos hstatus]
    simp only [replay, hverify, if_pos hstatus] at h
    cases h
    cases hstatus.symm.trans hcompleted
  · rcases hscan : b.scan l b.transactions.zipIdx with ⟨m, f | skipped⟩
    · simp only [replay, verify_of_scan_error hstatus hscan] at h
      cases h
      cases hcompleted
    · rw [replay_of_verify fuel (verify_of_scan_ok hstatus hscan) rfl, Option.map_eq_some_iff] at h
      obtain ⟨⟨f | ⟨r₀, failure⟩, m'⟩, hrun, h⟩ := h
      · cases h
      · cases failure with
        | none =>
          cases h
          exact ⟨skipped, m, m', r₀, rfl, hrun, rfl⟩
        | some failure =>
          cases h
          cases hcompleted

lemma mem_indexes_zipIdx {p : Transaction × Nat → Bool} {transactions : List Transaction} {n : Nat}
    {tx : Transaction} (htx : transactions[n]? = some tx) :
    (n : Int) ∈ indexes p transactions.zipIdx ↔ p (tx, n) = true := by
  rw [mem_indexes]
  constructor
  · rintro ⟨⟨tx', n'⟩, hmem, hp, heq⟩
    obtain rfl : n' = n := Int.ofNat_inj.mp heq
    rw [List.mk_mem_zipIdx_iff_getElem?, htx] at hmem
    cases hmem
    exact hp
  · exact fun hp => ⟨(tx, n), List.mk_mem_zipIdx_iff_getElem?.mpr htx, hp, rfl⟩

lemma indexes_congr {p q : Transaction × Nat → Bool} {entries : List (Transaction × Nat)}
    (h : ∀ entry ∈ entries, p entry = q entry) : indexes p entries = indexes q entries := by
  rw [indexes, indexes, List.filter_congr h]

/-- The lists of a block that completes, with the transactions that it has tolerated. -/
lemma replay_lists {fuel : Nat} {b' : Block} {l l' : Ledger}
    (h : b.replay fuel l = some (.ok r, b', l')) (hcompleted : r.status = .completed) :
    r.skipped = indexes (fun entry => !l.hasContract entry.1.target) b.transactions.zipIdx ∧
    r.executed = indexes (fun entry => l.hasContract entry.1.target &&
      decide (entry.1.txId.length = 32)) b.transactions.zipIdx ∧
    ∃ reverted, List.Sublist reverted b.transactions.zipIdx ∧
      r.tolerated.map (·.index) = positions reverted ∧
      (∀ entry ∈ reverted, l.hasContract entry.1.target = true ∧ entry.1.revert.isSome = true ∧
        b.allowReverts = true) ∧
      ∀ entry ∈ b.transactions.zipIdx, l.hasContract entry.1.target = true →
        entry.1.txId.length ≠ 32 → entry ∈ reverted := by
  obtain ⟨skipped, m, m', r₀, hscan, hrun, rfl⟩ := replay_completed h hcompleted
  obtain ⟨hsame, hexecuted, reverted, more, hsub, htolerated, hindex, hreverted, hwrong⟩ :=
    adds_of_executeAll hrun
  dsimp only at hsame hexecuted htolerated hreverted hwrong ⊢
  have hskipped := scan_skipped hscan
  have hunknown : ∀ entry ∈ b.transactions.zipIdx,
      skipped.contains (entry.2 : Int) = !l.hasContract entry.1.target := by
    intro entry hentry
    rw [Bool.eq_iff_iff, List.contains_iff_mem, hskipped,
      mem_indexes_zipIdx (List.mk_mem_zipIdx_iff_getElem?.mp hentry)]
  rw [List.nil_append] at hexecuted htolerated
  refine ⟨hsame.trans hskipped, hexecuted.trans (indexes_congr fun entry hentry => ?_), reverted,
    hsub, htolerated ▸ hindex, fun entry hentry => ?_, fun entry hentry hknown hid => ?_⟩
  · rw [runs, hunknown entry hentry, Bool.not_not]
  · obtain ⟨hnot, hrevert, hallowed⟩ := hreverted entry hentry
    rw [hunknown entry (hsub.subset hentry), Bool.not_eq_false'] at hnot
    exact ⟨hnot, hrevert, hallowed⟩
  · exact hwrong entry hentry (by rw [hunknown entry hentry, hknown]; rfl) hid

/-- A block that completes has executed or skipped each of its transactions, but for those whose
identifiers do not have 32 bytes, which it has tolerated. -/
theorem replay_accounts {fuel : Nat} {b b' : Block} {l l' : Ledger} {r : ReplayResult}
    (h : b.replay fuel l = some (.ok r, b', l')) (hcompleted : r.status = .completed) :
    Accounts b l r := by
  obtain ⟨hskipped, hexecuted, reverted, hsub, hindex, hreverted, hwrong⟩ :=
    replay_lists h hcompleted
  have hincreasing := pairwise_positions b.transactions
  have hskippedSub := hskipped ▸ indexes_sublist _ b.transactions.zipIdx
  have hexecutedSub := hexecuted ▸ indexes_sublist _ b.transactions.zipIdx
  have htoleratedSub : (r.tolerated.map (·.index)).Sublist (positions b.transactions.zipIdx) :=
    hindex ▸ hsub.map _
  have hskipped_iff (n : Nat) (tx : Transaction) (htx : b.transactions[n]? = some tx) :
      (n : Int) ∈ r.skipped ↔ l.hasContract tx.target = false := by
    rw [hskipped, mem_indexes_zipIdx htx, Bool.not_eq_true']
  have hexecuted_iff (n : Nat) (tx : Transaction) (htx : b.transactions[n]? = some tx) :
      (n : Int) ∈ r.executed ↔ l.hasContract tx.target = true ∧ tx.txId.length = 32 := by
    rw [hexecuted, mem_indexes_zipIdx htx, Bool.and_eq_true_iff, decide_eq_true_iff]
  have hwithin (i : Int) (hi : i ∈ positions b.transactions.zipIdx) :
      ∃ (n : Nat) (tx : Transaction), b.transactions[n]? = some tx ∧ (n : Int) = i := by
    obtain ⟨⟨tx, n⟩, hmem, rfl⟩ := List.mem_map.mp hi
    exact ⟨n, tx, List.mk_mem_zipIdx_iff_getElem?.mp hmem, rfl⟩
  refine ⟨hincreasing.sublist hexecutedSub, hincreasing.sublist hskippedSub,
    hincreasing.sublist htoleratedSub, fun i hi hs => ?_, fun i => ⟨fun hi => ?_, ?_⟩,
    hskipped_iff, hexecuted_iff, fun f hf => ?_⟩
  · obtain ⟨n, tx, htx, rfl⟩ := hwithin i (hexecutedSub.subset hi)
    rw [hskipped_iff n tx htx, ((hexecuted_iff n tx htx).mp hi).1] at hs
    cases hs
  · have hmem : i ∈ positions b.transactions.zipIdx := by
      rcases hi with hi | hi | hi
      · exact hexecutedSub.subset hi
      · exact hskippedSub.subset hi
      · exact htoleratedSub.subset hi
    obtain ⟨n, tx, htx, rfl⟩ := hwithin i hmem
    exact ⟨n, (List.getElem?_eq_some_iff.mp htx).1, rfl⟩
  · rintro ⟨n, hn, rfl⟩
    have htx : b.transactions[n]? = some b.transactions[n] := List.getElem?_eq_getElem hn
    cases hknown : l.hasContract b.transactions[n].target with
    | false => exact .inr (.inl ((hskipped_iff n _ htx).mpr hknown))
    | true =>
      by_cases hid : b.transactions[n].txId.length = 32
      · exact .inl ((hexecuted_iff n _ htx).mpr ⟨hknown, hid⟩)
      -- An identity of another length is a failure, which a block that completes has tolerated.
      · have hmem := hwrong _ (List.mk_mem_zipIdx_iff_getElem?.mpr htx) hknown hid
        rw [hindex]
        exact .inr (.inr (List.mem_map_of_mem hmem))
  · have hmem : f.index ∈ positions reverted :=
      hindex ▸ List.mem_map_of_mem hf
    obtain ⟨⟨tx, n⟩, hentry, heq⟩ := List.mem_map.mp hmem
    exact ⟨n, tx, List.mk_mem_zipIdx_iff_getElem?.mp (hsub.subset hentry), heq,
      hreverted _ hentry⟩

section Inputs

/-- A transaction that was reverted on chain, with an identifier of so many bytes. -/
def revertedOnChain (length : Nat) (target : Address) : Transaction :=
  { Transaction.plain [] 7 (Bytes.zeros length) 0 Address.zero [] target [0, 0, 0, 0] with
    revert := some [] }

def absentee : Address := ⟨List.replicate 32 1, rfl⟩

/-- One that is run, one for another contract, one whose identifier is too short, and another that
is run. -/
def mixed : Block :=
  create 7 [revertedOnChain 32 Address.zero, revertedOnChain 32 absentee,
    revertedOnChain 31 Address.zero, revertedOnChain 32 Address.zero] true true

theorem replay_accounts_of_mixed : ∃ r b l, mixed.replay 0 silentLedger = some (.ok r, b, l) ∧
    r.status = .completed ∧ Accounts mixed silentLedger r ∧ r.executed = [0, 3] ∧
    r.skipped = [1] ∧ r.tolerated.map (·.index) = [2] := by
  have hrun : (mixed.replay 0 silentLedger).bind (fun o => o.1.toOption.map fun r =>
      (r.status, r.executed, r.skipped, r.tolerated.map (·.index))) =
        some (.completed, [0, 3], [1], [2]) := by decide +kernel
  obtain ⟨⟨result, b, l⟩, hreplay, hresult⟩ := Option.bind_eq_some_iff.mp hrun
  obtain ⟨r, hr, hlists⟩ := Option.map_eq_some_iff.mp hresult
  obtain rfl : result = .ok r := eq_ok_of_toOption hr
  obtain ⟨hstatus, hexecuted, hskipped, htolerated⟩ : r.status = .completed ∧
      r.executed = [0, 3] ∧ r.skipped = [1] ∧ r.tolerated.map (·.index) = [2] := by
    simpa only [Prod.mk.injEq] using hlists
  exact ⟨r, b, l, hreplay, hstatus, replay_accounts hreplay hstatus, hexecuted, hskipped, htolerated⟩

/-- The transaction whose identifier is too short is neither executed nor skipped. -/
theorem replay_loses_transactions :
    ¬ ∀ (l : Ledger) (height : Int) (transactions : List Transaction)
      (ignoreUnknown allowReverts : Bool) (fuel : Nat) (r : ReplayResult) (b : Block) (l' : Ledger),
      (create height transactions ignoreUnknown allowReverts).replay fuel l =
        some (.ok r, b, l') → r.status = .completed →
      (∀ n < transactions.length, (n : Int) ∈ r.executed ∨ (n : Int) ∈ r.skipped) ∧
        ∀ f ∈ r.tolerated, f.index ∈ r.executed := by
  intro h
  have hrun : ((create 7 [revertedOnChain 31 Address.zero] false true).replay 0 silentLedger).bind
      (fun o => o.1.toOption.map fun r => (r.status, r.executed, r.skipped)) =
        some (.completed, [], []) := by decide +kernel
  obtain ⟨⟨result, b, l⟩, hreplay, hresult⟩ := Option.bind_eq_some_iff.mp hrun
  obtain ⟨r, hr, hlists⟩ := Option.map_eq_some_iff.mp hresult
  obtain rfl : result = .ok r := eq_ok_of_toOption hr
  obtain ⟨hstatus, hexecuted, hskipped⟩ : r.status = .completed ∧ r.executed = [] ∧
      r.skipped = [] := by
    simpa only [Prod.mk.injEq] using hlists
  obtain ⟨hcovered, -⟩ := h _ _ _ _ _ _ r b l hreplay hstatus
  have hlost := hcovered 0 Nat.zero_lt_one
  rw [hexecuted, hskipped] at hlost
  exact hlost.elim List.not_mem_nil List.not_mem_nil

end Inputs

end Block

end ChainReplay
