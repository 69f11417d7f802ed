import ChainReplay.Proofs.Replay.Renumbering

/-! Blocks with transactions for contracts that the ledger does not know. A block that ignores them
is replayed as the block without them, and a block that does not is not replayed at all. -/

namespace ChainReplay.Block

open Chain Decoding

/-- The transactions for contracts that the ledger knows. -/
abbrev known (l : Ledger) (transactions : List Transaction) : List Transaction :=
  transactions.filter fun tx => l.hasContract tx.target

/-- The indexes of the others. -/
abbrev unknown (l : Ledger) (transactions : List Transaction) : List Int :=
  indexes (fun entry => !l.hasContract entry.1.target) transactions.zipIdx

/-- The index in a block of the transaction that has this index among those for known contracts. -/
def place (l : Ledger) (transactions : List Transaction) (i : Int) : Int :=
  (indexes (fun entry => l.hasContract entry.1.target) transactions.zipIdx).getD i.toNat i

lemma scan_ignoring {b : Block} (hb : b.ignoreUnknown = true) (l : Ledger)
    (entries : List (Transaction × Nat)) :
    ∃ m, b.scan l entries =
        (m, .ok (indexes (fun entry => !l.hasContract entry.1.target) entries)) ∧ l.Echoes m := by
  induction entries generalizing l with
  | nil => exact ⟨l, rfl, .refl l⟩
  | cons entry rest ih =>
    obtain ⟨tx, index⟩ := entry
    rw [scan]
    cases hknown : l.hasContract tx.target with
    | true =>
      obtain ⟨m, hscan, hm⟩ := ih l
      refine ⟨m, ?_, hm⟩
      rw [if_pos rfl, hscan, indexes, indexes, List.filter_cons_of_neg (by simp [hknown])]
    | false =>
      obtain ⟨m, hscan, hm⟩ := ih (l.note .debug ("skipping transaction #" ++ Text.ofNat index
        ++ ", contract " ++ tx.target.text ++ " is not loaded"))
      refine ⟨m, ?_, (l.echoes_note _ _).trans hm⟩
      simp only [hb, hscan, indexes]
      rw [List.filter_cons_of_pos (by simp [hknown])]
      rfl

lemma scan_stops {b : Block} (hb : b.ignoreUnknown = false) {l : Ledger}
    {transactions : List Transaction} (h : ∃ tx ∈ transactions, l.hasContract tx.target = false)
    (k : Nat) :
    ∃ f m, b.scan l (transactions.zipIdx k) = (m, .error f) ∧ l.Echoes m ∧
      f.index = (k + transactions.findIdx fun tx => !l.hasContract tx.target : Nat) := by
  induction transactions generalizing k with
  | nil =>
    obtain ⟨_, hmem, -⟩ := h
    cases hmem
  | cons tx rest ih =>
    rw [List.zipIdx_cons, scan, List.findIdx_cons]
    cases hknown : l.hasContract tx.target with
    | true =>
      have hrest : ∃ tx ∈ rest, l.hasContract tx.target = false := by
        obtain ⟨tx', hmem, htx'⟩ := h
        rcases List.mem_cons.mp hmem with rfl | hmem
        · rw [hknown] at htx'
          cases htx'
        · exact ⟨tx', hmem, htx'⟩
      obtain ⟨f, m, hscan, hm, hindex⟩ := ih hrest (k + 1)
      refine ⟨f, m, hscan, hm, hindex.trans ?_⟩
      simp only [Bool.not_true, cond_false]
      omega
    | false =>
      simp only [hb]
      exact ⟨_, _, rfl, l.echoes_note _ _, rfl⟩

section Places

variable {l : Ledger} {transactions : List Transaction}

lemma map_fst_known :
    (transactions.zipIdx.filter fun entry => l.hasContract entry.1.target).map Prod.fst =
      known l transactions := by
  conv_rhs => rw [known, ← List.zipIdx_map_fst 0 transactions, List.filter_map]
  rfl

lemma place_of_getElem? {i : Nat} {entry : Transaction × Nat}
    (h : (transactions.zipIdx.filter fun entry => l.hasContract entry.1.target)[i]? = some entry) :
    place l transactions i = entry.2 := by
  simp [place, indexes, positions, h]

lemma place_spec {i : Nat} {tx : Transaction} (h : (known l transactions)[i]? = some tx) :
    ∃ n : Nat, place l transactions i = n ∧ transactions[n]? = some tx := by
  rw [← map_fst_known, List.getElem?_map, Option.map_eq_some_iff] at h
  obtain ⟨⟨_, n⟩, hentry, rfl⟩ := h
  have hmem := List.mem_of_mem_filter (List.mem_of_getElem? hentry)
  exact ⟨n, place_of_getElem? hentry, List.mk_mem_zipIdx_iff_getElem?.mp hmem⟩

lemma place_lt {i j : Nat} (hij : i < j) (hj : j < (known l transactions).length) :
    place l transactions i < place l transactions j := by
  have hincreasing := (pairwise_positions transactions).sublist
    (indexes_sublist (fun entry => l.hasContract entry.1.target) transactions.zipIdx)
  have hlength : (indexes (fun entry => l.hasContract entry.1.target) transactions.zipIdx).length =
      (known l transactions).length := by
    rw [← map_fst_known, indexes, positions, List.length_map, List.length_map]
  rw [← hlength] at hj
  have hi := Nat.lt_trans hij hj
  simp only [place, Int.toNat_natCast, List.getD_eq_getElem?_getD, List.getElem?_eq_getElem hi,
    List.getElem?_eq_getElem hj, Option.getD_some]
  exact List.pairwise_iff_getElem.mp hincreasing i j hi hj hij

lemma forall₂_places (l : Ledger) (transactions : List Transaction) :
    List.Forall₂ (fun e e' => e'.1 = e.1 ∧ place l transactions e.2 = (e'.2 : Int))
      (known l transactions).zipIdx
      (transactions.zipIdx.filter fun entry => l.hasContract entry.1.target) := by
  rw [List.forall₂_iff_get, ← map_fst_known]
  refine ⟨by simp, fun i hi hj => ⟨by simp, ?_⟩⟩
  have hplace := place_of_getElem? (List.getElem?_eq_getElem hj)
  simpa using hplace

lemma contains_unknown (entry : Transaction × Nat) (h : entry ∈ transactions.zipIdx) :
    (!(unknown l transactions).contains (entry.2 : Int)) = l.hasContract entry.1.target := by
  rw [Bool.eq_iff_iff, Bool.not_eq_true', ← Bool.not_eq_true, List.contains_iff_mem,
    mem_indexes_zipIdx (List.mk_mem_zipIdx_iff_getElem?.mp h)]
  simp

end Places

lemma retells_known (l : Ledger) (height : Int) (transactions : List Transaction)
    (ignoreUnknown allowReverts : Bool) (fuel : Nat) :
    Option.Rel
      (Retells (place l transactions) fun s =>
        { s.renumber (place l transactions) with skipped := unknown l transactions })
      ((create height (known l transactions) ignoreUnknown allowReverts).replay fuel l)
      ((create height transactions true allowReverts).replay fuel l) := by
  have hknown (tx : Transaction) (htx : tx ∈ known l transactions) :
      l.hasContract tx.target = true := (List.mem_filter.mp htx).2
  obtain ⟨m, hscan, hm⟩ :=
    scan_ignoring (b := create height transactions true allowReverts) rfl l transactions.zipIdx
  rw [replay_of_known hknown,
    replay_of_verify fuel (verify_of_scan_ok ReplayStatus.noConfusion hscan) rfl]
  have hheight : Ledger.Echoes { l with blockNumber := height } { m with blockNumber := height } := by
    obtain ⟨notices⟩ := hm
    exact .intro notices
  have hentries := forall₂_places l transactions
  rw [← List.filter_congr contains_unknown] at hentries
  have hallow : (underway height transactions true allowReverts).allowReverts =
      (underway height (known l transactions) ignoreUnknown allowReverts).allowReverts := rfl
  have hloop : Matches (Restates (place l transactions)
        ⟨height, .verified, [], unknown l transactions, 0, none, []⟩)
      (executeAll fuel (underway height (known l transactions) ignoreUnknown allowReverts)
        ⟨height, .verified, [], [], 0, none, []⟩ (known l transactions).zipIdx)
      (executeAll fuel (underway height transactions true allowReverts)
        ⟨height, .verified, [], unknown l transactions, 0, none, []⟩ transactions.zipIdx)
      { l with blockNumber := height } { m with blockNumber := height } :=
    matches_executeAll hheight fuel hallow hentries rfl
  refine retells_of_matches hloop rfl rfl rfl fun r failure n hrun status failure' => ?_
  have hr := height_of_executeAll hrun
  simp only [ReplayResult.append, ReplayResult.tally, ReplayResult.renumber, hr, List.nil_append,
    Int.zero_add]

lemma replay_stops {l : Ledger} {transactions : List Transaction}
    (h : ∃ tx ∈ transactions, l.hasContract tx.target = false) (height : Int) (allowReverts : Bool)
    (fuel : Nat) :
    ∃ f b m, (create height transactions false allowReverts).replay fuel l =
        some (.ok ⟨height, .failed, [], [], 0, some f, []⟩, b, m) ∧
      f.index = (transactions.findIdx fun tx => !l.hasContract tx.target : Nat) ∧ l.Echoes m := by
  obtain ⟨f, m, hscan, hm, hindex⟩ :=
    scan_stops (b := create height transactions false allowReverts) rfl h 0
  rw [Nat.zero_add] at hindex
  have hnoted := m.echoes_note .error
    ("Block " ++ Text.ofInt height ++ " replay failed before execution.")
  refine ⟨f, (create height transactions false allowReverts).fail f, _, ?_, hindex,
    hm.trans hnoted⟩
  rw [replay, verify_of_scan_error ReplayStatus.noConfusion hscan]
  rfl

/-- Ignoring the transactions for unknown contracts comes to the same as leaving them out: the ledger
is the same but for notices, and the result says the same of each transaction, at its own place. A
block that does not ignore them fails at the first one, and nothing but notices comes of it. -/
theorem replay_ignores_unknown (l : Ledger) (height : Int) (transactions : List Transaction)
    (ignoreUnknown allowReverts : Bool) (fuel : Nat) :
    (∀ i j : Nat, i < j → j < (known l transactions).length →
      place l transactions i < place l transactions j) ∧
    (∀ (i : Nat) tx, (known l transactions)[i]? = some tx →
      ∃ n : Nat, place l transactions i = n ∧ transactions[n]? = some tx) ∧
    Option.Rel
      (Retells (place l transactions) fun s =>
        { s.renumber (place l transactions) with skipped := unknown l transactions })
      ((create height (known l transactions) ignoreUnknown allowReverts).replay fuel l)
      ((create height transactions true allowReverts).replay fuel l) ∧
    ((∃ tx ∈ transactions, l.hasContract tx.target = false) →
      ∃ f b m, (create height transactions false allowReverts).replay fuel l =
          some (.ok ⟨height, .failed, [], [], 0, some f, []⟩, b, m) ∧
        f.index = (transactions.findIdx fun tx => !l.hasContract tx.target : Nat) ∧ l.Echoes m) := by
  refine ⟨fun i j hij hj => place_lt hij hj, fun i tx h => place_spec h, ?_, fun h => ?_⟩
  · exact retells_known l height transactions ignoreUnknown allowReverts fuel
  · exact replay_stops h height allowReverts fuel

/-- In the block without the second transaction, the last one has the index that the third one has in
the whole block. -/
theorem replay_ignores_unknown_of_mixed :
    ∃ s b m s' b' m',
      (create 7 (known silentLedger mixed.transactions) true true).replay 0 silentLedger =
        some (.ok s, b, m) ∧
      (create 7 mixed.transactions true true).replay 0 silentLedger = some (.ok s', b', m') ∧
      s.executed = [0, 2] ∧ s.tolerated.map (·.index) = [1] ∧ s'.executed = [0, 3] ∧
      s'.tolerated.map (·.index) = [2] ∧ s'.skipped = [1] ∧ m.Echoes m' ∧
      ∃ f b n, (create 7 mixed.transactions false true).replay 0 silentLedger =
        some (.ok ⟨7, .failed, [], [], 0, some f, []⟩, b, n) ∧ f.index = 1 := by
  obtain ⟨-, -, hretells, hstops⟩ :=
    replay_ignores_unknown silentLedger 7 mixed.transactions true true 0
  have hplaces : [0, 2].map (place silentLedger mixed.transactions) = [0, 3] ∧
      [1].map (place silentLedger mixed.transactions) = [2] ∧
      unknown silentLedger mixed.transactions = [1] := by decide +kernel
  have hrun : ((create 7 (known silentLedger mixed.transactions) true true).replay 0
      silentLedger).bind (fun o => o.1.toOption.map fun s => (s.executed, s.tolerated.map (·.index))) =
        some ([0, 2], [1]) := by decide +kernel
  obtain ⟨⟨q, b, m⟩, hreplay, hresult⟩ := Option.bind_eq_some_iff.mp hrun
  obtain ⟨s, hs, hlists⟩ := Option.map_eq_some_iff.mp hresult
  obtain rfl : q = .ok s := eq_ok_of_toOption hs
  obtain ⟨hexecuted, htolerated⟩ : s.executed = [0, 2] ∧ s.tolerated.map (·.index) = [1] := by
    simpa only [Prod.mk.injEq] using hlists
  obtain ⟨f, c, n, hfails, hindex, -⟩ := hstops (by decide +kernel)
  have hfirst : (mixed.transactions.findIdx fun tx => !silentLedger.hasContract tx.target) = 1 := by
    decide +kernel
  rw [hreplay] at hretells
  generalize replay 0 (create 7 mixed.transactions true true) silentLedger = o at hretells ⊢
  cases hretells with
  | @some _ p h =>
    obtain ⟨q, b', m'⟩ := p
    obtain ⟨h, -, -, hledger⟩ := h
    cases h with
    | ok h =>
      subst h
      refine ⟨s, b, m, _, b', m', hreplay, rfl, hexecuted, htolerated, ?_, ?_, hplaces.2.2, hledger,
        f, c, n, hfails, hindex.trans (congrArg Nat.cast hfirst)⟩
      · rw [ReplayResult.renumber, hexecuted]
        exact hplaces.1
      · rw [ReplayResult.renumber, ReplayFailure.map_index_renumber, htolerated]
        exact hplaces.2.1

end ChainReplay.Block
