import ChainReplay.Proofs.Execution.CallStack
import ChainReplay.Proofs.Replay.Accounting

/-! Which of the copies that are deployed in a transaction the ledger gets to know. -/

namespace ChainReplay

/-- The copy is registered, if not from the start, then as deployed by a contract that has it on
record. -/
structure Ledger.Enrolled (before after : Ledger) (child : Address) : Prop where
  registered : after.hasContract child = true
  deployer : before.hasContract child = false → ∃ c, after.contracts.find? child = some c ∧
    (after.records c.deployer).contains child = true

lemma Ledger.Adopts.find?_of_records {l m : Ledger} (h : l.Adopts m) {d child : Address}
    (hin : (m.records d).contains child = true) :
    ∃ c, l.contracts.find? d = some c ∧ c.children.contains child = true := by
  rw [records] at hin
  cases hm : m.contracts.find? d with
  | none =>
    rw [hm] at hin
    cases hin
  | some c =>
    rw [hm, Option.map_some, Option.getD_some] at hin
    cases hl : l.contracts.find? d with
    | none =>
      rw [(h.fresh d c hl hm).1] at hin
      cases hin
    | some c' =>
      cases (h.kept d c' hl).symm.trans hm
      exact ⟨c, rfl, hin⟩

lemma Ledger.Adopts.enrolled {l m n : Ledger} (habides : l.Abides m) (hfiled : m.Filed)
    (h : m.Adopts n) {child : Address} (hchild : n.hasContract child = true) :
    l.Enrolled n child where
  registered := hchild
  deployer := by
    intro hunknown
    obtain ⟨c, hc⟩ := Option.isSome_iff_exists.mp hchild
    have habsent : m.contracts.find? child = none :=
      habides.absent child ((Table.contains_eq_false_iff ..).mp hunknown)
    obtain ⟨-, d, parent, hd, hin, hdeployer⟩ := h.fresh child c habsent hc
    refine ⟨c, hc, ?_⟩
    rw [hdeployer, hfiled d parent hd, records_of_find? (h.kept d parent hd)]
    exact hin

namespace Block

/-- The activations of the transaction on this ledger. -/
def activity (fuel : Nat) (tx : Transaction) (l : Ledger) : Activity :=
  (shownTo l tx ((Transaction.inputsView tx.inputs).toOption.getD [])
      ((Transaction.outputsView tx.outputs).toOption.getD [])).activity
    fuel (.registered tx.target) tx.calldata (some tx.sender) (some tx.sender)

/-- What a transaction that goes well consists of: its call, and the registration of what the
contracts on the call stack have on record. -/
lemma executeOne_cases {fuel index : Nat} {tx : Transaction} {r r' : ReplayResult} {l m : Ledger}
    (h : (executeOne fuel index tx r).outcome l = some (.ok (r', none), m)) :
    l.hasContract tx.target = true ∧ ∃ inputs outputs response n seat,
      activity fuel tx l = (shownTo l tx inputs outputs).activity fuel (.registered tx.target)
        tx.calldata (some tx.sender) (some tx.sender) ∧
      (shownTo l tx inputs outputs).perform (.registered tx.target)
        (Run.execute (Run.call fuel) tx.calldata (some tx.sender) (some tx.sender)) =
          some (.ok response, n, seat) ∧
      (Chain.registerTouched response.callStack).outcome
        ((withdrawnFrom l n).note .debug (reportOf tx response)) = some (.ok ⟨⟩, m) := by
  have hid : tx.txId.length = 32 := by
    by_contra hwrong
    obtain ⟨failure, hfails⟩ := outcome_executeOne_of_wrong_id index r l hwrong
    rw [hfails] at h
    cases h
  have hknown := hasContract_of_executeOne hid h
  refine ⟨hknown, ?_⟩
  rw [outcome_executeOne_of_known fuel index r hid hknown, present] at h
  obtain ⟨inputs, _, hinputs, h⟩ := Chain.outcome_bind_eq_ok.mp h
  obtain ⟨outputs, _, houtputs, h⟩ := Chain.outcome_bind_eq_ok.mp h
  obtain ⟨response, _, hrun, h⟩ := Chain.outcome_bind_eq_ok.mp h
  rw [Chain.outcome_liftM, Option.some.injEq, Prod.mk.injEq] at hinputs houtputs
  obtain ⟨hinputs, rfl⟩ := hinputs
  obtain ⟨houtputs, rfl⟩ := houtputs
  rw [outcome_withTransaction_eq hid, Option.map_eq_some_iff] at hrun
  obtain ⟨⟨q, n, seat⟩, hperform, heq⟩ := hrun
  cases heq
  rw [judge] at h
  split at h
  case h_1 =>
    obtain ⟨_, noted, hnote, hrest⟩ := Chain.outcome_bind_eq_ok.mp h
    obtain ⟨_, touched, htouched, hend⟩ := Chain.outcome_bind_eq_ok.mp hrest
    rw [Chain.outcome_note, Option.some.injEq, Prod.mk.injEq] at hnote
    obtain ⟨-, rfl⟩ := hnote
    obtain rfl : touched = m := by
      cases hend
      rfl
    refine ⟨inputs, outputs, response, n, seat, ?_, hperform, htouched⟩
    rw [activity, hinputs, houtputs]
    rfl
  case h_2 =>
    obtain ⟨_, _, -, h⟩ := Chain.outcome_bind_eq_ok.mp h
    split at h
    · obtain ⟨_, _, -, h⟩ := Chain.outcome_bind_eq_ok.mp h
      cases h
    · cases h

/-- When a transaction has gone well, each contract that has a new copy on record was activated. The
copy is registered if the contract was called, by another contract or by the transaction; so it is in
any case if no constructors were run, since all contracts were deployed before. -/
theorem executeOne_enrols {fuel index : Nat} {tx : Transaction} {r r' : ReplayResult} {l m : Ledger}
    {d child : Address} (hkeyed : l.Keyed)
    (hrun : (executeOne fuel index tx r).outcome l = some (.ok (r', none), m))
    (hnew : (m.records d).contains child = true) (hold : (l.records d).contains child = false) :
    d ∈ (activity fuel tx l).contracts ∧
      (d = tx.target ∨ d ∈ (activity fuel tx l).called → l.Enrolled m child) ∧
      (l.Settled → l.Enrolled m child) := by
  obtain ⟨htarget, inputs, outputs, response, n, seat, hactivity, hperform, htouched⟩ :=
    executeOne_cases hrun
  let shown := shownTo l tx inputs outputs
  let behind := (withdrawnFrom l n).note .debug (reportOf tx response)
  obtain ⟨m', htouched', hadopts, hregistered⟩ :=
    Chain.outcome_registerTouched response.callStack behind
  obtain rfl : m = m' := by
    cases htouched.symm.trans htouched'
    rfl
  have hfiled : shown.Filed := hkeyed.filed
  have hlisted := Run.mem_callStack_of_execute hfiled htarget hperform
  have hbehind : l.Abides behind :=
    .trans (.of_contracts (m := shown) rfl rfl rfl)
      ((Run.abides_of_execute hperform).trans (.of_contracts rfl rfl rfl))
  obtain ⟨c, hc, hin⟩ := hadopts.find?_of_records hnew
  have hthere : (n.records d).contains child = true := by
    rw [Ledger.records_of_find? (l := n) hc, hin]
  have hrecorded := Run.mem_contracts_of_records hfiled htarget hperform hthere hold
  have henrolled (h : d = tx.target ∨ d ∈ (activity fuel tx l).called) : l.Enrolled m child := by
    obtain ⟨entry, hentry, rfl⟩ := List.mem_map.mp ((Table.contains_iff ..).mp hin)
    rw [hactivity] at h
    exact hadopts.enrolled hbehind (hbehind.filed hkeyed.filed)
      (hregistered d ((hlisted d).mpr h) c hc entry hentry)
  refine ⟨hactivity ▸ hrecorded, henrolled, fun hsettled => henrolled (.inr ?_)⟩
  have hplain := Run.plain_activity (l := shown) hsettled htarget fuel tx.calldata
    (some tx.sender) (some tx.sender)
  rw [hactivity, ← Activity.contracts_eq_called hplain]
  exact hrecorded

section Commission

open Run (entrance chamber vault calling deploying)

/-- The chamber deploys a copy of the vault when it is called. The entrance has these programs. -/
def commissioning (construct execute : Program) : Engine where
  instantiate parameters := .ok
    { refusal := none
      construct := fun _ _ => construct
      execute := fun _ _ =>
        if parameters.address = entrance then execute else deploying vault (.done []) }

/-- The chamber is deployed, and the constructor of the entrance is yet to be run. -/
def commissioned (construct execute : Program) : Ledger :=
  let standing := Ledger.standing (commissioning construct execute) [chamber]
  { standing with
    codes := [(vault, [])]
    contracts := standing.contracts ++
      [(entrance, { Contract.create entrance entrance (.amount 0) none [] with code := some [] })] }

lemma keyed_commissioned (construct execute : Program) :
    (commissioned construct execute).Keyed := by
  intro entry hmem
  rcases List.mem_append.mp hmem with hmem | hmem
  · exact Ledger.keyed_standing _ _ entry hmem
  · rw [List.mem_singleton.mp hmem]
    rfl

def visit : Transaction :=
  Transaction.plain [] 7 (Bytes.zeros 32) 0 Address.zero [] entrance []

def untouched : ReplayResult := ⟨7, .executing, [], [], 0, none, []⟩

/-- The copies that a contract has on record after a transaction has gone well, and whether they
are registered. -/
def standingOf (d : Address) :
    Option (Except Failure (ReplayResult × Option ReplayFailure) × Ledger) → List (Address × Bool)
  | some (.ok (_, none), m) => (m.records d).map fun (child, _) => (child, m.hasContract child)
  | _ => []

lemma exists_of_standing (d : Address) (registered : Bool)
    (o : Option (Except Failure (ReplayResult × Option ReplayFailure) × Ledger))
    (h : (standingOf d o).map (·.2) = [registered]) :
    ∃ r m child, o = some (.ok (r, none), m) ∧ (m.records d).contains child = true ∧
      m.hasContract child = registered := by
  rcases o with _ | ⟨e | ⟨r, _ | failure⟩, m⟩
  · cases h
  · cases h
  · obtain ⟨⟨child, known⟩, hstanding, hknown⟩ := List.map_eq_singleton_iff.mp h
    obtain ⟨entry, hrecords, hentry⟩ := List.map_eq_singleton_iff.mp hstanding
    cases hentry
    refine ⟨r, m, entry.1, rfl, (Table.contains_iff ..).mpr ?_, hknown⟩
    exact List.mem_map_of_mem (hrecords ▸ List.mem_singleton_self entry)
  · cases h

/-- The entrance calls the chamber. -/
theorem executeOne_enrols_of_visit :
    ∃ r m child, (executeOne 1 0 visit untouched).outcome
        (commissioned (.done []) (calling chamber [] (.done []))) = some (.ok (r, none), m) ∧
      (m.records chamber).contains child = true ∧
      (commissioned (.done []) (calling chamber [] (.done []))).Enrolled m child := by
  obtain ⟨r, m, child, hrun, hnew, -⟩ := exists_of_standing chamber true
    ((executeOne 1 0 visit untouched).outcome
      (commissioned (.done []) (calling chamber [] (.done [])))) (by decide +kernel)
  have hcalled : chamber ∈ (activity 1 visit
      (commissioned (.done []) (calling chamber [] (.done [])))).called := by decide +kernel
  exact ⟨r, m, child, hrun, hnew,
    (executeOne_enrols (keyed_commissioned _ _) hrun hnew rfl).2.1 (.inr hcalled)⟩

/-- The constructor of the entrance, which is run when the transaction first calls it, calls the
chamber. -/
theorem executeOne_overlooks_construction :
    ¬ ∀ (fuel index : Nat) (tx : Transaction) (r r' : ReplayResult) (l m : Ledger)
      (d child : Address), l.Keyed →
      (executeOne fuel index tx r).outcome l = some (.ok (r', none), m) →
      (m.records d).contains child = true → (l.records d).contains child = false →
      l.Enrolled m child := by
  intro h
  obtain ⟨r, m, child, hrun, hnew, hunknown⟩ := exists_of_standing chamber false
    ((executeOne 1 0 visit untouched).outcome
      (commissioned (calling chamber [] (.done [])) (.done []))) (by decide +kernel)
  have henrolled := h 1 0 visit untouched r _ m chamber child (keyed_commissioned _ _) hrun hnew rfl
  rw [henrolled.registered] at hunknown
  cases hunknown

end Commission

end Block

end ChainReplay
