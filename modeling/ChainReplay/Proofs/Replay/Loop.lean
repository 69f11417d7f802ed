import ChainReplay.Proofs.Execution.Termination
import ChainReplay.Proofs.Ledger.Registry
import ChainReplay.Proofs.Transaction.View
import ChainReplay.Replay.Run

/-! The loop over the transactions of a block, one transaction after the other. -/

namespace ChainReplay

namespace Chain

variable {α β : Type}

def outcome (x : Chain α) (l : Ledger) : Option (Except Failure α × Ledger) := ExceptT.run x l

lemma outcome_bind (x : Chain α) (k : α → Chain β) (l : Ledger) :
    (x >>= k).outcome l = (x.outcome l).bind fun (r, m) =>
      match r with
      | .ok a => (k a).outcome m
      | .error e => some (.error e, m) := by
  change Option.bind (ExceptT.run x l) _ = _
  rw [outcome]
  congr 1
  funext ⟨r, m⟩
  cases r <;> rfl

lemma outcome_bind_of_ok {x : Chain α} {k : α → Chain β} {l m : Ledger} {a : α}
    (h : x.outcome l = some (.ok a, m)) : (x >>= k).outcome l = (k a).outcome m := by
  rw [outcome_bind, h]
  rfl

lemma outcome_bind_of_error {x : Chain α} {k : α → Chain β} {l m : Ledger} {e : Failure}
    (h : x.outcome l = some (.error e, m)) : (x >>= k).outcome l = some (.error e, m) := by
  rw [outcome_bind, h]
  rfl

@[simp] lemma outcome_get (l : Ledger) : (get : Chain Ledger).outcome l = some (.ok l, l) := rfl

@[simp] lemma outcome_liftM (r : Except Failure α) (l : Ledger) :
    (liftM r : Chain α).outcome l = some (r, l) := by
  cases r <;> rfl

@[simp] lemma outcome_note (level : Level) (text : Text) (l : Ledger) :
    (note level text).outcome l = some (.ok ⟨⟩, l.note level text) := rfl

lemma outcome_registerTouched (addresses : List Address) (l : Ledger) :
    ∃ m, (registerTouched addresses).outcome l = some (.ok ⟨⟩, m) ∧ l.Adopts m ∧
      ∀ a ∈ addresses, ∀ c, l.contracts.find? a = some c → ∀ entry ∈ c.children,
        m.hasContract entry.1 = true := by
  obtain ⟨m, created, hm, hadopts, hregistered⟩ := l.registerTouched_adopts addresses
  refine ⟨m, ?_, hadopts, hregistered⟩
  simp only [registerTouched, outcome_bind, outcome_get, Option.bind_some, hm]
  rfl

end Chain

namespace Block

/-- The ledger on which a transaction runs: contracts can see it, and its sender acts. -/
def shownTo (l : Ledger) (tx : Transaction) (inputs outputs : Bytes) : Ledger :=
  { l with
    transactionId := tx.txId, inputs, outputs, sender := tx.sender, origin := tx.sender }

def judge (index : Nat) (tx : Transaction) (response : CallResponse) (r : ReplayResult) :
    Chain (ReplayResult × Option ReplayFailure) :=
  match response.result with
  | .ok _ => do
    Chain.note .debug (reportOf tx response)
    Chain.registerTouched response.callStack
    return (r, none)
  | .error f => do
    Chain.note .error (reportOf tx response ++ " " ++ f.message)
    match (failureOf index tx f).recordedRevert with
    | some words =>
      Chain.note .error ("Original error for " ++ tx.txIdHex ++ ": " ++ words)
    | none => pure ()
    return (r, some (failureOf index tx f))

lemma outcome_judge (index : Nat) (tx : Transaction) (response : CallResponse) (r : ReplayResult)
    (l : Ledger) :
    ∃ failure m, (judge index tx response r).outcome l = some (.ok (r, failure), m) ∧
      l.Extends m := by
  rw [judge]
  cases response.result with
  | ok reply =>
    obtain ⟨m, htouched, hm, -⟩ := Chain.outcome_registerTouched response.callStack
      (l.note .debug (reportOf tx response))
    refine ⟨none, m, ?_, ⟨hm.engine, fun _ => hm.hasContract⟩⟩
    simp only
    rw [Chain.outcome_bind_of_ok (Chain.outcome_note _ _ l), Chain.outcome_bind_of_ok htouched]
    rfl
  | error f =>
    simp only
    rw [Chain.outcome_bind_of_ok (Chain.outcome_note _ _ l)]
    cases (failureOf index tx f).recordedRevert with
    | some words => exact ⟨_, _, rfl, rfl, fun _ h => h⟩
    | none => exact ⟨_, _, rfl, rfl, fun _ h => h⟩

lemma outcome_executeOne_of_wrong_id (index : Nat) {tx : Transaction} (r : ReplayResult)
    (l : Ledger) (hid : tx.txId.length ≠ 32) :
    ∃ failure, ∀ fuel,
      (executeOne fuel index tx r).outcome l = some (.ok (r, some failure), l) := by
  let message := "Transaction id must be 32 bytes, got " ++ Text.ofNat tx.txId.length
  refine ⟨⟨index, message, some tx.txIdHex, none⟩, fun fuel => ?_⟩
  rw [executeOne]
  rw [if_pos hid]
  rfl

/-- The part of running a transaction that lets contracts see it. -/
def present (fuel index : Nat) (tx : Transaction) (r : ReplayResult) :
    Chain (ReplayResult × Option ReplayFailure) := do
  let inputs ← liftM (Transaction.inputsView tx.inputs)
  let outputs ← liftM (Transaction.outputsView tx.outputs)
  let response ← Chain.withTransaction tx.txId inputs outputs
    (Chain.withIdentity tx.sender tx.sender
      (Chain.execute fuel tx.target tx.calldata (some tx.sender) (some tx.sender)))
  judge index tx response (addExecuted r index response.usedGas)

lemma outcome_executeOne_of_known (fuel index : Nat) {tx : Transaction} (r : ReplayResult)
    {l : Ledger} (hid : tx.txId.length = 32) (ha : l.hasContract tx.target = true) :
    (executeOne fuel index tx r).outcome l = (present fuel index tx r).outcome l := by
  obtain ⟨c, hc⟩ := Option.isSome_iff_exists.mp ha
  have hcontract : l.contract? tx.target = .ok c := by simp [Ledger.contract?, hc]
  rw [executeOne]
  rw [if_neg (fun h => h hid), Chain.outcome_bind_of_ok (Chain.outcome_get l), hcontract,
    Chain.outcome_bind_of_ok (Chain.outcome_liftM _ l)]
  rfl

lemma outcome_present_of_not_viewable (index : Nat) {tx : Transaction} (r : ReplayResult)
    (l : Ledger) (hview : ¬tx.Viewable) :
    ∃ f, ∀ fuel, (present fuel index tx r).outcome l = some (.error f, l) := by
  simp only [present]
  rw [← Transaction.viewable_iff] at hview
  cases hi : Transaction.inputsView tx.inputs with
  | error f => exact ⟨f, fun fuel => Chain.outcome_bind_of_error (Chain.outcome_liftM _ l)⟩
  | ok inputs =>
    cases ho : Transaction.outputsView tx.outputs with
    | error f =>
      refine ⟨f, fun fuel => ?_⟩
      rw [Chain.outcome_bind_of_ok (Chain.outcome_liftM _ l)]
      exact Chain.outcome_bind_of_error (Chain.outcome_liftM _ l)
    | ok outputs => exact absurd ⟨⟨inputs, hi⟩, outputs, ho⟩ hview

/-- The ledger behind a transaction: contracts no longer see it, and the former sender acts. -/
def withdrawnFrom (l m : Ledger) : Ledger :=
  { m with sender := l.sender, origin := l.origin }.clearTransaction

lemma outcome_withTransaction_eq {fuel : Nat} {tx : Transaction} {inputs outputs : Bytes}
    {l : Ledger} (hid : tx.txId.length = 32) :
    (Chain.withTransaction tx.txId inputs outputs (Chain.withIdentity tx.sender tx.sender
      (Chain.execute fuel tx.target tx.calldata (some tx.sender) (some tx.sender)))).outcome l =
        ((shownTo l tx inputs outputs).perform (.registered tx.target)
          (Run.execute (Run.call fuel) tx.calldata (some tx.sender) (some tx.sender))).map
            fun (r, m, _) => (r, withdrawnFrom l m) := by
  rw [Chain.withTransaction]
  simp only [Chain.outcome_bind, Chain.outcome_get, Chain.outcome_liftM, Option.bind_some,
    Ledger.setTransaction, if_pos hid]
  change Option.map _ (Option.map _ (Option.map _
    ((shownTo l tx inputs outputs).perform (.registered tx.target) _))) = _
  rw [Option.map_map, Option.map_map]
  rfl

lemma outcome_withTransaction {fuel : Nat} {tx : Transaction} {inputs outputs : Bytes}
    {l m : Ledger} {seat : Seat} {response : CallResponse} (hid : tx.txId.length = 32)
    (hrun : (shownTo l tx inputs outputs).perform (.registered tx.target)
      (Run.execute (Run.call fuel) tx.calldata (some tx.sender) (some tx.sender)) =
        some (.ok response, m, seat)) :
    (Chain.withTransaction tx.txId inputs outputs (Chain.withIdentity tx.sender tx.sender
      (Chain.execute fuel tx.target tx.calldata (some tx.sender) (some tx.sender)))).outcome l =
        some (.ok response, withdrawnFrom l m) := by
  rw [outcome_withTransaction_eq hid, hrun]
  rfl

end Block

namespace Ledger

/-- Every call of a contract has an outcome on each ledger with this engine, given enough fuel. -/
def Terminates (l : Ledger) : Prop :=
  ∀ m : Ledger, m.engine = l.engine → ∀ a calldata sender origin, ∃ fuel,
    (m.perform (.registered a) (Run.execute (Run.call fuel) calldata sender origin)).isSome = true

lemma Terminates.perform {l m : Ledger} (h : l.Terminates) (hm : m.engine = l.engine) (a : Address)
    (calldata : Bytes) (sender origin : Option Address) :
    ∃ n response m' seat, m.Extends m' ∧ ∀ fuel, n ≤ fuel →
      m.perform (.registered a) (Run.execute (Run.call fuel) calldata sender origin) =
        some (.ok response, m', seat) := by
  obtain ⟨n, hsome⟩ := h m hm a calldata sender origin
  obtain ⟨⟨r, g⟩, hrun⟩ := Option.isSome_iff_exists.mp (by simpa [Run.perform_eq] using hsome)
  obtain ⟨response, rfl⟩ := Run.Returns.execute _ _ _ _ _ _ _ hrun
  have hcont := (Run.outcome_execute_of_le (Nat.le_refl n) hrun).2
  refine ⟨n, response, g.ledger, g.seat,
    ⟨hcont.engine, fun a ha => (hcont.hasContract a).trans ha⟩, fun fuel hfuel => ?_⟩
  rw [Run.perform_eq, (Run.outcome_execute_of_le hfuel hrun).1]
  rfl

lemma Terminates.extends {l m : Ledger} (h : l.Terminates) (hm : l.Extends m) : m.Terminates :=
  fun m' he => h m' (he.trans hm.engine)

end Ledger

namespace Block

lemma outcome_present_of_viewable {l : Ledger} (hterm : l.Terminates) (index : Nat)
    {tx : Transaction} (r : ReplayResult) (hid : tx.txId.length = 32) (hview : tx.Viewable) :
    ∃ n r' failure m, l.Extends m ∧ r'.skipped = r.skipped ∧ ∀ fuel, n ≤ fuel →
      (present fuel index tx r).outcome l = some (.ok (r', failure), m) := by
  obtain ⟨⟨inputs, hi⟩, outputs, ho⟩ := tx.viewable_iff.mpr hview
  obtain ⟨n, response, m, seat, hm, hrun⟩ := hterm.perform
    (m := shownTo l tx inputs outputs) rfl tx.target tx.calldata (some tx.sender) (some tx.sender)
  obtain ⟨failure, m', hjudge, hm'⟩ := outcome_judge index tx response
    (addExecuted r index response.usedGas) (withdrawnFrom l m)
  refine ⟨n, addExecuted r index response.usedGas, failure, m', ?_, rfl, fun fuel hfuel => ?_⟩
  · have hbehind : l.Extends (withdrawnFrom l m) := ⟨hm.engine, hm.hasContract⟩
    exact hbehind.trans hm'
  · rw [present]
    rw [hi, Chain.outcome_bind_of_ok (Chain.outcome_liftM _ l), ho,
      Chain.outcome_bind_of_ok (Chain.outcome_liftM _ l),
      Chain.outcome_bind_of_ok (outcome_withTransaction hid (hrun fuel hfuel)), hjudge]

/-- One transaction comes out the same with any fuel from some amount on. It raises an error exactly
if it has no form for contracts. -/
lemma outcome_executeOne {l : Ledger} (hterm : l.Terminates) (index : Nat) {tx : Transaction}
    (r : ReplayResult) (ha : l.hasContract tx.target = true) :
    (tx.txId.length = 32 ∧ ¬tx.Viewable ∧
      ∃ f, ∀ fuel, (executeOne fuel index tx r).outcome l = some (.error f, l)) ∨
    (¬(tx.txId.length = 32 ∧ ¬tx.Viewable) ∧
      ∃ n r' failure m, l.Extends m ∧ r'.skipped = r.skipped ∧ ∀ fuel, n ≤ fuel →
        (executeOne fuel index tx r).outcome l = some (.ok (r', failure), m)) := by
  by_cases hid : tx.txId.length = 32
  case neg =>
    obtain ⟨failure, hrun⟩ := outcome_executeOne_of_wrong_id index r l hid
    exact .inr ⟨fun h => hid h.1, 0, r, _, l, .refl l, rfl, fun fuel _ => hrun fuel⟩
  by_cases hview : tx.Viewable
  case pos =>
    obtain ⟨n, r', failure, m, hm, hskipped, hrun⟩ :=
      outcome_present_of_viewable hterm index r hid hview
    refine .inr ⟨fun h => h.2 hview, n, r', failure, m, hm, hskipped, fun fuel hfuel => ?_⟩
    rw [outcome_executeOne_of_known fuel index r hid ha, hrun fuel hfuel]
  case neg =>
    obtain ⟨f, hrun⟩ := outcome_present_of_not_viewable index r l hview
    refine .inl ⟨hid, hview, f, fun fuel => ?_⟩
    rw [outcome_executeOne_of_known fuel index r hid ha, hrun fuel]

def settle (b : Block) (tx : Transaction) :
    ReplayResult × Option ReplayFailure → Chain (ReplayResult × Option ReplayFailure)
  | (r, none) => return (r, none)
  | (r, some failure) => do
    if b.allowReverts && tx.revert.isSome then
      Chain.note .warning
        ("transaction " ++ tx.txIdHex ++ " reverted on chain as well, continuing")
      return ({ r with tolerated := r.tolerated ++ [failure] }, none)
    else
      if tx.revert.isNone then Chain.note .info tx.describe
      return (r, some failure)

lemma outcome_settle (b : Block) (tx : Transaction) (r : ReplayResult)
    (failure : Option ReplayFailure) (l : Ledger) :
    ∃ r' failure' m, (settle b tx (r, failure)).outcome l = some (.ok (r', failure'), m) ∧
      l.Extends m ∧ r'.skipped = r.skipped := by
  cases failure with
  | none => exact ⟨r, none, l, rfl, .refl l, rfl⟩
  | some failure =>
    simp only [settle]
    split
    · exact ⟨_, _, _, rfl, ⟨rfl, fun _ h => h⟩, rfl⟩
    · split
      · exact ⟨_, _, _, rfl, ⟨rfl, fun _ h => h⟩, rfl⟩
      · exact ⟨_, _, _, rfl, .refl l, rfl⟩

def round (fuel : Nat) (b : Block) (r : ReplayResult) (entry : Transaction × Nat) :
    Chain (ReplayResult × Option ReplayFailure) := do
  if r.skipped.contains (entry.2 : Int) then return (r, none)
  settle b entry.1 (← executeOne fuel entry.2 entry.1 r)

lemma outcome_executeAll_cons (fuel : Nat) (b : Block) (r : ReplayResult)
    (entry : Transaction × Nat) (rest : List (Transaction × Nat)) (l : Ledger) :
    (executeAll fuel b r (entry :: rest)).outcome l =
      ((round fuel b r entry).outcome l).bind fun (o, m) =>
        match o with
        | .ok (r, none) => (executeAll fuel b r rest).outcome m
        | .ok (r, some failure) => some (.ok (r, some failure), m)
        | .error f => some (.error f, m) := by
  obtain ⟨tx, index⟩ := entry
  rw [executeAll, round]
  split
  · rfl
  · simp only [Chain.outcome_bind]
    rcases (executeOne fuel index tx r).outcome l with _ | ⟨_ | ⟨r', _ | failure⟩, m⟩
    · rfl
    · rfl
    · rfl
    · simp only [Option.bind_some, settle]
      split
      · rfl
      · split <;> rfl

/-- The transaction is run, but has no form in which contracts could see it. -/
def Unservable (skipped : List Int) (entry : Transaction × Nat) : Prop :=
  skipped.contains (entry.2 : Int) = false ∧ entry.1.txId.length = 32 ∧ ¬entry.1.Viewable

lemma outcome_round_of_error {fuel : Nat} {b : Block} {r : ReplayResult}
    {entry : Transaction × Nat} {l m : Ledger} {f : Failure}
    (hskip : r.skipped.contains (entry.2 : Int) = false)
    (hone : (executeOne fuel entry.2 entry.1 r).outcome l = some (.error f, m)) :
    (round fuel b r entry).outcome l = some (.error f, m) := by
  rw [round, if_neg (hskip ▸ Bool.false_ne_true)]
  exact Chain.outcome_bind_of_error hone

lemma outcome_round {l : Ledger} (hterm : l.Terminates) (b : Block) (r : ReplayResult)
    {entry : Transaction × Nat}
    (ha : r.skipped.contains (entry.2 : Int) = false → l.hasContract entry.1.target = true) :
    (Unservable r.skipped entry ∧
      ∃ f, ∀ fuel, (round fuel b r entry).outcome l = some (.error f, l)) ∨
    (¬Unservable r.skipped entry ∧
      ∃ n r' failure m, l.Extends m ∧ r'.skipped = r.skipped ∧ ∀ fuel, n ≤ fuel →
        (round fuel b r entry).outcome l = some (.ok (r', failure), m)) := by
  cases hskip : r.skipped.contains (entry.2 : Int) with
  | true =>
    refine .inr ⟨fun h => ?_, 0, r, none, l, .refl l, rfl, fun fuel _ => ?_⟩
    · rw [Unservable, hskip] at h
      exact Bool.noConfusion h.1
    · rw [round, if_pos hskip]
      rfl
  | false =>
    obtain ⟨hid, hview, f, hrun⟩ | ⟨hserve, n, r', failure, m, hm, hskipped, hrun⟩ :=
      outcome_executeOne hterm entry.2 r (ha hskip)
    · exact .inl ⟨⟨hskip, hid, hview⟩, f, fun fuel => outcome_round_of_error hskip (hrun fuel)⟩
    · obtain ⟨r'', failure', m', hsettle, hm', hskipped'⟩ :=
        outcome_settle b entry.1 r' failure m
      refine .inr ⟨fun h => hserve h.2, n, r'', failure', m', hm.trans hm',
        hskipped'.trans hskipped, fun fuel hfuel => ?_⟩
      rw [round, if_neg (hskip ▸ Bool.false_ne_true)]
      exact (Chain.outcome_bind_of_ok (hrun fuel hfuel)).trans hsettle

/-- The loop arrives at a transaction that is run but has no form for contracts. -/
def Hits (fuel : Nat) (b : Block) (skipped : List Int) (r : ReplayResult)
    (entries : List (Transaction × Nat)) (l : Ledger) : Prop :=
  ∃ before entry after r' m, entries = before ++ entry :: after ∧
    (executeAll fuel b r before).outcome l = some (.ok (r', none), m) ∧ Unservable skipped entry

lemma hits_cons {fuel : Nat} {b : Block} {skipped : List Int} {r : ReplayResult}
    {entry : Transaction × Nat} {rest : List (Transaction × Nat)} {l : Ledger} :
    Hits fuel b skipped r (entry :: rest) l ↔ Unservable skipped entry ∨
      ∃ r' m, (round fuel b r entry).outcome l = some (.ok (r', none), m) ∧
        Hits fuel b skipped r' rest m := by
  constructor
  · rintro ⟨before, found, after, r', m, hsplit, hrun, hfound⟩
    cases before with
    | nil =>
      cases hsplit
      exact .inl hfound
    | cons first before =>
      cases hsplit
      rw [outcome_executeAll_cons, Option.bind_eq_some_iff] at hrun
      obtain ⟨⟨_ | ⟨r₁, _ | failure⟩, m₁⟩, hround, hrun⟩ := hrun
      · cases hrun
      · exact .inr ⟨r₁, m₁, hround, before, found, after, r', m, rfl, hrun, hfound⟩
      · cases hrun
  · rintro (hentry | ⟨r₁, m₁, hround, before, found, after, r', m, rfl, hrun, hfound⟩)
    · exact ⟨[], entry, rest, r, l, rfl, rfl, hentry⟩
    · refine ⟨entry :: before, found, after, r', m, rfl, ?_, hfound⟩
      rw [outcome_executeAll_cons, hround]
      exact hrun

/-- The loop comes out the same with any fuel from some amount on. It raises an error exactly if it
arrives at a transaction that has no form for contracts. -/
lemma outcome_executeAll {l : Ledger} (hterm : l.Terminates) (b : Block) (r : ReplayResult)
    (entries : List (Transaction × Nat))
    (hknown : ∀ entry ∈ entries, r.skipped.contains (entry.2 : Int) = false →
      l.hasContract entry.1.target = true) :
    ∃ n o m, ∀ fuel, n ≤ fuel → (executeAll fuel b r entries).outcome l = some (o, m) ∧
      ((∃ f, o = .error f) ↔ Hits fuel b r.skipped r entries l) := by
  -- No round takes a contract away, so that all later targets stay known.
  induction entries generalizing r l with
  | nil =>
    refine ⟨0, .ok (r, none), l, fun fuel _ => ⟨rfl, ?_⟩⟩
    constructor
    · rintro ⟨f, hf⟩
      cases hf
    · rintro ⟨before, entry, after, _, _, hsplit, _⟩
      cases before <;> cases hsplit
  | cons entry rest ih =>
    obtain ⟨hserve, f, hrun⟩ | ⟨hserve, n, r', failure, m, hm, hskipped, hrun⟩ :=
      outcome_round hterm b r (hknown entry List.mem_cons_self)
    · refine ⟨0, .error f, l, fun fuel _ => ⟨?_, ?_⟩⟩
      · rw [outcome_executeAll_cons, hrun]
        rfl
      · exact ⟨fun _ => hits_cons.mpr (.inl hserve), fun _ => ⟨f, rfl⟩⟩
    · cases failure with
      | some failure =>
        refine ⟨n, .ok (r', some failure), m, fun fuel hfuel => ⟨?_, ?_⟩⟩
        · rw [outcome_executeAll_cons, hrun fuel hfuel]
          rfl
        · rw [hits_cons, hrun fuel hfuel]
          simp [hserve]
      | none =>
        have hrest (e : Transaction × Nat) (he : e ∈ rest)
            (hs : r'.skipped.contains (e.2 : Int) = false) : m.hasContract e.1.target = true :=
          hm.hasContract _ (hknown e (List.mem_cons_of_mem _ he) (hskipped ▸ hs))
        obtain ⟨n', o, m', hloop⟩ := ih (hterm.extends hm) r' hrest
        refine ⟨max n n', o, m', fun fuel hfuel => ?_⟩
        have hround : n ≤ fuel := Nat.le_trans (Nat.le_max_left n n') hfuel
        obtain ⟨hrest', hiff⟩ := hloop fuel (Nat.le_trans (Nat.le_max_right n n') hfuel)
        rw [hskipped] at hiff
        rw [outcome_executeAll_cons, hits_cons, hrun fuel hround]
        refine ⟨hrest', hiff.trans ⟨fun h => .inr ⟨r', m, rfl, h⟩, ?_⟩⟩
        rintro (h | ⟨_, _, heq, h⟩)
        · exact absurd h hserve
        · cases heq
          exact h

end Block

end ChainReplay
