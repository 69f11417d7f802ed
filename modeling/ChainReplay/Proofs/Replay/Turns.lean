import ChainReplay.Proofs.Execution.DeploymentRecords
import ChainReplay.Proofs.Execution.Identity
import ChainReplay.Proofs.Ledger.Enlistment
import ChainReplay.Proofs.Replay.Registration

/-! The turns of the transactions of a block. Contracts see a transaction while it is its turn, down to
the innermost call, and no longer. -/

namespace ChainReplay

namespace Ledger

/-- Between the ledgers nothing is told, contracts would see the same of both, and contracts that are
new stand in their places. -/
structure Idles (l m : Ledger) : Prop where
  traffic : m.traffic = l.traffic
  context : m.context = l.context
  filed : l.Filed → m.Filed

instance : IsPreorder Ledger Idles where
  refl := fun _ => ⟨rfl, rfl, fun h => h⟩
  trans := fun _ _ _ h h' =>
    ⟨h'.traffic.trans h.traffic, h'.context.trans h.context, fun hl => h'.filed (h.filed hl)⟩

lemma enlists_idles : Enlists Idles where
  note := fun _ _ _ => ⟨rfl, rfl, fun h => h⟩
  code := fun _ _ _ => ⟨rfl, rfl, fun h => h⟩
  register := by
    intro l c m _ _ h
    rw [register] at h
    split at h
    · cases h
    · cases h
      refine ⟨rfl, rfl, fun hfiled a d hd => ?_⟩
      have hd : Table.find? (l.contracts ++ [(c.address, c)]) a = some d := hd
      rw [Table.find?_append] at hd
      cases hl : l.contracts.find? a with
      | some d' =>
        rw [hl] at hd
        cases hd
        exact hfiled a _ hl
      | none =>
        rw [hl, Option.none_or, Table.find?_cons] at hd
        split at hd
        case isTrue heq =>
          cases hd
          exact heq
        case isFalse => cases hd

end Ledger

namespace Block

/-- The call of a transaction, with the ledger that its contracts are shown. -/
structure Turn where
  index : Nat
  transaction : Transaction
  shown : Ledger

namespace Turn

def transcript (t : Turn) (fuel : Nat) : Transcript :=
  t.shown.transcript fuel t.transaction.target t.transaction.calldata (some t.transaction.sender)
    (some t.transaction.sender)

def outcome (t : Turn) (fuel : Nat) : Option (Except Failure CallResponse × Ledger × Seat) :=
  t.shown.perform (.registered t.transaction.target) (Run.execute (Run.call fuel)
    t.transaction.calldata (some t.transaction.sender) (some t.transaction.sender))

end Turn

/-- The turn of a transaction, if it can be shown to the contract that it calls. -/
def turn? (entry : Transaction × Nat) (l : Ledger) : Option Turn :=
  if entry.1.txId.length = 32 ∧ l.hasContract entry.1.target = true then
    match Transaction.inputsView entry.1.inputs, Transaction.outputsView entry.1.outputs with
    | .ok inputs, .ok outputs => some ⟨entry.2, entry.1, shownTo l entry.1 inputs outputs⟩
    | _, _ => none
  else none

/-- The turns of the transactions up to the one that ends the replay. -/
def turnsOf (fuel : Nat) (b : Block) : ReplayResult → List (Transaction × Nat) → Ledger → List Turn
  | _, [], _ => []
  | r, entry :: rest, l =>
    (if r.skipped.contains (entry.2 : Int) then [] else (turn? entry l).toList) ++
      match (round fuel b r entry).outcome l with
      | some (.ok (r', none), m) => turnsOf fuel b r' rest m
      | _ => []

def turns (fuel : Nat) (b : Block) (l : Ledger) : List Turn :=
  let (skipped, b, l) := b.verify l
  if b.status = .failed then []
  else
    turnsOf fuel { b with status := .executing } ⟨b.height, b.status, [], skipped, 0, none, []⟩
      b.transactions.zipIdx { l with blockNumber := b.height }

/-- Contracts are shown this ledger and the transaction. -/
structure Turn.Presents (t : Turn) (l : Ledger) : Prop where
  txId : t.transaction.txId.length = 32
  known : l.hasContract t.transaction.target = true
  shown : ∃ inputs outputs, Transaction.inputsView t.transaction.inputs = .ok inputs ∧
    Transaction.outputsView t.transaction.outputs = .ok outputs ∧
    t.shown = shownTo l t.transaction inputs outputs

lemma turn?_eq_some {entry : Transaction × Nat} {l : Ledger} {t : Turn}
    (h : turn? entry l = some t) : (t.transaction, t.index) = entry ∧ t.Presents l := by
  rw [turn?] at h
  split at h
  case isFalse => cases h
  case isTrue hcalls =>
    split at h
    · next inputs outputs hinputs houtputs =>
      cases h
      exact ⟨rfl, hcalls.1, hcalls.2, inputs, outputs, hinputs, houtputs, rfl⟩
    · cases h

/-- From ledger to ledger by these turns, with steps in this relation between them. -/
inductive Course (P : Ledger → Ledger → Prop) (fuel : Nat) : Ledger → List Turn → Ledger → Prop
  | ended (l : Ledger) : Course P fuel l [] l
  | idle {l m n : Ledger} {ts : List Turn} (h : P l m) (rest : Course P fuel m ts n) :
      Course P fuel l ts n
  | turn {l m n : Ledger} {t : Turn} {ts : List Turn} {response : CallResponse} {seat : Seat}
      (h : t.Presents l) (hrun : t.outcome fuel = some (.ok response, m, seat))
      (rest : Course P fuel (withdrawnFrom l m) ts n) : Course P fuel l (t :: ts) n

lemma executed_of_settle {b : Block} {tx : Transaction} {r r' : ReplayResult}
    {failure failure' : Option ReplayFailure} {l m : Ledger}
    (h : (settle b tx (r, failure)).outcome l = some (.ok (r', failure'), m)) :
    r'.executed = r.executed := by
  cases failure with
  | none =>
    cases h
    rfl
  | some f =>
    rw [settle] at h
    split at h
    · obtain ⟨_, _, -, h⟩ := Chain.outcome_bind_eq_ok.mp h
      cases h
      rfl
    · split at h
      · obtain ⟨_, _, -, h⟩ := Chain.outcome_bind_eq_ok.mp h
        cases h
        rfl
      · cases h
        rfl

section Courses

variable {P : Ledger → Ledger → Prop} {fuel : Nat} {l m n : Ledger} {ts us : List Turn}

lemma Course.append (h : Course P fuel l ts m) (h' : Course P fuel m us n) :
    Course P fuel l (ts ++ us) n := by
  induction h with
  | ended l => exact h'
  | idle h rest ih => exact .idle h (ih h')
  | turn h hrun rest ih => exact .turn h hrun (ih h')

lemma Course.trailing (h : Course P fuel l ts m) (hmn : P m n) : Course P fuel l ts n := by
  have hend := h.append (.idle hmn (.ended n))
  rwa [List.append_nil] at hend

variable [IsPreorder Ledger P] (hP : Enlists P)

include hP

/-- A transaction that can be shown has its turn, and a transaction that cannot changes nothing. -/
lemma course_executeOne {index : Nat} {tx : Transaction} {r : ReplayResult}
    {o : Except Failure (ReplayResult × Option ReplayFailure)}
    (h : (executeOne fuel index tx r).outcome l = some (o, m)) :
    Course P fuel l (turn? (tx, index) l).toList m ∧ ∀ r' failure, o = .ok (r', failure) →
      r'.executed = r.executed ++ (turn? (tx, index) l).toList.map fun t => (t.index : Int) := by
  -- Whatever keeps a transaction from its call changes nothing, and no turn has begun.
  by_cases hid : tx.txId.length = 32
  case neg =>
    obtain ⟨failure, hfails⟩ := outcome_executeOne_of_wrong_id index r l hid
    cases (hfails fuel).symm.trans h
    rw [turn?, if_neg fun h => hid h.1]
    refine ⟨.ended l, ?_⟩
    rintro _ _ ⟨⟩
    exact (List.append_nil _).symm
  case pos =>
  by_cases hknown : l.hasContract tx.target = true
  case neg =>
    have hcontract : l.contract? tx.target = .error (.unknownContract tx.target) := by
      rw [Ledger.contract?, Option.not_isSome_iff_eq_none.mp hknown]
    rw [executeOne] at h
    rw [if_neg (fun h => h hid), Chain.outcome_bind_of_ok (Chain.outcome_get l), hcontract] at h
    cases h
    rw [turn?, if_neg fun h => hknown h.2]
    exact ⟨.ended l, fun _ _ h => by cases h⟩
  case pos =>
    rw [outcome_executeOne_of_known fuel index r hid hknown, present] at h
    rw [turn?, if_pos ⟨hid, hknown⟩]
    cases hinputs : Transaction.inputsView tx.inputs with
    | error f =>
      rw [hinputs, Chain.outcome_bind_of_error (Chain.outcome_liftM _ l)] at h
      cases h
      exact ⟨.ended l, fun _ _ h => by cases h⟩
    | ok inputs =>
    rw [hinputs, Chain.outcome_bind_of_ok (Chain.outcome_liftM _ l)] at h
    cases houtputs : Transaction.outputsView tx.outputs with
    | error f =>
      rw [houtputs, Chain.outcome_bind_of_error (Chain.outcome_liftM _ l)] at h
      cases h
      exact ⟨.ended l, fun _ _ h => by cases h⟩
    | ok outputs =>
    rw [houtputs, Chain.outcome_bind_of_ok (Chain.outcome_liftM _ l), Chain.outcome_bind,
      outcome_withTransaction_eq hid, Option.bind_eq_some_iff] at h
    obtain ⟨⟨q, k⟩, hperformed, h⟩ := h
    obtain ⟨⟨q', k', seat⟩, hrun, heq⟩ := Option.map_eq_some_iff.mp hperformed
    cases heq
    obtain ⟨response, rfl⟩ := Run.perform_execute_returns hrun
    have hjudge : P (withdrawnFrom l k') m := hP.leads_judge _ _ _ _ _ _ h
    refine ⟨.turn ⟨hid, hknown, inputs, outputs, hinputs, houtputs, rfl⟩ hrun
      (.idle hjudge (.ended m)), ?_⟩
    rintro r' failure rfl
    rw [(judge_spec h).1]
    rfl

lemma course_round {b : Block} {entry : Transaction × Nat} {r : ReplayResult}
    {o : Except Failure (ReplayResult × Option ReplayFailure)}
    (h : (round fuel b r entry).outcome l = some (o, m)) :
    let own := if r.skipped.contains (entry.2 : Int) then [] else (turn? entry l).toList
    Course P fuel l own m ∧ ∀ r' failure, o = .ok (r', failure) →
      r'.executed = r.executed ++ own.map fun t => (t.index : Int) := by
  rw [round] at h
  simp only
  split
  case isTrue hskip =>
    rw [if_pos hskip] at h
    cases h
    refine ⟨.ended l, ?_⟩
    rintro _ _ ⟨⟩
    exact (List.append_nil _).symm
  case isFalse hskip =>
    rw [if_neg hskip, Chain.outcome_bind, Option.bind_eq_some_iff] at h
    obtain ⟨⟨q, k⟩, hone, h⟩ := h
    obtain ⟨hcourse, hexecuted⟩ := course_executeOne hP hone
    cases q with
    | error e =>
      cases h
      exact ⟨hcourse, fun _ _ h => by cases h⟩
    | ok judged =>
      have hsettle : P k m := hP.leads_settle b entry.1 judged _ _ h
      refine ⟨?_, ?_⟩
      · exact hcourse.trailing hsettle
      · rintro r' failure rfl
        obtain ⟨r₁, failure₁⟩ := judged
        rw [← hexecuted r₁ failure₁ rfl]
        exact executed_of_settle h

/-- The loop over the transactions is a course of their turns, also if it is left by a failure. -/
lemma course_executeAll {b : Block} {entries : List (Transaction × Nat)} {r : ReplayResult}
    {o : Except Failure (ReplayResult × Option ReplayFailure)}
    (h : (executeAll fuel b r entries).outcome l = some (o, m)) :
    Course P fuel l (turnsOf fuel b r entries l) m ∧ ∀ r' failure, o = .ok (r', failure) →
      r'.executed = r.executed ++ (turnsOf fuel b r entries l).map fun t => (t.index : Int) := by
  induction entries generalizing r l with
  | nil =>
    cases h
    refine ⟨.ended _, ?_⟩
    rintro _ _ ⟨⟩
    exact (List.append_nil _).symm
  | cons entry rest ih =>
    rw [outcome_executeAll_cons, Option.bind_eq_some_iff] at h
    obtain ⟨⟨q, k⟩, hround, h⟩ := h
    obtain ⟨hcourse, hexecuted⟩ := course_round hP hround
    rw [turnsOf, hround]
    rcases q with e | ⟨r₁, _ | failure⟩
    · cases h
      rw [List.append_nil]
      exact ⟨hcourse, fun _ _ h => by cases h⟩
    · obtain ⟨hrest, hlater⟩ := ih h
      refine ⟨hcourse.append hrest, fun r' failure ho => ?_⟩
      rw [hlater r' failure ho, hexecuted r₁ none rfl, List.map_append, List.append_assoc]
    · cases h
      rw [List.append_nil]
      exact ⟨hcourse, fun r' failure' ho => hexecuted r' failure' ho⟩

lemma course_replay {b b' : Block} {q : Except Failure ReplayResult}
    (h : b.replay fuel l = some (q, b', m)) :
    ∃ k, P l k ∧ (b.turns fuel l = [] ∧ P k m ∨
        Course P fuel { k with blockNumber := b.height } (b.turns fuel l) m) ∧
      ∀ r, q = .ok r → r.executed = (b.turns fuel l).map fun t => (t.index : Int) := by
  have hverify := hP.verify b l
  have hheight : (b.verify l).2.1.height = b.height := by
    rw [verify]
    split
    · rfl
    · rcases b.scan l b.transactions.zipIdx with ⟨k, f | skipped⟩ <;> rfl
  rw [replay] at h
  rw [turns]
  generalize b.verify l = verified at h hverify hheight ⊢
  obtain ⟨skipped, b₁, k⟩ := verified
  simp only at h hverify hheight ⊢
  refine ⟨k, hverify, ?_⟩
  split at h
  case isTrue hfailed =>
    cases h
    rw [if_pos hfailed]
    refine ⟨.inl ⟨rfl, hP.note _ _ _⟩, ?_⟩
    rintro _ ⟨⟩
    rfl
  case isFalse hfailed =>
    rw [if_neg hfailed, ← hheight]
    obtain ⟨⟨o, k'⟩, hrun, heq⟩ := Option.map_eq_some_iff.mp h
    obtain ⟨hcourse, hexecuted⟩ := course_executeAll hP hrun
    rcases o with e | ⟨r, _ | failure⟩
    · cases heq
      exact ⟨.inr hcourse, fun _ h => by cases h⟩
    · cases heq
      refine ⟨.inr (hcourse.trailing (hP.note _ _ _)), ?_⟩
      rintro _ ⟨⟩
      exact hexecuted r none rfl
    · cases heq
      refine ⟨.inr (hcourse.trailing (hP.note _ _ _)), ?_⟩
      rintro _ ⟨⟩
      exact hexecuted r (some failure) rfl

end Courses

lemma mem_turnsOf {fuel : Nat} {b : Block} {r : ReplayResult} {entries : List (Transaction × Nat)}
    {l : Ledger} {t : Turn} (h : t ∈ turnsOf fuel b r entries l) :
    (t.transaction, t.index) ∈ entries := by
  induction entries generalizing r l with
  | nil => cases h
  | cons entry rest ih =>
    rw [turnsOf] at h
    rcases List.mem_append.mp h with h | h
    · split at h
      · cases h
      · rw [(turn?_eq_some (Option.mem_toList.mp h)).1]
        exact List.mem_cons_self
    · split at h
      · exact List.mem_cons_of_mem _ (ih h)
      · cases h

lemma mem_turns {fuel : Nat} {b : Block} {l : Ledger} {t : Turn} (h : t ∈ b.turns fuel l) :
    b.transactions[t.index]? = some t.transaction := by
  have htransactions : (b.verify l).2.1.transactions = b.transactions := by
    rw [verify]
    split
    · rfl
    · rcases b.scan l b.transactions.zipIdx with ⟨k, f | skipped⟩ <;> rfl
  rw [turns] at h
  generalize b.verify l = verified at h htransactions
  obtain ⟨skipped, b₁, k⟩ := verified
  simp only at h htransactions
  split at h
  · cases h
  · rw [← htransactions]
    exact List.mk_mem_zipIdx_iff_getElem?.mp (mem_turnsOf h)

/-- What the executions are like in the turn of a transaction, at this height: each is told, before it
begins, of this transaction, and that its sender is where it originates. -/
structure Turn.Serves (t : Turn) (height : Int) (a : Address) (own : List Entry) : Prop where
  environment : ∀ n record, .environment n record ∈ own → ∃ caller owner time salt,
    environmentFormat.decode record = .ok (caller, t.transaction.sender, t.transaction.txId, height,
      owner, a, time, salt)
  started : ∀ n e, e ∈ own → e.started? = some n →
    ∃ record, [.environment n record, e].Sublist own
  inputs : ∀ n bs, .reply n .inputs bs ∈ own →
    Transaction.inputsView t.transaction.inputs = .ok bs
  outputs : ∀ n bs, .reply n .outputs bs ∈ own →
    Transaction.outputsView t.transaction.outputs = .ok bs

lemma Turn.Presents.serves {t : Turn} {l : Ledger} (h : t.Presents l) (hl : l.Filed) (fuel : Nat) :
    (t.transcript fuel).Each (fun _ a phase own => phase = .execution →
      t.Serves l.blockNumber a own) none := by
  obtain ⟨inputs, outputs, hinputs, houtputs, hshown⟩ := h.shown
  have hid : t.shown.transactionId.length = 32 := by
    rw [hshown]
    exact h.txId
  have hknown : t.shown.hasContract t.transaction.target = true := by
    rw [hshown]
    exact h.known
  have hidentified := Run.transcript_identified (l := t.shown) (hshown ▸ hl) hknown fuel
    t.transaction.calldata (some t.transaction.sender) (some t.transaction.sender)
  refine hidentified.imp ?_
  rintro around a _ own hvouches rfl
  refine ⟨fun n record hmem => ?_, hvouches.started, fun n bs hmem => ?_, fun n bs hmem => ?_⟩
  · have hdecoded := (hvouches.environment n record hmem).2 hid
    rw [Ledger.environment, hshown] at hdecoded
    cases around <;> exact ⟨_, _, _, _, hdecoded⟩
  · rw [hinputs, hvouches.inputs n bs hmem, hshown]
    rfl
  · rw [houtputs, hvouches.outputs n bs hmem, hshown]
    rfl

end Block

/-- What contracts see when no transaction has its turn. -/
def Context.withdrawn (c : Context) : Context :=
  { c with transactionId := Bytes.zeros 32, inputs := emptyList, outputs := emptyList }

lemma Ledger.withdrawn_of_context {l m : Ledger} (h : m.context = l.context.withdrawn) :
    m.sender = l.sender ∧ m.origin = l.origin ∧ m.blockNumber = l.blockNumber ∧
      m.transactionId = Bytes.zeros 32 ∧ m.inputs = emptyList ∧ m.outputs = emptyList := by
  simp only [context, Context.withdrawn, Context.mk.injEq] at h
  obtain ⟨hsender, horigin, hid, hinputs, houtputs, hblock, -⟩ := h
  exact ⟨hsender, horigin, hblock, hid, hinputs, houtputs⟩

lemma Ledger.actors_of_context {l m : Ledger} (h : m.context = l.context) :
    m.sender = l.sender ∧ m.origin = l.origin ∧ m.blockNumber = l.blockNumber := by
  simp only [context, Context.mk.injEq] at h
  exact ⟨h.1, h.2.1, h.2.2.2.2.2.1⟩

namespace Block

lemma Turn.withdrawn {t : Turn} {l m : Ledger} {fuel : Nat} {response : CallResponse} {seat : Seat}
    (h : t.Presents l) (hrun : t.outcome fuel = some (.ok response, m, seat)) :
    (withdrawnFrom l m).traffic = l.traffic ++ (t.transcript fuel).entries ∧
      (withdrawnFrom l m).context = l.context.withdrawn ∧
      (l.Filed → (withdrawnFrom l m).Filed) := by
  obtain ⟨inputs, outputs, -, -, hshown⟩ := h.shown
  have htraffic := Ledger.traffic_of_execute hrun
  obtain ⟨g, rfl, hexecute⟩ := Run.execute_of_perform hrun
  have hattends : Run.Attends ⟨t.shown, .registered t.transaction.target, []⟩ g :=
    Run.sustained_attends.leads_execute
      (fun target calldata _ => Run.sustained_attends.leads_call fuel target calldata) _ _ _ _ _
        hexecute
  have hblock := congrArg Context.blockNumber hattends.context
  have htime := congrArg Context.medianTime hattends.context
  simp only [Ledger.context, hshown, shownTo] at hblock htime
  refine ⟨?_, ?_, fun hl => hattends.ledger.filed (hshown ▸ hl)⟩
  · have hsame : t.shown.traffic = l.traffic := by
      rw [hshown]
      rfl
    rw [hsame] at htraffic
    exact htraffic
  · simp only [Ledger.context, withdrawnFrom, Ledger.clearTransaction, Context.withdrawn, hblock,
      htime]

lemma Course.serves {fuel : Nat} {l m : Ledger} {ts : List Turn}
    (h : Course Ledger.Idles fuel l ts m) (hl : l.Filed) :
    m.traffic = l.traffic ++ ts.flatMap (fun t => (t.transcript fuel).entries) ∧
      (ts = [] → m.context = l.context) ∧ (ts ≠ [] → m.context = l.context.withdrawn) ∧
      ∀ t ∈ ts, (t.transcript fuel).Each (fun _ a phase own => phase = .execution →
        t.Serves l.blockNumber a own) none := by
  induction h with
  | ended l => exact ⟨(List.append_nil _).symm, fun _ => rfl, fun h => absurd rfl h,
      fun t ht => absurd ht List.not_mem_nil⟩
  | idle h _ ih =>
    obtain ⟨htraffic, hnone, hsome, hserves⟩ := ih (h.filed hl)
    have hblock := (Ledger.actors_of_context h.context).2.2
    rw [h.traffic] at htraffic
    rw [h.context] at hnone hsome
    rw [hblock] at hserves
    exact ⟨htraffic, hnone, hsome, hserves⟩
  | @turn l n m t ts response seat hpresents hrun _ ih =>
    obtain ⟨htraffic', hcontext', hfiled⟩ := Turn.withdrawn hpresents hrun
    obtain ⟨htraffic, hnone, hsome, hserves⟩ := ih (hfiled hl)
    have hblock := (Ledger.withdrawn_of_context hcontext').2.2.1
    have hcontext : m.context = l.context.withdrawn := by
      by_cases hts : ts = []
      · rw [hnone hts, hcontext']
      · rw [hsome hts, hcontext']
        rfl
    refine ⟨?_, nofun, fun _ => hcontext, List.forall_mem_cons.mpr ⟨hpresents.serves hl fuel, ?_⟩⟩
    · rw [htraffic, htraffic', List.flatMap_cons, List.append_assoc]
    · rw [hblock] at hserves
      exact hserves

/-- In whatever way a replay ends, all that is told in it is told in the turns of transactions, each
execution is told and shown its own transaction and the height of the block, and what the ledger shows
contracts behind the replay is what it showed before, or no transaction. -/
theorem context_of_replay {fuel : Nat} {b b' : Block} {l m : Ledger}
    {q : Except Failure ReplayResult} (hkeyed : l.Keyed)
    (h : b.replay fuel l = some (q, b', m)) :
    m.traffic = l.traffic ++ (b.turns fuel l).flatMap (fun t => (t.transcript fuel).entries) ∧
      (∀ t ∈ b.turns fuel l, b.transactions[t.index]? = some t.transaction ∧
        (t.transcript fuel).Each (fun _ a phase own => phase = .execution →
          t.Serves b.height a own) none) ∧
      (∀ r, q = .ok r → r.executed = (b.turns fuel l).map fun t => (t.index : Int)) ∧
      m.sender = l.sender ∧ m.origin = l.origin ∧
      (b.turns fuel l ≠ [] → m.transactionId = Bytes.zeros 32 ∧ m.inputs = emptyList ∧
        m.outputs = emptyList) := by
  obtain ⟨k, hk, hcourse, hexecuted⟩ := course_replay Ledger.enlists_idles h
  obtain ⟨hsender, horigin, -⟩ := Ledger.actors_of_context hk.context
  rcases hcourse with ⟨hnone, hend⟩ | hcourse
  · have hidle : l.Idles m := trans_of Ledger.Idles hk hend
    obtain ⟨hsender, horigin, -⟩ := Ledger.actors_of_context hidle.context
    rw [hnone] at hexecuted ⊢
    refine ⟨?_, fun t ht => absurd ht List.not_mem_nil, hexecuted, hsender, horigin,
      fun h => absurd rfl h⟩
    rw [hidle.traffic, List.flatMap_nil, List.append_nil]
  · obtain ⟨htraffic, hnone, hsome, hserves⟩ := hcourse.serves (hk.filed hkeyed.filed)
    have hsame : m.sender = k.sender ∧ m.origin = k.origin := by
      by_cases hts : b.turns fuel l = []
      · obtain ⟨hs, ho, -⟩ := Ledger.actors_of_context (hnone hts)
        exact ⟨hs, ho⟩
      · obtain ⟨hs, ho, -⟩ := Ledger.withdrawn_of_context (hsome hts)
        exact ⟨hs, ho⟩
    refine ⟨htraffic.trans ?_, fun t ht => ⟨mem_turns ht, hserves t ht⟩, hexecuted,
      hsame.1.trans hsender, hsame.2.trans horigin, fun hts => ?_⟩
    · exact congrArg (· ++ _) hk.traffic
    · exact (Ledger.withdrawn_of_context (hsome hts)).2.2.2

/-- The entrance, whose constructor is run first, calls the chamber in the turn of the visit. -/
theorem context_of_replay_visit :
    ∃ q b m, (create 7 [visit] false false).replay 1 (commissioned (.done [])
        (Run.calling Run.chamber [] (.done []))) = some (q, b, m) ∧
      (∃ t ∈ (create 7 [visit] false false).turns 1 (commissioned (.done [])
          (Run.calling Run.chamber [] (.done []))),
        (t.transcript 1).Each (fun _ a phase own => phase = .execution → t.Serves 7 a own) none) ∧
      m.transactionId = Bytes.zeros 32 ∧ m.inputs = emptyList ∧ m.outputs = emptyList := by
  have hends : ((create 7 [visit] false false).replay 1 (commissioned (.done [])
      (Run.calling Run.chamber [] (.done [])))).isSome = true := by decide +kernel
  obtain ⟨⟨q, b, m⟩, hrun⟩ := Option.isSome_iff_exists.mp hends
  obtain ⟨-, hserves, -, -, -, hwithdrawn⟩ := context_of_replay (keyed_commissioned _ _) hrun
  have hturns : ((create 7 [visit] false false).turns 1 (commissioned (.done [])
      (Run.calling Run.chamber [] (.done [])))).isEmpty = false := by decide +kernel
  have hsome := List.isEmpty_eq_false_iff.mp hturns
  obtain ⟨t, ht⟩ := List.exists_mem_of_ne_nil _ hsome
  exact ⟨q, b, m, hrun, ⟨t, ht, (hserves t ht).2⟩, hwithdrawn hsome⟩

end Block

end ChainReplay
