import ChainReplay.Proofs.Execution.Reenactment
import ChainReplay.Proofs.Ledger.Counterpart
import ChainReplay.Proofs.Replay.Loop

/-! Replaying a block on counterparts. The calls that it makes go the same way on both ledgers, and
so does all that it does with their responses. -/

namespace ChainReplay

namespace Ledger

lemma Moved.setup {o : Offset} {l m l' m' : Ledger} (hmoved : Moved o l m l' m')
    (h : l.setup = m.setup) : l'.setup = m'.setup := by
  simp only [Ledger.setup, Ledger.bare] at h ⊢
  rw [hmoved.first, hmoved.second, h]

structure Beside (o : Offset) (l m : Ledger) : Prop where
  counterpart : l.Counterpart o m
  bare : l.bare = m.bare

namespace Beside

variable {o : Offset} {l m l' m' : Ledger}

lemma moved (h : Beside o l m) (hmoved : Moved o l m l' m') : Beside o l' m' where
  counterpart := hmoved.counterpart
  bare := by
    have hbare := h.bare
    rw [Ledger.bare, Ledger.bare] at hbare ⊢
    rw [hmoved.first, hmoved.second, hbare]

lemma note (h : Beside o l m) (level : Level) (text : Text) :
    Beside o (l.note level text) (m.note level text) :=
  h.moved ⟨h.counterpart.note _ _ _ _, rfl, rfl, .refl _⟩

end Beside

end Ledger

namespace Chain

variable {α β : Type} {o : Offset} {l m : Ledger}

/-- The two have the same result, and leave counterparts. -/
def Agrees (o : Offset) (x y : Chain α) (l m : Ledger) : Prop :=
  ∃ q l' m', x.outcome l = some (q, l') ∧ y.outcome m = some (q, m') ∧ l'.Beside o m'

namespace Agrees

lemma bind {x y : Chain α} {k k' : α → Chain β} (h : Agrees o x y l m)
    (hk : ∀ a l' m', x.outcome l = some (.ok a, l') → l'.Beside o m' →
      Agrees o (k a) (k' a) l' m') : Agrees o (x >>= k) (y >>= k') l m := by
  obtain ⟨q, l', m', hx, hy, hbeside⟩ := h
  cases q with
  | error e => exact ⟨.error e, l', m', outcome_bind_of_error hx, outcome_bind_of_error hy, hbeside⟩
  | ok a =>
    obtain ⟨q, l'', m'', hx', hy', hbeside'⟩ := hk a l' m' hx hbeside
    exact ⟨q, l'', m'', (outcome_bind_of_ok hx).trans hx', (outcome_bind_of_ok hy).trans hy',
      hbeside'⟩

lemma pure (h : l.Beside o m) (a : α) : Agrees o (pure a) (pure a) l m :=
  ⟨.ok a, l, m, rfl, rfl, h⟩

lemma bind_lift (h : l.Beside o m) {q : Except Failure α} {k k' : α → Chain β}
    (hk : ∀ a, q = .ok a → Agrees o (k a) (k' a) l m) :
    Agrees o (liftM q >>= k) (liftM q >>= k') l m := by
  cases q with
  | error e =>
    exact ⟨.error e, l, m, outcome_bind_of_error (outcome_liftM _ l),
      outcome_bind_of_error (outcome_liftM _ m), h⟩
  | ok a =>
    obtain ⟨q, l', m', hx, hy, h'⟩ := hk a rfl
    exact ⟨q, l', m', hx, hy, h'⟩

lemma note (h : l.Beside o m) (level : Level) (text : Text) :
    Agrees o (note level text) (note level text) l m :=
  ⟨.ok ⟨⟩, _, _, rfl, rfl, h.note level text⟩

lemma registerTouched (h : l.Beside o m) (addresses : List Address) :
    Agrees o (registerTouched addresses) (registerTouched addresses) l m := by
  obtain ⟨l', m', created, hl, hm, hmoved⟩ := h.counterpart.registerTouched addresses
  refine ⟨.ok ⟨⟩, l', m', ?_, ?_, h.moved hmoved⟩
  · simp only [Chain.registerTouched, outcome_bind, outcome_get, Option.bind_some, hl]
    rfl
  · simp only [Chain.registerTouched, outcome_bind, outcome_get, Option.bind_some, hm]
    rfl

end Agrees

end Chain

namespace Block

open Chain

variable {o : Offset} {l m : Ledger} {others : List (Table Address Bytes)}

/-- The ledger on which a transaction runs, if the transaction gets so far. -/
def stage? (tx : Transaction) (l : Ledger) : Option Ledger :=
  if tx.txId.length = 32 ∧ l.hasContract tx.target = true then
    match Transaction.inputsView tx.inputs, Transaction.outputsView tx.outputs with
    | .ok inputs, .ok outputs => some (shownTo l tx inputs outputs)
    | _, _ => none
  else none

/-- The call of this transaction, made on this ledger, has an outcome although it may not ask for
code of the others. -/
def Discreet (others : List (Table Address Bytes)) (fuel : Nat) (l : Ledger) (tx : Transaction) :
    Prop :=
  ((Run.executeOn (Run.barredHost (Run.asksFor others) fuel) tx.calldata (some tx.sender)
    (some tx.sender)).outcome ⟨l, .registered tx.target, []⟩).isSome = true

/-- The calls of a loop over transactions, each with the ledger on which it is made. -/
def calls (fuel : Nat) (b : Block) :
    ReplayResult → List (Transaction × Nat) → Ledger → List (Ledger × Transaction)
  | _, [], _ => []
  | r, entry :: rest, l =>
    (if r.skipped.contains (entry.2 : Int) then []
      else ((stage? entry.1 l).map fun shown => (shown, entry.1)).toList) ++
    match (round fuel b r entry).outcome l with
    | some (.ok (r, none), m) => calls fuel b r rest m
    | _ => []

lemma counterpart_shownTo (h : l.Beside o m) (tx : Transaction) (inputs outputs : Bytes) :
    Frame.Counterpart o l.codes ⟨shownTo l tx inputs outputs, .registered tx.target, []⟩
      ⟨shownTo m tx inputs outputs, .registered tx.target, []⟩ where
  ledger := ⟨h.counterpart.contracts, h.counterpart.known, h.counterpart.codes,
    h.counterpart.handles⟩
  surface := congrArg (fun l => { l with
    transactionId := tx.txId, inputs, outputs, sender := tx.sender, origin := tx.sender }) h.bare
  seat := .registered _
  known := Frame.Counterpart.known_registered h.counterpart tx.target
  deployments := rfl
  included := .refl _

lemma beside_withdrawnFrom {codes : Table Address Bytes} {f g : Frame}
    (h : Frame.Counterpart o codes f g) (l m : Ledger) :
    (withdrawnFrom l f.ledger).Beside o (withdrawnFrom m g.ledger) where
  counterpart := ⟨h.ledger.contracts, h.ledger.known, h.ledger.codes, h.ledger.handles⟩
  bare := congrArg (fun l => { l with
    transactionId := [], inputs := [], outputs := [], sender := Address.zero
    origin := Address.zero }) h.surface

lemma agrees_withTransaction (hothers : o.Within others) (h : l.Beside o m) {fuel : Nat}
    {tx : Transaction} (hid : tx.txId.length = 32)
    (inputs outputs : Bytes) (hdiscreet : Discreet others fuel (shownTo l tx inputs outputs) tx) :
    Agrees o
      (withTransaction tx.txId inputs outputs (withIdentity tx.sender tx.sender
        (execute fuel tx.target tx.calldata (some tx.sender) (some tx.sender))))
      (withTransaction tx.txId inputs outputs (withIdentity tx.sender tx.sender
        (execute fuel tx.target tx.calldata (some tx.sender) (some tx.sender)))) l m := by
  have hshown := counterpart_shownTo h tx inputs outputs
  obtain ⟨⟨q, f⟩, hbarred⟩ := Option.isSome_iff_exists.mp hdiscreet
  obtain ⟨f', hrun, rfl⟩ := (Run.executeOn_congr (Run.barredHost_simulates _ fuel) tx.calldata
    (some tx.sender) (some tx.sender)).outcome rfl hbarred
  obtain ⟨g, hrun', hfg⟩ := (Follows.executeOn (fun _ => Follows.barredHost hothers fuel)
    tx.calldata (some tx.sender) (some tx.sender)).outcome hshown hbarred
  rw [← Run.execute_eq_executeOn] at hrun hrun'
  obtain ⟨response, rfl⟩ := Run.Returns.execute _ _ _ _ _ _ _ hrun
  have hperform {n : Ledger} {f : Frame} (hrun : (Run.execute (Run.call fuel) tx.calldata
      (some tx.sender) (some tx.sender)).outcome ⟨n, .registered tx.target, []⟩ =
        some (.ok response, f)) : n.perform (.registered tx.target)
      (Run.execute (Run.call fuel) tx.calldata (some tx.sender) (some tx.sender)) =
        some (.ok response, f.ledger, f.seat) := by
    rw [Run.perform_eq, hrun]
    rfl
  exact ⟨.ok response, _, _, outcome_withTransaction hid (hperform hrun),
    outcome_withTransaction hid (hperform hrun'), beside_withdrawnFrom hfg l m⟩

lemma agrees_judge (h : l.Beside o m) (index : Nat) (tx : Transaction) (response : CallResponse)
    (r : ReplayResult) :
    Agrees o (judge index tx response r) (judge index tx response r) l m := by
  rw [judge]
  cases response.result with
  | ok reply =>
    refine (Agrees.note h _ _).bind fun _ l' m' _ h' => ?_
    exact (Agrees.registerTouched h' _).bind fun _ l'' m'' _ h'' => .pure h'' _
  | error f =>
    refine (Agrees.note h _ _).bind fun _ l' m' _ h' => ?_
    cases (failureOf index tx f).recordedRevert with
    | some words => exact (Agrees.note h' _ _).bind fun _ _ _ _ h'' => .pure h'' _
    | none => exact .pure h' _

lemma outcome_executeOne_of_unknown (fuel index : Nat) {tx : Transaction} (r : ReplayResult)
    {l : Ledger} (hid : tx.txId.length = 32) (ha : ¬l.hasContract tx.target = true) :
    (executeOne fuel index tx r).outcome l = some (.error (.unknownContract tx.target), l) := by
  have hnone : l.contracts.find? tx.target = none :=
    (Table.contains_eq_false_iff _ _).mp (Bool.eq_false_iff.mpr ha)
  have hcontract : l.contract? tx.target = .error (.unknownContract tx.target) := by
    simp [Ledger.contract?, hnone]
  rw [executeOne]
  rw [if_neg (fun h => h hid), outcome_bind_of_ok (outcome_get l), hcontract]
  exact outcome_bind_of_error (outcome_liftM _ l)

lemma agrees_executeOne (hothers : o.Within others) (h : l.Beside o m) {fuel : Nat} (index : Nat)
    {tx : Transaction} (r : ReplayResult)
    (hdiscreet : ∀ shown, stage? tx l = some shown → Discreet others fuel shown tx) :
    Agrees o (executeOne fuel index tx r) (executeOne fuel index tx r) l m := by
  by_cases hid : tx.txId.length = 32
  case neg =>
    rw [executeOne]
    rw [if_pos hid]
    exact .pure h _
  have hcontract := h.counterpart.hasContract tx.target
  by_cases ha : l.hasContract tx.target = true
  case neg =>
    exact ⟨_, l, m, outcome_executeOne_of_unknown fuel index r hid ha,
      outcome_executeOne_of_unknown fuel index r hid (hcontract ▸ ha), h⟩
  have hpresent : Agrees o (present fuel index tx r) (present fuel index tx r) l m := by
    rw [present]
    refine Agrees.bind_lift h fun inputs hinputs => Agrees.bind_lift h fun outputs houtputs => ?_
    have hshown : stage? tx l = some (shownTo l tx inputs outputs) := by
      rw [stage?, if_pos ⟨hid, ha⟩, hinputs, houtputs]
    refine (agrees_withTransaction hothers h hid inputs outputs (hdiscreet _ hshown)).bind ?_
    exact fun response _ _ _ h' => agrees_judge h' index tx response _
  rw [Agrees, outcome_executeOne_of_known fuel index r hid ha,
    outcome_executeOne_of_known fuel index r hid (hcontract ▸ ha)]
  exact hpresent

lemma agrees_settle (b : Block) (tx : Transaction) (h : l.Beside o m)
    (judged : ReplayResult × Option ReplayFailure) :
    Agrees o (settle b tx judged) (settle b tx judged) l m := by
  obtain ⟨r, _ | failure⟩ := judged
  · exact .pure h _
  · simp only [settle]
    split
    · exact (Agrees.note h _ _).bind fun _ _ _ _ h' => .pure h' _
    · split
      · exact (Agrees.note h _ _).bind fun _ _ _ _ h' => .pure h' _
      · exact .pure h _

lemma agrees_round (hothers : o.Within others) (h : l.Beside o m) {fuel : Nat} (b : Block)
    (r : ReplayResult) (entry : Transaction × Nat)
    (hdiscreet : r.skipped.contains (entry.2 : Int) = false →
      ∀ shown, stage? entry.1 l = some shown → Discreet others fuel shown entry.1) :
    Agrees o (round fuel b r entry) (round fuel b r entry) l m := by
  rw [round]
  cases hskip : r.skipped.contains (entry.2 : Int) with
  | true => exact .pure h _
  | false =>
    refine (agrees_executeOne hothers h entry.2 r (hdiscreet hskip)).bind ?_
    exact fun judged _ _ _ h' => agrees_settle b entry.1 h' judged

lemma agrees_executeAll (hothers : o.Within others) (h : l.Beside o m) {fuel : Nat} (b : Block)
    (r : ReplayResult) (entries : List (Transaction × Nat))
    (hdiscreet : ∀ call ∈ calls fuel b r entries l, Discreet others fuel call.1 call.2) :
    Agrees o (executeAll fuel b r entries) (executeAll fuel b r entries) l m := by
  -- The calls of the rest are made from the ledger that the first round leaves.
  induction entries generalizing r l m with
  | nil => exact .pure h _
  | cons entry rest ih =>
    have hround : Agrees o (round fuel b r entry) (round fuel b r entry) l m := by
      refine agrees_round hothers h b r entry fun hskip shown hshown => ?_
      refine hdiscreet (shown, entry.1) (List.mem_append_left _ ?_)
      rw [if_neg (hskip ▸ Bool.false_ne_true), hshown]
      exact List.mem_singleton.mpr rfl
    obtain ⟨q, l', m', hl, hm, h'⟩ := hround
    rw [Agrees, outcome_executeAll_cons, outcome_executeAll_cons, hl, hm]
    rcases q with e | ⟨r', _ | failure⟩
    · exact ⟨.error e, l', m', rfl, rfl, h'⟩
    · refine ih h' r' fun call hcall => hdiscreet call (List.mem_append_right _ ?_)
      rw [hl]
      exact hcall
    · exact ⟨.ok (r', some failure), l', m', rfl, rfl, h'⟩

lemma moved_scan (b : Block) (h : l.Counterpart o m) (entries : List (Transaction × Nat)) :
    ∃ q l' m', b.scan l entries = (l', q) ∧ b.scan m entries = (m', q) ∧
      Ledger.Moved o l m l' m' := by
  induction entries generalizing l m with
  | nil => exact ⟨.ok [], l, m, rfl, rfl, h.stay⟩
  | cons entry rest ih =>
    obtain ⟨tx, index⟩ := entry
    have hnoted (level : Level) (text : Text) :
        Ledger.Moved o l m (l.note level text) (m.note level text) :=
      ⟨h.note _ _ _ _, rfl, rfl, .refl _⟩
    rw [scan, scan, ← h.hasContract tx.target]
    split
    · exact ih h
    · split
      · obtain ⟨q, l', m', hl, hm, hmoved⟩ := ih (hnoted .debug ("skipping transaction #"
          ++ Text.ofNat index ++ ", contract " ++ tx.target.text ++ " is not loaded")).counterpart
        simp only [hl, hm]
        exact ⟨_, l', m', rfl, rfl, (hnoted _ _).trans hmoved⟩
      · exact ⟨_, _, _, rfl, rfl, hnoted _ _⟩

lemma moved_verify (b : Block) (h : l.Counterpart o m) :
    ∃ skipped b' l' m', b.verify l = (skipped, b', l') ∧ b.verify m = (skipped, b', m') ∧
      Ledger.Moved o l m l' m' := by
  rw [verify, verify]
  split
  · exact ⟨_, _, l, m, rfl, rfl, h.stay⟩
  · obtain ⟨q, l', m', hl, hm, hmoved⟩ := moved_scan b h b.transactions.zipIdx
    rw [hl, hm]
    cases q with
    | ok skipped => exact ⟨_, _, l', m', rfl, rfl, hmoved⟩
    | error f => exact ⟨_, _, l', m', rfl, rfl, hmoved⟩

/-- The calls that replaying a block makes from outside. -/
def outerCalls (fuel : Nat) (b : Block) (l : Ledger) : List (Ledger × Transaction) :=
  let (skipped, b, l) := b.verify l
  if b.status = .failed then []
  else calls fuel { b with status := .executing } ⟨b.height, b.status, [], skipped, 0, none, []⟩
    b.transactions.zipIdx { l with blockNumber := b.height }

/-- If none of its calls asks for code of the others, a block is replayed in the same way on both
ledgers. -/
lemma replay_counterpart (hothers : o.Within others)
    (h : l.Counterpart o m) (hsetup : l.setup = m.setup) {fuel : Nat} (b : Block)
    (hdiscreet : ∀ call ∈ b.outerCalls fuel l, Discreet others fuel call.1 call.2) :
    ∃ q b' l' m', b.replay fuel l = some (q, b', l') ∧ b.replay fuel m = some (q, b', m') ∧
      l'.Counterpart o m' := by
  obtain ⟨skipped, b', l', m', hl, hm, hmoved⟩ := moved_verify b h
  rw [outerCalls, hl] at hdiscreet
  rw [replay, replay, hl, hm]
  simp only at hdiscreet ⊢
  split
  case isTrue => exact ⟨_, _, _, _, rfl, rfl, hmoved.counterpart.note _ _ _ _⟩
  case isFalse hstatus =>
    rw [if_neg hstatus] at hdiscreet
    have hbeside : Ledger.Beside o { l' with blockNumber := b'.height }
        { m' with blockNumber := b'.height } := by
      refine ⟨⟨hmoved.counterpart.contracts, hmoved.counterpart.known, hmoved.counterpart.codes,
        hmoved.counterpart.handles⟩, ?_⟩
      exact congrArg (fun l => { l with blockNumber := b'.height }) (hmoved.setup hsetup)
    obtain ⟨q, l'', m'', hrun, hrun', h''⟩ := agrees_executeAll hothers hbeside _ _ _ hdiscreet
    simp only [Chain.outcome] at hrun hrun'
    rw [hrun, hrun']
    rcases q with e | ⟨r, failure⟩
    · exact ⟨_, _, l'', m'', rfl, rfl, h''.counterpart⟩
    · cases failure with
      | none => exact ⟨_, _, _, _, rfl, rfl, h''.counterpart.note _ _ _ _⟩
      | some f => exact ⟨_, _, _, _, rfl, rfl, h''.counterpart.note _ _ _ _⟩

end Block

end ChainReplay
