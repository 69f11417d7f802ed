import ChainReplay.Proofs.Execution.Notices
import ChainReplay.Proofs.Replay.Reenactment
import ChainReplay.Proofs.Replay.Turns

/-! Running the same transactions under other numbers. Neither the notices of the ledger nor what the
result has counted before make a difference, and what is counted is counted under the new numbers. -/

namespace ChainReplay

namespace ReplayFailure

def renumber (p : Int → Int) (f : ReplayFailure) : ReplayFailure := { f with index := p f.index }

lemma map_index_renumber (p : Int → Int) (fs : List ReplayFailure) :
    (fs.map (·.renumber p)).map (·.index) = (fs.map (·.index)).map p := by
  rw [List.map_map, List.map_map]
  rfl

end ReplayFailure

namespace ReplayResult

def renumber (p : Int → Int) (r : ReplayResult) : ReplayResult :=
  { r with
    executed := r.executed.map p
    failure := r.failure.map (·.renumber p)
    tolerated := r.tolerated.map (·.renumber p) }

/-- A result to which another one has added what it counts. -/
def tally (base r : ReplayResult) : ReplayResult :=
  { base with
    executed := base.executed ++ r.executed
    gasUsed := base.gasUsed + r.gasUsed
    tolerated := base.tolerated ++ r.tolerated }

/-- The second result, with what the first one has counted before it. -/
def append (r s : ReplayResult) : ReplayResult :=
  { r.tally s with status := s.status, failure := s.failure }

end ReplayResult

namespace Chain

variable {α β γ δ : Type} {R : α → β → Prop} {Q : γ → δ → Prop} {l m : Ledger}

/-- The first from one ledger and the second from another one come out alike, or both are cut off. -/
def Matches (R : α → β → Prop) (x : Chain α) (y : Chain β) (l m : Ledger) : Prop :=
  Option.Rel (fun p q => Agree R p.1 q.1 ∧ p.2.Echoes q.2) (x.outcome l) (y.outcome m)

namespace Matches

lemma pure (h : l.Echoes m) {a : α} {b : β} (hab : R a b) : Matches R (pure a) (pure b) l m :=
  .some ⟨.ok hab, h⟩

lemma bind {x : Chain α} {y : Chain β} {k : α → Chain γ} {k' : β → Chain δ}
    (h : Matches R x y l m)
    (hk : ∀ a b l' m', R a b → l'.Echoes m' → Matches Q (k a) (k' b) l' m') :
    Matches Q (x >>= k) (y >>= k') l m := by
  rw [Matches] at h
  rw [Matches, outcome_bind, outcome_bind]
  generalize x.outcome l = o at h ⊢
  generalize y.outcome m = o' at h ⊢
  obtain ⟨hr, hledger⟩ | _ := h
  case none => exact .none
  case some p q =>
    obtain ⟨r, l'⟩ := p
    obtain ⟨s, m'⟩ := q
    cases hr with
    | ok hab => exact hk _ _ _ _ hab hledger
    | error e => exact .some ⟨.error e, hledger⟩

lemma bind_lift (h : l.Echoes m) {q : Except Failure α} {k : α → Chain γ} {k' : α → Chain δ}
    (hk : ∀ a, Matches Q (k a) (k' a) l m) : Matches Q (liftM q >>= k) (liftM q >>= k') l m := by
  cases q with
  | error e => exact .some ⟨.error e, h⟩
  | ok a => exact hk a

lemma note (h : l.Echoes m) (level : Level) (text : Text) :
    Matches Eq (note level text) (note level text) l m :=
  .some ⟨.ok rfl, h.note _ _ _ _⟩

lemma registerTouched (h : l.Echoes m) (addresses : List Address) :
    Matches Eq (registerTouched addresses) (registerTouched addresses) l m := by
  obtain ⟨hledger, hresult⟩ := h.registerTouched addresses
  simp only [Matches, Chain.registerTouched, outcome_bind, outcome_get, Option.bind_some]
  generalize l.registerTouched addresses = p at hledger hresult ⊢
  generalize m.registerTouched addresses = q at hledger hresult ⊢
  obtain ⟨l', _⟩ := p
  obtain ⟨m', r⟩ := q
  obtain rfl := hresult
  cases r with
  | error e => exact .some ⟨.error e, hledger⟩
  | ok created => exact .some ⟨.ok rfl, hledger⟩

end Matches

end Chain

namespace Block

open Chain

/-- The second outcome of a transaction is the first one, renumbered and added to a result. -/
structure Restates (p : Int → Int) (base : ReplayResult)
    (o o' : ReplayResult × Option ReplayFailure) : Prop where
  skipped : o.1.skipped = []
  result : o'.1 = base.tally (o.1.renumber p)
  failure : o'.2 = o.2.map (·.renumber p)

section Rounds

variable {p : Int → Int} {base r : ReplayResult} {l m : Ledger}

lemma matches_judge (h : l.Echoes m) {i j : Nat} (hp : p i = j) (hr : r.skipped = [])
    (tx : Transaction) (response : CallResponse) :
    Matches (Restates p base) (judge i tx response r)
      (judge j tx response (base.tally (r.renumber p))) l m := by
  rw [judge, judge]
  cases response.result with
  | ok reply =>
    refine (Matches.note h _ _).bind fun _ _ l' m' _ h' => ?_
    refine (Matches.registerTouched h' _).bind fun _ _ l'' m'' _ h'' => ?_
    exact .pure h'' ⟨hr, rfl, rfl⟩
  | error f =>
    have hfailure : failureOf j tx f = (failureOf i tx f).renumber p := by
      rw [failureOf, failureOf]
      cases tx.revert with
      | none => simp [ReplayFailure.renumber, hp]
      | some revert => simp [ReplayFailure.renumber, hp]
    refine (Matches.note h _ _).bind fun _ _ l' m' _ h' => ?_
    rw [hfailure]
    obtain ⟨index, message, transaction, recorded⟩ := failureOf i tx f
    cases recorded with
    | none => exact .pure h' ⟨hr, rfl, rfl⟩
    | some words =>
      exact (Matches.note h' _ _).bind fun _ _ l'' m'' _ h'' => .pure h'' ⟨hr, rfl, rfl⟩

lemma matches_withTransaction (h : l.Echoes m) (fuel : Nat) {tx : Transaction}
    (hid : tx.txId.length = 32) (inputs outputs : Bytes) :
    Matches Eq
      (withTransaction tx.txId inputs outputs (withIdentity tx.sender tx.sender
        (execute fuel tx.target tx.calldata (some tx.sender) (some tx.sender))))
      (withTransaction tx.txId inputs outputs (withIdentity tx.sender tx.sender
        (execute fuel tx.target tx.calldata (some tx.sender) (some tx.sender)))) l m := by
  have hshown : (shownTo l tx inputs outputs).Echoes (shownTo m tx inputs outputs) := by
    obtain ⟨notices⟩ := h
    exact .intro notices
  have hrun := hshown.perform (Heedless.execute (Heedless.call fuel) tx.calldata (some tx.sender)
    (some tx.sender)) (.registered tx.target)
  rw [Matches, outcome_withTransaction_eq hid, outcome_withTransaction_eq hid]
  generalize (shownTo l tx inputs outputs).perform _ _ = o at hrun ⊢
  generalize (shownTo m tx inputs outputs).perform _ _ = o' at hrun ⊢
  obtain ⟨hresult, hledger, -⟩ | _ := hrun
  case none => exact .none
  case some p q =>
    obtain ⟨_, l', seat⟩ := p
    obtain ⟨r, m', seat'⟩ := q
    dsimp only at hresult hledger
    obtain rfl := hresult
    obtain ⟨notices⟩ := h
    obtain ⟨notices'⟩ := hledger
    exact .some ⟨Agree.refl r, .intro notices'⟩

lemma matches_executeOne (h : l.Echoes m) (fuel : Nat) {i j : Nat} (hp : p i = j)
    (hr : r.skipped = []) (tx : Transaction) :
    Matches (Restates p base) (executeOne fuel i tx r)
      (executeOne fuel j tx (base.tally (r.renumber p))) l m := by
  by_cases hid : tx.txId.length = 32
  case neg =>
    rw [executeOne, executeOne]
    rw [if_pos hid, if_pos hid]
    exact .pure h ⟨hr, rfl, by simp [ReplayFailure.renumber, hp]⟩
  by_cases ha : l.hasContract tx.target = true
  case neg =>
    rw [Matches, outcome_executeOne_of_unknown fuel i r hid ha,
      outcome_executeOne_of_unknown fuel j _ hid (h.hasContract tx.target ▸ ha)]
    exact .some ⟨.error _, h⟩
  have hadded (gas : Int) : base.tally ((addExecuted r i gas).renumber p) =
      addExecuted (base.tally (r.renumber p)) j gas := by
    simp [ReplayResult.tally, ReplayResult.renumber, addExecuted, hp, Int.add_assoc]
  have hpresent : Matches (Restates p base) (present fuel i tx r)
      (present fuel j tx (base.tally (r.renumber p))) l m := by
    refine Matches.bind_lift h fun inputs => Matches.bind_lift h fun outputs => ?_
    refine (matches_withTransaction h fuel hid inputs outputs).bind ?_
    rintro response _ l' m' rfl h'
    rw [← hadded]
    exact matches_judge (r := addExecuted r i response.usedGas) h' hp hr tx response
  rw [Matches, outcome_executeOne_of_known fuel i r hid ha,
    outcome_executeOne_of_known fuel j _ hid ((h.hasContract tx.target).trans ha)]
  exact hpresent

lemma matches_settle (h : l.Echoes m) {b b' : Block} (hallow : b'.allowReverts = b.allowReverts)
    (tx : Transaction) {o o' : ReplayResult × Option ReplayFailure} (ho : Restates p base o o') :
    Matches (Restates p base) (settle b tx o) (settle b' tx o') l m := by
  obtain ⟨r, failure⟩ := o
  obtain ⟨_, _⟩ := o'
  obtain ⟨hr, rfl, rfl⟩ := ho
  cases failure with
  | none => exact .pure h ⟨hr, rfl, rfl⟩
  | some f =>
    simp only [settle, Option.map_some, hallow]
    split
    · refine (Matches.note h _ _).bind fun _ _ l' m' _ h' => .pure h' ⟨hr, ?_, rfl⟩
      simp [ReplayResult.tally, ReplayResult.renumber]
    · split
      · exact (Matches.note h _ _).bind fun _ _ l' m' _ h' => .pure h' ⟨hr, rfl, rfl⟩
      · exact .pure h ⟨hr, rfl, rfl⟩

lemma matches_round (h : l.Echoes m) (fuel : Nat) {b b' : Block}
    (hallow : b'.allowReverts = b.allowReverts) {i j : Nat} (hp : p i = j) (hr : r.skipped = [])
    (hj : base.skipped.contains (j : Int) = false) (tx : Transaction) :
    Matches (Restates p base) (round fuel b r (tx, i))
      (round fuel b' (base.tally (r.renumber p)) (tx, j)) l m := by
  have hi : r.skipped.contains (i : Int) = false := by rw [hr, List.contains_nil]
  rw [round, round, if_neg (hi ▸ Bool.false_ne_true), if_neg (hj ▸ Bool.false_ne_true)]
  apply (matches_executeOne h fuel hp hr tx).bind
  exact fun o o' l' m' ho h' => matches_settle h' hallow tx ho

/-- The loop over some transactions under other numbers, with skipped ones between them. -/
theorem matches_executeAll (h : l.Echoes m) (fuel : Nat) {b b' : Block}
    (hallow : b'.allowReverts = b.allowReverts) {entries entries' : List (Transaction × Nat)}
    (hentries : List.Forall₂ (fun e e' => e'.1 = e.1 ∧ p e.2 = (e'.2 : Int)) entries
      (entries'.filter fun e' => !base.skipped.contains (e'.2 : Int)))
    (hr : r.skipped = []) :
    Matches (Restates p base) (executeAll fuel b r entries)
      (executeAll fuel b' (base.tally (r.renumber p)) entries') l m := by
  -- The induction is on the longer list, whose skipped entries the shorter one leaves out.
  induction entries' generalizing entries r l m with
  | nil =>
    cases hentries
    exact .pure h ⟨hr, rfl, rfl⟩
  | cons entry' rest' ih =>
    obtain ⟨tx, j⟩ := entry'
    cases hj : base.skipped.contains (j : Int) with
    | true =>
      rw [List.filter_cons_of_neg (by rw [hj]; exact Bool.false_ne_true)] at hentries
      have hpass : executeAll fuel b' (base.tally (r.renumber p)) ((tx, j) :: rest') =
          executeAll fuel b' (base.tally (r.renumber p)) rest' := by
        rw [executeAll]
        exact if_pos hj
      rw [hpass]
      exact ih h hentries hr
    | false =>
      rw [List.filter_cons_of_pos (by rw [hj]; rfl)] at hentries
      obtain _ | ⟨hentry, hrest⟩ := hentries
      case cons entry rest =>
      obtain ⟨_, i⟩ := entry
      obtain ⟨rfl, hp⟩ := hentry
      have hround := matches_round h fuel hallow hp hr hj tx
      rw [Matches] at hround ⊢
      rw [outcome_executeAll_cons, outcome_executeAll_cons]
      generalize (round fuel b r (tx, i)).outcome l = o at hround ⊢
      generalize (round fuel b' _ (tx, j)).outcome m = o' at hround ⊢
      obtain ⟨ho, h'⟩ | _ := hround
      case none => exact .none
      case some o o' =>
      obtain ⟨q, l'⟩ := o
      obtain ⟨q', m'⟩ := o'
      cases ho with
      | error e => exact .some ⟨.error e, h'⟩
      | @ok a a' ho =>
        obtain ⟨r', failure⟩ := a
        obtain ⟨_, _⟩ := a'
        obtain ⟨hr', rfl, rfl⟩ := ho
        cases failure with
        | none => exact ih h' hrest hr'
        | some failure => exact .some ⟨.ok ⟨hr', rfl, rfl⟩, h'⟩

end Rounds

/-- The second replay ends as the first one does, with another result `g` of it. -/
structure Retells (p : Int → Int) (g : ReplayResult → ReplayResult)
    (q q' : Except Failure ReplayResult × Block × Ledger) : Prop where
  result : Agree (fun s s' => s' = g s) q.1 q'.1
  status : q'.2.1.status = q.2.1.status
  failure : q'.2.1.failure = q.2.1.failure.map (·.renumber p)
  ledger : q.2.2.Echoes q'.2.2

lemma retells_of_matches {p : Int → Int} {g : ReplayResult → ReplayResult} {base : ReplayResult}
    {b b' : Block} {x y : Chain (ReplayResult × Option ReplayFailure)} {l m : Ledger}
    (h : Matches (Restates p base) x y l m) (hfailure : b.failure = none)
    (hfailure' : b'.failure = none) (hstatus : b'.status = b.status)
    (hg : ∀ r failure n, x.outcome l = some (.ok (r, failure), n) → ∀ status failure,
      g { r with status, failure } =
        base.append (ReplayResult.renumber p { r with status, failure })) :
    Option.Rel (Retells p g) ((x.outcome l).map (concluded b)) ((y.outcome m).map (concluded b')) := by
  rw [Matches] at h
  generalize x.outcome l = o at h hg
  generalize y.outcome m = o' at h
  obtain ⟨ho, h'⟩ | _ := h
  case none => exact .none
  case some o o' =>
  obtain ⟨q, l'⟩ := o
  obtain ⟨q', m'⟩ := o'
  refine .some ?_
  cases ho with
  | error e => exact ⟨.error e, hstatus, by simp [concluded, hfailure, hfailure'], h'⟩
  | @ok a a' ho =>
    obtain ⟨r, failure⟩ := a
    obtain ⟨_, _⟩ := a'
    obtain ⟨-, rfl, rfl⟩ := ho
    have hresult := hg r failure l' rfl
    cases failure with
    | none =>
      refine ⟨.ok ?_, rfl, by simp [concluded, finish, hfailure, hfailure'], h'.note _ _ _ _⟩
      rw [hfailure, hfailure', hresult]
      rfl
    | some f =>
      refine ⟨.ok ?_, rfl, rfl, h'.note _ _ _ _⟩
      rw [hresult]
      rfl

lemma scan_of_known {b : Block} {l : Ledger} {entries : List (Transaction × Nat)}
    (h : ∀ entry ∈ entries, l.hasContract entry.1.target = true) : b.scan l entries = (l, .ok []) := by
  induction entries with
  | nil => rfl
  | cons entry rest ih =>
    obtain ⟨hentry, hrest⟩ := List.forall_mem_cons.mp h
    rw [scan, if_pos hentry]
    exact ih hrest

def underway (height : Int) (transactions : List Transaction) (ignoreUnknown allowReverts : Bool) :
    Block :=
  { create height transactions ignoreUnknown allowReverts with status := .executing }

/-- The loop of a block whose targets are all known starts from the ledger that the block is given. -/
lemma replay_of_known {transactions : List Transaction} {l : Ledger}
    (h : ∀ tx ∈ transactions, l.hasContract tx.target = true) (fuel : Nat) (height : Int)
    (ignoreUnknown allowReverts : Bool) :
    (create height transactions ignoreUnknown allowReverts).replay fuel l =
      ((executeAll fuel (underway height transactions ignoreUnknown allowReverts)
        ⟨height, .verified, [], [], 0, none, []⟩ transactions.zipIdx).outcome
          { l with blockNumber := height }).map
            (concluded (underway height transactions ignoreUnknown allowReverts)) := by
  have hknown (entry : Transaction × Nat) (hentry : entry ∈ transactions.zipIdx) :
      l.hasContract entry.1.target = true :=
    h entry.1 ((List.mem_zipIdx' hentry).2 ▸ List.getElem_mem _)
  exact replay_of_verify fuel (verify_of_scan_ok ReplayStatus.noConfusion (scan_of_known hknown)) rfl

end Block

end ChainReplay
