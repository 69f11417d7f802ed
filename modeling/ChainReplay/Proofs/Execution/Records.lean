import ChainReplay.Proofs.Execution.Trail
import ChainReplay.Proofs.Ledger.Registry

/-! Deployment records along a run: what each part of a run adds to the records of the contracts, and
which of the additions are noted so that they can be taken back. -/

namespace ChainReplay

namespace Table

variable {κ α : Type} [DecidableEq κ]

/-- Nothing is lost, and what is new is as given. -/
structure Grown (before after : Table κ α) (new : κ → α → Prop) : Prop where
  kept : ∀ k a, before.find? k = some a → after.find? k = some a
  origin : ∀ k a, after.find? k = some a → before.find? k = some a ∨ new k a
  added : ∀ k a, new k a → after.contains k = true

namespace Grown

variable {t u v : Table κ α} {new new' : κ → α → Prop}

lemma contains (h : Grown t u new) {k : κ} (hk : t.contains k = true) : u.contains k = true := by
  obtain ⟨a, ha⟩ := Option.isSome_iff_exists.mp hk
  exact contains_of_find? (h.kept k a ha)

lemma of_find? (h : ∀ k, u.find? k = t.find? k) (hnew : ∀ k a, ¬new k a) : Grown t u new where
  kept := fun k _ ha => (h k).trans ha
  origin := fun k _ ha => .inl ((h k).symm.trans ha)
  added := fun k a ha => absurd ha (hnew k a)

lemma trans (h : Grown t u new) (h' : Grown u v new') :
    Grown t v fun k a => new k a ∨ new' k a where
  kept := fun k a ha => h'.kept k a (h.kept k a ha)
  origin := by
    intro k a ha
    rcases h'.origin k a ha with ha | ha
    · exact (h.origin k a ha).imp_right .inl
    · exact .inr (.inr ha)
  added := by
    rintro k a (ha | ha)
    · exact h'.contains (h.added k a ha)
    · exact h'.added k a ha

lemma congr (h : Grown t u new) (hnew : ∀ k a, new k a ↔ new' k a) : Grown t u new' where
  kept := h.kept
  origin := fun k a ha => (h.origin k a ha).imp_right (hnew k a).mp
  added := fun k a ha => h.added k a ((hnew k a).mpr ha)

lemma insert (t : Table κ α) {k : κ} (hk : t.contains k = false) (a : α) :
    Grown t (t.insert k a) fun k' a' => k' = k ∧ a' = a where
  kept := by
    intro k' a' ha
    have hne : k ≠ k' := by
      rintro rfl
      rw [(contains_eq_false_iff t k).mp hk] at ha
      cases ha
    rw [find?_insert, if_neg hne, ha]
  origin := by
    intro k' a' ha
    rw [find?_insert] at ha
    split at ha
    case isTrue h =>
      cases ha
      exact .inr ⟨h.symm, rfl⟩
    case isFalse => exact .inl ha
  added := by
    rintro k' a' ⟨rfl, rfl⟩
    exact contains_of_find? (by rw [find?_insert, if_pos rfl])

end Grown

lemma find?_filter_new (t u : Table κ α) (k : κ) :
    find? (u.filter fun (j, _) => !t.contains j) k = if t.contains k then none else u.find? k := by
  induction u with
  | nil => exact (ite_self none).symm
  | cons entry u ih =>
    rw [List.filter_cons, find?_cons]
    by_cases he : t.contains entry.1
    · rw [if_neg (by simp [he]), ih]
      by_cases hk : entry.1 = k
      · rw [if_pos (hk ▸ he), if_pos (hk ▸ he)]
      · rw [if_neg hk]
    · rw [if_pos (by simp [he]), find?_cons, ih]
      by_cases hk : entry.1 = k
      · rw [if_pos hk, if_pos hk, if_neg (hk ▸ he)]
      · rw [if_neg hk, if_neg hk]

/-- Two tables have grown out of one, and the second gets what only the first has. -/
lemma Grown.join {t u v : Table κ α} {new new' : κ → α → Prop} (hu : Grown t u new)
    (hv : Grown t v new') :
    Grown t (v ++ u.filter fun (k, _) => !v.contains k) fun k a => new k a ∨ new' k a where
  kept := fun k a ha => by rw [find?_append, hv.kept k a ha, Option.some_or]
  origin := by
    intro k a ha
    rw [find?_append, find?_filter_new] at ha
    cases hk : v.find? k with
    | some b =>
      rw [hk, Option.some_or] at ha
      exact (hv.origin k a (hk.trans ha)).imp_right .inr
    | none =>
      rw [hk, Option.none_or] at ha
      split at ha
      case isTrue => cases ha
      case isFalse => exact (hu.origin k a ha).imp_right .inl
  added := by
    rintro k a (ha | ha)
    · rw [contains_append, Bool.or_eq_true]
      refine (Bool.eq_false_or_eq_true (v.contains k)).imp id fun hin => ?_
      obtain ⟨b, hb⟩ := Option.isSome_iff_exists.mp (hu.added k a ha)
      exact contains_of_find? (by rw [find?_filter_new, hin, if_neg Bool.false_ne_true, hb])
    · rw [contains_append, hv.added k a ha, Bool.true_or]

lemma find?_erase (t : Table κ α) (k j : κ) :
    (t.erase k).find? j = if j = k then none else t.find? j := by
  induction t with
  | nil => exact (ite_self none).symm
  | cons entry t ih =>
    rw [erase] at ih ⊢
    rw [List.filter_cons, find?_cons]
    by_cases hk : entry.1 = k
    · rw [if_neg (by simp [hk]), ih]
      by_cases hj : j = k
      · rw [if_pos hj, if_pos hj]
      · rw [if_neg hj, if_neg hj, if_neg fun h => hj (h.symm.trans hk)]
    · rw [if_pos (by simp [hk]), find?_cons, ih]
      by_cases hj : entry.1 = j
      · rw [if_pos hj, if_pos hj, if_neg (hj ▸ hk)]
      · rw [if_neg hj, if_neg hj]

end Table

namespace Ledger

/-- The copies that the registered contract has on record as deployed. -/
def records (l : Ledger) (d : Address) : Table Address Bytes :=
  ((l.contracts.find? d).map (·.children)).getD []

lemma records_of_find? {l : Ledger} {d : Address} {c : Contract}
    (h : l.contracts.find? d = some c) : l.records d = c.children := by
  rw [records, h]
  rfl

lemma records_modifyContract (l : Ledger) (a : Address) (k : Contract → Contract) (d : Address) :
    (l.modifyContract a k).records d =
      if d = a then ((l.contracts.find? d).map fun c => (k c).children).getD []
      else l.records d := by
  simp only [records, modifyContract]
  rw [Table.find?_modify]
  split <;> simp [Function.comp_def]

lemma records_modifyContract_of_ne (l : Ledger) {a d : Address} (h : d ≠ a)
    (k : Contract → Contract) : (l.modifyContract a k).records d = l.records d := by
  rw [records_modifyContract, if_neg h]

lemma records_modifyContract_of_blind (l : Ledger) (a : Address) {k : Contract → Contract}
    (hk : ∀ c, (k c).children = c.children) (d : Address) :
    (l.modifyContract a k).records d = l.records d := by
  rw [records_modifyContract]
  split
  · simp [hk, records]
  · rfl

lemma hasContract_modifyContract (l : Ledger) (a : Address) (k : Contract → Contract)
    (d : Address) : (l.modifyContract a k).hasContract d = l.hasContract d := by
  simp only [hasContract, modifyContract]
  rw [Bool.eq_iff_iff, Table.contains_iff, Table.contains_iff, Table.keys_modify]

end Ledger

namespace Frame

lemma address?_modifyContract (f : Frame) (k : Contract → Contract) :
    (f.modifyContract k).seat.address? = f.seat.address? := by
  rw [modifyContract]
  cases f.seat <;> rfl

lemma deployments_modifyContract (f : Frame) (k : Contract → Contract) :
    (f.modifyContract k).deployments = f.deployments := by
  rw [modifyContract]
  cases f.seat <;> rfl

lemma hasContract_modifyContract (f : Frame) (k : Contract → Contract) (d : Address) :
    (f.modifyContract k).ledger.hasContract d = f.ledger.hasContract d := by
  rw [modifyContract]
  cases f.seat with
  | registered a => exact f.ledger.hasContract_modifyContract a k d
  | apart c => rfl

lemma settled_modifyContract {f : Frame} (h : f.ledger.Settled) {k : Contract → Contract}
    (hk : ∀ c, c.deployed = true → (k c).deployed = true) :
    (f.modifyContract k).ledger.Settled := by
  rw [modifyContract]
  cases f.seat with
  | registered a => exact h.modifyContract a hk
  | apart c => exact h

lemma records_modifyContract_of_ne {f : Frame} {d : Address} (h : f.seat.address? ≠ some d)
    (k : Contract → Contract) : (f.modifyContract k).ledger.records d = f.ledger.records d := by
  rw [modifyContract]
  cases hs : f.seat with
  | registered a =>
    have hd : d ≠ a := fun hd => h (by rw [hs, hd]; rfl)
    exact f.ledger.records_modifyContract_of_ne hd k
  | apart c => rfl

lemma records_modifyContract_self {f : Frame} {d : Address} (h : f.seat.address? = some d)
    (hd : f.ledger.hasContract d = true) (k : Contract → Contract) :
    (f.modifyContract k).ledger.records d = (k f.contract).children := by
  obtain ⟨l, seat, deployments⟩ := f
  cases seat with
  | registered a =>
    cases h
    obtain ⟨c, hc⟩ := Option.isSome_iff_exists.mp hd
    change (l.modifyContract d k).records d = _
    rw [Ledger.records_modifyContract, if_pos rfl, contract, Seat.contract, hc]
    rfl
  | apart c => cases h

lemma contract_modifyContract {f : Frame} (h : ∀ a, f.seat.address? = some a →
    f.ledger.hasContract a = true) (k : Contract → Contract) :
    (f.modifyContract k).contract = k f.contract := by
  obtain ⟨l, seat, deployments⟩ := f
  cases seat with
  | registered a =>
    obtain ⟨c, hc⟩ := Option.isSome_iff_exists.mp (h a rfl)
    simp only [modifyContract, contract, Seat.contract]
    rw [Table.find?_modify, if_pos rfl, hc]
    rfl
  | apart c => rfl

lemma children_contract {f : Frame} {d : Address} (h : f.seat.address? = some d) :
    f.contract.children = f.ledger.records d := by
  obtain ⟨l, seat, deployments⟩ := f
  cases seat with
  | registered a =>
    cases h
    simp only [contract, Seat.contract, Ledger.records]
    cases l.contracts.find? d <;> rfl
  | apart c => cases h

end Frame

namespace Run

/-- A change of a contract that leaves its records, and does not take its deployment back. -/
structure Discreet (k : Contract → Contract) : Prop where
  children : ∀ c, (k c).children = c.children
  deployed : ∀ c, c.deployed = true → (k c).deployed = true

/-- All contracts are deployed, and a contract that runs in the registry is there. -/
structure Ready (f : Frame) : Prop where
  settled : f.ledger.Settled
  seat : ∀ a, f.seat.address? = some a → f.ledger.hasContract a = true

structure Still (f g : Frame) : Prop where
  seat : g.seat.address? = f.seat.address?
  hasContract : ∀ d, g.ledger.hasContract d = f.ledger.hasContract d
  settled : f.ledger.Settled → g.ledger.Settled
  own : g.contract.children = f.contract.children
  records : ∀ d, g.ledger.records d = f.ledger.records d
  deployments : g.deployments = f.deployments

namespace Still

lemma refl (f : Frame) : Still f f :=
  ⟨rfl, fun _ => rfl, fun h => h, rfl, fun _ => rfl, rfl⟩

lemma ready {f g : Frame} (h : Still f g) (hf : Ready f) : Ready g :=
  ⟨h.settled hf.settled, fun a ha => (h.hasContract a).trans (hf.seat a (h.seat.symm.trans ha))⟩

lemma trans {f g h : Frame} (hfg : Still f g) (hgh : Still g h) : Still f h where
  seat := hgh.seat.trans hfg.seat
  hasContract := fun d => (hgh.hasContract d).trans (hfg.hasContract d)
  settled := fun hf => hgh.settled (hfg.settled hf)
  own := hgh.own.trans hfg.own
  records := fun d => (hgh.records d).trans (hfg.records d)
  deployments := hgh.deployments.trans hfg.deployments

lemma withLedger (f : Frame) {l : Ledger} (h : l.contracts = f.ledger.contracts) :
    Still f { f with ledger := l } where
  seat := rfl
  hasContract := fun d => by simp only [Ledger.hasContract, h]
  settled := fun hf => by rw [Ledger.Settled, h]; exact hf
  own := by
    simp only [Frame.contract]
    cases f.seat <;> simp only [Seat.contract, h]
  records := fun d => by simp only [Ledger.records, h]
  deployments := rfl

lemma modifyContract (f : Frame) {k : Contract → Contract} (hk : Discreet k) :
    Still f (f.modifyContract k) where
  seat := f.address?_modifyContract k
  hasContract := f.hasContract_modifyContract k
  settled := fun h => Frame.settled_modifyContract h hk.deployed
  own := by
    obtain ⟨l, seat, deployments⟩ := f
    cases seat with
    | registered a =>
      simp only [Frame.contract, Frame.modifyContract, Seat.contract]
      rw [Table.find?_modify, if_pos rfl]
      cases l.contracts.find? a with
      | none => rfl
      | some c => exact hk.children c
    | apart c => exact hk.children c
  records := by
    intro d
    rw [Frame.modifyContract]
    cases f.seat with
    | registered a => exact f.ledger.records_modifyContract_of_blind a hk.children d
    | apart c => rfl
  deployments := f.deployments_modifyContract k

end Still

def Calm {α : Type} (x : Run α) : Prop := ∀ f r g, x.outcome f = some (r, g) → Still f g

lemma discreet_dispose : Discreet Contract.dispose := by
  constructor <;> intro c <;> rcases h : c.handle <;> simp [Contract.dispose, h]

namespace Calm

variable {α β : Type}

lemma of_eq {x : Run α} {a : Frame → α} {k : Frame → Frame}
    (h : ∀ f, x.outcome f = some (.ok (a f), k f)) (hk : ∀ f, Still f (k f)) : Calm x := by
  intro f r g hx
  rw [h] at hx
  cases hx
  exact hk f

lemma bind {x : Run α} {k : α → Run β} (hx : Calm x) (hk : ∀ a, Calm (k a)) : Calm (x >>= k) := by
  intro f r g h
  rw [outcome_bind] at h
  obtain ⟨q, f', hq, h⟩ := Outcome.andThen_eq_some h
  cases q with
  | ok a => exact (hx f _ f' hq).trans (hk a f' r g h)
  | error e =>
    cases h
    exact hx f _ _ hq

lemma pure (a : α) : Calm (pure a : Run α) := of_eq (outcome_pure a) Still.refl

lemma throw (e : Failure) : Calm (throw e : Run α) := by
  intro f r g h
  cases h
  exact .refl f

lemma lift (q : Except Failure α) : Calm (lift q) := by
  intro f r g h
  rw [outcome_lift] at h
  cases h
  exact .refl f

lemma ite {x y : Run α} (p : Prop) [Decidable p] (hx : Calm x) (hy : Calm y) :
    Calm (if p then x else y) := by
  split
  · exact hx
  · exact hy

lemma contract : Calm contract := of_eq outcome_contract Still.refl

lemma ledger : Calm ledger := of_eq outcome_ledger Still.refl

lemma modifyLedger {k : Ledger → Ledger} (hk : ∀ l, (k l).contracts = l.contracts) :
    Calm (modifyLedger k) :=
  of_eq (outcome_modifyLedger k) fun f => .withLedger f (hk f.ledger)

lemma enter (e : Entry) : Calm (enter e) := modifyLedger fun _ => rfl

lemma note (level : Level) (text : Text) : Calm (note level text) := modifyLedger fun _ => rfl

lemma modifyContract {k : Contract → Contract} (hk : Discreet k) : Calm (modifyContract k) :=
  of_eq (outcome_modifyContract k) fun f => .modifyContract f hk

lemma optional {x : Run PUnit} {k : Run β} {p : Prop} [Decidable p] (hx : Calm x) (hk : Calm k) :
    Calm (if p then x >>= fun _ => k else k) :=
  ite p (hx.bind fun _ => hk) hk

lemma dispose : Calm dispose :=
  contract.bind fun _ => bind (modifyLedger fun _ => rfl) fun _ => modifyContract discreet_dispose

lemma load : Calm load := by
  rw [Run.load]
  refine dispose.bind fun _ => bind (modifyContract ⟨fun _ => rfl, fun _ h => h⟩) fun _ => ?_
  refine contract.bind fun c => ledger.bind fun l => (lift _).bind fun code => ?_
  refine (lift _).bind fun engine => bind (modifyLedger fun _ => rfl) fun _ => ?_
  refine (enter _).bind fun _ => (lift _).bind fun program => ?_
  exact bind (modifyContract ⟨fun _ => rfl, fun _ h => h⟩) fun _ => pure _

lemma setEnvironment (given : EnvironmentGiven) : Calm (setEnvironment given) := by
  rw [Run.setEnvironment]
  refine contract.bind fun c => ledger.bind fun l => (lift _).bind fun record => ?_
  refine (lift _).bind fun handle => (enter _).bind fun _ => ?_
  cases handle.program.refusal with
  | some e => exact throw e
  | none => exact pure _

lemma entry (calldata : Bytes) (given : EnvironmentGiven) : Calm (entry calldata given) := by
  rw [Run.entry]
  exact load.bind fun _ => (setEnvironment given).bind fun _ => (enter _).bind fun _ => pure _

lemma loadPointer (pointer : Int) : Calm (Host.loadPointer pointer) := by
  rw [Host.loadPointer]
  exact contract.bind fun c => ledger.bind fun l => optional (note _ _) (pure _)

lemma storePointer (pointer value : Int) : Calm (Host.storePointer pointer value) := by
  rw [Host.storePointer]
  refine contract.bind fun c => ledger.bind fun l => optional (note _ _) ?_
  exact modifyContract ⟨fun _ => rfl, fun _ h => h⟩

lemma answer (call : Address → Bytes → Run CallResponse) {request : HostFunction} (data : Bytes)
    (hcall : request ≠ .call) (hdeploy : request ≠ .deploy) :
    Calm (Host.answer call request data) := by
  cases request with
  | load => exact (lift _).bind fun pointer => (loadPointer _).bind fun value => lift _
  | store => exact (lift _).bind fun entry => (storePointer _ _).bind fun _ => pure _
  | nextPointer => exact (lift _).bind fun query => contract.bind fun c => lift _
  | call => exact absurd rfl hcall
  | deploy => exact absurd rfl hdeploy
  | inputs => exact ledger.bind fun l => pure _
  | outputs => exact ledger.bind fun l => pure _
  | log => exact (lift _).bind fun _ => (contract.bind fun c => note _ _).bind fun _ => pure _
  | emit =>
    exact (lift _).bind fun _ =>
      bind (modifyContract ⟨fun _ => rfl, fun _ h => h⟩) fun _ => pure _

end Calm

lemma still_answered (number : Nat) (request : HostFunction) (reply : Except Failure Bytes)
    (f : Frame) : Still f (answered number request reply f) := by
  cases reply with
  | error e => exact .refl f
  | ok bs =>
    simp only [answered]
    split
    · exact .withLedger f rfl
    · exact .refl f

lemma still_charged (number : Nat) (gas : Int) (f : Frame) : Still f (charged number gas f) := by
  have hmeter : Still f (f.modifyContract (·.meter number gas)) :=
    .modifyContract f ⟨fun _ => rfl, fun _ h => h⟩
  rw [charged]
  split
  · exact hmeter.trans (.withLedger _ rfl)
  · exact hmeter

lemma still_heard (calldata : Bytes) (f : Frame) : Still f (heard calldata f) := by
  rw [heard]
  split
  · exact .withLedger f rfl
  · exact .refl f

/-- What a part of a run with this trail does to records, and what it notes of what it does. -/
structure Marks (t : Trail) (f g : Frame) : Prop where
  seat : g.seat.address? = f.seat.address?
  hasContract : ∀ d, g.ledger.hasContract d = f.ledger.hasContract d
  settled : f.ledger.Settled → g.ledger.Settled
  own : f.seat.address? = none → Table.Grown f.contract.children g.contract.children
    fun child code => (child, code) ∈ t.own
  records : ∀ d, Table.Grown (f.ledger.records d) (g.ledger.records d) fun child code =>
    (child, code) ∈ t.retained d ∨ f.seat.address? = some d ∧ (child, code) ∈ t.own
  noted : ∃ new, g.deployments = f.deployments ++ new ∧
    (∀ d child, (d, child) ∈ new → (f.ledger.records d).contains child = false) ∧
    ∀ d child, f.seat.address? ≠ some d → (g.ledger.records d).contains child = true →
      (f.ledger.records d).contains child = true ∨ (d, child) ∈ new

namespace Marks

variable {t u : Trail} {f g h : Frame}

lemma ready (h : Marks t f g) (hf : Ready f) : Ready g :=
  ⟨h.settled hf.settled, fun a ha => (h.hasContract a).trans (hf.seat a (h.seat.symm.trans ha))⟩

lemma of_still (hfg : Still f g) : Marks .quiet f g where
  seat := hfg.seat
  hasContract := hfg.hasContract
  settled := hfg.settled
  own := fun _ => .of_find? (fun _ => by rw [hfg.own]) fun _ _ => List.not_mem_nil
  records := fun d => .of_find? (fun _ => by rw [hfg.records d]) fun _ _ h =>
    h.elim List.not_mem_nil fun h => List.not_mem_nil h.2
  noted := ⟨[], by rw [hfg.deployments, List.append_nil], fun _ _ h => (by cases h),
    fun d child _ h => .inl (by rwa [hfg.records d] at h)⟩

lemma congr (hfg : Marks t f g) (hown : t.own = u.own)
    (hretained : ∀ d, t.retained d = u.retained d) : Marks u f g where
  seat := hfg.seat
  hasContract := hfg.hasContract
  settled := hfg.settled
  own := fun hseat => hown ▸ hfg.own hseat
  records := fun d => hretained d ▸ hown ▸ hfg.records d
  noted := hfg.noted

lemma andThen (hfg : Marks t f g) (hgh : Marks u g h) : Marks (.andThen t u) f h where
  seat := hgh.seat.trans hfg.seat
  hasContract := fun d => (hgh.hasContract d).trans (hfg.hasContract d)
  settled := fun hf => hgh.settled (hfg.settled hf)
  own := fun hseat => ((hfg.own hseat).trans (hgh.own (hfg.seat.trans hseat))).congr
    fun _ _ => List.mem_append.symm
  records := by
    intro d
    refine ((hfg.records d).trans (hgh.records d)).congr fun a b => ?_
    rw [hfg.seat]
    simp only [Trail.retained, Trail.own, List.mem_append]
    tauto
  noted := by
    obtain ⟨new, hnew, hfresh, hall⟩ := hfg.noted
    obtain ⟨new', hnew', hfresh', hall'⟩ := hgh.noted
    refine ⟨new ++ new', by rw [hnew', hnew, List.append_assoc], fun d child hmem => ?_,
      fun d child hseat hin => ?_⟩
    · rcases List.mem_append.mp hmem with hmem | hmem
      · exact hfresh d child hmem
      · rw [Bool.eq_false_iff]
        exact fun hin => Bool.eq_false_iff.mp (hfresh' d child hmem) ((hfg.records d).contains hin)
    · rcases hall' d child (by rwa [hfg.seat]) hin with hin | hmem
      · exact (hall d child hseat hin).imp_right (List.mem_append_left new')
      · exact .inr (List.mem_append_right new hmem)

lemma trans_still (hfg : Marks t f g) (hgh : Still g h) : Marks t f h :=
  (hfg.andThen (.of_still hgh)).congr (List.append_nil _) fun _ => List.append_nil _

lemma still_trans (hfg : Still f g) (hgh : Marks u g h) : Marks u f h :=
  ((Marks.of_still hfg).andThen hgh).congr rfl fun _ => rfl

end Marks

def recording (child : Address) (code : Bytes) (c : Contract) : Contract :=
  { c with children := c.children.insert child code }

lemma marks_recording {f : Frame} (hf : Ready f) {child : Address} (code : Bytes)
    (hchild : f.contract.children.contains child = false) :
    Marks (.recorded child code) f (f.modifyContract (recording child code)) where
  seat := f.address?_modifyContract _
  hasContract := f.hasContract_modifyContract _
  settled := fun h => Frame.settled_modifyContract h fun _ hc => hc
  own := fun _ => by
    rw [Frame.contract_modifyContract hf.seat]
    exact (Table.Grown.insert _ hchild code).congr fun _ _ => by simp [Trail.own]
  records := by
    intro d
    by_cases hd : f.seat.address? = some d
    · rw [Frame.records_modifyContract_self hd (hf.seat d hd), ← Frame.children_contract hd]
      have hgrown := Table.Grown.insert f.contract.children hchild code
      exact hgrown.congr fun _ _ => by simp [Trail.own, Trail.retained, hd]
    · rw [Frame.records_modifyContract_of_ne hd]
      exact .of_find? (fun _ => rfl) fun x y h => h.elim List.not_mem_nil fun h => hd h.1
  noted := by
    refine ⟨[], ?_, nofun, fun d child hd hin => .inl ?_⟩
    · rw [f.deployments_modifyContract, List.append_nil]
    · rwa [Frame.records_modifyContract_of_ne hd] at hin

lemma still_of_optional {α : Type} {p : Prop} [Decidable p] {level : Level} {text : Text}
    {k : Run α} {f g : Frame} {r : Except Failure α}
    (h : (if p then note level text >>= fun _ => k else k).outcome f = some (r, g)) :
    ∃ f', Still f f' ∧ k.outcome f' = some (r, g) := by
  split at h
  · rw [outcome_bind, outcome_note, Outcome.some_andThen] at h
    exact ⟨{ f with ledger := f.ledger.note level text }, .withLedger f rfl, h⟩
  · exact ⟨f, .refl f, h⟩

inductive Copies (f : Frame) (source : Address) (salt : Bytes) (g : Frame) :
    Except Failure (Bytes × Address) → Prop
  | refused {code : Bytes} (known : f.ledger.code? source = .ok code)
      (taken : f.contract.children.contains
        (Ledger.derivedAddress f.contract.address salt code) = true)
      (still : Still f g) :
      Copies f source salt g
        (.error (f.contract.fault .alreadyDeployed "Contract already deployed"))
  | failed {e : Failure} (kind : e.fault?.map Fault.kind ≠ some .alreadyDeployed)
      (still : Still f g) : Copies f source salt g (.error e)
  | recorded {code : Bytes} {f' : Frame} (known : f.ledger.code? source = .ok code)
      (new : f.contract.children.contains
        (Ledger.derivedAddress f.contract.address salt code) = false)
      (before : Still f f')
      (behind : Still (f'.modifyContract
        (recording (Ledger.derivedAddress f.contract.address salt code) code)) g) :
      Copies f source salt g (.ok (Ledger.seedOf f.contract.address salt code,
        Ledger.derivedAddress f.contract.address salt code))

lemma copies_deployCopy {f g : Frame} {source : Address} {salt : Bytes}
    {q : Except Failure (Bytes × Address)}
    (hx : (Host.deployCopy source salt).outcome f = some (q, g)) : Copies f source salt g q := by
  rw [Host.deployCopy, outcome_bind, outcome_contract, Outcome.some_andThen] at hx
  simp only [outcome_bind, outcome_ledger, Outcome.some_andThen] at hx
  obtain ⟨f', hnoted, hx⟩ := still_of_optional hx
  rw [outcome_bind, outcome_lift, Ledger.generateAddress] at hx
  cases hcode : f.ledger.code? source with
  | error e =>
    rw [hcode] at hx
    cases hx
    refine .failed ?_ hnoted
    rw [Ledger.code?] at hcode
    split at hcode <;> cases hcode
    exact fun h => by cases h
  | ok code =>
    rw [hcode] at hx
    change (ite _ _ _ : Run _).outcome f' = _ at hx
    split at hx
    case isTrue htaken =>
      cases hx
      exact .refused hcode htaken hnoted
    case isFalse hnew =>
      split at hx
      case isTrue =>
        cases hx
        exact .failed (fun h => by cases h) hnoted
      case isFalse =>
        simp only [outcome_bind, outcome_lift, Outcome.some_andThen, outcome_modifyLedger,
          outcome_modifyContract] at hx
        obtain ⟨g', hstill, hx⟩ := still_of_optional hx
        cases hx
        let known := f'.ledger.setCode (Ledger.derivedAddress f.contract.address salt code) code
        have hbefore : Still f { f' with ledger := known } := hnoted.trans (.withLedger f' rfl)
        exact .recorded hcode (Bool.eq_false_iff.mpr hnew) hbefore hstill

lemma deployCopy_cases {f g : Frame} {source : Address} {salt : Bytes}
    {q : Except Failure (Bytes × Address)}
    (hx : (Host.deployCopy source salt).outcome f = some (q, g)) :
    (∃ e, q = .error e ∧ Still f g) ∨
      ∃ seed derived code f', q = .ok (seed, derived) ∧ f.ledger.code? source = .ok code ∧
        f.contract.children.contains derived = false ∧ Still f f' ∧
        Still (f'.modifyContract (recording derived code)) g := by
  cases copies_deployCopy hx with
  | refused _ _ hstill => exact .inl ⟨_, rfl, hstill⟩
  | failed _ hstill => exact .inl ⟨_, rfl, hstill⟩
  | recorded hcode hnew hstill hstill' => exact .inr ⟨_, _, _, _, rfl, hcode, hnew, hstill, hstill'⟩

lemma requestTrail_deploy {nested : Address → Bytes → Frame → Trail} {f g : Frame} (hf : Ready f)
    {call : Address → Bytes → Run CallResponse} {data : Bytes} {q : Except Failure Bytes}
    (hx : (Host.answer call .deploy data).outcome f = some (q, g)) :
    Marks (requestTrail nested .deploy data f) f g := by
  rw [answer_deploy, outcome_bind, outcome_lift] at hx
  rw [requestTrail]
  cases hdata : deployRequest data with
  | error e =>
    rw [hdata] at hx
    cases hx
    exact .of_still (.refl f)
  | ok p =>
    obtain ⟨source, salt⟩ := p
    simp only [hdata, Outcome.some_andThen, outcome_bind] at hx ⊢
    obtain ⟨r, h, hcopy, hx⟩ := Outcome.andThen_eq_some hx
    rcases deployCopy_cases hcopy with
      ⟨e, rfl, hstill⟩ | ⟨seed, derived, code, f', rfl, hcode, hnew, hstill, hstill'⟩
    · cases hx
      rw [hcopy]
      exact .of_still hstill
    · cases hx
      simp only [hcopy, hcode]
      have hmarks := marks_recording (hstill.ready hf) code (hstill.own ▸ hnew)
      exact .still_trans hstill (hmarks.trans_still hstill')

lemma answer_call_cases {call : Address → Bytes → Run CallResponse} {f g : Frame} {data : Bytes}
    {q : Except Failure Bytes} (hx : (Host.answer call .call data).outcome f = some (q, g)) :
    (∃ e, callRequest data = .error e ∧ q = .error e ∧ g = f) ∨
      ∃ target calldata r, callRequest data = .ok (target, calldata) ∧
        (call target calldata).outcome f = some (r, g) ∧
        ∀ reply, q = .ok reply → ∃ response, r = .ok response := by
  have hanswer : Host.answer call .call data = (do
      let target ← lift (callRequest data)
      let response ← call target.1 target.2
      let gas ← lift (Format.u64.encode response.usedGas)
      return gas ++ (response.result.toOption.getD [])) := rfl
  rw [hanswer, outcome_bind, outcome_lift] at hx
  cases hdata : callRequest data with
  | error e =>
    rw [hdata] at hx
    cases hx
    exact .inl ⟨e, rfl, rfl, rfl⟩
  | ok p =>
    obtain ⟨target, calldata⟩ := p
    simp only [hdata, Outcome.some_andThen, outcome_bind] at hx
    obtain ⟨r, h, hrun, hx⟩ := Outcome.andThen_eq_some hx
    refine .inr ⟨target, calldata, r, rfl, ?_⟩
    cases r with
    | error e =>
      cases hx
      exact ⟨hrun, fun reply hreply => (by cases hreply)⟩
    | ok response =>
      simp only [outcome_lift] at hx
      cases hgas : Format.u64.encode response.usedGas with
      | error e =>
        rw [hgas] at hx
        cases hx
        exact ⟨hrun, fun _ _ => ⟨response, rfl⟩⟩
      | ok gas =>
        rw [hgas] at hx
        cases hx
        exact ⟨hrun, fun _ _ => ⟨response, rfl⟩⟩

def Leaves (call : Address → Bytes → Run CallResponse)
    (nested : Address → Bytes → Frame → Trail) : Prop :=
  ∀ target calldata f q g, Ready f → (call target calldata).outcome f = some (q, g) →
    Marks (nested target calldata f) f g

variable {call : Address → Bytes → Run CallResponse} {nested : Address → Bytes → Frame → Trail}

lemma requestTrail_call (hcall : Leaves call nested) {f g : Frame} (hf : Ready f) {data : Bytes}
    {q : Except Failure Bytes} (hx : (Host.answer call .call data).outcome f = some (q, g)) :
    Marks (requestTrail nested .call data f) f g := by
  rw [requestTrail]
  rcases answer_call_cases hx with ⟨e, hdata, -, rfl⟩ | ⟨target, calldata, r, hdata, hrun, -⟩
  · rw [hdata]
    exact .of_still (.refl _)
  · rw [hdata]
    exact hcall target calldata f r g hf hrun

lemma requestTrail_marks (hcall : Leaves call nested) {f g : Frame} (hf : Ready f)
    {request : HostFunction} {data : Bytes} {q : Except Failure Bytes}
    (hx : (Host.answer call request data).outcome f = some (q, g)) :
    Marks (requestTrail nested request data f) f g := by
  by_cases hc : request = .call
  · subst hc
    exact requestTrail_call hcall hf hx
  by_cases hd : request = .deploy
  · subst hd
    exact requestTrail_deploy hf hx
  have hquiet : requestTrail nested request data f = .quiet := by
    cases request <;> first | rfl | contradiction
  rw [hquiet]
  exact .of_still (Calm.answer call data hc hd f q g hx)

lemma programTrail_marks (hcall : Leaves call nested) {number : Nat} {p : Program} {gas : Int}
    {f g : Frame} (hf : Ready f) {q : Except Failure Bytes}
    (hx : (interpret (Host.answer call) number p gas).outcome f = some (q, g)) :
    Marks (programTrail call nested number p gas f) f g := by
  induction p generalizing gas f with
  | done reply =>
    cases hx
    exact .of_still (.refl _)
  | fail e =>
    cases hx
    exact .of_still (.refl _)
  | ask request data next ih =>
    rw [outcome_interpret_ask] at hx
    obtain ⟨reply, h, hrequest, hx⟩ := Outcome.andThen_eq_some hx
    rw [programTrail, hrequest]
    have hmarks := requestTrail_marks hcall hf hrequest
    have hstill := still_answered number request reply h
    exact hmarks.andThen (.still_trans hstill (ih reply (hstill.ready (hmarks.ready hf)) hx))
  | charge amount next ih =>
    rw [outcome_interpret_charge] at hx
    have hstill := still_charged number (gas + amount) f
    exact .still_trans hstill (ih (hstill.ready hf) hx)
  | caught e next ih =>
    rw [interpret, outcome_bind, outcome_enter, Outcome.some_andThen] at hx
    have hstill : Still f { f with ledger := f.ledger.enter [.caught number e] } :=
      .withLedger f rfl
    exact .still_trans hstill (ih (hstill.ready hf) hx)

lemma methodTrail_marks (hcall : Leaves call nested) {calldata : Bytes} {given : EnvironmentGiven}
    {f g : Frame} (hf : Ready f) {q : Except Failure Bytes}
    (hx : (runMethod (Host.answer call) calldata given).outcome f = some (q, g)) :
    Marks (methodTrail call nested calldata given f) f g := by
  rw [runMethod_eq, outcome_bind] at hx
  obtain ⟨r, h, hentry, hx⟩ := Outcome.andThen_eq_some hx
  have hstill := Calm.entry calldata given f r h hentry
  rw [methodTrail, hentry]
  cases r with
  | error e =>
    cases hx
    exact .of_still hstill
  | ok p => exact .still_trans hstill (programTrail_marks hcall (hstill.ready hf) hx)

end Run

end ChainReplay
