import Mathlib.Tactic.Lemma
import ChainReplay.Execution.Call

/-! What a run leaves behind. An outcome is a result together with the last frame; a run without one
has been cut off. -/

namespace ChainReplay.Run

abbrev Outcome (α : Type) := Option (Except Failure α × Frame)

namespace Outcome

variable {α β : Type}

def andThen (o : Outcome α) (k : Except Failure α → Frame → Outcome β) : Outcome β :=
  o.bind fun (r, f) => k r f

@[simp] lemma some_andThen (r : Except Failure α) (f : Frame)
    (k : Except Failure α → Frame → Outcome β) : andThen (some (r, f)) k = k r f := rfl

lemma andThen_eq_some {o : Outcome α} {k : Except Failure α → Frame → Outcome β}
    {r : Except Failure β} {g : Frame} (h : o.andThen k = some (r, g)) :
    ∃ q f, o = some (q, f) ∧ k q f = some (r, g) := by
  rcases o with _ | ⟨q, f⟩
  · cases h
  · exact ⟨q, f, rfl, h⟩

end Outcome

variable {α β : Type}

def outcome (x : Run α) (f : Frame) : Outcome α := ExceptT.run x f

lemma perform_eq (l : Ledger) (seat : Seat) (x : Run α) :
    l.perform seat x = (x.outcome ⟨l, seat, []⟩).map fun (r, f) => (r, f.ledger, f.seat) := rfl

@[simp] lemma outcome_pure (a : α) (f : Frame) : (pure a : Run α).outcome f = some (.ok a, f) := rfl

@[simp] lemma outcome_throw (e : Failure) (f : Frame) :
    (throw e : Run α).outcome f = some (.error e, f) := rfl

lemma outcome_bind (x : Run α) (k : α → Run β) (f : Frame) :
    (x >>= k).outcome f = (x.outcome f).andThen fun r g =>
      match r with
      | .ok a => (k a).outcome g
      | .error e => some (.error e, g) := by
  change Option.bind (ExceptT.run x f) _ = _
  rw [Outcome.andThen, outcome]
  congr 1
  funext ⟨r, g⟩
  cases r <;> rfl

@[simp] lemma outcome_contract (f : Frame) : contract.outcome f = some (.ok f.contract, f) := rfl

@[simp] lemma outcome_ledger (f : Frame) : ledger.outcome f = some (.ok f.ledger, f) := rfl

@[simp] lemma outcome_modify (k : Frame → Frame) (f : Frame) :
    (modify k : Run PUnit).outcome f = some (.ok ⟨⟩, k f) := rfl

@[simp] lemma outcome_modifyContract (k : Contract → Contract) (f : Frame) :
    (modifyContract k).outcome f = some (.ok ⟨⟩, f.modifyContract k) := rfl

@[simp] lemma outcome_modifyLedger (k : Ledger → Ledger) (f : Frame) :
    (modifyLedger k).outcome f = some (.ok ⟨⟩, { f with ledger := k f.ledger }) := rfl

@[simp] lemma outcome_enter (e : Entry) (f : Frame) :
    (enter e).outcome f = some (.ok ⟨⟩, { f with ledger := f.ledger.enter [e] }) := rfl

@[simp] lemma outcome_note (level : Level) (text : Text) (f : Frame) :
    (note level text).outcome f = some (.ok ⟨⟩, { f with ledger := f.ledger.note level text }) :=
  rfl

@[simp] lemma outcome_lift (r : Except Failure α) (f : Frame) :
    (lift r).outcome f = some (r, f) := by
  cases r <;> rfl

@[simp] lemma outcome_attempt (x : Run α) (f : Frame) :
    (attempt x).outcome f = (x.outcome f).andThen fun r g => some (.ok r, g) := by
  rw [attempt, outcome, Outcome.andThen]
  exact Option.map_eq_bind

@[simp] lemma outcome_inSeat (seat : Seat) (x : Run α) (f : Frame) :
    (inSeat seat x).outcome f = (x.outcome ⟨f.ledger, seat, []⟩).andThen fun r g =>
      some (.ok (r, g.seat, g.deployments), { f with ledger := g.ledger }) := by
  rw [inSeat, outcome, Outcome.andThen]
  exact Option.map_eq_bind

@[simp] lemma outcome_dispose (f : Frame) :
    dispose.outcome f = some (.ok ⟨⟩,
      { f with ledger := f.ledger.enter f.contract.disposal }.modifyContract Contract.dispose) :=
  rfl

/-- What is left of a contract once a deployment of its own is taken back. -/
def forget (child : Address) (c : Contract) : Contract :=
  { c with children := c.children.erase child }

def withdraw (l : Ledger) (deployments : List Deployment) : Ledger :=
  deployments.foldl (fun l (owner, child) => l.modifyContract owner (forget child)) l

@[simp] lemma outcome_discardDeployments (f : Frame) :
    discardDeployments.outcome f = some (.ok ⟨⟩,
      { f with ledger := withdraw f.ledger f.deployments.reverse, deployments := [] }) := by
  have hfold (deployments : List Deployment) (l : Ledger) :
      withdraw l deployments =
        { l with
          contracts := deployments.foldl (fun contracts (owner, child) =>
            Table.modify contracts owner fun c => { c with children := c.children.erase child })
            l.contracts } := by
    induction deployments generalizing l with
    | nil => rfl
    | cons d rest ih => exact ih _
  rw [hfold]
  rfl

def Returns (x : Run α) : Prop := ∀ f r g, x.outcome f = some (r, g) → ∃ a, r = .ok a

namespace Returns

lemma of_eq {x : Run α} {a : Frame → α} {k : Frame → Frame}
    (h : ∀ f, x.outcome f = some (.ok (a f), k f)) : Returns x := by
  intro f r g hx
  rw [h] at hx
  cases hx
  exact ⟨_, rfl⟩

lemma bind {x : Run α} {k : α → Run β} (hx : Returns x) (hk : ∀ a, Returns (k a)) :
    Returns (x >>= k) := by
  intro f r g h
  rw [outcome_bind] at h
  obtain ⟨q, f', hq, h⟩ := Outcome.andThen_eq_some h
  obtain ⟨a, rfl⟩ := hx f q f' hq
  exact hk a f' r g h

lemma attempt (x : Run α) : Returns (attempt x) := by
  intro f r g h
  rw [outcome_attempt] at h
  obtain ⟨q, f', _, h⟩ := Outcome.andThen_eq_some h
  cases h
  exact ⟨q, rfl⟩

lemma pure (a : α) : Returns (pure a : Run α) := of_eq (outcome_pure a)

lemma contract : Returns contract := of_eq outcome_contract

lemma ledger : Returns ledger := of_eq outcome_ledger

lemma note (level : Level) (text : Text) : Returns (note level text) :=
  of_eq (outcome_note level text)

lemma dispose : Returns dispose := of_eq outcome_dispose

lemma optional {x : Run PUnit} {k : Run β} {p : Prop} [Decidable p] (hx : Returns x)
    (hk : Returns k) : Returns (if p then x >>= fun _ => k else k) := by
  split
  · exact hx.bind fun _ => hk
  · exact hk

lemma execute (call : Address → Bytes → Run CallResponse) (calldata : Bytes)
    (sender origin : Option Address) : Returns (execute call calldata sender origin) := by
  rw [Run.execute]
  refine (attempt _).bind fun q => ?_
  cases q with
  | error e => exact contract.bind fun _ => pure _
  | ok _ =>
    refine contract.bind fun before => (of_eq (outcome_modify _)).bind fun _ => ?_
    refine (attempt _).bind fun q => ?_
    cases q with
    | ok reply => exact contract.bind fun _ => pure _
    | error e =>
      refine (of_eq (outcome_modifyContract _)).bind fun _ => ?_
      refine (of_eq outcome_discardDeployments).bind fun _ => contract.bind fun c => ?_
      exact (note _ _).bind fun _ => dispose.bind fun _ => pure _

lemma receive (calldata : Bytes) {respond : Run CallResponse} (h : Returns respond) :
    Returns (receive calldata respond) := by
  rw [Run.receive]
  refine contract.bind fun c => ledger.bind fun l => optional (note _ _) ?_
  refine h.bind fun response => ledger.bind fun l => optional (note _ _) ?_
  exact dispose.bind fun _ => pure _

end Returns

end ChainReplay.Run
