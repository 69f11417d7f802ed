import ChainReplay.Proofs.Execution.Lasting

/-! Nested calls, part by part: what opening one, copying its target and closing it do to a frame,
and which properties of frames last through all of it. -/

namespace ChainReplay

namespace Contract

/-- The copy of a contract with this code that a nested call runs on. -/
def twin (c : Contract) (code resolved : Bytes) : Contract :=
  { create c.address c.deployer c.gasLimit (some code) [] with
    states := c.states, deploymentStates := c.deploymentStates, children := c.children
    deployed := true, code := some resolved }

end Contract

namespace Run

lemma outcome_deploy_of_deployed (call : Address → Bytes → Run CallResponse) {f : Frame}
    (h : f.contract.deployed = true) : (deploy call).outcome f = some (.ok ⟨⟩, f) := by
  simp [deploy, outcome_bind, h]

lemma copyOf_eq (l : Ledger) (c : Contract) :
    copyOf l c = c.code?.bind fun code =>
      ((l.setCode c.address code).code? c.address).map fun resolved =>
        (l.setCode c.address code, c.twin code resolved) := by
  rw [copyOf]
  cases hc : c.code? with
  | error e => rfl
  | ok code =>
    cases hr : (l.setCode c.address code).code? c.address <;>
      simp [bind, Except.bind, Except.map, Ledger.resolveCode, Contract.create, hr, throw,
        throwThe, MonadExceptOf.throw, pure, Except.pure, Contract.twin]

lemma outcome_copyTarget (target : Address) (f : Frame) :
    (copyTarget target).outcome f =
      match copyOf f.ledger (Seat.contract f.ledger (.registered target)) with
      | .ok (l, copy) => some (.ok copy, { f with ledger := l })
      | .error e => some (.error e, f) := by
  simp only [copyTarget, outcome_bind, outcome_ledger, Outcome.some_andThen, outcome_lift]
  cases copyOf f.ledger (Seat.contract f.ledger (.registered target)) with
  | ok r => rfl
  | error e => rfl

def opened (f : Frame) (target : Address) : Ledger :=
  if f.ledger.traceCalls then
    f.ledger.note .info (f.contract.address.text ++ " calls " ++ target.text)
  else f.ledger

lemma outcome_openCall_eq (call : Address → Bytes → Run CallResponse) (target : Address)
    (f : Frame) :
    (openCall call target).outcome f =
      if f.ledger.nestedCalls = false then
        some (.error (f.contract.fault .unsupportedReentry "Not implemented"), f)
      else if f.ledger.hasContract target then
        ((deploy call).outcome ⟨opened f target, .registered target, []⟩).andThen fun r g =>
          some (r, { f with ledger := g.ledger })
      else
        some (.error (f.contract.fault .callFailed (Failure.unknownContract target).message),
          { f with ledger := opened f target }) := by
  rw [openCall, opened]
  cases hn : f.ledger.nestedCalls <;> cases ht : f.ledger.traceCalls <;>
    cases hc : f.ledger.hasContract target <;>
    simp only [outcome_bind, outcome_contract, outcome_ledger, outcome_note, outcome_throw,
      Outcome.some_andThen, hn, ht, hc, Bool.not_true, Bool.not_false, Bool.false_eq_true,
      Bool.true_eq_false, if_true, if_false]
  case true.false.true | true.true.true =>
    rw [outcome_inSeat]
    rcases (deploy call).outcome _ with _ | ⟨r, g⟩
    · rfl
    · simp only [Outcome.some_andThen, outcome_lift]

lemma outcome_openCall (call : Address → Bytes → Run CallResponse) (target : Address) {f : Frame}
    (h : f.ledger.Settled) :
    (openCall call target).outcome f =
      if f.ledger.nestedCalls = false then
        some (.error (f.contract.fault .unsupportedReentry "Not implemented"), f)
      else
        some (if f.ledger.hasContract target then .ok ⟨⟩
          else .error (f.contract.fault .callFailed (Failure.unknownContract target).message),
          { f with ledger := opened f target }) := by
  have hopened : (opened f target).contracts = f.ledger.contracts := by
    rw [opened]
    split <;> rfl
  rw [outcome_openCall_eq]
  congr 1
  cases hc : f.ledger.hasContract target with
  | false => rfl
  | true =>
    have hdeployed : (Frame.mk (opened f target) (.registered target) []).contract.deployed =
        true := by
      simp only [Frame.contract, Seat.contract, hopened]
      exact h.deployed hc
    rw [if_pos rfl, if_pos rfl, outcome_deploy_of_deployed call hdeployed]
    rfl

lemma copyOf_eq_ok {l l' : Ledger} {c copy : Contract} (h : copyOf l c = .ok (l', copy)) :
    ∃ code resolved, l' = l.setCode c.address code ∧ copy = c.twin code resolved := by
  rw [copyOf_eq] at h
  cases hc : c.code? with
  | error e => simp [hc, Except.bind] at h
  | ok code =>
    cases hr : (l.setCode c.address code).code? c.address with
    | error e => simp [hc, hr, Except.bind, Except.map] at h
    | ok resolved =>
      simp only [hc, hr, Except.bind, Except.map, Except.ok.injEq, Prod.mk.injEq] at h
      exact ⟨code, resolved, h.1.symm, h.2.symm⟩

lemma tending_adopt (response : CallResponse) : Tending (adopt response) :=
  ⟨fun _ _ => rfl, fun _ => rfl, fun _ => rfl⟩

def closed (target : Address) (copy : Contract) (deployments : List Deployment)
    (response : CallResponse) (f : Frame) : Frame :=
  Frame.modifyContract
    { f with
      ledger := (carryOver f.ledger target copy).1
      deployments := f.deployments ++ (carryOver f.ledger target copy).2 ++ deployments }
    (adopt response)

lemma outcome_closeCall (target : Address) (copy : Contract) (deployments : List Deployment)
    (response : CallResponse) (f : Frame) :
    (closeCall target copy deployments response).outcome f =
      some (checkResponse (carryOver f.ledger target copy).1
        (closed target copy deployments response f).contract response,
        closed target copy deployments response f) := by
  simp only [closeCall, outcome_bind, outcome_ledger, outcome_modify, outcome_modifyContract,
    outcome_contract, outcome_lift, Outcome.some_andThen]
  rfl

end Run

namespace Lasting

open Run

variable {α : Type} {I J : Frame → Prop} {call call' : Address → Bytes → Run CallResponse}

lemma inSeat {seat : Seat} {x y : Run α} (h : Simulates (Same J) Eq x y)
    (hvisit : ∀ f, I f → J ⟨f.ledger, seat, []⟩)
    (hreturn : ∀ f g, I f → J g → I { f with ledger := g.ledger }) :
    Simulates (Same I) Eq (Run.inSeat seat x) (Run.inSeat seat y) := by
  rintro f _ ⟨rfl, hf⟩ q f' hx
  rw [outcome_inSeat] at hx
  obtain ⟨p, f₁, hx₁, hx₂⟩ := Outcome.andThen_eq_some hx
  obtain ⟨r, _, hy, hr, rfl, hf₁⟩ := h _ _ ⟨rfl, hvisit f hf⟩ p f₁ hx₁
  cases hx₂
  cases hr.eq
  rw [outcome_inSeat, hy]
  exact ⟨_, _, rfl, .ok rfl, rfl, hreturn f f₁ hf hf₁⟩

lemma openCall (hI : Lasting I) (hJ : Lasting J)
    (hcall : ∀ target calldata,
      Simulates (Same J) Eq (call target calldata) (call' target calldata))
    {target : Address} (hvisit : ∀ f, I f → J ⟨f.ledger, .registered target, []⟩)
    (hreturn : ∀ f g, I f → J g → I { f with ledger := g.ledger }) :
    Simulates (Same I) Eq (openCall call target) (openCall call' target) := by
  rw [Run.openCall]
  refine bind_contract fun caller => bind_ledger fun m => .ite _ (.throw _) ?_
  refine Alike.optional (hI.alike.note _ _) (.ite _ (.throw _) ?_)
  refine Alike.bind_eq (inSeat (hJ.deploy hcall) hvisit hreturn) fun visited => ?_
  exact Alike.lift visited.1

lemma copyTarget (hI : Lasting I) (target : Address) :
    Simulates (Same I) Eq (Run.copyTarget target) (Run.copyTarget target) := by
  rintro f _ ⟨rfl, hf⟩ q f' hx
  refine ⟨q, f', hx, Agree.refl q, rfl, ?_⟩
  rw [outcome_copyTarget] at hx
  split at hx
  case h_1 l copy h =>
    obtain ⟨code, _, rfl, _⟩ := copyOf_eq_ok h
    cases hx
    exact hI.book f _ hf (.code _ code)
  case h_2 =>
    cases hx
    exact hf

lemma closeCall (hI : Lasting I) {target : Address}
    (hcarry : ∀ f copy, I f → I { f with ledger := (carryOver f.ledger target copy).1 })
    (copy : Contract) (deployments : List Deployment) (response : CallResponse) :
    Simulates (Same I) Eq (Run.closeCall target copy deployments response)
      (Run.closeCall target copy deployments response) := by
  rintro f _ ⟨rfl, hf⟩ q f' hx
  refine ⟨q, f', hx, Agree.refl q, rfl, ?_⟩
  rw [outcome_closeCall] at hx
  cases hx
  exact hI.own _ _ (hI.deployments _ _ (hcarry f copy hf)) (tending_adopt response).steady

lemma callWith (hI : Lasting I) (hJ : Lasting J)
    (hcall : ∀ target calldata,
      Simulates (Same J) Eq (call target calldata) (call' target calldata))
    (hvisit : ∀ f copy, I f → J ⟨f.ledger, .apart copy, []⟩)
    (hreturn : ∀ f g, I f → J g → I { f with ledger := g.ledger }) {target : Address}
    (hopen : Simulates (Same I) Eq (Run.openCall call target) (Run.openCall call' target))
    (hcarry : ∀ f copy, I f → I { f with ledger := (carryOver f.ledger target copy).1 })
    (calldata : Bytes) :
    Simulates (Same I) Eq (callWith call target calldata) (callWith call' target calldata) := by
  rw [Run.callWith]
  refine Alike.bind_eq hopen fun _ => Alike.bind_eq (hI.copyTarget target) fun copy => ?_
  refine bind_contract fun caller => bind_ledger fun l => ?_
  -- What runs on the copy is seen from its own frame, and all that comes back is the ledger.
  have hrun := hJ.alike.receive calldata (hJ.execute hcall (hJ.deploy hcall) calldata
    (some caller.address) (some l.origin))
  refine Alike.bind_eq (inSeat hrun (hvisit · copy) hreturn) fun visited => ?_
  refine bind_ledger fun l => Alike.bind_eq (Alike.lift visited.1) fun response => ?_
  exact hI.closeCall hcarry _ _ _

end Lasting

end ChainReplay
