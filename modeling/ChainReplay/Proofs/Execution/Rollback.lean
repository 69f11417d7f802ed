import ChainReplay.Proofs.Execution.Fuel

/-! What a failing call leaves of the storage of the registered contracts. It puts back the storage
of the called contract alone; what nested calls have written on other contracts stays. -/

namespace ChainReplay

lemma Frame.storage?_modifyContract (f : Frame) {k : Contract → Contract}
    (hk : ∀ c, (k c).states = c.states) (d : Address) :
    (f.modifyContract k).ledger.storage? d = f.ledger.storage? d := by
  rw [Frame.modifyContract]
  cases f.seat with
  | registered a => exact f.ledger.storage?_modifyContract_of_blind a hk d
  | apart c => rfl

namespace Run

/-- A call of the contract that fails has storage and records put back as they were before. -/
def rolledBack (before : Contract) (f : Frame) : Frame :=
  let f := f.modifyContract fun c => { c with states := before.states, children := before.children }
  { f with ledger := withdraw f.ledger f.deployments.reverse, deployments := [] }

/-- A failed call reports its fault, and the contract gives its handle back. -/
def abandoned (f : Frame) (e : Failure) : Frame :=
  let detail := (e.fault?.map (·.detail)).getD []
  let l := f.ledger.note .debug ("call into " ++ f.contract.address.text ++ " failed: " ++ detail)
  { f with ledger := l.enter f.contract.disposal }.modifyContract Contract.dispose

def responseOf (result : Except Failure Bytes) (f : Frame) : CallResponse :=
  ⟨result, f.contract.events, f.contract.callStack, (f.contract.handle.map (·.gas)).getD 0⟩

lemma outcome_execute_of_deploy {call : Address → Bytes → Run CallResponse} {f g : Frame}
    {done : Unit} (hf : (deploy call).outcome f = some (.ok done, g)) (calldata : Bytes)
    (sender origin : Option Address) :
    (execute call calldata sender origin).outcome f =
      ((runMethod (Host.answer call) calldata (.caller sender origin)).outcome
        { g with deployments := [] }).andThen fun r h =>
          match r with
          | .ok reply => some (.ok (responseOf (.ok reply) h), h)
          | .error e =>
            let e := e.wrap g.contract.address
            let h := rolledBack g.contract h
            some (.ok (responseOf (.error e) h), abandoned h e) := by
  rw [execute]
  rw [outcome_bind, outcome_attempt, hf]
  simp only [Outcome.some_andThen, outcome_bind, outcome_contract, outcome_modify, outcome_attempt]
  rcases (runMethod (Host.answer call) calldata (.caller sender origin)).outcome
    { g with deployments := [] } with _ | ⟨r, h⟩
  · rfl
  · cases r with
    | ok reply => rfl
    | error e =>
      have hwrap : (Except.error e : Except Failure Bytes).mapError (·.wrap g.contract.address) =
          .error (e.wrap g.contract.address) := rfl
      simp only [Outcome.some_andThen, hwrap, Except.toOption, Option.isNone_none, if_true,
        outcome_bind, outcome_modifyContract, outcome_discardDeployments, outcome_contract,
        outcome_note, outcome_dispose, outcome_pure]
      rfl

lemma outcome_execute (call : Address → Bytes → Run CallResponse) (calldata : Bytes)
    (sender origin : Option Address) {f : Frame} (hf : f.contract.deployed = true) :
    (execute call calldata sender origin).outcome f =
      ((runMethod (Host.answer call) calldata (.caller sender origin)).outcome
        { f with deployments := [] }).andThen fun r g =>
          match r with
          | .ok reply => some (.ok (responseOf (.ok reply) g), g)
          | .error e =>
            let e := e.wrap f.contract.address
            let g := rolledBack f.contract g
            some (.ok (responseOf (.error e) g), abandoned g e) :=
  outcome_execute_of_deploy (outcome_deploy_of_deployed call hf) calldata sender origin

lemma storage?_withdraw (l : Ledger) (deployments : List Deployment) (d : Address) :
    (withdraw l deployments).storage? d = l.storage? d := by
  induction deployments generalizing l with
  | nil => rfl
  | cons deployment rest ih =>
    have hforget (c : Contract) : (forget deployment.2 c).states = c.states := rfl
    exact (ih _).trans (l.storage?_modifyContract_of_blind deployment.1 hforget d)

lemma storage?_abandoned (f : Frame) (e : Failure) (d : Address) :
    (abandoned f e).ledger.storage? d = f.ledger.storage? d :=
  Frame.storage?_modifyContract _ Alike.tending_dispose.states d

lemma storage?_rolledBack (before : Contract) {f : Frame} {a : Address}
    (hseat : f.seat = .registered a) (ha : f.ledger.hasContract a = true) (d : Address) :
    (rolledBack before f).ledger.storage? d =
      if d = a then some before.states else f.ledger.storage? d := by
  obtain ⟨c, hc⟩ := Option.isSome_iff_exists.mp ha
  simp only [rolledBack, storage?_withdraw, Frame.modifyContract, hseat]
  change (f.ledger.modifyContract a _).storage? d = _
  rw [Ledger.storage?_modifyContract]
  split
  case isTrue h => rw [h, hc]; rfl
  case isFalse => rfl

def Placed (a : Address) (l : Ledger) (f : Frame) : Prop :=
  f.seat = .registered a ∧ Continuing l f

lemma lasting_placed (a : Address) (l : Ledger) : Lasting (Placed a l) where
  book := fun f k h hk => ⟨h.1, (lasting_continuing l).book f k h.2 hk⟩
  own := by
    intro f k h hk
    refine ⟨?_, (lasting_continuing l).own f k h.2 hk⟩
    simp only [Frame.modifyContract, h.1]
  other := fun f a k h hk => ⟨h.1, (lasting_continuing l).other f a k h.2 hk⟩
  deployments := fun _ _ h => h

lemma call_placed (a : Address) (l : Ledger) (n : Nat) (target : Address) (calldata : Bytes) :
    Simulates (Same (Placed a l)) Eq (Run.call n target calldata) (Run.call n target calldata) := by
  cases n with
  | zero => exact .outOfFuel _
  | succ n =>
    have hI := lasting_placed a l
    have hJ := lasting_continuing l
    have hcall := (Ledger.stable_continues l).call_add n 0
    have hcarry (f : Frame) (copy : Contract) (h : Placed a l f) :
        Placed a l { f with ledger := (carryOver f.ledger target copy).1 } :=
      ⟨h.1, (Ledger.stable_continues l).carryOver target f.ledger copy h.2⟩
    have hreturn (f g : Frame) (hf : Placed a l f) (hg : Continuing l g) :
        Placed a l { f with ledger := g.ledger } := ⟨hf.1, hg⟩
    exact hI.callWith hJ hcall (fun _ _ h => h.2) hreturn
      (hI.openCall hJ hcall (fun _ h => h.2) hreturn) hcarry calldata

/-- How a call ends that fails: its program has failed, and only the storage of the called contract
is put back. -/
lemma perform_execute_error {n : Nat} {l l' : Ledger} {a : Address} {calldata : Bytes}
    {sender origin : Option Address} {response : CallResponse} {seat : Seat} {e : Failure}
    (hset : l.Settled) (ha : l.hasContract a = true)
    (hrun : l.perform (.registered a) (execute (Run.call n) calldata sender origin) =
      some (.ok response, l', seat))
    (hfail : response.result = .error e) :
    ∃ e' m, l.perform (.registered a)
        (runMethod (Host.answer (Run.call n)) calldata (.caller sender origin)) =
          some (.error e', m, .registered a) ∧
      ∀ d, l'.storage? d = if d = a then l.storage? a else m.storage? d := by
  have hf : (Frame.mk l (.registered a) []).contract.deployed = true := hset.deployed ha
  rw [perform_eq, outcome_execute _ _ _ _ hf, Option.map_eq_some_iff] at hrun
  obtain ⟨⟨r, f⟩, hrun, heq⟩ := hrun
  obtain ⟨q, g, hmethod, hrest⟩ := Outcome.andThen_eq_some hrun
  have hI := lasting_placed a l
  have hhost := hI.answer (call_placed a l n)
  obtain ⟨_, _, hmethod', _, rfl, hseat, hcont⟩ := hI.alike.runMethod hhost calldata
    (.caller sender origin) ⟨l, .registered a, []⟩ _ ⟨rfl, rfl, .refl l⟩ q g hmethod
  cases q with
  | ok reply =>
    cases hrest
    cases heq
    cases hfail
  | error e' =>
    cases hrest
    cases heq
    refine ⟨e', g.ledger, by rw [perform_eq, hmethod, ← hseat]; rfl, fun d => ?_⟩
    have hg : g.ledger.hasContract a = true := (hcont.hasContract a).trans ha
    rw [storage?_abandoned, storage?_rolledBack _ hseat hg]
    obtain ⟨c, hc⟩ := Option.isSome_iff_exists.mp ha
    simp [Frame.contract, Seat.contract, Ledger.storage?, hc]

end Run

end ChainReplay
