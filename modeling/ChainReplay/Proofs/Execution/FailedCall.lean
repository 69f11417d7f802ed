import ChainReplay.Proofs.Execution.Rollback

/-! Atomicity of failing calls. What a nested call has written on another contract stays when the
outer call fails; the storage of a contract that no nested call has changed is as before. -/

namespace ChainReplay.Run

/-- Calls as they are made, but cut off where one of contract `d` has changed its storage. -/
def sparing (d : Address) : Nat → Address → Bytes → Run CallResponse
  | 0, _, _ => outOfFuel
  | n + 1, target, calldata => do
    let before := (← ledger).storage? d
    let response ← attempt (callWith (sparing d n) target calldata)
    let after := (← ledger).storage? d
    if target = d ∧ after ≠ before then outOfFuel else lift response

/-- The registry holds the given storage for the address if `kept`, and the contract that runs does
not stand there. -/
structure Spared (kept : Prop) (d : Address) (s : Option Storage) (f : Frame) : Prop where
  storage : kept → f.ledger.storage? d = s
  seat : f.seat ≠ .registered d
  settled : f.ledger.Settled

variable {kept : Prop} {d : Address} {s : Option Storage}

lemma lasting_spared (kept : Prop) (d : Address) (s : Option Storage) :
    Lasting (Spared kept d s) where
  book := by
    rintro f _ h (entries | ⟨level, text⟩ | n | ⟨a, code⟩) <;>
      exact ⟨h.storage, h.seat, h.settled⟩
  own := by
    rintro ⟨l, seat, deployments⟩ k h hk
    cases seat with
    | registered a =>
      have had : d ≠ a := fun heq => h.seat (congrArg Seat.registered heq.symm)
      exact ⟨fun w => (l.storage?_modifyContract_of_ne had k).trans (h.storage w), h.seat,
        h.settled.modifyContract a hk.deployed⟩
    | apart c => exact ⟨h.storage, Seat.noConfusion, h.settled⟩
  other := fun f a k h hk =>
    ⟨fun w => (f.ledger.storage?_modifyContract_of_blind a hk.states d).trans (h.storage w), h.seat,
      h.settled.modifyContract a hk.steady.deployed⟩
  deployments := fun _ _ h => ⟨h.storage, h.seat, h.settled⟩

lemma openCall_spared (call call' : Address → Bytes → Run CallResponse) (target : Address) :
    Simulates (Same (Spared kept d s)) Eq (openCall call target) (openCall call' target) := by
  rintro f _ ⟨rfl, h⟩ q f' hx
  rw [outcome_openCall call target h.settled, ← outcome_openCall call' target h.settled] at hx
  refine ⟨q, f', hx, Agree.refl q, rfl, ?_⟩
  rw [outcome_openCall call' target h.settled] at hx
  split at hx
  · cases hx
    exact h
  · cases hx
    rw [opened]
    split
    · exact (lasting_spared kept d s).book f _ h (.note _ _)
    · exact h

lemma carryOver_spared {target : Address} (ht : kept → d ≠ target) (f : Frame) (copy : Contract)
    (h : Spared kept d s f) :
    Spared kept d s { f with ledger := (carryOver f.ledger target copy).1 } := by
  rw [carryOver]
  split
  · exact h
  · exact ⟨fun w => (Ledger.storage?_modifyContract_of_ne _ (ht w) _).trans (h.storage w), h.seat,
      h.settled.modifyContract target fun _ hc => hc⟩

lemma callWith_spared {call call' : Address → Bytes → Run CallResponse}
    (hcall : ∀ target calldata,
      Simulates (Same (Spared kept d s)) Eq (call target calldata) (call' target calldata))
    {target : Address} (ht : kept → d ≠ target) (calldata : Bytes) :
    Simulates (Same (Spared kept d s)) Eq (callWith call target calldata)
      (callWith call' target calldata) := by
  have hI := lasting_spared kept d s
  refine hI.callWith hI hcall (fun f copy h => ?_) (fun f g hf hg => ?_)
    (openCall_spared call call' target) (carryOver_spared ht) calldata
  · exact ⟨h.storage, Seat.noConfusion, h.settled⟩
  · exact ⟨hg.storage, hf.seat, hg.settled⟩

lemma outcome_sparing_succ (n : Nat) (target : Address) (calldata : Bytes) (f : Frame) :
    (sparing d (n + 1) target calldata).outcome f =
      ((callWith (sparing d n) target calldata).outcome f).andThen fun r g =>
        if target = d ∧ g.ledger.storage? d ≠ f.ledger.storage? d then none else some (r, g) := by
  simp only [sparing, outcome_bind, outcome_ledger, Outcome.some_andThen, outcome_attempt]
  rcases (callWith (sparing d n) target calldata).outcome f with _ | ⟨r, g⟩
  · rfl
  · simp only [Outcome.some_andThen]
    split
    · rfl
    · exact outcome_lift r g

lemma sparing_call (n : Nat) (kept : Prop) (target : Address) (calldata : Bytes) :
    Simulates (Same (Spared kept d s)) Eq (sparing d n target calldata)
      (Run.call n target calldata) := by
  induction n generalizing kept target calldata with
  | zero => exact .outOfFuel _
  | succ n ih =>
    rintro f _ ⟨rfl, h⟩ q f' hx
    rw [outcome_sparing_succ] at hx
    obtain ⟨r, g, hcall, hx⟩ := Outcome.andThen_eq_some hx
    split at hx
    case isTrue => cases hx
    case isFalse hguard =>
      cases hx
      -- Only a call of the contract itself can reach its storage, and this has been let through.
      by_cases ht : target = d
      · obtain ⟨r', _, hcall', hr, rfl, hg⟩ := callWith_spared (ih False) False.elim calldata f f
          ⟨rfl, False.elim, h.seat, h.settled⟩ q f' hcall
        have hsame : f'.ledger.storage? d = f.ledger.storage? d :=
          Decidable.byContradiction fun hne => hguard ⟨ht, hne⟩
        exact ⟨r', f', hcall', hr, rfl, fun w => hsame.trans (h.storage w), hg.seat, hg.settled⟩
      · exact callWith_spared (ih kept) (fun _ => Ne.symm ht) calldata f f ⟨rfl, h⟩ q f' hcall

lemma storage?_of_sparing {n : Nat} {l l' : Ledger} {a : Address} {calldata : Bytes}
    {sender origin : Option Address} {r : Except Failure CallResponse} {seat : Seat}
    (hset : l.Settled) (hd : d ≠ a)
    (hrun : l.perform (.registered a) (execute (Run.call n) calldata sender origin) =
      some (r, l', seat))
    (hspared : (l.perform (.registered a)
      (execute (sparing d n) calldata sender origin)).isSome = true) :
    l'.storage? d = l.storage? d := by
  have hI := lasting_spared True d (l.storage? d)
  have hcall := sparing_call (d := d) (s := l.storage? d) n True
  have hstart : Spared True d (l.storage? d) ⟨l, .registered a, []⟩ :=
    ⟨fun _ => rfl, fun h => hd (Seat.registered.inj h).symm, hset⟩
  obtain ⟨⟨q, g⟩, hx⟩ := Option.isSome_iff_exists.mp (by simpa [perform_eq] using hspared)
  obtain ⟨r', g', hy, _, rfl, hg⟩ := hI.execute hcall (hI.deploy hcall) calldata sender origin
    ⟨l, .registered a, []⟩ _ ⟨rfl, hstart⟩ q g hx
  rw [perform_eq, hy] at hrun
  cases hrun
  exact hg.storage trivial

/-- After a failing call, the called contract's storage is as before it, and any other contract's is
what it was when the program failed. So the call has left all storage alone exactly if nested calls
had changed none by then; and they have not changed that of a contract on which no nested call ended
with changes. -/
theorem storage_of_failed_call {n : Nat} {l l' : Ledger} {a : Address} {calldata : Bytes}
    {sender origin : Option Address} {response : CallResponse} {seat : Seat} {e : Failure}
    (hset : l.Settled) (ha : l.hasContract a = true)
    (hrun : l.perform (.registered a) (execute (Run.call n) calldata sender origin) =
      some (.ok response, l', seat))
    (hfail : response.result = .error e) :
    ∃ e' m, l.perform (.registered a)
        (runMethod (Host.answer (Run.call n)) calldata (.caller sender origin)) =
          some (.error e', m, .registered a) ∧
      (∀ d, l'.storage? d = if d = a then l.storage? a else m.storage? d) ∧
      ((∀ d, l'.storage? d = l.storage? d) ↔ ∀ d, d ≠ a → m.storage? d = l.storage? d) ∧
      ∀ d, d ≠ a → (l.perform (.registered a)
        (execute (sparing d n) calldata sender origin)).isSome = true →
          m.storage? d = l.storage? d := by
  obtain ⟨e', m, hmethod, hstorage⟩ := perform_execute_error hset ha hrun hfail
  have hother (d : Address) (hd : d ≠ a) : l'.storage? d = m.storage? d := by
    rw [hstorage, if_neg hd]
  refine ⟨e', m, hmethod, hstorage, ⟨fun h d hd => ?_, fun h d => ?_⟩, fun d hd hspared => ?_⟩
  · rw [← hother d hd, h d]
  · by_cases hd : d = a
    · rw [hstorage, if_pos hd, hd]
    · rw [hother d hd, h d hd]
  · rw [← hother d hd]
    exact storage?_of_sparing hset hd hrun hspared

section NestedRequest

def outer : Address := Ledger.numbered 1

def inner : Address := Ledger.numbered 2

/-- The outer contract calls the inner one, which makes a request, and then fails. -/
def failingAfter (request : HostFunction) (data : Bytes) : Engine where
  instantiate parameters := .ok
    { refusal := none
      construct := fun _ _ => .done []
      execute := fun _ _ =>
        if parameters.address = outer then
          .ask .call (inner.bytes ++ Bytes.ofNat 4 0) fun _ => .fail .wrongValue
        else .ask request data fun _ => .done [] }

def failedRun (request : HostFunction) (data : Bytes) :
    Option (Except Failure CallResponse × Ledger × Seat) :=
  (Ledger.standing (failingAfter request data) [outer, inner]).perform (.registered outer)
    (execute (Run.call 1) [] none none)

def ledgerBehind : Option (Except Failure CallResponse × Ledger × Seat) → Option Ledger
  | some (.ok ⟨.error _, _, _, _⟩, l, _) => some l
  | _ => none

lemma ledgerBehind_eq_some {o : Option (Except Failure CallResponse × Ledger × Seat)} {l : Ledger}
    (h : ledgerBehind o = some l) :
    ∃ response seat e, o = some (.ok response, l, seat) ∧ response.result = .error e := by
  simp only [ledgerBehind] at h
  split at h
  · cases h
    exact ⟨_, _, _, rfl, rfl⟩
  · cases h

/-- The nested call only asks for the inputs of the transaction, so all storage is as before. -/
theorem storage_of_failed_call_after_inputs :
    ∃ response l' seat e, failedRun .inputs [] = some (.ok response, l', seat) ∧
      response.result = .error e ∧ l'.storage? outer = some [] ∧ l'.storage? inner = some [] := by
  have hsome : (ledgerBehind (failedRun .inputs [])).isSome = true := by decide +kernel
  obtain ⟨l', hl'⟩ := Option.isSome_iff_exists.mp hsome
  obtain ⟨response, seat, e, hrun, hfail⟩ := ledgerBehind_eq_some hl'
  obtain ⟨e', m, _, hstorage, _, hspared⟩ :=
    storage_of_failed_call (Ledger.settled_standing _ _) (by decide +kernel) hrun hfail
  have hinner : m.storage? inner = some [] :=
    hspared inner (by decide) (by decide +kernel)
  refine ⟨response, l', seat, e, hrun, hfail, ?_, ?_⟩
  · rw [hstorage, if_pos rfl]
    rfl
  · rw [hstorage, if_neg (by decide), hinner]

/-- The nested call stores seven at pointer one, and this stays. -/
theorem failed_calls_are_not_atomic :
    ¬ ∀ (n : Nat) (l l' : Ledger) (a : Address) (calldata : Bytes)
      (sender origin : Option Address) (response : CallResponse) (seat : Seat) (e : Failure),
      l.Settled → l.hasContract a = true →
      l.perform (.registered a) (execute (Run.call n) calldata sender origin) =
        some (.ok response, l', seat) →
      response.result = .error e → ∀ d, l'.storage? d = l.storage? d := by
  intro h
  have hstored : (ledgerBehind (failedRun .store (Bytes.ofNat 32 1 ++ Bytes.ofNat 32 7))).map
      (·.storage? inner) = some (some [(1, 7)]) := by decide +kernel
  obtain ⟨l', hl', hinner⟩ := Option.map_eq_some_iff.mp hstored
  obtain ⟨response, seat, e, hrun, hfail⟩ := ledgerBehind_eq_some hl'
  have hsame := h 1 _ l' outer [] none none response seat e (Ledger.settled_standing _ _)
    (by decide +kernel) hrun hfail inner
  rw [hinner] at hsame
  exact absurd hsame (by decide +kernel)

end NestedRequest

end ChainReplay.Run
