import ChainReplay.Proofs.Ledger.Overlay

/-! Nested calls against shared storage. A table lists the storage of the activations that stand on
copies, the latest first; the registry of the shared run holds what it says. -/

namespace ChainReplay

namespace Run

/-- What becomes of a nested call once the target is deployed and copied. -/
def entered (respond : Option Address → Option Address → Run CallResponse)
    (settle : Ledger → Contract → Contract) (target : Address) (calldata : Bytes) (copy : Contract)
    (f : Frame) : Outcome CallResponse :=
  ((receive calldata (respond (some f.contract.address) (some f.ledger.origin))).outcome
    ⟨f.ledger, .apart copy, []⟩).andThen fun r h =>
      match r with
      | .error e => some (.error e, { f with ledger := h.ledger })
      | .ok response => (closeCall target (settle h.ledger h.contract) h.deployments
          response).outcome { f with ledger := h.ledger }

lemma outcome_nestedCall (call : Address → Bytes → Run CallResponse)
    (respond : Option Address → Option Address → Run CallResponse)
    (settle : Ledger → Contract → Contract) (target : Address) (calldata : Bytes) {f : Frame}
    (h : f.ledger.Settled) :
    (nestedCall call respond settle target calldata).outcome f =
      if f.ledger.nestedCalls = false then
        some (.error (f.contract.fault .unsupportedReentry "Not implemented"), f)
      else if f.ledger.hasContract target then
        match copyOf (opened f target) (Seat.contract (opened f target) (.registered target)) with
        | .ok (l, copy) => entered respond settle target calldata copy { f with ledger := l }
        | .error e => some (.error e, { f with ledger := opened f target })
      else
        some (.error (f.contract.fault .callFailed (Failure.unknownContract target).message),
          { f with ledger := opened f target }) := by
  rw [nestedCall]
  rw [outcome_bind, outcome_openCall call target h]
  split
  · rfl
  · split
    · simp only [Outcome.some_andThen]
      rw [outcome_bind, outcome_copyTarget]
      cases copyOf (opened f target) (Seat.contract (opened f target) (.registered target)) with
      | error e => rfl
      | ok r =>
        obtain ⟨l, copy⟩ := r
        simp only [entered]
        simp only [Outcome.some_andThen, outcome_bind, outcome_contract, outcome_ledger,
          outcome_inSeat]
        rcases (receive calldata _).outcome _ with _ | ⟨_ | response, h⟩
        · rfl
        · rfl
        · rfl
    · rfl

lemma copyOf_with (l : Ledger) (t : Table Address Contract) (c : Contract) :
    copyOf { l with contracts := t } c =
      (copyOf l c).map fun (l, copy) => ({ l with contracts := t }, copy) := by
  rw [copyOf_eq, copyOf_eq]
  cases c.code? with
  | error e => rfl
  | ok code =>
    change Except.map _ ((l.setCode c.address code).code? c.address) = Except.map _ (Except.map _ _)
    cases (l.setCode c.address code).code? c.address <;> rfl

/-- The first run stands on a copy with address `a`; the registry of the second holds the storage of
that copy, and of those that the table lists. -/
structure Shares (P : Table Address Storage) (a : Address) (f g : Frame) : Prop where
  seat : ∃ c s, f.seat = .apart c ∧ g.seat = .apart { c with states := s }
  overlay : Overlay ((a, f.contract.states) :: P) f.ledger g.ledger
  address : f.contract.address = a
  deployed : f.contract.deployed = true
  deployments : g.deployments = f.deployments

variable {P : Table Address Storage} {a : Address}

lemma sharing_shares (P : Table Address Storage) (a : Address) : Sharing (Shares P a) where
  contract := by
    intro f g h
    obtain ⟨c, s, hf, hg⟩ := h.seat
    exact ⟨s, by simp only [Frame.contract, hf, hg, Seat.contract]⟩
  ledger := fun f g h => h.overlay.ledger
  book := by
    rintro ⟨l, seat, ds⟩ ⟨m, seat', ds'⟩ k h hk
    obtain ⟨c, s, rfl, rfl⟩ := h.seat
    exact ⟨⟨c, s, rfl, rfl⟩, h.overlay.book hk, h.address, h.deployed, h.deployments⟩
  tend := by
    rintro ⟨l, seat, ds⟩ ⟨m, seat', ds'⟩ k h hk
    obtain ⟨c, s, rfl, rfl⟩ := h.seat
    refine ⟨⟨k c, s, rfl, congrArg Seat.apart (hk.blind c s)⟩, ?_,
      (hk.address c).trans h.address, (hk.deployed c).trans h.deployed, h.deployments⟩
    change Overlay ((a, (k c).states) :: P) l m
    rw [hk.states]
    exact h.overlay
  storage := by
    intro f g h
    rw [h.address, h.overlay.storage a f.contract.states (by rw [Table.find?_cons, if_pos rfl])]
    rfl
  change := by
    rintro ⟨l, seat, ds⟩ ⟨m, seat', ds'⟩ k h
    obtain ⟨c, s, rfl, rfl⟩ := h.seat
    have haddress : c.address = a := h.address
    refine ⟨⟨restoring k c, s, rfl, rfl⟩, ?_, h.address, h.deployed, h.deployments⟩
    change Overlay ((a, k c.states) :: P) l (m.modifyContract c.address (restoring k))
    rw [haddress]
    exact h.overlay.change k
  deployments := fun f g h => h.deployments
  withDeployments := by
    rintro ⟨l, seat, ds⟩ ⟨m, seat', ds'⟩ d h
    obtain ⟨c, s, rfl, rfl⟩ := h.seat
    exact ⟨⟨c, s, rfl, rfl⟩, h.overlay, h.address, h.deployed, rfl⟩
  other := by
    rintro ⟨l, seat, ds⟩ ⟨m, seat', ds'⟩ b k h hk
    obtain ⟨c, s, rfl, rfl⟩ := h.seat
    exact ⟨⟨c, s, rfl, rfl⟩, h.overlay.modify b hk, h.address, h.deployed, h.deployments⟩

/-- The caller waits for a nested call; the table lists the storage of the activations on copies,
among them the caller's if it stands on one. -/
structure Waiting (P : Table Address Storage) (S : Frame → Frame → Prop) : Prop
    extends Alike S where
  overlay : ∀ f g, S f g → Overlay P f.ledger g.ledger
  deployments : ∀ f g, S f g → g.deployments = f.deployments
  resume : ∀ f g l m d, S f g → Overlay P l m →
    S { f with ledger := l, deployments := d } { g with ledger := m, deployments := d }

variable {S : Frame → Frame → Prop} {call call' : Address → Bytes → Run CallResponse}

lemma execute_shares (hcall : ∀ target calldata,
      Simulates (Shares P a) Eq (call target calldata) (call' target calldata))
    (calldata : Bytes) (sender origin : Option Address) :
    Simulates (Shares P a) Eq (execute call calldata sender origin)
      (Shared.execute call' calldata sender origin) := by
  intro f g h q f' hx
  obtain ⟨g', hy, hS⟩ :=
    (sharing_shares P a).execute hcall calldata sender origin h h.deployed hx
  exact ⟨q, g', hy, Agree.refl q, hS⟩

lemma closeCall_shared (hS : Waiting P S) {f g h h' : Frame} (hfg : S f g) {target : Address}
    (hin : Shares P target h h') (response : CallResponse)
    (hafter : ∀ s, P.find? target = some s → h.contract.states = s) :
    ∃ g', (closeCall target (Shared.withShared h'.ledger h'.contract) h'.deployments
        response).outcome { g with ledger := h'.ledger } =
      some (checkResponse (carryOver h.ledger target h.contract).1
        (closed target h.contract h.deployments response { f with ledger := h.ledger }).contract
        response, g') ∧
      S (closed target h.contract h.deployments response { f with ledger := h.ledger }) g' := by
  have hsharing := sharing_shares P target
  obtain ⟨s, hs⟩ := hsharing.contract h h' hin
  have hcopy : Shared.withShared h'.ledger h'.contract = h.contract := by
    rw [hs]
    exact Sharing.withShared_with (hsharing.storage h h' hin)
  obtain ⟨hover, hrecords⟩ := hin.overlay.carryOver hafter
  have hclosed : S (closed target h.contract h.deployments response { f with ledger := h.ledger })
      (closed target h.contract h.deployments response { g with ledger := h'.ledger }) := by
    simp only [closed]
    simp only [hrecords, hS.deployments f g hfg]
    exact hS.tend _ _ _ (hS.resume f g _ _ _ hfg hover) (tending_adopt response)
  rw [hcopy, hin.deployments, outcome_closeCall]
  refine ⟨_, ?_, hclosed⟩
  obtain ⟨s', hs'⟩ := hS.contract _ _ hclosed
  obtain ⟨t, ht⟩ := hover.ledger
  rw [hs', ht]
  rfl

lemma entered_shared (hS : Waiting P S)
    (hcall : ∀ a target calldata,
      Simulates (Shares P a) Eq (call target calldata) (call' target calldata))
    {f g f' : Frame} (hfg : S f g) {target : Address} {copy : Contract}
    (hcopy : g.ledger.storage? target = some copy.states) (haddress : copy.address = target)
    (hdeployed : copy.deployed = true) {calldata : Bytes} {q : Except Failure CallResponse}
    (hx : entered (execute call calldata) (fun _ c => c) target calldata copy f = some (q, f'))
    (hafter : ∀ s, P.find? target = some s → f'.ledger.storage? target = some s) :
    ∃ g', entered (Shared.execute call' calldata) Shared.withShared target calldata copy g =
      some (q, g') ∧ S f' g' := by
  have hover := hS.overlay f g hfg
  have hstart : Shares P target ⟨f.ledger, .apart copy, []⟩ ⟨g.ledger, .apart copy, []⟩ :=
    ⟨⟨copy, copy.states, rfl, rfl⟩, hover.cons hcopy, haddress, hdeployed, rfl⟩
  obtain ⟨s, hs⟩ := hS.contract f g hfg
  obtain ⟨t, ht⟩ := hS.ledger f g hfg
  have hcaller : g.contract.address = f.contract.address := by rw [hs]
  have horigin : g.ledger.origin = f.ledger.origin := by rw [ht]
  rw [entered] at hx ⊢
  rw [hcaller, horigin]
  obtain ⟨r, h, hrun, hx⟩ := Outcome.andThen_eq_some hx
  have hsim := (sharing_shares P target).receive calldata (execute_shares (hcall target) calldata
    (some f.contract.address) (some f.ledger.origin))
  obtain ⟨h', hrun', hin⟩ := hsim.outcome hstart hrun
  obtain ⟨response, rfl⟩ := Returns.receive calldata (Returns.execute _ _ _ _) _ _ _ hrun
  rw [hrun', Outcome.some_andThen]
  simp only [outcome_closeCall, Option.some.injEq, Prod.mk.injEq] at hx
  obtain ⟨rfl, rfl⟩ := hx
  -- An activation of the target that waits on a copy must have what this one leaves behind.
  refine closeCall_shared hS hfg hin response fun s hP => ?_
  have hknown : h.ledger.hasContract target = true := by
    have hstored := hin.overlay.storage target _ (by rw [Table.find?_cons, if_pos rfl])
    obtain ⟨c, hc, _⟩ := Option.map_eq_some_iff.mp hstored
    rw [← hin.overlay.hasContract]
    exact Option.isSome_iff_exists.mpr ⟨c, hc⟩
  have hstorage := hafter s hP
  rw [closed] at hstorage
  rw [Frame.storage?_modifyContract _ (tending_adopt response).states] at hstorage
  exact Option.some.inj ((Overlay.storage?_carryOver h.contract hknown).symm.trans hstorage)

lemma opened_shared (hS : Alike S) {f g : Frame} (hfg : S f g) (target : Address) :
    S { f with ledger := opened f target } { g with ledger := opened g target } := by
  obtain ⟨s, hs⟩ := hS.contract f g hfg
  obtain ⟨t, ht⟩ := hS.ledger f g hfg
  have haddress : g.contract.address = f.contract.address := by rw [hs]
  have htrace : g.ledger.traceCalls = f.ledger.traceCalls := by rw [ht]
  simp only [opened]
  rw [haddress, htrace]
  split
  · exact hS.book f g _ hfg (.note _ _)
  · exact hfg

lemma storage?_opened (f : Frame) (target a : Address) :
    (opened f target).storage? a = f.ledger.storage? a := by
  rw [opened]
  split <;> rfl

lemma hasContract_opened (f : Frame) (target a : Address) :
    (opened f target).hasContract a = f.ledger.hasContract a := by
  rw [opened]
  split <;> rfl

lemma copyOf_overlay {l m : Ledger} (h : Overlay P l m) {target : Address}
    (hsame : ∀ s, P.find? target = some s → l.storage? target = some s) :
    copyOf m (Seat.contract m (.registered target)) =
      (copyOf l (Seat.contract l (.registered target))).map fun (l, copy) =>
        ({ l with contracts := m.contracts }, copy) := by
  have hseat : Seat.contract m (.registered target) = Seat.contract l (.registered target) := by
    simp only [Seat.contract, h.find?_eq hsame]
  obtain ⟨t, rfl⟩ := h.ledger
  rw [hseat, copyOf_with]

lemma copied_shared (hS : Waiting P S) {f g : Frame} (hfg : S f g) {target : Address}
    (htarget : f.ledger.hasContract target = true)
    (hsame : ∀ s, P.find? target = some s → f.ledger.storage? target = some s)
    {l : Ledger} {copy : Contract}
    (hcopy : copyOf f.ledger (Seat.contract f.ledger (.registered target)) = .ok (l, copy)) :
    S { f with ledger := l } { g with ledger := { l with contracts := g.ledger.contracts } } ∧
      g.ledger.storage? target = some copy.states ∧ copy.address = target ∧
      copy.deployed = true := by
  have hover := hS.overlay f g hfg
  obtain ⟨c, hc⟩ := Option.isSome_iff_exists.mp htarget
  have haddress : c.address = target := hover.keyed_left _ (Table.mem_of_find? hc)
  have hcontract : Seat.contract f.ledger (.registered target) = c := by
    simp only [Seat.contract, hc, Option.getD_some]
  obtain ⟨t, ht⟩ := hS.ledger f g hfg
  obtain ⟨code, resolved, rfl, rfl⟩ := copyOf_eq_ok hcopy
  rw [hcontract]
  refine ⟨?_, ?_, haddress, rfl⟩
  · have hcode := hS.book f g _ hfg (.code c.address code)
    rw [ht] at hcode ⊢
    exact hcode
  · rw [Ledger.storage?, hover.find?_eq hsame, hc]
    rfl

lemma nestedCall_shared (hS : Waiting P S)
    (hcall : ∀ a target calldata,
      Simulates (Shares P a) Eq (call target calldata) (call' target calldata))
    {f g f' : Frame} (hfg : S f g) {target : Address} {calldata : Bytes}
    {q : Except Failure CallResponse}
    (hbefore : ∀ s, P.find? target = some s → f.ledger.storage? target = some s)
    (hx : (callWith call target calldata).outcome f = some (q, f'))
    (hafter : ∀ s, P.find? target = some s → f'.ledger.storage? target = some s) :
    ∃ g', (nestedCall call' (Shared.execute call' calldata) Shared.withShared target
      calldata).outcome g = some (q, g') ∧ S f' g' := by
  have hover := hS.overlay f g hfg
  obtain ⟨s, hs⟩ := hS.contract f g hfg
  obtain ⟨t, ht⟩ := hS.ledger f g hfg
  have hnested : g.ledger.nestedCalls = f.ledger.nestedCalls := by rw [ht]
  have hfault (kind : FaultKind) (text : Text) :
      g.contract.fault kind text = f.contract.fault kind text := by
    rw [hs]
    rfl
  have hopened := opened_shared hS.toAlike hfg target
  rw [callWith_eq, outcome_nestedCall _ _ _ _ _ hover.settled_left] at hx
  rw [outcome_nestedCall _ _ _ _ _ hover.settled_right, hnested, hover.hasContract, hfault, hfault]
  by_cases hn : f.ledger.nestedCalls = false
  · rw [if_pos hn] at hx ⊢
    cases hx
    exact ⟨g, rfl, hfg⟩
  rw [if_neg hn] at hx ⊢
  by_cases htarget : f.ledger.hasContract target = true
  · rw [if_pos htarget] at hx ⊢
    have hknown := (hasContract_opened f target target).trans htarget
    have hsame : ∀ s, P.find? target = some s → (opened f target).storage? target = some s :=
      fun s hP => (storage?_opened f target target).trans (hbefore s hP)
    -- Both runs copy the same contract, as the storage of the target is shared by now.
    rw [copyOf_overlay (hS.overlay _ _ hopened) hsame]
    cases hcopy : copyOf (opened f target)
        (Seat.contract (opened f target) (.registered target)) with
    | ok r =>
      obtain ⟨l, copy⟩ := r
      obtain ⟨hcopied, hstorage, haddress, hdeployed⟩ :=
        copied_shared hS hopened hknown hsame hcopy
      simp only [hcopy] at hx
      exact entered_shared hS hcall hcopied hstorage haddress hdeployed hx hafter
    | error e =>
      simp only [hcopy] at hx
      cases hx
      exact ⟨_, rfl, hopened⟩
  · rw [if_neg htarget] at hx ⊢
    cases hx
    exact ⟨_, rfl, hopened⟩

end Run

end ChainReplay
