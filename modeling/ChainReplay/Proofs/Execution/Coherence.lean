import ChainReplay.Proofs.Execution.Fuel
import ChainReplay.Proofs.Execution.NestedStorage

/-! Coherence of storage. Execution on copies is execution on shared storage as long as nested calls
enter and leave contracts whose latest activation has the storage that the registry holds. -/

namespace ChainReplay

namespace Run

/-- The registry holds other storage for the address than the table says. -/
def stale (table : Table Address Storage) (a : Address) (l : Ledger) : Bool :=
  (table.find? a).any fun s => l.storage? a ≠ some s

/-- The storage of those that wait on copies, and that of the running contract. The contract that is
called from outside has its storage in the registry, and none waits before it. -/
def listed (waiting : Option (Table Address Storage)) (c : Contract) : Table Address Storage :=
  match waiting with
  | none => []
  | some table => (c.address, c.states) :: table

/-- Calls as they are made, but cut off where the registry holds other storage for the target than
its latest activation has, be it before or after the call. -/
def coherent : Nat → Option (Table Address Storage) → Address → Bytes → Run CallResponse
  | 0, _, _, _ => outOfFuel
  | n + 1, waiting, target, calldata => do
    let table := listed waiting (← contract)
    if stale table target (← ledger) then outOfFuel
    let response ← attempt (callWith (coherent n (some table)) target calldata)
    if stale table target (← ledger) then outOfFuel
    lift response

lemma eq_of_not_stale {table : Table Address Storage} {a : Address} {l : Ledger}
    (h : stale table a l = false) {s : Storage} (hs : table.find? a = some s) :
    l.storage? a = some s := by
  simpa [stale, hs] using h

lemma outcome_coherent_succ (n : Nat) (waiting : Option (Table Address Storage)) (target : Address)
    (calldata : Bytes) (f : Frame) :
    (coherent (n + 1) waiting target calldata).outcome f =
      if stale (listed waiting f.contract) target f.ledger then none
      else ((callWith (coherent n (some (listed waiting f.contract))) target calldata).outcome
        f).andThen fun r g =>
          if stale (listed waiting f.contract) target g.ledger then none else some (r, g) := by
  simp only [coherent, outcome_bind, outcome_contract, outcome_ledger, Outcome.some_andThen]
  split
  · rfl
  · simp only [outcome_bind, outcome_attempt, outcome_ledger]
    rcases (callWith (coherent n (some (listed waiting f.contract))) target calldata).outcome f
      with _ | ⟨r, g⟩
    · rfl
    · simp only [Outcome.some_andThen]
      split
      · rfl
      · exact outcome_lift r g

lemma outcome_coherent_succ_eq_some {n : Nat} {waiting : Option (Table Address Storage)}
    {target : Address} {calldata : Bytes} {f f' : Frame} {q : Except Failure CallResponse}
    (hx : (coherent (n + 1) waiting target calldata).outcome f = some (q, f')) :
    stale (listed waiting f.contract) target f.ledger = false ∧
      (callWith (coherent n (some (listed waiting f.contract))) target calldata).outcome f =
        some (q, f') ∧
      stale (listed waiting f.contract) target f'.ledger = false := by
  rw [outcome_coherent_succ] at hx
  split at hx
  case isTrue => cases hx
  case isFalse hbefore =>
    obtain ⟨r, g, hcall, hx⟩ := Outcome.andThen_eq_some hx
    split at hx
    case isTrue => cases hx
    case isFalse hafter =>
      cases hx
      exact ⟨Bool.not_eq_true _ ▸ hbefore, hcall, Bool.not_eq_true _ ▸ hafter⟩

lemma coherent_call (l : Ledger) (n : Nat) (waiting : Option (Table Address Storage))
    (target : Address) (calldata : Bytes) :
    Simulates (Same (Continuing l)) Eq (coherent n waiting target calldata)
      (Run.call n target calldata) := by
  induction n generalizing waiting target calldata with
  | zero => exact .outOfFuel _
  | succ n ih =>
    intro f g hfg q f' hx
    obtain ⟨_, hcall, _⟩ := outcome_coherent_succ_eq_some hx
    exact (Ledger.stable_continues l).callWith (ih _) target calldata f g hfg q f' hcall

structure Outermost (f : Frame) : Prop where
  seat : ∃ a, f.seat = .registered a
  settled : f.ledger.Settled
  keyed : f.ledger.Keyed

lemma Outermost.modifyContract {f : Frame} (h : Outermost f) (a : Address) {k : Contract → Contract}
    (hk : Steady k) : Outermost { f with ledger := f.ledger.modifyContract a k } :=
  ⟨h.seat, h.settled.modifyContract a hk.deployed, h.keyed.modifyContract a hk.address⟩

lemma lasting_outermost : Lasting Outermost where
  book := by
    rintro f _ h (entries | ⟨level, text⟩ | n | ⟨a, code⟩) <;> exact ⟨h.seat, h.settled, h.keyed⟩
  own := by
    rintro ⟨l, seat, deployments⟩ k h hk
    obtain ⟨a, rfl⟩ := h.seat
    exact h.modifyContract a hk
  other := fun _ a _ h hk => h.modifyContract a hk.steady
  deployments := fun _ _ h => ⟨h.seat, h.settled, h.keyed⟩

lemma Outermost.contract {l : Ledger} {a : Address} {deployments : List Deployment}
    (h : Outermost ⟨l, .registered a, deployments⟩) :
    (Frame.contract ⟨l, .registered a, deployments⟩).address = a ∧
      (l.storage? a).getD [] = (Frame.contract ⟨l, .registered a, deployments⟩).states := by
  change (Seat.contract l (.registered a)).address = a ∧
    (l.storage? a).getD [] = (Seat.contract l (.registered a)).states
  simp only [Seat.contract, Ledger.storage?]
  cases hc : l.contracts.find? a with
  | none => exact ⟨rfl, rfl⟩
  | some c => exact ⟨h.keyed _ (Table.mem_of_find? hc), rfl⟩

lemma sharing_outermost : Sharing (Same Outermost) where
  toAlike := lasting_outermost.alike
  storage := by
    rintro ⟨l, seat, deployments⟩ _ ⟨rfl, h⟩
    obtain ⟨a, rfl⟩ := h.seat
    rw [h.contract.1]
    exact h.contract.2
  change := by
    rintro ⟨l, seat, deployments⟩ _ k ⟨rfl, h⟩
    obtain ⟨a, rfl⟩ := h.seat
    refine ⟨?_, lasting_outermost.own _ _ h ⟨fun _ => rfl, fun _ hc => hc⟩⟩
    rw [h.contract.1]
    rfl
  deployments := by
    rintro f _ ⟨rfl, _⟩
    rfl
  withDeployments := by
    rintro f _ d ⟨rfl, h⟩
    exact ⟨rfl, lasting_outermost.deployments f d h⟩
  other := by
    rintro f _ a k ⟨rfl, h⟩ hk
    exact ⟨rfl, lasting_outermost.other f a k h hk⟩

lemma waiting_outermost : Waiting [] (Same Outermost) where
  toAlike := lasting_outermost.alike
  overlay := by
    rintro f _ ⟨rfl, h⟩
    exact .refl h.settled h.keyed
  deployments := by
    rintro f _ ⟨rfl, _⟩
    rfl
  resume := by
    rintro f _ l m d ⟨rfl, h⟩ hover
    obtain rfl := hover.eq
    exact ⟨rfl, h.seat, hover.settled_left, hover.keyed_left⟩

lemma waiting_shares (P : Table Address Storage) (a : Address) (s : Storage) :
    Waiting ((a, s) :: P) fun f g => Shares P a f g ∧ f.contract.states = s where
  contract := fun f g h => (sharing_shares P a).contract f g h.1
  ledger := fun f g h => (sharing_shares P a).ledger f g h.1
  book := by
    rintro ⟨l, seat, ds⟩ g k ⟨h, hs⟩ hk
    obtain ⟨c, _, rfl, _⟩ := h.seat
    exact ⟨(sharing_shares P a).book _ _ _ h hk, hs⟩
  tend := by
    rintro ⟨l, seat, ds⟩ g k ⟨h, hs⟩ hk
    obtain ⟨c, _, rfl, _⟩ := h.seat
    exact ⟨(sharing_shares P a).tend _ _ _ h hk, (hk.states c).trans hs⟩
  overlay := by
    rintro f g ⟨h, rfl⟩
    exact h.overlay
  deployments := fun f g h => h.1.deployments
  resume := by
    rintro ⟨l, seat, ds⟩ g l' m d ⟨h, rfl⟩ hover
    obtain ⟨c, r, rfl, hg⟩ := h.seat
    exact ⟨⟨⟨c, r, rfl, hg⟩, hover, h.address, h.deployed, rfl⟩, rfl⟩

lemma not_stale_iff_of_shares {P : Table Address Storage} {a : Address} {f g : Frame}
    (h : Shares P a f g) (target : Address) :
    stale (listed (some P) f.contract) target f.ledger = false ↔
      f.ledger.storage? target = g.ledger.storage? target := by
  have hover : Overlay (listed (some P) f.contract) f.ledger g.ledger := by
    rw [listed, h.address]
    exact h.overlay
  cases hs : Table.find? (listed (some P) f.contract) target with
  | none =>
    have hsame : g.ledger.storage? target = f.ledger.storage? target :=
      congrArg (Option.map _) (hover.find?_eq fun s hP => nomatch hs.symm.trans hP)
    simp [stale, hs, hsame]
  | some s => simp [stale, hs, hover.storage target s hs]

lemma coherent_shared (n : Nat) (P : Table Address Storage) (a target : Address)
    (calldata : Bytes) :
    Simulates (Shares P a) Eq (coherent n (some P) target calldata)
      (Shared.call n target calldata) := by
  -- Each level of nesting puts the storage of the activation that waits on top of the table.
  induction n generalizing P a target calldata with
  | zero => exact .outOfFuel _
  | succ n ih =>
    intro f g hfg q f' hx
    obtain ⟨hbefore, hcall, hafter⟩ := outcome_coherent_succ_eq_some hx
    have hlisted : listed (some P) f.contract = (a, f.contract.states) :: P := by
      rw [← hfg.address]
      rfl
    rw [hlisted] at hbefore hcall hafter
    obtain ⟨g', hy, hfg', _⟩ := nestedCall_shared (waiting_shares P a f.contract.states) (ih _)
      ⟨hfg, rfl⟩ (fun _ => eq_of_not_stale hbefore) hcall fun _ => eq_of_not_stale hafter
    exact ⟨q, g', hy, Agree.refl q, hfg'⟩

lemma states_of_callWith {call : Address → Bytes → Run CallResponse} {target : Address}
    {calldata : Bytes} {f f' : Frame} {q : Except Failure CallResponse} (hset : f.ledger.Settled)
    (hseat : ∃ c, f.seat = .apart c) (hx : (callWith call target calldata).outcome f = some (q, f')) :
    f'.contract.states = f.contract.states := by
  obtain ⟨l, seat, deployments⟩ := f
  obtain ⟨c, rfl⟩ := hseat
  rw [callWith_eq, outcome_nestedCall _ _ _ _ _ hset] at hx
  split at hx
  case isTrue =>
    cases hx
    rfl
  case isFalse =>
    split at hx
    case isTrue =>
      split at hx
      case h_1 =>
        obtain ⟨r, h, _, hx⟩ := Outcome.andThen_eq_some hx
        cases r with
        | error e =>
          cases hx
          rfl
        | ok response =>
          simp only [outcome_closeCall] at hx
          cases hx
          exact (tending_adopt response).states c
      case h_2 =>
        cases hx
        rfl
    case isFalse =>
      cases hx
      rfl

/-- A nested call, in which all calls are coherent, is coherent itself exactly if it keeps the two
runs together: its target has one storage in both registries when the call begins and when it ends,
and whatever waits for it goes on alike. -/
theorem coherent_iff_shares {n : Nat} {P : Table Address Storage} {a target : Address}
    {calldata : Bytes} {f g f' : Frame} {q : Except Failure CallResponse} (hfg : Shares P a f g)
    (hx : (callWith (coherent n (some (listed (some P) f.contract))) target calldata).outcome f =
      some (q, f')) :
    ((coherent (n + 1) (some P) target calldata).outcome f).isSome = true ↔
      f.ledger.storage? target = g.ledger.storage? target ∧
      ∃ g', (Shared.call (n + 1) target calldata).outcome g = some (q, g') ∧ Shares P a f' g' ∧
        f'.ledger.storage? target = g'.ledger.storage? target := by
  have hseat : ∃ c, f.seat = .apart c := by
    obtain ⟨c, _, hc, _⟩ := hfg.seat
    exact ⟨c, hc⟩
  have hstates := states_of_callWith hfg.overlay.settled_left hseat hx
  have hlisted (g' : Frame) (hfg' : Shares P a f' g') :
      listed (some P) f'.contract = listed (some P) f.contract := by
    rw [listed, listed, hstates, hfg'.address, hfg.address]
  rw [← not_stale_iff_of_shares hfg]
  constructor
  · intro hsome
    obtain ⟨⟨r, f₁⟩, hrun⟩ := Option.isSome_iff_exists.mp hsome
    obtain ⟨hbefore, hcall, hafter⟩ := outcome_coherent_succ_eq_some hrun
    rw [hx] at hcall
    cases hcall
    obtain ⟨g', hy, hfg'⟩ := (coherent_shared (n + 1) P a target calldata).outcome hfg hrun
    refine ⟨hbefore, g', hy, hfg', ?_⟩
    rw [← not_stale_iff_of_shares hfg', hlisted g' hfg']
    exact hafter
  · rintro ⟨hbefore, g', _, hfg', hafter⟩
    rw [← not_stale_iff_of_shares hfg', hlisted g' hfg'] at hafter
    rw [outcome_coherent_succ, hx, Outcome.some_andThen, hbefore, hafter]
    rfl

lemma coherent_outermost (n : Nat) (target : Address) (calldata : Bytes) :
    Simulates (Same Outermost) Eq (coherent n none target calldata)
      (Shared.call n target calldata) := by
  cases n with
  | zero => exact .outOfFuel _
  | succ n =>
    intro f g hfg q f' hx
    obtain ⟨_, hcall, _⟩ := outcome_coherent_succ_eq_some hx
    obtain ⟨g', hy, hfg'⟩ := nestedCall_shared waiting_outermost (coherent_shared n []) hfg nofun
      hcall nofun
    exact ⟨q, g', hy, Agree.refl q, hfg'⟩

/-- If every nested call enters and leaves its target where the registry holds the storage that the
latest activation of the target has, then a call does what it does with one storage for each
address: it gives the same response, its program gets the same replies from the host, and all
storage is the same afterwards. Calls of contracts that are not running on a copy are such calls. -/
theorem execute_eq_shared {n : Nat} {l : Ledger} {a : Address} {calldata : Bytes}
    {sender origin : Option Address} (hset : l.Settled) (hkey : l.Keyed)
    (ha : l.hasContract a = true)
    (hcoherent : (l.perform (.registered a)
      (execute (coherent n none) calldata sender origin)).isSome = true) :
    ∃ o, l.perform (.registered a) (execute (Run.call n) calldata sender origin) = some o ∧
      l.perform (.registered a) (Shared.execute (Shared.call n) calldata sender origin) =
        some o := by
  obtain ⟨⟨q, f⟩, hx⟩ := Option.isSome_iff_exists.mp (by simpa [perform_eq] using hcoherent)
  have hI := lasting_continuing l
  have hcall := coherent_call l n none
  obtain ⟨g, hy, rfl, _⟩ := (hI.execute hcall (hI.deploy hcall) calldata sender origin).outcome
    (f := ⟨l, .registered a, []⟩) ⟨rfl, Ledger.Continues.refl l⟩ hx
  obtain ⟨g, hz, rfl, _⟩ := sharing_outermost.execute (coherent_outermost n) calldata sender origin
    (f := ⟨l, .registered a, []⟩) ⟨rfl, ⟨a, rfl⟩, hset, hkey⟩ (hset.deployed ha) hx
  rw [perform_eq, perform_eq, hy, hz]
  exact ⟨_, rfl, rfl⟩

/-- Calls as they are made, but cut off where the target runs on a copy already. -/
def acyclic : Nat → Option (Table Address Storage) → Address → Bytes → Run CallResponse
  | 0, _, _, _ => outOfFuel
  | n + 1, waiting, target, calldata => do
    let table := listed waiting (← contract)
    if table.contains target then outOfFuel
    callWith (acyclic n (some table)) target calldata

lemma acyclic_coherent (l : Ledger) (n : Nat) (waiting : Option (Table Address Storage))
    (target : Address) (calldata : Bytes) :
    Simulates (Same (Continuing l)) Eq (acyclic n waiting target calldata)
      (coherent n waiting target calldata) := by
  induction n generalizing waiting target calldata with
  | zero => exact .outOfFuel _
  | succ n ih =>
    rintro f _ ⟨rfl, hf⟩ q f' hx
    simp only [acyclic, outcome_bind, outcome_contract, Outcome.some_andThen] at hx
    split at hx
    case isTrue => cases hx
    case isFalse hnew =>
      have hfind : (listed waiting f.contract).find? target = none := by
        simpa [Table.contains] using hnew
      have hstale (l : Ledger) : stale (listed waiting f.contract) target l = false := by
        simp [stale, hfind]
      have hI := Ledger.stable_continues l
      obtain ⟨r, g', hy, hr, hg⟩ := hI.callWith (ih _) target calldata f f ⟨rfl, hf⟩ q f' hx
      refine ⟨r, g', ?_, hr, hg⟩
      simp [outcome_coherent_succ, hstale, hy]

/-- A call that enters no contract while this runs on a copy is coherent. The contract called from
outside may be entered again, since it has its storage in the registry. -/
theorem coherent_of_acyclic {n : Nat} {l : Ledger} {a : Address} {calldata : Bytes}
    {sender origin : Option Address}
    (h : (l.perform (.registered a)
      (execute (acyclic n none) calldata sender origin)).isSome = true) :
    (l.perform (.registered a)
      (execute (coherent n none) calldata sender origin)).isSome = true := by
  rw [perform_eq, Option.isSome_map] at h ⊢
  obtain ⟨⟨q, f⟩, hx⟩ := Option.isSome_iff_exists.mp h
  have hI := lasting_continuing l
  have hcall := acyclic_coherent l n none
  obtain ⟨g, hy, _⟩ := (hI.execute hcall (hI.deploy hcall) calldata sender origin).outcome
    (f := ⟨l, .registered a, []⟩) ⟨rfl, Ledger.Continues.refl l⟩ hx
  rw [hy]
  rfl

section Reentry

def entrance : Address := Ledger.numbered 1

def chamber : Address := Ledger.numbered 2

def storing (pointer value : Nat) (next : Program) : Program :=
  .ask .store (Bytes.ofNat 32 pointer ++ Bytes.ofNat 32 value) fun _ => next

def calling (target : Address) (calldata : Bytes) (next : Program) : Program :=
  .ask .call (target.bytes ++ Bytes.ofNat 4 calldata.length ++ calldata) fun _ => next

/-- The entrance calls the chamber, which does one thing when called without data, and another when
called with data; so does the entrance, if it is called with data. -/
def reentering (without within : Program) : Engine where
  instantiate parameters := .ok
    { refusal := none
      construct := fun _ _ => .done []
      execute := fun _ calldata =>
        if calldata ≠ [] then within
        else if parameters.address = entrance then storing 1 7 (calling chamber [] (.done []))
        else without }

def reentered (without within : Program) : Ledger :=
  Ledger.standing (reentering without within) [entrance, chamber]

/-- The chamber calls the entrance again, which loads what it has stored. -/
theorem execute_eq_shared_reentered :
    ∃ o, (reentered (calling entrance [1] (.done [])) (.ask .load (Bytes.ofNat 32 1) fun _ =>
        .done [])).perform (.registered entrance) (execute (Run.call 2) [] none none) = some o ∧
      (reentered (calling entrance [1] (.done [])) (.ask .load (Bytes.ofNat 32 1) fun _ =>
        .done [])).perform (.registered entrance)
          (Shared.execute (Shared.call 2) [] none none) = some o :=
  execute_eq_shared (Ledger.settled_standing _ _) (Ledger.keyed_standing _ _) (by decide +kernel)
    (by decide +kernel)

def storageAfter (a : Address) (o : Option (Except Failure CallResponse × Ledger × Seat)) :
    Option Storage :=
  o.bind fun (_, l, _) => l.storage? a

/-- The chamber stores, and calls itself; what it stores there is lost when the first of the two
activations ends. -/
theorem execute_loses_updates :
    ¬ ∀ (n : Nat) (l : Ledger) (a : Address) (calldata : Bytes) (sender origin : Option Address),
      l.Settled → l.Keyed → l.hasContract a = true → l.nestedCalls = true →
      l.reentrancyGuard = false →
      ∀ d, storageAfter d (l.perform (.registered a)
          (execute (Run.call n) calldata sender origin)) =
        storageAfter d (l.perform (.registered a)
          (Shared.execute (Shared.call n) calldata sender origin)) := by
  intro h
  have hsame := h 2 (reentered (storing 1 7 (calling chamber [1] (.done [])))
    (storing 2 9 (.done []))) entrance [] none none (Ledger.settled_standing _ _)
    (Ledger.keyed_standing _ _) (by decide +kernel) rfl rfl chamber
  have hcopies : storageAfter chamber ((reentered (storing 1 7 (calling chamber [1] (.done [])))
      (storing 2 9 (.done []))).perform (.registered entrance)
        (execute (Run.call 2) [] none none)) = some [(1, 7)] := by decide +kernel
  have hshared : storageAfter chamber ((reentered (storing 1 7 (calling chamber [1] (.done [])))
      (storing 2 9 (.done []))).perform (.registered entrance)
        (Shared.execute (Shared.call 2) [] none none)) = some [(1, 7), (2, 9)] := by decide +kernel
  rw [hcopies, hshared] at hsame
  cases hsame

end Reentry

end Run

end ChainReplay
