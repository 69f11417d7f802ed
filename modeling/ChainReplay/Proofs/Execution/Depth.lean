import Mathlib.Data.List.Dedup
import Mathlib.Data.List.Perm.Subperm
import ChainReplay.Proofs.Execution.Reentrancy

/-! What the limit on the depth of calls bounds. It is compared with the call stack, on which each
contract stands once, so a contract that is entered again while it is active is not counted again. -/

namespace ChainReplay

namespace Activity

/-- For each activation the contracts that are active in it, from the outermost one on. -/
def chains : Activity → List (List Address)
  | quiet => []
  | activation a _ inner => [a] :: inner.chains.map (a :: ·)
  | andThen t u => t.chains ++ u.chains

lemma contracts_of_chains {t : Activity} {chain : List Address} (h : chain ∈ t.chains) :
    chain ⊆ t.contracts := by
  induction t generalizing chain with
  | quiet => cases h
  | activation a phase inner ih =>
    rw [chains, List.mem_cons, List.mem_map] at h
    rcases h with rfl | ⟨chain, h, rfl⟩
    · exact List.cons_subset_cons a (List.nil_subset _)
    · exact List.cons_subset_cons a (ih h)
  | andThen t u iht ihu =>
    rcases List.mem_append.mp h with h | h
    · exact List.subset_append_of_subset_left _ (iht h)
    · exact List.subset_append_of_subset_right _ (ihu h)

lemma Avoids.nodup {t : Activity} (ht : t.Avoids Activity.contracts) {chain : List Address}
    (h : chain ∈ t.chains) : chain.Nodup := by
  induction t generalizing chain with
  | quiet => cases h
  | activation a phase inner ih =>
    rw [chains, List.mem_cons, List.mem_map] at h
    rcases h with rfl | ⟨chain, h, rfl⟩
    · exact List.nodup_singleton a
    · exact List.nodup_cons.mpr ⟨fun hmem => ht.1 (contracts_of_chains h hmem), ih ht.2 h⟩
  | andThen t u iht ihu =>
    rcases List.mem_append.mp h with h | h
    · exact iht ht.1 h
    · exact ihu ht.2 h

end Activity

/-- The programs that run are strict. -/
def Ledger.RunsStrict (l : Ledger) : Prop := ∃ engine, l.engine = some engine ∧ engine.Strict

def Frame.Within (f : Frame) : Prop := f.contract.callStack.length ≤ f.ledger.maxCallDepth

lemma Ledger.stable_maxCallDepth (d : Int) : Stable fun l => l.maxCallDepth = d where
  book := by
    rintro l _ h (entries | ⟨level, text⟩ | n | ⟨a, code⟩) <;> exact h
  modify := fun _ _ _ h => h

namespace Run

variable {n : Nat} {f g : Frame}

lemma Minds.within {xs : List Address} (h : Minds xs f g)
    (hdepth : g.ledger.maxCallDepth = f.ledger.maxCallDepth) (hf : f.Within) : g.Within := by
  rw [Frame.Within, h.stack, hdepth]
  exact hf

lemma maxCallDepth_modifyContract (f : Frame) (k : Contract → Contract) :
    (f.modifyContract k).ledger.maxCallDepth = f.ledger.maxCallDepth := by
  rw [Frame.modifyContract]
  cases f.seat <;> rfl

lemma maxCallDepth_answered (number : Nat) (request : HostFunction) (reply : Except Failure Bytes)
    (f : Frame) :
    (answered number request reply f).ledger.maxCallDepth = f.ledger.maxCallDepth := by
  cases reply with
  | error e => rfl
  | ok bs =>
    simp only [answered]
    split <;> rfl

lemma maxCallDepth_charged (number : Nat) (gas : Int) (f : Frame) :
    (charged number gas f).ledger.maxCallDepth = f.ledger.maxCallDepth := by
  rw [charged]
  split <;> exact maxCallDepth_modifyContract f _

lemma maxCallDepth_answer {request : HostFunction} {data : Bytes} {q : Except Failure Bytes}
    (hx : (Host.answer (Run.call n) request data).outcome f = some (q, g)) :
    g.ledger.maxCallDepth = f.ledger.maxCallDepth := by
  have hI := (Ledger.stable_maxCallDepth f.ledger.maxCallDepth).lasting
  have hcall := (Ledger.stable_maxCallDepth f.ledger.maxCallDepth).call_add n 0
  obtain ⟨_, _, _, _, rfl, hg⟩ := hI.answer hcall request data f f ⟨rfl, rfl⟩ q g hx
  exact hg

lemma maxCallDepth_entry {calldata : Bytes} {given : EnvironmentGiven}
    {q : Except Failure (Nat × Program)} (hx : (entry calldata given).outcome f = some (q, g)) :
    g.ledger.maxCallDepth = f.ledger.maxCallDepth := by
  have hI := (Ledger.stable_maxCallDepth f.ledger.maxCallDepth).lasting.alike
  have hentry : Simulates (Same fun g => g.ledger.maxCallDepth = f.ledger.maxCallDepth) Eq
      (entry calldata given) (entry calldata given) :=
    Alike.bind_eq hI.load fun _ => Alike.bind_eq (hI.setEnvironment given) fun _ =>
      Alike.bind_eq (hI.enter _) fun _ => .pure rfl
  obtain ⟨_, _, _, _, rfl, hg⟩ := hentry f f ⟨rfl, rfl⟩ q g hx
  exact hg

lemma maxCallDepth_running {calldata : Bytes} {given : EnvironmentGiven} {q : Except Failure Bytes}
    (hx : (running (Run.call n) (entry calldata given)).outcome f = some (q, g)) :
    g.ledger.maxCallDepth = f.ledger.maxCallDepth := by
  have hI := (Ledger.stable_maxCallDepth f.ledger.maxCallDepth).lasting
  have hcall := (Ledger.stable_maxCallDepth f.ledger.maxCallDepth).call_add n 0
  have hmethod := hI.alike.runMethod (hI.answer hcall) calldata given
  rw [runMethod_eq] at hmethod
  obtain ⟨_, _, _, _, rfl, hg⟩ := hmethod f f ⟨rfl, rfl⟩ q g hx
  exact hg

/-- A nested call that succeeds has been let through with the call stack that it leaves. -/
lemma within_of_call {target : Address} {calldata : Bytes} {response : CallResponse}
    (hx : (Run.call n target calldata).outcome f = some (.ok response, g)) : g.Within := by
  cases n with
  | zero => cases hx
  | succ n =>
    rw [Run.call, outcome_callWith] at hx
    obtain ⟨r, h, -, hx⟩ := Outcome.andThen_eq_some hx
    cases r with
    | error e => cases hx
    | ok copy =>
      obtain ⟨response', k, k', -, -, rfl, hcheck⟩ := entered_cases hx
      rw [checkResponse] at hcheck
      split at hcheck
      · cases hcheck
      case isFalse hwithin =>
        rw [Frame.Within, closed, maxCallDepth_modifyContract]
        exact Int.not_lt.mp hwithin

lemma within_of_interpret {p : Program} (hp : p.Strict) {number : Nat} {gas : Int} {reply : Bytes}
    (hf : f.Within)
    (hx : (interpret (Host.answer (Run.call n)) number p gas).outcome f = some (.ok reply, g)) :
    g.Within := by
  induction hp generalizing gas f with
  | done reply =>
    cases hx
    exact hf
  | fail e => cases hx
  | ask request data hbad _ ih =>
    rw [outcome_interpret_ask] at hx
    obtain ⟨r, h, hrequest, hx⟩ := Outcome.andThen_eq_some hx
    cases r with
    | error e =>
      obtain ⟨_, hfailed⟩ := interpret_fails (hbad e) hx
      cases hfailed
    | ok answer =>
      have hh : h.Within := by
        by_cases hcall : request = .call
        case neg =>
          have hminds := minds_answer (Run.call n) hcall data _ _ hrequest
          exact hminds.within (maxCallDepth_answer hrequest) hf
        case pos =>
          subst hcall
          rcases answer_call_cases hrequest with ⟨e, -, h, -⟩ | ⟨target, calldata, r, -, hrun, hok⟩
          · cases h
          · obtain ⟨response, rfl⟩ := hok answer rfl
            exact within_of_call hrun
      exact ih answer ((minds_answered ..).within (maxCallDepth_answered ..) hh) hx
  | charge amount _ ih =>
    rw [outcome_interpret_charge] at hx
    exact ih ((minds_charged ..).within (maxCallDepth_charged ..) hf) hx
  | caught e _ ih =>
    rw [interpret, outcome_bind, outcome_enter, Outcome.some_andThen] at hx
    have hcaught : Minds [] f { f with ledger := f.ledger.enter [.caught number e] } :=
      .enter f rfl
    exact ih (hcaught.within rfl hf) hx

lemma strict_of_entry {calldata : Bytes} {given : EnvironmentGiven} {number : Nat}
    {program : Program} (hstrict : f.ledger.RunsStrict)
    (hx : (entry calldata given).outcome f = some (.ok (number, program), g)) : program.Strict := by
  obtain ⟨engine, he, hengine⟩ := hstrict
  rw [entry, outcome_bind] at hx
  obtain ⟨q, h, hload, hx⟩ := Outcome.andThen_eq_some hx
  cases q with
  | error e => cases hx
  | ok handle =>
    simp only [outcome_bind] at hx
    obtain ⟨r, h', -, hx⟩ := Outcome.andThen_eq_some hx
    cases r with
    | error e => cases hx
    | ok record =>
      cases hx
      obtain ⟨parameters, hprogram⟩ := load_program he hload
      exact (hengine parameters _ hprogram).execute record calldata

/-- A method that succeeds leaves a call stack within the limit, since it begins with a stack of one
contract. -/
lemma within_of_running {calldata reply : Bytes} {given : EnvironmentGiven}
    (hstrict : f.ledger.RunsStrict) (hdepth : 1 ≤ f.ledger.maxCallDepth)
    (hseat : ∀ a, f.seat.address? = some a → f.ledger.hasContract a = true)
    (hx : (running (Run.call n) (entry calldata given)).outcome f = some (.ok reply, g)) :
    g.Within := by
  rw [running, outcome_bind] at hx
  obtain ⟨r, h, hentry, hx⟩ := Outcome.andThen_eq_some hx
  cases r with
  | error e => cases hx
  | ok started =>
    obtain ⟨number, program⟩ := started
    have hh : h.Within := by
      rw [Frame.Within, (begins_entry hentry).stack hseat, maxCallDepth_entry hentry]
      exact hdepth
    exact within_of_interpret (strict_of_entry hstrict hentry) hh hx

section Calls

variable {l l' : Ledger} {a : Address} {calldata reply : Bytes} {sender origin : Option Address}
  {response : CallResponse} {seat : Seat}

lemma contracts_of_execute (hstrict : l.RunsStrict) (hset : l.Settled)
    (ha : l.hasContract a = true) (hdepth : 1 ≤ l.maxCallDepth)
    (hrun : l.perform (.registered a) (execute (Run.call n) calldata sender origin) =
      some (.ok response, l', seat)) (hok : response.result = .ok reply) :
    ∃ stack : List Address, (stack.length : Int) ≤ l.maxCallDepth ∧
      (l.activity n (.registered a) calldata sender origin).contracts ⊆ stack := by
  obtain ⟨g, rfl, hexecute⟩ := execute_of_perform hrun
  have hdeployed : (Frame.mk l (.registered a) []).contract.deployed = true := hset.deployed ha
  have hseat : ∀ b, (Frame.mk l (.registered a) []).seat.address? = some b →
      l.hasContract b = true := by
    rintro b ⟨⟩
    exact ha
  rcases execute_cases hexecute with ⟨e, -, rfl⟩ | ⟨done, h, q, k, hdeploy, hmethod, -, -, hreply⟩
  · cases hok
  rw [outcome_deploy_of_deployed _ hdeployed] at hdeploy
  cases hdeploy
  rw [hreply reply hok] at hmethod
  refine ⟨k.contract.callStack, ?_, fun b hb => ?_⟩
  · have hwithin := within_of_running hstrict hdepth hseat hmethod
    rwa [Frame.Within, maxCallDepth_running hmethod] at hwithin
  · rw [Activity.contracts_eq_called (plain_activity hset ha n calldata sender origin),
      Ledger.activity, executeActivity_of_deployed _ _ hdeployed] at hb
    have hstack := (running_tracks (callActivity_follows n) (fun _ _ _ => begins_entry) hmethod
      .execution).2 ⟨hdeployed, hseat⟩ b
    exact hstack.mpr (List.mem_cons.mp hb)

/-- A call that the guard watches and that succeeds enters no contract while it is active. -/
lemma nodup_of_guarded (hstrict : l.RunsStrict) (hset : l.Settled) (ha : l.hasContract a = true)
    (hguard : l.reentrancyGuard = true)
    (hrun : l.perform (.registered a) (execute (Run.call n) calldata sender origin) =
      some (.ok response, l', seat)) (hok : response.result = .ok reply) :
    ∀ chain ∈ (l.activity n (.registered a) calldata sender origin).chains, chain.Nodup := by
  obtain ⟨g, rfl, hexecute⟩ := execute_of_perform hrun
  have havoids := (execute_avoids (callActivity_follows n) (callActivity_clear n)
    (f := ⟨l, .registered a, []⟩) ⟨hguard, hstrict⟩ hexecute hok).1
  have hplain := plain_activity hset ha n calldata sender origin
  exact fun _ => (havoids.contracts hplain).nodup

/-- If a call succeeds, no more contracts were activated than the limit allows. So the limit bounds
how deep a chain of calls went that entered no contract twice, which the guard sees to; but a chain
that enters a contract again may have been longer. -/
theorem execute_within_depth (hstrict : l.RunsStrict) (hset : l.Settled)
    (ha : l.hasContract a = true) (hdepth : 1 ≤ l.maxCallDepth)
    (hrun : l.perform (.registered a) (execute (Run.call n) calldata sender origin) =
      some (.ok response, l', seat)) (hok : response.result = .ok reply) :
    ((l.activity n (.registered a) calldata sender origin).contracts.dedup.length : Int) ≤
        l.maxCallDepth ∧
      ∀ chain ∈ (l.activity n (.registered a) calldata sender origin).chains,
        (chain.dedup.length : Int) ≤ l.maxCallDepth ∧
          (chain.Nodup ∨ l.reentrancyGuard = true → (chain.length : Int) ≤ l.maxCallDepth) := by
  obtain ⟨stack, hstack, hcontracts⟩ := contracts_of_execute hstrict hset ha hdepth hrun hok
  have hwithin {xs : List Address} (hnodup : xs.Nodup) (hsub : xs ⊆ stack) :
      (xs.length : Int) ≤ l.maxCallDepth :=
    Int.le_trans (Int.ofNat_le.mpr (List.Nodup.subperm hnodup hsub).length_le) hstack
  refine ⟨hwithin (List.nodup_dedup _) fun b hb => hcontracts (List.mem_dedup.mp hb),
    fun chain hchain => ?_⟩
  have hsub : chain ⊆ stack := List.Subset.trans (Activity.contracts_of_chains hchain) hcontracts
  refine ⟨hwithin (List.nodup_dedup _) fun b hb => hsub (List.mem_dedup.mp hb), fun honce => ?_⟩
  refine hwithin ?_ hsub
  exact honce.elim id fun hguard => nodup_of_guarded hstrict hset ha hguard hrun hok chain hchain

end Calls

section Depths

/-- The entrance calls the chamber. -/
def descending : Ledger := { awakened (.done []) with maxCallDepth := 2 }

theorem execute_within_depth_descending :
    [entrance, chamber] ∈ (descending.activity 1 (.registered entrance) [] none none).chains ∧
      (([entrance, chamber] : List Address).length : Int) ≤ descending.maxCallDepth := by
  obtain ⟨_, _, _, hrun, hok⟩ := exists_response (descending.perform (.registered entrance)
    (execute (Run.call 1) [] none none)) [] (by decide +kernel)
  have hchain : [entrance, chamber] ∈
      (descending.activity 1 (.registered entrance) [] none none).chains := by decide +kernel
  have hwithin := execute_within_depth (l := descending)
    ⟨awakening (.done []), rfl, strict_awakening (.done [])⟩
    (Ledger.settled_standing (awakening (.done [])) _) (by decide +kernel) (by decide) hrun hok
  exact ⟨hchain, (hwithin.2 _ hchain).2 (.inr rfl)⟩

/-- A contract calls itself, unless it is called with data. -/
def recurring : Engine where
  instantiate parameters := .ok
    { refusal := none
      construct := fun _ _ => .done []
      execute := fun _ calldata =>
        if calldata = [] then insisting parameters.address [1] else .done [] }

lemma strict_recurring : recurring.Strict := by
  rintro parameters i ⟨⟩
  refine ⟨fun _ _ => .done [], fun _ calldata => ?_⟩
  simp only
  split
  · exact strict_insisting parameters.address [1]
  · exact .done []

def recurrent : Ledger := { Ledger.standing recurring [entrance] with maxCallDepth := 1 }

/-- The contract that calls itself stands on the call stack once. -/
theorem execute_exceeds_depth :
    ¬ ∀ (n : Nat) (l l' : Ledger) (a : Address) (seat : Seat) (calldata reply : Bytes)
      (sender origin : Option Address) (response : CallResponse), l.RunsStrict → l.Settled →
      l.hasContract a = true → 1 ≤ l.maxCallDepth →
      l.perform (.registered a) (execute (Run.call n) calldata sender origin) =
        some (.ok response, l', seat) →
      response.result = .ok reply →
      ∀ chain ∈ (l.activity n (.registered a) calldata sender origin).chains,
        (chain.length : Int) ≤ l.maxCallDepth := by
  intro h
  obtain ⟨response, l', seat, hrun, hok⟩ := exists_response
    (recurrent.perform (.registered entrance) (execute (Run.call 1) [] none none)) []
    (by decide +kernel)
  have hwithin := h 1 recurrent l' entrance seat [] [] none none response
    ⟨recurring, rfl, strict_recurring⟩ (Ledger.settled_standing recurring _) (by decide +kernel)
    (by decide) hrun hok [entrance, entrance] (by decide +kernel)
  revert hwithin
  decide

end Depths

end Run

end ChainReplay
