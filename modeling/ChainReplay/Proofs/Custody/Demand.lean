import ChainReplay.Proofs.Custody.Run
import ChainReplay.Proofs.Custody.World

/-! Handles behind a demand: the contract has one only if its last execution has succeeded. -/

namespace ChainReplay

/-- The runtime has no handle, or has it from an execution that has succeeded. -/
def Runtime.Earned (r : Runtime) : Prop := r.contract.number? = none ∨ r.verdict = some true

lemma Runtime.Earned.imp {r s : Runtime} (h : r.Earned) (hverdict : s.verdict = r.verdict)
    (hnumber : s.contract.number? = none ∨ s.contract.number? = r.contract.number?) : s.Earned := by
  rcases hnumber with hnone | hsame
  · exact .inl hnone
  · rw [Earned, hsame, hverdict]
    exact h

namespace Run

variable {α : Type} {f g : Frame}

lemma silently_cases {x : Run α} {q : Except Failure (Option Bool)}
    (h : (Demand.silently x).outcome f = some (q, g)) :
    ∃ r, x.outcome f = some (r, g) ∧ ∀ before, World.verdictOf before q = before := by
  rw [Demand.silently, outcome_bind] at h
  obtain ⟨r, k, hx, h⟩ := Outcome.andThen_eq_some h
  cases r with
  | error e =>
    cases h
    exact ⟨_, hx, fun _ => rfl⟩
  | ok a =>
    cases h
    exact ⟨_, hx, fun _ => rfl⟩

lemma judging_cases {x : Run CallResponse} {q : Except Failure (Option Bool)}
    (hx : Returns x) (h : (Demand.judging x).outcome f = some (q, g)) :
    ∃ response, x.outcome f = some (.ok response, g) ∧ q = .ok (some response.result.isOk) := by
  rw [Demand.judging, outcome_bind] at h
  obtain ⟨r, k, hrun, h⟩ := Outcome.andThen_eq_some h
  obtain ⟨response, rfl⟩ := hx _ _ _ hrun
  cases h
  exact ⟨response, hrun, rfl⟩

lemma stays_deploy (fuel : Nat) : Leads Stays f (deploy (call fuel)) := by
  intro q g h hf
  refine ⟨sustained_keeps.leads_deploy (fun _ _ _ => sustained_keeps.leads_call fuel _ _) q g h hf, ?_⟩
  rcases handle_of_deploy h with hnone | ⟨-, hsame⟩
  · exact .inl ((Contract.number?_eq_none_iff _).mpr hnone)
  · exact .inr hsame

lemma stays_answer (fuel : Nat) (request : HostFunction) (data : Bytes) :
    Leads Stays f (Host.answer (call fuel) request data) := by
  by_cases h : request = .call
  case neg => exact slight_stays.leads_answer _ h data
  case pos =>
    subst h
    refine (Leads.lift _).bind fun target g => ?_
    exact (relays_stays.leads_call sustained_keeps fuel _ _).bind fun response g =>
      (Leads.lift _).bind fun gas g => .pure _

lemma stays_change {k : Contract → Contract} (hk : ∀ c, (k c).number? = c.number?) (f : Frame) :
    Stays f (f.modifyContract k) :=
  stays_of_keeps (fun _ => .own f hk) (number?_modifyContract f hk)

lemma leads_resolve {P : Frame → Frame → Prop} [IsPreorder Frame P]
    (hcode : ∀ f a code, P f { f with ledger := f.ledger.setCode a code })
    (hown : ∀ f code, P f (f.modifyContract fun c => { c with code := code })) :
    Leads P f Demand.resolve := by
  intro q g hx
  have hrun : Demand.resolve.outcome f = some (q, g) := hx
  have hresolve : P f { f with ledger := (f.ledger.resolveCode f.contract).1 } := by
    rcases f.ledger.resolveCode_fst f.contract with hsame | ⟨code, hset⟩
    · simp only [hsame]
      exact refl f
    · simp only [hset]
      exact hcode f _ code
  simp only [Demand.resolve, outcome_bind, outcome_contract, outcome_ledger, outcome_modifyLedger,
    outcome_lift, Outcome.some_andThen] at hrun
  generalize f.ledger.resolveCode f.contract = resolution at hrun hresolve
  obtain ⟨l, e | resolved⟩ := resolution
  · cases hrun
    exact hresolve
  · cases hrun
    exact trans_of P hresolve (hown _ _)

lemma stays_resolve : Leads Stays f Demand.resolve :=
  leads_resolve slight_stays.code fun f code =>
    stays_change (k := fun c => { c with code := code }) (fun _ => rfl) f

lemma stays_delete : Leads Stays f (do dispose; modifyContract Contract.delete) := by
  have hdelete (c : Contract) : c.delete.number? = none := number?_dispose c
  have hnone : (disposed f).contract.number? = none :=
    (Contract.number?_eq_none_iff _).mpr (handle_disposed f)
  have hdeleted : Stays (disposed f) ((disposed f).modifyContract Contract.delete) := by
    intro hf
    refine ⟨.exchange hf (l := (disposed f).ledger) rfl rfl fun xs => ?_, .inl ?_⟩
    · rw [hnone, hdelete]
      exact .refl _ _
    · exact (Contract.number?_eq_none_iff _).mpr (handle_modifyContract _ fun c =>
        (Contract.number?_eq_none_iff _).mp (hdelete c))
  exact .of_outcome (g := (disposed f).modifyContract Contract.delete) rfl
    (trans_of Stays (slight_stays.dispose f) hdeleted)

end Run

namespace Demand

open Run

variable {f g : Frame} {q : Except Failure (Option Bool)} {before : Option Bool}

lemma custody_silently {α : Type} {x : Run α} (hx : Leads Stays f x) (hf : f.Placed)
    (hbefore : Runtime.Earned ⟨f.contract, before⟩) (h : (silently x).outcome f = some (q, g)) :
    f.Custody g ∧ Runtime.Earned ⟨g.contract, World.verdictOf before q⟩ := by
  obtain ⟨r, hrun, hverdict⟩ := silently_cases h
  obtain ⟨hcustody, hown⟩ := hx r g hrun hf
  exact ⟨hcustody, hbefore.imp (hverdict before) hown⟩

lemma custody_judging {x : Run CallResponse} (hx : Leads Keeps f x) (hf : f.Placed)
    (hreturns : Returns x)
    (hfail : ∀ response e, x.outcome f = some (.ok response, g) → response.result = .error e →
      g.contract.handle = none)
    (h : (judging x).outcome f = some (q, g)) :
    f.Custody g ∧ Runtime.Earned ⟨g.contract, World.verdictOf before q⟩ := by
  obtain ⟨response, hrun, rfl⟩ := judging_cases hreturns h
  refine ⟨hx _ g hrun hf, ?_⟩
  cases hresult : response.result with
  | ok reply => exact .inr rfl
  | error e => exact .inl ((Contract.number?_eq_none_iff _).mpr (hfail response e hrun hresult))

lemma custody {fuel : Nat} {demand : Demand} (hf : f.Placed)
    (hbefore : Runtime.Earned ⟨f.contract, before⟩)
    (h : (demand.run fuel).outcome f = some (q, g)) :
    f.Custody g ∧ Runtime.Earned ⟨g.contract, World.verdictOf before q⟩ := by
  have hcall (target : Address) (calldata : Bytes) (f : Frame) :
      Leads Keeps f (Run.call fuel target calldata) :=
    sustained_keeps.leads_call fuel target calldata
  cases demand with
  | init => exact custody_silently stays_resolve hf hbefore h
  | deploy => exact custody_silently (stays_deploy fuel) hf hbefore h
  | execute calldata sender origin =>
    apply custody_judging (sustained_keeps.leads_execute hcall _ _ _) hf (.execute _ _ _ _) _ h
    exact fun response e hrun hresult => handle_of_failed hrun hresult
  | receive calldata sender origin =>
    have hexecute := Returns.execute (Run.call fuel) calldata (some sender) (some origin)
    apply custody_judging (sustained_keeps.leads_receive hcall _ _ _ _) hf (.receive _ hexecute) _ h
    intro response e hrun _
    obtain ⟨_, _, -, -, hreported⟩ := receive_parts hexecute hrun
    exact handle_of_reported hreported
  | call target calldata =>
    exact custody_silently (relays_stays.leads_call sustained_keeps fuel _ _) hf hbefore h
  | answer request data => exact custody_silently (stays_answer fuel request data) hf hbefore h
  | environment given => exact custody_silently (.setEnvironment stays_enter given) hf hbefore h
  | dispose => exact custody_silently slight_stays.leads_dispose hf hbefore h
  | delete => exact custody_silently stays_delete hf hbefore h
  | change k hk =>
    apply custody_silently _ hf hbefore h
    exact .of_outcome (outcome_modifyContract k f) (stays_change hk f)

end Demand

end ChainReplay
