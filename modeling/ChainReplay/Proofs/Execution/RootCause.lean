import ChainReplay.Proofs.Decoding
import ChainReplay.Proofs.Execution.Reentrancy

/-! Why a call has failed. A failure that every contract of a chain of calls lets through is wrapped
once by each caller, and the links lead back to the failure of the innermost call. -/

namespace ChainReplay

namespace Failure

/-- The failure from which a fault was raised. -/
def source? : Failure → Option Failure
  | caused _ source => some source
  | _ => none

/-- The failure so many links behind. -/
def back : Nat → Failure → Option Failure
  | 0, f => some f
  | i + 1, f => f.source?.bind (back i)

lemma fault?_wrap (a : Address) (f : Failure) : ∃ info, (f.wrap a).fault? = some info := by
  rw [wrap]
  cases h : f.fault? with
  | some info => exact ⟨info, h⟩
  | none => exact ⟨_, rfl⟩

/-- The failure of a chain of calls: each of these callers has failed because its call has. -/
inductive Traces (text : Text) (cause : Failure) : List Address → Failure → Prop
  | cause : Traces text cause [] cause
  | caller (a : Address) {callers : List Address} {f : Failure} (h : Traces text cause callers f) :
      Traces text cause (a :: callers) (.caused ⟨.callFailed, text, a⟩ f)

namespace Traces

variable {text : Text} {cause f : Failure} {callers : List Address}

lemma back_caller (h : Traces text cause callers f) (i : Nat) (hi : i < callers.length) :
    ∃ g, f.back i = some g ∧ g.fault? = some ⟨.callFailed, text, callers[i]⟩ := by
  induction h generalizing i with
  | cause => exact absurd hi (Nat.not_lt_zero i)
  | caller a h ih =>
    cases i with
    | zero => exact ⟨_, rfl, rfl⟩
    | succ i => exact ih i (Nat.lt_of_succ_lt_succ hi)

lemma back_cause (h : Traces text cause callers f) : f.back callers.length = some cause := by
  induction h with
  | cause => rfl
  | caller a h ih => exact ih

end Traces

end Failure

namespace Run

/-- The program on the handle with this number comes from the one point to the other. -/
inductive Comes (call : Address → Bytes → Run CallResponse) (number : Nat) :
    Program → Int → Frame → Program → Int → Frame → Prop
  | here (p : Program) (gas : Int) (f : Frame) : Comes call number p gas f p gas f
  | ask {request : HostFunction} {data : Bytes} {next : Except Failure Bytes → Program}
      {gas gas' : Int} {f g h : Frame} {p : Program} {reply : Except Failure Bytes}
      (hrequest : (Host.answer call request data).outcome f = some (reply, g))
      (hrest : Comes call number (next reply) gas (answered number request reply g) p gas' h) :
      Comes call number (.ask request data next) gas f p gas' h
  | charge {amount gas gas' : Int} {next p : Program} {f h : Frame}
      (hrest : Comes call number next (gas + amount) (charged number (gas + amount) f) p gas' h) :
      Comes call number (.charge amount next) gas f p gas' h
  | caught {e : Failure} {gas gas' : Int} {next p : Program} {f h : Frame}
      (hrest : Comes call number next gas
        { f with ledger := f.ledger.enter [.caught number e] } p gas' h) :
      Comes call number (.caught e next) gas f p gas' h

variable {call : Address → Bytes → Run CallResponse} {nested : Address → Bytes → Frame → Activity}

namespace Comes

variable {number : Nat} {p q : Program} {gas gas' : Int} {f h : Frame}

lemma outcome (hcomes : Comes call number p gas f q gas' h) :
    (interpret (Host.answer call) number p gas).outcome f =
      (interpret (Host.answer call) number q gas').outcome h := by
  induction hcomes with
  | here p gas f => rfl
  | ask hrequest _ ih => rw [outcome_interpret_ask, hrequest, Outcome.some_andThen, ih]
  | charge _ ih => rw [outcome_interpret_charge, ih]
  | caught _ ih =>
    rw [interpret, outcome_bind, outcome_enter, Outcome.some_andThen]
    exact ih

lemma address (hcall : Followed call nested) (hcomes : Comes call number p gas f q gas' h) :
    h.contract.address = f.contract.address := by
  induction hcomes with
  | here p gas f => rfl
  | ask hrequest _ ih =>
    rw [ih, (minds_answered ..).address, (requestActivity_follows hcall hrequest).address]
  | charge _ ih => rw [ih, (minds_charged ..).address]
  | caught _ ih =>
    rw [ih]
    exact (Minds.enter _ rfl).address

end Comes

/-- The call of the contract in the frame fails for this cause, which these callers let through: the
contract, and the contracts that call each other in turn up to the one whose call is the cause. -/
inductive FailsThrough : Nat → List Address → Failure → Bytes → Option Address → Option Address →
    Frame → Prop
  | here {n : Nat} {calldata : Bytes} {sender origin : Option Address} {f g : Frame}
      {response : CallResponse} {cause : Failure}
      (hrun : (execute (Run.call n) calldata sender origin).outcome f = some (.ok response, g))
      (hfail : response.result = .error cause) :
      FailsThrough n [] cause calldata sender origin f
  | through {n number : Nat} {calldata data inner : Bytes} {sender origin : Option Address}
      {f f₁ h k m g : Frame} {program : Program} {next : Except Failure Bytes → Program} {gas : Int}
      {a target : Address} {copy : Contract} {callers : List Address} {cause e : Failure}
      (ha : f.contract.address = a)
      (hentry : (entry calldata (.caller sender origin)).outcome { f with deployments := [] } =
        some (.ok (number, program), f₁))
      (hcomes : Comes (Run.call (n + 1)) number program 0 f₁ (.ask .call data next) gas h)
      (hdata : callRequest data = .ok (target, inner))
      (hcopied : (copied (Run.call n) target).outcome h = some (.ok copy, k))
      (hinner : FailsThrough n callers cause inner (some k.contract.address) (some k.ledger.origin)
        (heard inner ⟨k.ledger, .apart copy, []⟩))
      (hcall : (Run.call (n + 1) target inner).outcome h = some (.error e, m))
      (hlimits : ∀ info, e.fault? = some info →
        info.kind ≠ .callDepthExceeded ∧ info.kind ≠ .reentrancy)
      (hthrough : (interpret (Host.answer (Run.call (n + 1))) number (next (.error e)) gas).outcome
        m = some (.error e, g)) :
      FailsThrough (n + 1) (a :: callers) cause calldata sender origin f

lemma fault?_of_deploy {f g : Frame} {e : Failure}
    (hrun : (deploy call).outcome f = some (.error e, g)) : ∃ info, e.fault? = some info := by
  rcases deploy_cases hrun with ⟨-, h, -⟩ | ⟨-, r, h, -, hsettle⟩
  · cases h
  · cases r with
    | error e =>
      cases hsettle
      exact e.fault?_wrap _
    | ok done =>
      simp only [settling, announce, outcome_bind, outcome_modifyContract, outcome_ledger,
        Outcome.some_andThen] at hsettle
      split at hsettle <;> cases hsettle

lemma fault?_of_execute {calldata : Bytes} {sender origin : Option Address} {f g : Frame}
    {response : CallResponse} {e : Failure}
    (hrun : (execute call calldata sender origin).outcome f = some (.ok response, g))
    (hfail : response.result = .error e) : ∃ info, e.fault? = some info := by
  cases hdeploy : (deploy call).outcome f with
  | none =>
    rw [execute, outcome_bind, outcome_attempt, hdeploy] at hrun
    cases hrun
  | some o =>
    obtain ⟨_ | done, h⟩ := o
    · rw [execute, outcome_bind, outcome_attempt, hdeploy] at hrun
      cases hrun
      cases hfail
      exact fault?_of_deploy hdeploy
    · rw [outcome_execute_of_deploy hdeploy] at hrun
      obtain ⟨r, k, -, hrun⟩ := Outcome.andThen_eq_some hrun
      cases r with
      | ok reply =>
        cases hrun
        cases hfail
      | error e =>
        cases hrun
        cases hfail
        exact e.fault?_wrap _

lemma checkResponse_eq_error {l : Ledger} {c : Contract} {response : CallResponse} {e error : Failure}
    {info : Fault} (h : checkResponse l c response = .error e)
    (hlimits : ∀ info, e.fault? = some info →
      info.kind ≠ .callDepthExceeded ∧ info.kind ≠ .reentrancy)
    (hfail : response.result = .error error) (hinfo : error.fault? = some info) :
    e = .caused ⟨.callFailed, info.detail, c.address⟩ error := by
  rw [checkResponse] at h
  split at h
  · cases h
    exact absurd rfl (hlimits _ rfl).1
  split at h
  · cases h
    exact absurd rfl (hlimits _ rfl).2
  · rw [hfail] at h
    simp only [hinfo] at h
    cases h
    rfl

lemma error_of_call {n : Nat} {target : Address} {inner : Bytes} {h k m g : Frame} {copy : Contract}
    {response : CallResponse} {e error : Failure} {info : Fault}
    (hcopied : (copied (Run.call n) target).outcome h = some (.ok copy, k))
    (hexecute : (execute (Run.call n) inner (some k.contract.address) (some k.ledger.origin)).outcome
      (heard inner ⟨k.ledger, .apart copy, []⟩) = some (.ok response, g))
    (hfail : response.result = .error error) (hinfo : error.fault? = some info)
    (hcall : (Run.call (n + 1) target inner).outcome h = some (.error e, m))
    (hlimits : ∀ info, e.fault? = some info →
      info.kind ≠ .callDepthExceeded ∧ info.kind ≠ .reentrancy) :
    e = .caused ⟨.callFailed, info.detail, h.contract.address⟩ error := by
  have haddress := (callActivity_follows (n + 1) target inner h _ m hcall).address
  rw [Run.call, outcome_callWith, hcopied] at hcall
  obtain ⟨response', g', k', hexecute', -, rfl, hcheck⟩ := entered_cases hcall
  rw [hexecute] at hexecute'
  cases hexecute'
  rw [checkResponse_eq_error hcheck.symm hlimits hfail hinfo, haddress]

lemma answer_call_error {call : Address → Bytes → Run CallResponse} {data inner : Bytes}
    {target : Address} {f g : Frame} {e : Failure} (hdata : callRequest data = .ok (target, inner))
    (hcall : (call target inner).outcome f = some (.error e, g)) :
    (Host.answer call .call data).outcome f = some (.error e, g) := by
  have hanswer : Host.answer call .call data = (do
      let target ← lift (callRequest data)
      let response ← call target.1 target.2
      let gas ← lift (Format.u64.encode response.usedGas)
      return gas ++ (response.result.toOption.getD [])) := rfl
  rw [hanswer, outcome_bind, outcome_lift, hdata]
  simp only [Outcome.some_andThen, outcome_bind, hcall]

lemma traces_of_failsThrough {n : Nat} {callers : List Address} {cause : Failure} {calldata : Bytes}
    {sender origin : Option Address} {f : Frame}
    (h : FailsThrough n callers cause calldata sender origin f)
    (hdeployed : f.contract.deployed = true) :
    ∃ response g error info,
      (execute (Run.call n) calldata sender origin).outcome f = some (.ok response, g) ∧
      response.result = .error error ∧ error.fault? = some info ∧
      cause.fault?.map (·.detail) = some info.detail ∧
      Failure.Traces info.detail cause callers error := by
  -- From the cause up the chain: each caller wraps the failure that its copy of the callee ended with.
  induction h with
  | here hrun hfail =>
    obtain ⟨info, hinfo⟩ := fault?_of_execute hrun hfail
    exact ⟨_, _, _, info, hrun, hfail, hinfo, by rw [hinfo]; rfl, .cause⟩
  | @through n number calldata data inner sender origin f f₁ h k m g program next gas a target
      copy callers cause e ha hentry hcomes hdata hcopied hinner hcall hlimits hthrough ih =>
    have hcopy : (heard inner ⟨k.ledger, .apart copy, []⟩).contract.deployed = true := by
      rw [contract_heard]
      exact ((copied_follows (callActivity_follows n) hcopied).2 copy rfl).1
    obtain ⟨response, g', error, info, hexecute, hfail, hinfo, hcause, htraces⟩ := ih hcopy
    have he := error_of_call hcopied hexecute hfail hinfo hcall hlimits
    have haddress : h.contract.address = a :=
      ((hcomes.address (callActivity_follows (n + 1))).trans (begins_entry hentry).address).trans ha
    have hmethod : (runMethod (Host.answer (Run.call (n + 1))) calldata
        (.caller sender origin)).outcome { f with deployments := [] } = some (.error e, g) := by
      rw [runMethod_eq, outcome_bind, hentry, Outcome.some_andThen]
      simp only
      rw [hcomes.outcome, outcome_interpret_ask, answer_call_error hdata hcall]
      exact hthrough
    rw [outcome_execute _ _ _ _ hdeployed, hmethod, Outcome.some_andThen]
    rw [haddress] at he
    subst he
    exact ⟨_, _, _, _, rfl, rfl, rfl, hcause, .caller _ htraces⟩

/-- A failure that a chain of deployed contracts lets through ends as one of its first contract, and
has the text of its cause. The links lead through one failure for each caller, in the order of the
calls, and then to the cause. -/
theorem root_cause_of_execute {n : Nat} {l : Ledger} {a : Address} {callers : List Address}
    {cause : Failure} {calldata : Bytes} {sender origin : Option Address}
    (hdeployed : (Seat.contract l (.registered a)).deployed = true)
    (h : FailsThrough n callers cause calldata sender origin ⟨l, .registered a, []⟩) :
    ∃ response l' seat error info,
      l.perform (.registered a) (execute (Run.call n) calldata sender origin) =
        some (.ok response, l', seat) ∧
      response.result = .error error ∧ cause.fault? = some info ∧
      (∀ i (hi : i < callers.length), ∃ f, error.back i = some f ∧
        f.fault? = some ⟨.callFailed, info.detail, callers[i]⟩) ∧
      error.back callers.length = some cause := by
  obtain ⟨response, g, error, info, hexecute, hfail, -, hcause, htraces⟩ :=
    traces_of_failsThrough h hdeployed
  obtain ⟨info', hinfo', hdetail⟩ := Option.map_eq_some_iff.mp hcause
  refine ⟨response, g.ledger, g.seat, error, info', ?_, hfail, hinfo', ?_, htraces.back_cause⟩
  · rw [perform_eq, hexecute]
    rfl
  · rw [hdetail]
    exact htraces.back_caller

section Passage

def failure? {α : Type} : Except Failure α → Option Failure
  | .error e => some e
  | .ok _ => none

lemma failure?_eq_some {r : Except Failure α} {e : Failure} (h : failure? r = some e) :
    r = .error e := by
  cases r with
  | ok a => cases h
  | error e => exact congrArg _ (Option.some.inj h)

/-- The callers that call on at once and let the failure through, and its cause. -/
def descent : Nat → Bytes → Option Address → Option Address → Frame →
    Option (List Address × Failure)
  | 0, _, _, _, _ => none
  | n + 1, calldata, sender, origin, f => do
    let (start, h) ← (entry calldata (.caller sender origin)).outcome { f with deployments := [] }
    match start with
    | .ok (number, .ask .call data next) =>
      let (target, inner) ← (callRequest data).toOption
      let (copy, k) ← (copied (Run.call n) target).outcome h
      let copy ← copy.toOption
      let (answer, m) ← (Run.call (n + 1) target inner).outcome h
      let e ← failure? answer
      let (last, _) ←
        (interpret (Host.answer (Run.call (n + 1))) number (next (.error e)) 0).outcome m
      if failure? last = some e ∧ e.fault?.map (·.kind) = some .callFailed then
        let (callers, cause) ← descent n inner (some k.contract.address) (some k.ledger.origin)
          (heard inner ⟨k.ledger, .apart copy, []⟩)
        return (f.contract.address :: callers, cause)
      else none
    | _ =>
      let (response, _) ← (execute (Run.call (n + 1)) calldata sender origin).outcome f
      let cause ← response.toOption.bind fun response => failure? response.result
      return ([], cause)

lemma failsThrough_of_descent {n : Nat} {calldata : Bytes} {sender origin : Option Address}
    {f : Frame} {callers : List Address} {cause : Failure}
    (h : descent n calldata sender origin f = some (callers, cause)) :
    FailsThrough n callers cause calldata sender origin f := by
  induction n generalizing calldata sender origin f callers cause with
  | zero => cases h
  | succ n ih =>
    rw [descent] at h
    obtain ⟨⟨start, f₁⟩, hentry, h⟩ := Option.bind_eq_some_iff.mp h
    simp only at h
    split at h
    case h_1 number data next =>
      obtain ⟨⟨target, inner⟩, hdata, h⟩ := Option.bind_eq_some_iff.mp h
      obtain ⟨⟨copy, k⟩, hcopied, h⟩ := Option.bind_eq_some_iff.mp h
      obtain ⟨copy', hcopy, h⟩ := Option.bind_eq_some_iff.mp h
      obtain ⟨⟨answer, m⟩, hcall, h⟩ := Option.bind_eq_some_iff.mp h
      obtain ⟨e, he, h⟩ := Option.bind_eq_some_iff.mp h
      obtain ⟨⟨last, g⟩, hlast, h⟩ := Option.bind_eq_some_iff.mp h
      simp only at h
      split at h
      case isFalse => cases h
      case isTrue hpassed =>
      obtain ⟨hpassed, hkind⟩ := hpassed
      obtain ⟨⟨rest, cause'⟩, hinner, h⟩ := Option.bind_eq_some_iff.mp h
      cases h
      obtain rfl := Decoding.eq_ok_of_toOption hcopy
      obtain rfl := failure?_eq_some he
      obtain rfl := failure?_eq_some hpassed
      refine .through rfl hentry (.here _ _ _) (Decoding.eq_ok_of_toOption hdata) hcopied (ih hinner)
        hcall (fun info hinfo => ?_) hlast
      rw [hinfo] at hkind
      have hcallFailed : info.kind = .callFailed := Option.some.inj hkind
      rw [hcallFailed]
      decide
    case h_2 =>
      obtain ⟨⟨response, g⟩, hrun, h⟩ := Option.bind_eq_some_iff.mp h
      obtain ⟨cause', hcause, h⟩ := Option.bind_eq_some_iff.mp h
      cases h
      obtain ⟨response', hresponse, hfail⟩ := Option.bind_eq_some_iff.mp hcause
      obtain rfl := Decoding.eq_ok_of_toOption hresponse
      exact .here hrun (failure?_eq_some hfail)

/-- The entrance calls the chamber, and the chamber the vault, which fails. -/
def passing : Engine where
  instantiate parameters := .ok
    { refusal := none
      construct := fun _ _ => .done []
      execute := fun _ _ =>
        if parameters.address = entrance then insisting chamber []
        else if parameters.address = chamber then insisting vault []
        else .fail .wrongValue }

def passage : Ledger := Ledger.standing passing [entrance, chamber, vault]

def vaultFailure : Failure := Failure.wrap vault .wrongValue

theorem root_cause_of_passage :
    ∃ response l' seat error info f g,
      passage.perform (.registered entrance) (execute (Run.call 3) [] none none) =
        some (.ok response, l', seat) ∧
      response.result = .error error ∧ vaultFailure.fault? = some info ∧
      error.fault? = some ⟨.callFailed, info.detail, entrance⟩ ∧
      error.back 1 = some f ∧ f.fault? = some ⟨.callFailed, info.detail, chamber⟩ ∧
      error.back 2 = some g ∧ g = vaultFailure := by
  have hchain : descent 3 [] none none ⟨passage, .registered entrance, []⟩ =
      some ([entrance, chamber], vaultFailure) := by decide +kernel
  obtain ⟨response, l', seat, error, info, hrun, hfail, hinfo, hcallers, hcause⟩ :=
    root_cause_of_execute (l := passage) (a := entrance) rfl (failsThrough_of_descent hchain)
  obtain ⟨_, hself, hentrance⟩ := hcallers 0 (by decide)
  obtain ⟨f, hf, hchamber⟩ := hcallers 1 (by decide)
  cases hself
  exact ⟨response, l', seat, error, info, f, _, hrun, hfail, hinfo, hentrance, hf, hchamber, hcause,
    rfl⟩

end Passage

end Run

end ChainReplay
