import ChainReplay.Proofs.Execution.CallStack
import ChainReplay.Proofs.Execution.Coherence
import ChainReplay.Proofs.Execution.Termination

/-! What the reentrancy guard rules out. It sees the call stacks of methods, and the constructor of a
contract that is deployed on first use calls out of their sight. -/

namespace ChainReplay

inductive Program.Fails : Program → Prop
  | fail (e : Failure) : Fails (.fail e)
  | ask (request : HostFunction) (data : Bytes) {next : Except Failure Bytes → Program}
      (hnext : ∀ r, Fails (next r)) : Fails (.ask request data next)
  | charge (gas : Int) {next : Program} (hnext : Fails next) : Fails (.charge gas next)
  | caught (e : Failure) {next : Program} (hnext : Fails next) : Fails (.caught e next)

inductive Program.Strict : Program → Prop
  | done (reply : Bytes) : Strict (.done reply)
  | fail (e : Failure) : Strict (.fail e)
  | ask (request : HostFunction) (data : Bytes) {next : Except Failure Bytes → Program}
      (hbad : ∀ e, (next (.error e)).Fails) (hnext : ∀ reply, Strict (next (.ok reply))) :
      Strict (.ask request data next)
  | charge (gas : Int) {next : Program} (hnext : Strict next) : Strict (.charge gas next)
  | caught (e : Failure) {next : Program} (hnext : Strict next) : Strict (.caught e next)

structure Instance.Strict (i : Instance) : Prop where
  construct : ∀ record calldata, (i.construct record calldata).Strict
  execute : ∀ record calldata, (i.execute record calldata).Strict

def Engine.Strict (e : Engine) : Prop := ∀ parameters i, e.instantiate parameters = .ok i → i.Strict

/-- The guard is on, and the programs that run are strict. -/
def Ledger.Watched (l : Ledger) : Prop :=
  l.reentrancyGuard = true ∧ ∃ engine, l.engine = some engine ∧ engine.Strict

lemma Ledger.Abides.watched {l m : Ledger} (h : l.Abides m) (hl : l.Watched) : m.Watched :=
  ⟨h.guard.trans hl.1, by rw [h.engine]; exact hl.2⟩

namespace Run

/-- What activities are like whose calls have passed the guard of the contract with this address. -/
structure Clear (a : Address) (t : Activity) : Prop where
  avoids : t.Avoids Activity.reached
  called : ∀ b, b ∈ t.reached → b ∈ t.called
  absent : a ∉ t.reached

namespace Clear

variable {a : Address} {t u : Activity}

lemma quiet (a : Address) : Clear a .quiet where
  avoids := trivial
  called := fun _ h => h
  absent := List.not_mem_nil

lemma andThen (ht : Clear a t) (hu : Clear a u) : Clear a (.andThen t u) where
  avoids := ⟨ht.avoids, hu.avoids⟩
  called := by
    intro b hb
    rw [Activity.reached, List.mem_append] at hb
    rw [Activity.called, List.mem_append]
    exact hb.imp (ht.called b) (hu.called b)
  absent := by
    rw [Activity.reached, List.mem_append]
    rintro (h | h)
    · exact ht.absent h
    · exact hu.absent h

end Clear

variable {call : Address → Bytes → Run CallResponse} {nested : Address → Bytes → Frame → Activity}

def Vigilant (call : Address → Bytes → Run CallResponse)
    (nested : Address → Bytes → Frame → Activity) : Prop :=
  ∀ target calldata f response g, f.ledger.Watched →
    (call target calldata).outcome f = some (.ok response, g) →
    Clear f.contract.address (nested target calldata f)

lemma requestActivity_clear (hvigil : Vigilant call nested) {f g : Frame} (hf : f.ledger.Watched)
    {request : HostFunction} {data reply : Bytes}
    (hx : (Host.answer call request data).outcome f = some (.ok reply, g)) :
    Clear f.contract.address (requestActivity nested request data f) := by
  by_cases hrequest : request = .call
  case neg =>
    have hquiet : requestActivity nested request data f = .quiet := by
      cases request <;> first | rfl | contradiction
    rw [hquiet]
    exact .quiet _
  case pos =>
    subst hrequest
    rw [requestActivity]
    rcases answer_call_cases hx with ⟨e, -, h, -⟩ | ⟨target, calldata, r, hdata, hrun, hok⟩
    · cases h
    · obtain ⟨response, rfl⟩ := hok reply rfl
      rw [hdata]
      exact hvigil target calldata f response g hf hrun

lemma interpret_fails {p : Program} (hp : p.Fails) {number : Nat} {gas : Int} {f g : Frame}
    {q : Except Failure Bytes}
    (hx : (interpret (Host.answer call) number p gas).outcome f = some (q, g)) :
    ∃ e, q = .error e := by
  induction hp generalizing gas f with
  | fail e =>
    cases hx
    exact ⟨e, rfl⟩
  | ask request data _ ih =>
    rw [outcome_interpret_ask] at hx
    obtain ⟨reply, h, _, hx⟩ := Outcome.andThen_eq_some hx
    exact ih reply hx
  | charge amount _ ih =>
    rw [outcome_interpret_charge] at hx
    exact ih hx
  | caught e _ ih =>
    rw [interpret, outcome_bind, outcome_enter, Outcome.some_andThen] at hx
    exact ih hx

lemma programActivity_clear (hcall : Followed call nested) (hvigil : Vigilant call nested)
    {p : Program} (hp : p.Strict) {number : Nat} {gas : Int} {f g : Frame} (hf : f.ledger.Watched)
    {reply : Bytes}
    (hx : (interpret (Host.answer call) number p gas).outcome f = some (.ok reply, g)) :
    Clear f.contract.address (programActivity call nested number p gas f) := by
  induction hp generalizing gas f with
  | done reply => exact .quiet _
  | fail e => exact .quiet _
  | ask request data hbad _ ih =>
    rw [outcome_interpret_ask] at hx
    obtain ⟨r, h, hrequest, hx⟩ := Outcome.andThen_eq_some hx
    rw [programActivity, hrequest]
    have habides : f.Abides (answered number request r h) :=
      (requestActivity_follows hcall hrequest).toAbides.trans (minds_answered ..).toAbides
    cases r with
    | error e =>
      obtain ⟨_, hfailed⟩ := interpret_fails (hbad e) hx
      cases hfailed
    | ok answer =>
      have hnext := ih answer (habides.ledger.watched hf) hx
      rw [habides.address] at hnext
      exact (requestActivity_clear hvigil hf hrequest).andThen hnext
  | charge amount _ ih =>
    rw [outcome_interpret_charge] at hx
    have habides : f.Abides (charged number (gas + amount) f) := (minds_charged ..).toAbides
    have hnext := ih (habides.ledger.watched hf) hx
    rwa [habides.address] at hnext
  | caught e _ ih =>
    rw [interpret, outcome_bind, outcome_enter, Outcome.some_andThen] at hx
    have hcaught : Minds [] f { f with ledger := f.ledger.enter [.caught number e] } :=
      .enter f rfl
    have hnext := ih (hcaught.ledger.watched hf) hx
    rwa [hcaught.address] at hnext

def Starts (start : Run (Nat × Program)) : Prop :=
  ∀ f r g, start.outcome f = some (r, g) → Begins f g ∧
    ∀ number program, f.ledger.Watched → r = .ok (number, program) → program.Strict

lemma starts_of_load {k : Handle → Run (Nat × Program)}
    (hbegins : ∀ f r g, (load >>= k).outcome f = some (r, g) → Begins f g)
    (hk : ∀ handle f number program g, handle.program.Strict →
      (k handle).outcome f = some (.ok (number, program), g) → program.Strict) :
    Starts (load >>= k) := by
  refine fun f r g hx => ⟨hbegins f r g hx, ?_⟩
  rintro number program ⟨-, engine, he, hstrict⟩ rfl
  rw [outcome_bind] at hx
  obtain ⟨q, h, hload, hx⟩ := Outcome.andThen_eq_some hx
  cases q with
  | error e => cases hx
  | ok handle =>
    obtain ⟨parameters, hprogram⟩ := load_program he hload
    exact hk handle h number program g (hstrict parameters _ hprogram) hx

lemma starts_entry (calldata : Bytes) (given : EnvironmentGiven) :
    Starts (entry calldata given) := by
  refine starts_of_load (fun _ _ _ => begins_entry) fun handle f number program g hstrict hx => ?_
  rw [outcome_bind] at hx
  obtain ⟨q, h, -, hx⟩ := Outcome.andThen_eq_some hx
  cases q with
  | error e => cases hx
  | ok record =>
    cases hx
    exact hstrict.execute record calldata

lemma starts_inception : Starts inception := by
  refine starts_of_load (fun _ _ _ => begins_inception)
    fun handle f number program g hstrict hx => ?_
  rw [outcome_bind, outcome_contract, Outcome.some_andThen] at hx
  simp only [outcome_bind] at hx
  obtain ⟨q, h, -, hx⟩ := Outcome.andThen_eq_some hx
  cases q with
  | error e => cases hx
  | ok record =>
    cases hx
    exact hstrict.construct record _

lemma running_clear (hcall : Followed call nested) (hvigil : Vigilant call nested)
    {start : Run (Nat × Program)} (hstart : Starts start) {f g : Frame} (hf : f.ledger.Watched)
    {reply : Bytes} (hx : (running call start).outcome f = some (.ok reply, g)) :
    Clear f.contract.address (activityOf call nested start f) := by
  rw [running, outcome_bind] at hx
  obtain ⟨r, h, hbegin, hx⟩ := Outcome.andThen_eq_some hx
  obtain ⟨hbegins, hstrict⟩ := hstart f r h hbegin
  rw [activityOf, hbegin]
  cases r with
  | error e => cases hx
  | ok p =>
    have hclear := programActivity_clear hcall hvigil (hstrict _ _ hf rfl)
      (hbegins.ledger.watched hf) hx
    rwa [hbegins.address] at hclear

lemma reached_deployActivity {a : Address} {f : Frame}
    (h : a ∈ (deployActivity call nested f).reached) : a = f.contract.address := by
  rw [deployActivity] at h
  split at h
  · exact List.mem_singleton.mp h
  · exact absurd h List.not_mem_nil

lemma deploy_avoids (hcall : Followed call nested) (hvigil : Vigilant call nested) {f g : Frame}
    (hf : f.ledger.Watched) {done : Unit}
    (hx : (deploy call).outcome f = some (.ok done, g)) :
    (deployActivity call nested f).Avoids Activity.reached := by
  rw [deployActivity]
  rcases deploy_cases hx with ⟨hnew, -, -⟩ | ⟨hnew, r, h, hconstruct, hsettle⟩
  · rw [if_neg (by rw [hnew]; exact Bool.false_ne_true)]
    trivial
  · rw [if_pos hnew]
    cases r with
    | error e => cases hsettle
    | ok _ =>
      rw [construct_eq, outcome_bind] at hconstruct
      obtain ⟨p, h', hrun, hend⟩ := Outcome.andThen_eq_some hconstruct
      cases p with
      | error e => cases hend
      | ok reply =>
        have hclear := running_clear hcall hvigil starts_inception hf hrun
        exact ⟨hclear.absent, hclear.avoids⟩

lemma execute_avoids (hcall : Followed call nested) (hvigil : Vigilant call nested)
    {calldata reply : Bytes} {sender origin : Option Address} {f g : Frame} {response : CallResponse}
    (hf : f.ledger.Watched)
    (hx : (execute call calldata sender origin).outcome f = some (.ok response, g))
    (hok : response.result = .ok reply) :
    (executeActivity call nested calldata sender origin f).Avoids Activity.reached ∧
      ∀ a, a ∈ (executeActivity call nested calldata sender origin f).reached →
        a = f.contract.address ∨
          a ∈ (executeActivity call nested calldata sender origin f).called := by
  rcases execute_cases hx with ⟨e, _, rfl⟩ | ⟨done, h, q, k, hdeploy, hmethod, -, -, hreply⟩
  · cases hok
  · rw [hreply reply hok] at hmethod
    have hclear := running_clear hcall hvigil (f := { h with deployments := [] })
      (starts_entry calldata _) ((deploy_tracks hcall hdeploy).ledger.watched hf) hmethod
    rw [executeActivity, hdeploy]
    refine ⟨⟨deploy_avoids hcall hvigil hf hdeploy, hclear.absent, hclear.avoids⟩, fun a ha => ?_⟩
    rw [Activity.reached, List.mem_append, Activity.reached, List.mem_cons] at ha
    rw [Activity.called, List.mem_append, Activity.called, List.mem_cons]
    exact ha.imp reached_deployActivity fun ha => .inr (ha.imp_right (hclear.called a))

/-- A response that passes the guard is that of a call which has succeeded without the caller. -/
lemma checkResponse_eq_ok {l : Ledger} {c : Contract} {response response' : CallResponse}
    (hguard : l.reentrancyGuard = true) (h : checkResponse l c response = .ok response') :
    c.address ∉ response.callStack ∧ ∃ reply, response.result = .ok reply := by
  rw [checkResponse, hguard, Bool.true_and] at h
  split at h
  · cases h
  split at h
  · cases h
  case isFalse habsent =>
    refine ⟨fun hmem => habsent (List.contains_iff_mem.mpr hmem), ?_⟩
    cases hresult : response.result with
    | ok reply => exact ⟨reply, rfl⟩
    | error e =>
      rw [hresult] at h
      cases h

lemma openActivity_avoids (hcall : Followed call nested) (hvigil : Vigilant call nested)
    {target : Address} {f g : Frame} (hf : f.ledger.Watched) {done : Unit}
    (hx : (openCall call target).outcome f = some (.ok done, g)) :
    (openActivity call nested target f).Avoids Activity.reached := by
  rw [outcome_openCall_eq] at hx
  rw [openActivity]
  split at hx
  · cases hx
  split at hx
  · obtain ⟨r, h, hdeploy, hx⟩ := Outcome.andThen_eq_some hx
    cases r with
    | error e => cases hx
    | ok done =>
      split
      · exact deploy_avoids hcall hvigil ((minds_opened f target).2.ledger.watched hf) hdeploy
      · trivial
  · cases hx

lemma reached_openActivity {a target : Address} {f : Frame}
    (h : a ∈ (openActivity call nested target f).reached) :
    a = (Seat.contract f.ledger (.registered target)).address := by
  rw [openActivity] at h
  split at h
  · rw [reached_deployActivity h]
    exact ((minds_opened f target).2.ledger.seat (.registered target)).1
  · exact absurd h List.not_mem_nil

lemma copied_avoids (hcall : Followed call nested) (hvigil : Vigilant call nested)
    {target : Address} {f g : Frame} (hf : f.ledger.Watched) {copy : Contract}
    (hx : (copied call target).outcome f = some (.ok copy, g)) :
    (openActivity call nested target f).Avoids Activity.reached := by
  rw [copied, outcome_bind] at hx
  obtain ⟨r, h, hopen, hx⟩ := Outcome.andThen_eq_some hx
  cases r with
  | error e => cases hx
  | ok done => exact openActivity_avoids hcall hvigil hf hopen

/-- A call that has passed the guard: its target is opened, and is on the call stack in the end. -/
lemma Clear.visit {t u : Activity} {a b : Address} {stack : List Address}
    (ht : t.Avoids Activity.reached) (hu : u.Avoids Activity.reached)
    (hopened : ∀ d, d ∈ t.reached → d = b) (hb : b ∈ u.called)
    (hreached : ∀ d, d ∈ u.reached → d ∈ u.called) (hstack : ∀ d, d ∈ stack ↔ d ∈ u.called)
    (ha : a ∉ stack) : Clear a (.andThen t u) := by
  have hcalled (d : Address) (hd : d ∈ (Activity.andThen t u).reached) : d ∈ u.called := by
    rw [Activity.reached, List.mem_append] at hd
    exact hd.elim (fun hd => hopened d hd ▸ hb) (hreached d)
  exact ⟨⟨ht, hu⟩, fun d hd => List.mem_append_right _ (hcalled d hd),
    fun hd => ha ((hstack a).mpr (hcalled a hd))⟩

lemma visitActivity_clear (hcall : Followed call nested) (hvigil : Vigilant call nested) :
    Vigilant (callWith call) (visitActivity call nested) := by
  intro target calldata f answer g hf hx
  have hwhole := visitActivity_follows hcall target calldata f _ g hx
  rw [outcome_callWith] at hx
  obtain ⟨r, h, hcopied, hx⟩ := Outcome.andThen_eq_some hx
  obtain ⟨hfollows, hcopy⟩ := copied_follows hcall hcopied
  cases r with
  | error e => cases hx
  | ok copy =>
    obtain ⟨hdeployed, c, hc, haddress⟩ := hcopy copy rfl
    obtain ⟨response, k, k', hexecute, hreported, rfl, hcheck⟩ := entered_cases hx
    obtain ⟨hcalled, hstack⟩ := mem_callStack_apart hcall hdeployed hexecute
    have hheard := minds_heard calldata ⟨h.ledger, .apart copy, []⟩
    have hready : h.ledger.Abides (carryOver k'.ledger target k'.contract).1 :=
      ((hheard.ledger.trans (execute_tracks hcall hexecute).1.ledger).trans
        (minds_reported _ _ _ _ hreported).ledger).trans (carryOver_kept ..).1
    obtain ⟨habsent, reply, hok⟩ :=
      checkResponse_eq_ok ((hfollows.ledger.trans hready).watched hf).1 hcheck.symm
    rw [hwhole.address] at habsent
    obtain ⟨havoids, hreached⟩ := execute_avoids hcall hvigil
      ((hfollows.ledger.trans hheard.ledger).watched hf) hexecute hok
    rw [contract_heard] at hreached
    have htarget : copy.address = (Seat.contract f.ledger (.registered target)).address := by
      rw [haddress, ← (hfollows.ledger.seat (.registered target)).1, Seat.contract, hc,
        Option.getD_some]
    rw [visitActivity_of_copied hcopied]
    exact .visit (copied_avoids hcall hvigil hf hcopied) havoids
      (fun d hd => (reached_openActivity hd).trans htarget.symm) hcalled
      (fun d hd => (hreached d hd).elim (fun hd => hd ▸ hcalled) id) hstack habsent

lemma callActivity_clear (n : Nat) : Vigilant (Run.call n) (callActivity n) := by
  induction n with
  | zero => exact fun _ _ _ _ _ _ hx => by cases hx
  | succ n ih => exact visitActivity_clear (callActivity_follows n) ih

/-- If a call that the guard watches succeeds, no contract was activated within an activation of its
own, unless by a constructor that was run in between. So none was activated like that at all if all
contracts were deployed before. -/
theorem execute_avoids_reentry {n : Nat} {l l' : Ledger} {seat seat' : Seat} {calldata reply : Bytes}
    {sender origin : Option Address} {response : CallResponse} (hwatched : l.Watched)
    (hrun : l.perform seat (execute (Run.call n) calldata sender origin) =
      some (.ok response, l', seat')) (hok : response.result = .ok reply) :
    (l.activity n seat calldata sender origin).Avoids Activity.reached ∧
      (l.Settled → (seat.contract l).deployed = true →
        (l.activity n seat calldata sender origin).Avoids Activity.contracts) := by
  obtain ⟨g, rfl, hexecute⟩ := execute_of_perform hrun
  have hfollowed := callActivity_follows n
  have havoids : (l.activity n seat calldata sender origin).Avoids Activity.reached :=
    (execute_avoids hfollowed (callActivity_clear n) (f := ⟨l, seat, []⟩) hwatched hexecute hok).1
  refine ⟨havoids, fun hsettled hdeployed => havoids.contracts ?_⟩
  exact executeActivity_plain hfollowed (callActivity_plain n) calldata sender origin
    (f := ⟨l, seat, []⟩) hsettled.awake hdeployed

section Awakening

def insisting (target : Address) (calldata : Bytes) : Program :=
  .ask .call (target.bytes ++ Bytes.ofNat 4 calldata.length ++ calldata) fun
    | .ok _ => .done []
    | .error e => .fail e

lemma strict_insisting (target : Address) (calldata : Bytes) : (insisting target calldata).Strict :=
  .ask _ _ (fun e => .fail e) fun _ => .done []

/-- The entrance calls the chamber, unless it is called with data. -/
def awakening (construct : Program) : Engine where
  instantiate parameters := .ok
    { refusal := none
      construct := fun _ _ => construct
      execute := fun _ calldata =>
        if parameters.address = entrance ∧ calldata = [] then insisting chamber [] else .done [] }

lemma strict_awakening {construct : Program} (h : construct.Strict) :
    (awakening construct).Strict := by
  rintro parameters i ⟨⟩
  refine ⟨fun _ _ => h, fun _ calldata => ?_⟩
  simp only
  split
  · exact strict_insisting chamber []
  · exact .done []

/-- The entrance is deployed, and the constructor of the chamber is yet to be run. -/
def unawakened (construct : Program) : Ledger :=
  { Ledger.standing (awakening construct) [entrance] with
    reentrancyGuard := true
    contracts := (Ledger.standing (awakening construct) [entrance]).contracts ++
      [(chamber, { Contract.create chamber chamber (.amount 0) none [] with code := some [] })] }

/-- Both contracts are deployed. -/
def awakened (construct : Program) : Ledger :=
  { Ledger.standing (awakening construct) [entrance, chamber] with reentrancyGuard := true }

def replied : Option (Except Failure CallResponse × Ledger × Seat) → Option Bytes
  | some (.ok response, _, _) => response.result.toOption
  | _ => none

lemma exists_response (o : Option (Except Failure CallResponse × Ledger × Seat)) (reply : Bytes)
    (h : replied o = some reply) :
    ∃ response l' seat, o = some (.ok response, l', seat) ∧ response.result = .ok reply := by
  rcases o with _ | ⟨e | response, l', seat⟩
  · cases h
  · cases h
  · rw [replied] at h
    cases hresult : response.result with
    | error e =>
      rw [hresult] at h
      cases h
    | ok bs =>
      rw [hresult] at h
      cases h
      exact ⟨response, l', seat, rfl, hresult⟩

theorem execute_avoids_reentry_awakening :
    ((unawakened (.done [])).activity 1 (.registered entrance) [] none none).Avoids
        Activity.reached ∧
      ((awakened (.done [])).activity 1 (.registered entrance) [] none none).Avoids
        Activity.contracts := by
  obtain ⟨_, _, _, hrun, hok⟩ := exists_response ((unawakened (.done [])).perform
    (.registered entrance) (execute (Run.call 1) [] none none)) [] (by decide +kernel)
  obtain ⟨_, _, _, hrun', hok'⟩ := exists_response ((awakened (.done [])).perform
    (.registered entrance) (execute (Run.call 1) [] none none)) [] (by decide +kernel)
  have hstrict : (awakening (.done [])).Strict := strict_awakening (.done [])
  exact ⟨(execute_avoids_reentry ⟨rfl, awakening (.done []), rfl, hstrict⟩ hrun hok).1,
    (execute_avoids_reentry ⟨rfl, awakening (.done []), rfl, hstrict⟩ hrun' hok').2
      (Ledger.settled_standing (awakening (.done [])) _) rfl⟩

/-- The constructor of the chamber, which is run when the entrance first calls it, calls the
entrance. -/
theorem execute_reenters_by_construction :
    ¬ ∀ (n : Nat) (l l' : Ledger) (seat seat' : Seat) (calldata reply : Bytes)
      (sender origin : Option Address) (response : CallResponse), l.Watched →
      l.perform seat (execute (Run.call n) calldata sender origin) =
        some (.ok response, l', seat') →
      response.result = .ok reply →
      (l.activity n seat calldata sender origin).Avoids Activity.contracts := by
  intro h
  obtain ⟨response, l', seat, hrun, hok⟩ := exists_response
    ((unawakened (insisting entrance [1])).perform (.registered entrance)
      (execute (Run.call 2) [] none none)) [] (by decide +kernel)
  have havoids := h 2 _ l' (.registered entrance) seat [] [] none none response
    ⟨rfl, awakening _, rfl, strict_awakening (strict_insisting entrance [1])⟩ hrun hok
  revert havoids
  decide +kernel

end Awakening

end Run

end ChainReplay
