import ChainReplay.Proofs.Execution.Sustained

/-! The traffic of a run with the engine, nested as the activations are in which it arises. -/

namespace ChainReplay

/-- What is told apart from giving handles back. -/
def Entry.isTraffic : Entry → Bool
  | .disposed _ => false
  | _ => true

def Ledger.traffic (l : Ledger) : List Entry := l.journal.filter Entry.isTraffic

/-- An activity with the entries that it makes. -/
inductive Transcript where
  | silent
  | entered (entries : List Entry) (rest : Transcript)
  | activation (a : Address) (phase : Phase) (inner : Transcript)
  | andThen (first second : Transcript)

namespace Transcript

def activity : Transcript → Activity
  | silent => .quiet
  | entered _ rest => rest.activity
  | activation a phase inner => .activation a phase inner.activity
  | andThen t u => .andThen t.activity u.activity

def entries : Transcript → List Entry
  | silent => []
  | entered es rest => es ++ rest.entries
  | activation _ _ inner => inner.entries
  | andThen t u => t.entries ++ u.entries

def own : Transcript → List Entry
  | silent => []
  | entered es rest => es ++ rest.own
  | activation _ _ _ => []
  | andThen t u => t.own ++ u.own

/-- Each activation, with the contract whose activation it is nested in and its own entries, is as
required. -/
def Each (P : Option Address → Address → Phase → List Entry → Prop) (around : Option Address) :
    Transcript → Prop
  | silent => True
  | entered _ rest => rest.Each P around
  | activation a phase inner => P around a phase inner.own ∧ inner.Each P (some a)
  | andThen t u => t.Each P around ∧ u.Each P around

/-- The activations in their order, each with the contract whose activation it is nested in and its own
entries. -/
def activations (around : Option Address) :
    Transcript → List (Option Address × Address × Phase × List Entry)
  | silent => []
  | entered _ rest => rest.activations around
  | activation a phase inner => (around, a, phase, inner.own) :: inner.activations (some a)
  | andThen t u => t.activations around ++ u.activations around

variable {P Q : Option Address → Address → Phase → List Entry → Prop} {t : Transcript}
  {around : Option Address}

lemma Each.of_mem (h : t.Each P around) {b : Option Address} {a : Address} {phase : Phase}
    {own : List Entry} (hmem : (b, a, phase, own) ∈ t.activations around) : P b a phase own := by
  induction t generalizing around with
  | silent => cases hmem
  | entered es rest ih => exact ih h hmem
  | activation c phase' inner ih =>
    rcases List.mem_cons.mp hmem with heq | hmem
    · cases heq
      exact h.1
    · exact ih h.2 hmem
  | andThen t u iht ihu =>
    rcases List.mem_append.mp hmem with hmem | hmem
    · exact iht h.1 hmem
    · exact ihu h.2 hmem

lemma Each.imp (h : ∀ around a phase own, P around a phase own → Q around a phase own)
    (ht : t.Each P around) : t.Each Q around := by
  induction t generalizing around with
  | silent => trivial
  | entered es rest ih => exact ih ht
  | activation a phase inner ih => exact ⟨h _ _ _ _ ht.1, ih ht.2⟩
  | andThen t u iht ihu => exact ⟨iht ht.1, ihu ht.2⟩

lemma Each.and (hP : t.Each P around) (hQ : t.Each Q around) :
    t.Each (fun around a phase own => P around a phase own ∧ Q around a phase own) around := by
  induction t generalizing around with
  | silent => trivial
  | entered es rest ih => exact ih hP hQ
  | activation a phase inner ih => exact ⟨⟨hP.1, hQ.1⟩, ih hP.2 hQ.2⟩
  | andThen t u iht ihu => exact ⟨iht hP.1 hQ.1, ihu hP.2 hQ.2⟩

lemma each_execution (h : t.activity.Plain) :
    t.Each (fun _ _ phase _ => phase = .execution) around := by
  induction t generalizing around with
  | silent => trivial
  | entered es rest ih => exact ih h
  | activation a phase inner ih => exact ⟨h.1, ih h.2⟩
  | andThen t u iht ihu => exact ⟨iht h.1, ihu h.2⟩

end Transcript

namespace Run

/-- What has been entered on the way from one frame to a later one. -/
def passed (f g : Frame) : List Entry := g.ledger.traffic.drop f.ledger.traffic.length

def returned (number : Nat) (request : HostFunction) : Except Failure Bytes → List Entry
  | .ok bs => if request.isAnswered then [.reply number request bs] else []
  | .error _ => []

section Transcripts

variable (call : Address → Bytes → Run CallResponse)
  (nested : Address → Bytes → Frame → Transcript)

def requestTranscript (request : HostFunction) (data : Bytes) (f : Frame) : Transcript :=
  match request with
  | .call =>
    match callRequest data with
    | .ok (target, calldata) => nested target calldata f
    | .error _ => .silent
  | _ => .silent

def programTranscript (number : Nat) : Program → (gas : Int) → Frame → Transcript
  | .done _, _, _ => .silent
  | .fail _, _, _ => .silent
  | .ask request data next, gas, f =>
    match (Host.answer call request data).outcome f with
    | some (reply, g) =>
      .andThen (requestTranscript nested request data f)
        (.entered (returned number request reply)
          (programTranscript number (next reply) gas (answered number request reply g)))
    | none => .silent
  | .charge amount next, gas, f =>
    programTranscript number next (gas + amount) (charged number (gas + amount) f)
  | .caught e next, gas, f =>
    .entered [.caught number e]
      (programTranscript number next gas { f with ledger := f.ledger.enter [.caught number e] })

def transcriptOf (start : Run (Nat × Program)) (f : Frame) : Transcript :=
  match start.outcome f with
  | some (.ok (number, program), g) =>
    .entered (passed f g) (programTranscript call nested number program 0 g)
  | some (.error _, g) => .entered (passed f g) .silent
  | none => .silent

def deployTranscript (f : Frame) : Transcript :=
  if f.contract.isNew then
    .activation f.contract.address .construction (transcriptOf call nested inception f)
  else .silent

def executeTranscript (calldata : Bytes) (sender origin : Option Address) (f : Frame) :
    Transcript :=
  .andThen (deployTranscript call nested f)
    (match (deploy call).outcome f with
    | some (.ok _, g) =>
      .activation g.contract.address .execution
        (transcriptOf call nested (entry calldata (.caller sender origin))
          { g with deployments := [] })
    | _ => .silent)

def openTranscript (target : Address) (f : Frame) : Transcript :=
  if f.ledger.nestedCalls && f.ledger.hasContract target then
    deployTranscript call nested ⟨opened f target, .registered target, []⟩
  else .silent

def visitTranscript (target : Address) (calldata : Bytes) (f : Frame) : Transcript :=
  .andThen (openTranscript call nested target f)
    (match (copied call target).outcome f with
    | some (.ok copy, g) =>
      executeTranscript call nested calldata (some g.contract.address) (some g.ledger.origin)
        (heard calldata ⟨g.ledger, .apart copy, []⟩)
    | _ => .silent)

end Transcripts

def callTranscript : Nat → Address → Bytes → Frame → Transcript
  | 0, _, _, _ => .silent
  | n + 1, target, calldata, f => visitTranscript (Run.call n) (callTranscript n) target calldata f

end Run

/-- The transcript of a call from outside to a registered contract. -/
def Ledger.transcript (l : Ledger) (n : Nat) (a : Address) (calldata : Bytes)
    (sender origin : Option Address) : Transcript :=
  Run.executeTranscript (Run.call n) (Run.callTranscript n) calldata sender origin
    ⟨l, .registered a, []⟩

namespace Run

section Activities

variable {call : Address → Bytes → Run CallResponse}
  {nested : Address → Bytes → Frame → Transcript} {visits : Address → Bytes → Frame → Activity}
  (hnested : ∀ target calldata f, (nested target calldata f).activity = visits target calldata f)

include hnested

lemma activity_requestTranscript (request : HostFunction) (data : Bytes) (f : Frame) :
    (requestTranscript nested request data f).activity = requestActivity visits request data f := by
  cases request with
  | call =>
    rw [requestTranscript, requestActivity]
    cases callRequest data with
    | error e => rfl
    | ok target => exact hnested _ _ f
  | _ => rfl

lemma activity_programTranscript (number : Nat) (p : Program) (gas : Int) (f : Frame) :
    (programTranscript call nested number p gas f).activity =
      programActivity call visits number p gas f := by
  induction p generalizing gas f with
  | done reply => rfl
  | fail e => rfl
  | ask request data next ih =>
    rw [programTranscript, programActivity]
    rcases (Host.answer call request data).outcome f with _ | ⟨reply, g⟩
    · rfl
    · simp only [Transcript.activity, ih, activity_requestTranscript hnested]
  | charge amount next ih => exact ih _ _
  | caught e next ih => exact ih _ _

lemma activity_transcriptOf (start : Run (Nat × Program)) (f : Frame) :
    (transcriptOf call nested start f).activity = activityOf call visits start f := by
  rw [transcriptOf, activityOf]
  rcases start.outcome f with _ | ⟨_ | ⟨number, program⟩, g⟩
  · rfl
  · rfl
  · exact activity_programTranscript hnested number program 0 g

lemma activity_deployTranscript (f : Frame) :
    (deployTranscript call nested f).activity = deployActivity call visits f := by
  rw [deployTranscript, deployActivity]
  split
  · simp only [Transcript.activity, activity_transcriptOf hnested]
  · rfl

lemma activity_executeTranscript (calldata : Bytes) (sender origin : Option Address) (f : Frame) :
    (executeTranscript call nested calldata sender origin f).activity =
      executeActivity call visits calldata sender origin f := by
  rw [executeTranscript, executeActivity, Transcript.activity, activity_deployTranscript hnested]
  rcases (deploy call).outcome f with _ | ⟨_ | done, g⟩
  · rfl
  · rfl
  · simp only [Transcript.activity, activity_transcriptOf hnested]

lemma activity_openTranscript (target : Address) (f : Frame) :
    (openTranscript call nested target f).activity = openActivity call visits target f := by
  rw [openTranscript, openActivity]
  split
  · exact activity_deployTranscript hnested _
  · rfl

lemma activity_visitTranscript (target : Address) (calldata : Bytes) (f : Frame) :
    (visitTranscript call nested target calldata f).activity =
      visitActivity call visits target calldata f := by
  rw [visitTranscript, visitActivity, Transcript.activity, activity_openTranscript hnested]
  rcases (copied call target).outcome f with _ | ⟨_ | copy, g⟩
  · rfl
  · rfl
  · simp only [activity_executeTranscript hnested]

end Activities

lemma activity_callTranscript (n : Nat) (target : Address) (calldata : Bytes) (f : Frame) :
    (callTranscript n target calldata f).activity = callActivity n target calldata f := by
  induction n generalizing target calldata f with
  | zero => rfl
  | succ n ih => exact activity_visitTranscript ih target calldata f

end Run

/-- Without its entries, the transcript of a call is its activity. -/
theorem Ledger.activity_transcript (l : Ledger) (n : Nat) (a : Address) (calldata : Bytes)
    (sender origin : Option Address) :
    (l.transcript n a calldata sender origin).activity =
      l.activity n (.registered a) calldata sender origin :=
  Run.activity_executeTranscript (Run.activity_callTranscript n) calldata sender origin _

namespace Run

variable {f g h : Frame}

lemma traffic_enter (l : Ledger) (entries : List Entry) :
    (l.enter entries).traffic = l.traffic ++ entries.filter Entry.isTraffic :=
  List.filter_append ..

lemma traffic_modifyContract (f : Frame) (k : Contract → Contract) :
    (f.modifyContract k).ledger.traffic = f.ledger.traffic := by
  rw [Ledger.traffic, f.journal_modifyContract, Ledger.traffic]

lemma traffic_disposed (f : Frame) : (disposed f).ledger.traffic = f.ledger.traffic := by
  rw [disposed, traffic_modifyContract, traffic_enter]
  cases h : f.contract.handle <;> simp [Contract.disposal, h, Entry.isTraffic]

def Hushed (f g : Frame) : Prop := g.ledger.traffic = f.ledger.traffic

instance : IsPreorder Frame Hushed where
  refl := fun _ => rfl
  trans := fun _ _ _ h h' => h'.trans h

lemma slight_hushed : Slight Hushed where
  note := fun _ _ _ => rfl
  code := fun _ _ _ => rfl
  own := fun f k _ => traffic_modifyContract f k
  other := fun _ _ _ _ => rfl
  deployments := fun _ _ => rfl
  dispose := traffic_disposed

def Grows (f g : Frame) : Prop := f.ledger.traffic <+: g.ledger.traffic

instance : IsPreorder Frame Grows where
  refl := fun _ => List.prefix_rfl
  trans := fun _ _ _ => List.IsPrefix.trans

lemma Hushed.grows (h : Hushed f g) : Grows f g := ⟨[], (List.append_nil _).trans h.symm⟩

lemma grows_asked (parameters : Parameters) (f : Frame) : Grows f (asked parameters f) := by
  rw [Grows, asked, traffic_enter]
  exact List.prefix_append _ _

lemma sustained_grows : Sustained Grows where
  note := fun f level text => (slight_hushed.note f level text).grows
  code := fun f a code => (slight_hushed.code f a code).grows
  own := fun f k hk => (slight_hushed.own f k hk).grows
  other := fun f a k hk => (slight_hushed.other f a k hk).grows
  deployments := fun f d => (slight_hushed.deployments f d).grows
  dispose := fun f => (slight_hushed.dispose f).grows
  enter := by
    intro f e _
    rw [Grows, traffic_enter]
    exact List.prefix_append _ _
  equip := by
    intro f r g _ hx
    rcases equip_cases hx with ⟨e, -, rfl⟩ | ⟨engine, parameters, -, ⟨e, -, -, rfl⟩ | ⟨i, -, -, rfl⟩⟩
    · exact refl _
    · exact grows_asked parameters f
    · rw [Grows, traffic_modifyContract]
      exact grows_asked parameters f
  visit := fun _ _ _ _ h _ => h
  copy := fun _ _ _ _ h _ => h

def Tells (t : Transcript) (f g : Frame) : Prop := g.ledger.traffic = f.ledger.traffic ++ t.entries

namespace Tells

variable {t u : Transcript}

lemma of_hushed (h : Hushed f g) : Tells .silent f g := h.trans (List.append_nil _).symm

lemma andThen (hfg : Tells t f g) (hgh : Tells u g h) : Tells (.andThen t u) f h := by
  rw [Tells, hgh, hfg, Transcript.entries, List.append_assoc]

lemma entered {entries : List Entry}
    (hfg : g.ledger.traffic = f.ledger.traffic ++ entries) (hgh : Tells t g h) :
    Tells (.entered entries t) f h := by
  rw [Tells, hgh, hfg, Transcript.entries, List.append_assoc]

lemma trans_hushed (hfg : Tells t f g) (hgh : Hushed g h) : Tells t f h := hgh.trans hfg

lemma of_hushed_trans (hfg : Hushed f g) (hgh : Tells t g h) : Tells t f h := by
  rw [Tells, hgh, hfg]

end Tells

lemma traffic_of_grows (h : Grows f g) : g.ledger.traffic = f.ledger.traffic ++ passed f g := by
  obtain ⟨entries, hentries⟩ := h
  rw [passed, ← hentries, List.drop_left]

lemma traffic_answered (number : Nat) (request : HostFunction) (reply : Except Failure Bytes)
    (f : Frame) : (answered number request reply f).ledger.traffic =
      f.ledger.traffic ++ returned number request reply := by
  cases reply with
  | error e => exact (List.append_nil _).symm
  | ok bs =>
    simp only [returned, answered]
    split
    · exact traffic_enter _ _
    · exact (List.append_nil _).symm

variable {call : Address → Bytes → Run CallResponse}
  {nested : Address → Bytes → Frame → Transcript}

def Told (call : Address → Bytes → Run CallResponse)
    (nested : Address → Bytes → Frame → Transcript) : Prop :=
  ∀ target calldata f q g, (call target calldata).outcome f = some (q, g) →
    Tells (nested target calldata f) f g

lemma requestTranscript_tells (hcall : Told call nested) {request : HostFunction} {data : Bytes}
    {q : Except Failure Bytes}
    (hx : (Host.answer call request data).outcome f = some (q, g)) :
    Tells (requestTranscript nested request data f) f g := by
  by_cases hrequest : request = .call
  case neg =>
    have hquiet : requestTranscript nested request data f = .silent := by
      cases request <;> first | rfl | contradiction
    rw [hquiet]
    exact .of_hushed (slight_hushed.leads_answer call hrequest data q g hx)
  case pos =>
    subst hrequest
    rw [requestTranscript]
    rcases answer_call_cases hx with ⟨e, hdata, -, rfl⟩ | ⟨target, calldata, r, hdata, hrun, -⟩
    · rw [hdata]
      exact .of_hushed rfl
    · rw [hdata]
      exact hcall target calldata f r g hrun

lemma programTranscript_tells (hcall : Told call nested) {number : Nat} {p : Program} {gas : Int}
    {q : Except Failure Bytes}
    (hx : (interpret (Host.answer call) number p gas).outcome f = some (q, g)) :
    Tells (programTranscript call nested number p gas f) f g := by
  induction p generalizing gas f with
  | done reply =>
    cases hx
    exact .of_hushed rfl
  | fail e =>
    cases hx
    exact .of_hushed rfl
  | ask request data next ih =>
    rw [outcome_interpret_ask] at hx
    obtain ⟨reply, h, hrequest, hx⟩ := Outcome.andThen_eq_some hx
    rw [programTranscript, hrequest]
    exact (requestTranscript_tells hcall hrequest).andThen
      (.entered (traffic_answered number request reply h) (ih reply hx))
  | charge amount next ih =>
    rw [outcome_interpret_charge] at hx
    exact .of_hushed_trans (slight_hushed.charged number (gas + amount) f) (ih hx)
  | caught e next ih =>
    rw [interpret, outcome_bind, outcome_enter, Outcome.some_andThen] at hx
    exact .entered (traffic_enter f.ledger [.caught number e]) (ih hx)

lemma running_tells (hcall : Told call nested) {start : Run (Nat × Program)}
    (hstart : Leads Grows f start) {q : Except Failure Bytes}
    (hx : (running call start).outcome f = some (q, g)) (phase : Phase) :
    Tells (.activation f.contract.address phase (transcriptOf call nested start f)) f g := by
  rw [running, outcome_bind] at hx
  obtain ⟨r, h, hbegin, hx⟩ := Outcome.andThen_eq_some hx
  have hpassed := traffic_of_grows (hstart r h hbegin)
  rw [transcriptOf, hbegin]
  cases r with
  | error e =>
    cases hx
    exact .entered hpassed (.of_hushed rfl)
  | ok p => exact .entered hpassed (programTranscript_tells hcall hx)

lemma deploy_tells (hcall : Told call nested) {q : Except Failure Unit}
    (hx : (deploy call).outcome f = some (q, g)) : Tells (deployTranscript call nested f) f g := by
  rw [deployTranscript]
  rcases deploy_cases hx with ⟨hnew, -, hend⟩ | ⟨hnew, r, h, hconstruct, hsettle⟩
  · rw [if_neg (hnew ▸ Bool.false_ne_true)]
    rcases hend with ⟨-, rfl⟩ | ⟨-, rfl⟩
    · exact .of_hushed rfl
    · exact .of_hushed (traffic_modifyContract f marked)
  · rw [if_pos hnew]
    rw [construct_eq, outcome_bind] at hconstruct
    obtain ⟨p, k, hrun, hend⟩ := Outcome.andThen_eq_some hconstruct
    obtain rfl : k = h := by
      cases p <;> (cases hend; rfl)
    exact (running_tells hcall sustained_grows.leads_inception hrun .construction).trans_hushed
      (slight_hushed.leads_settling f.contract r q g hsettle)

lemma execute_tells (hcall : Told call nested) {calldata : Bytes} {sender origin : Option Address}
    {q : Except Failure CallResponse}
    (hx : (execute call calldata sender origin).outcome f = some (q, g)) :
    Tells (executeTranscript call nested calldata sender origin f) f g := by
  cases hdeploy : (deploy call).outcome f with
  | none =>
    rw [execute, outcome_bind, outcome_attempt, hdeploy] at hx
    cases hx
  | some o =>
    obtain ⟨done, h⟩ := o
    have hdeployed := deploy_tells hcall hdeploy
    rw [executeTranscript, hdeploy]
    cases done with
    | error e =>
      rw [execute, outcome_bind, outcome_attempt, hdeploy] at hx
      cases hx
      exact hdeployed.andThen (.of_hushed rfl)
    | ok done =>
      rw [outcome_execute_of_deploy hdeploy, runMethod_eq] at hx
      obtain ⟨r, k, hmethod, hx⟩ := Outcome.andThen_eq_some hx
      have hrun := running_tells hcall (sustained_grows.leads_entry _ _) hmethod .execution
      refine hdeployed.andThen (.of_hushed_trans rfl (hrun.trans_hushed ?_))
      cases r with
      | ok reply =>
        cases hx
        exact refl _
      | error e =>
        cases hx
        exact trans_of Hushed (slight_hushed.rolledBack _ _) (slight_hushed.abandoned _ _)

lemma openCall_tells (hcall : Told call nested) {target : Address} {q : Except Failure Unit}
    (hx : (openCall call target).outcome f = some (q, g)) :
    Tells (openTranscript call nested target f) f g := by
  have hopened : Hushed f { f with ledger := opened f target } := slight_hushed.opened f target
  rw [outcome_openCall_eq] at hx
  rw [openTranscript]
  cases hn : f.ledger.nestedCalls with
  | false =>
    rw [hn, if_pos rfl] at hx
    cases hx
    exact .of_hushed rfl
  | true =>
  rw [hn, if_neg (Bool.false_ne_true ∘ Eq.symm)] at hx
  cases ht : f.ledger.hasContract target with
  | false =>
    rw [ht, if_neg Bool.false_ne_true] at hx
    cases hx
    exact .of_hushed hopened
  | true =>
    rw [ht, if_pos rfl] at hx
    obtain ⟨r, h, hdeploy, hx⟩ := Outcome.andThen_eq_some hx
    cases hx
    have hdeployed := deploy_tells hcall hdeploy
    exact .of_hushed_trans hopened hdeployed

lemma copied_tells (hcall : Told call nested) {target : Address} {q : Except Failure Contract}
    (hx : (copied call target).outcome f = some (q, g)) :
    Tells (openTranscript call nested target f) f g := by
  rw [copied, outcome_bind] at hx
  obtain ⟨r, h, hopen, hx⟩ := Outcome.andThen_eq_some hx
  have htold := openCall_tells hcall hopen
  cases r with
  | error e =>
    cases hx
    exact htold
  | ok done => exact htold.trans_hushed (slight_hushed.leads_copyTarget target q g hx)

lemma visitTranscript_tells (hcall : Told call nested) :
    Told (callWith call) (visitTranscript call nested) := by
  intro target calldata f q g hx
  rw [outcome_callWith] at hx
  obtain ⟨r, h, hcopied, hx⟩ := Outcome.andThen_eq_some hx
  have htold := copied_tells hcall hcopied
  rw [visitTranscript, hcopied]
  cases r with
  | error e =>
    cases hx
    exact htold.andThen (.of_hushed rfl)
  | ok copy =>
    obtain ⟨response, k, k', hexecute, hreported, rfl, -⟩ := entered_cases hx
    have hvisit : Tells (executeTranscript call nested calldata (some h.contract.address)
        (some h.ledger.origin) (heard calldata ⟨h.ledger, .apart copy, []⟩))
        ⟨h.ledger, .apart copy, []⟩ k' :=
      .of_hushed_trans (slight_hushed.heard calldata _)
        ((execute_tells hcall hexecute).trans_hushed
          (slight_hushed.leads_reported _ _ _ k' hreported))
    have hreturned : Tells (executeTranscript call nested calldata (some h.contract.address)
        (some h.ledger.origin) (heard calldata ⟨h.ledger, .apart copy, []⟩))
        h { h with ledger := k'.ledger } := hvisit
    exact htold.andThen (hreturned.trans_hushed (slight_hushed.closed _ _ _ _ _))

lemma callTranscript_tells (n : Nat) : Told (Run.call n) (callTranscript n) := by
  induction n with
  | zero => exact fun _ _ _ _ _ hx => by cases hx
  | succ n ih => exact visitTranscript_tells ih

end Run

/-- The transcript of a call holds what the call adds to the journal, handles that are given back
apart. -/
theorem Ledger.traffic_of_execute {n : Nat} {l l' : Ledger} {a : Address} {calldata : Bytes}
    {sender origin : Option Address} {response : CallResponse} {seat : Seat}
    (hrun : l.perform (.registered a) (Run.execute (Run.call n) calldata sender origin) =
      some (.ok response, l', seat)) :
    l'.traffic = l.traffic ++ (l.transcript n a calldata sender origin).entries := by
  obtain ⟨g, rfl, hexecute⟩ := Run.execute_of_perform hrun
  exact Run.execute_tells (Run.callTranscript_tells n) hexecute

end ChainReplay
