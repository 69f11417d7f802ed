import ChainReplay.Proofs.Execution.ChronicleRecords
import ChainReplay.Proofs.Ledger.Derivation

/-! The copies that a run asks for, in the order of time: those that are recorded, and those that are
refused because there is a copy on record at their address. No address comes on record but that of a
copy that is recorded. -/

namespace ChainReplay

inductive Venture where
  | recorded (d : Derivation)
  | refused (d : Derivation)
  deriving DecidableEq

/-- Before each copy that is refused one was recorded at its address. -/
def Warranted (past vs : List Venture) : Prop :=
  ∀ before d after, vs = before ++ .refused d :: after →
    ∃ e, .recorded e ∈ past ++ before ∧ e.address = d.address

/-- The copies on record have been recorded in the past. -/
def Backed (past : List Venture) (children : Table Address Bytes) : Prop :=
  ∀ child, children.contains child = true → ∃ d, .recorded d ∈ past ∧ d.address = child

section Past

variable {past past' vs us : List Venture} {t u : Table Address Bytes} {d : Derivation}

lemma warranted_nil : Warranted past [] := by
  intro before d after h
  simp at h

lemma warranted_recorded (d : Derivation) : Warranted past [.recorded d] := by
  intro before e after h
  cases before <;> simp at h

lemma warranted_refused (h : ∃ e, .recorded e ∈ past ∧ e.address = d.address) :
    Warranted past [.refused d] := by
  intro before e after heq
  cases before with
  | nil =>
    cases heq
    rwa [List.append_nil]
  | cons first rest => simp at heq

lemma Warranted.append (h : Warranted past vs) (h' : Warranted (past ++ vs) us) :
    Warranted past (vs ++ us) := by
  intro before d after heq
  rcases List.append_eq_append_iff.mp heq with ⟨between, rfl, hus⟩ | ⟨between, hvs, hrest⟩
  · rw [← List.append_assoc]
    exact h' between d after hus
  cases between with
  | nil =>
    rw [List.append_nil] at hvs
    subst hvs
    obtain ⟨e, he, haddress⟩ := h' [] d after hrest.symm
    rw [List.append_nil] at he
    exact ⟨e, he, haddress⟩
  | cons first between =>
    obtain ⟨rfl, -⟩ := List.cons.inj hrest
    exact h before d between hvs

namespace Backed

lemma mono (h : Backed past t) (hsub : past ⊆ past') : Backed past' t := fun child hin =>
  (h child hin).imp fun _ hd => ⟨hsub hd.1, hd.2⟩

lemma of_contains (h : Backed past t)
    (hu : ∀ child, u.contains child = true → t.contains child = true) : Backed past u :=
  fun child hin => h child (hu child hin)

lemma nil : Backed past [] := by
  intro child h
  cases h

lemma append (ht : Backed past t) (hu : Backed past u) : Backed past (t ++ u) := by
  intro child hin
  rw [Table.contains_append, Bool.or_eq_true] at hin
  exact hin.elim (ht child) (hu child)

lemma insert (h : Backed past t) (hd : .recorded d ∈ past) (code : Bytes) :
    Backed past (t.insert d.address code) := by
  intro child hin
  rw [Table.contains, Table.find?_insert] at hin
  split at hin
  case isTrue heq => exact ⟨d, hd, heq⟩
  case isFalse => exact h child hin

end Backed

end Past

/-- The copies on record in the ledger and those of the running contract have been recorded in the
past. -/
structure Frame.Honest (past : List Venture) (f : Frame) : Prop where
  own : Backed past f.contract.children
  records : ∀ d, Backed past (f.ledger.records d)

namespace Run

/-- What comes of a request for a copy. -/
def venture (source : Address) (salt : Bytes) (f : Frame) : List Venture :=
  match f.ledger.code? source, (Host.deployCopy source salt).outcome f with
  | .ok code, some (.ok _, _) => [.recorded ⟨f.contract.address, salt, code⟩]
  | .ok code, some (.error e, _) =>
    if e.fault?.map Fault.kind = some .alreadyDeployed then
      [.refused ⟨f.contract.address, salt, code⟩]
    else []
  | _, _ => []

section Ventures

variable (call : Address → Bytes → Run CallResponse)
  (nested : Address → Bytes → Frame → List Venture)

def requestVentures (request : HostFunction) (data : Bytes) (f : Frame) : List Venture :=
  match request with
  | .call =>
    match callRequest data with
    | .ok (target, calldata) => nested target calldata f
    | .error _ => []
  | .deploy =>
    match deployRequest data with
    | .ok (source, salt) => venture source salt f
    | .error _ => []
  | _ => []

def programVentures (number : Nat) : Program → (gas : Int) → Frame → List Venture
  | .done _, _, _ => []
  | .fail _, _, _ => []
  | .ask request data next, gas, f =>
    match (Host.answer call request data).outcome f with
    | some (reply, g) =>
      requestVentures nested request data f ++
        programVentures number (next reply) gas (answered number request reply g)
    | none => []
  | .charge amount next, gas, f =>
    programVentures number next (gas + amount) (charged number (gas + amount) f)
  | .caught e next, gas, f =>
    programVentures number next gas { f with ledger := f.ledger.enter [.caught number e] }

def venturesOf (start : Run (Nat × Program)) (f : Frame) : List Venture :=
  match start.outcome f with
  | some (.ok (number, program), g) => programVentures call nested number program 0 g
  | _ => []

def deployVentures (f : Frame) : List Venture :=
  if f.contract.isNew then venturesOf call nested inception f else []

def executeVentures (calldata : Bytes) (sender origin : Option Address) (f : Frame) :
    List Venture :=
  deployVentures call nested f ++
    match (deploy call).outcome f with
    | some (.ok _, g) =>
      venturesOf call nested (entry calldata (.caller sender origin)) { g with deployments := [] }
    | _ => []

def openVentures (target : Address) (f : Frame) : List Venture :=
  if f.ledger.nestedCalls && f.ledger.hasContract target then
    deployVentures call nested ⟨opened f target, .registered target, []⟩
  else []

def visitVentures (target : Address) (calldata : Bytes) (f : Frame) : List Venture :=
  openVentures call nested target f ++
    match (copied call target).outcome f with
    | some (.ok copy, g) =>
      executeVentures call nested calldata (some g.contract.address) (some g.ledger.origin)
        (heard calldata ⟨g.ledger, .apart copy, []⟩)
    | _ => []

end Ventures

def callVentures : Nat → Address → Bytes → Frame → List Venture
  | 0, _, _, _ => []
  | n + 1, target, calldata, f => visitVentures (Run.call n) (callVentures n) target calldata f

end Run

namespace Frame.Honest

open Run

variable {past past' : List Venture} {f g : Frame} {l : Ledger}

lemma still (hf : f.Honest past) (h : Still f g) : g.Honest past where
  own := h.own.symm ▸ hf.own
  records := fun d => (h.records d).symm ▸ hf.records d

lemma mono (hf : f.Honest past) (hsub : past ⊆ past') : f.Honest past' where
  own := hf.own.mono hsub
  records := fun d => (hf.records d).mono hsub

lemma registered (hl : ∀ d, Backed past (l.records d)) (a : Address)
    (deployments : List Deployment) : Honest past ⟨l, .registered a, deployments⟩ where
  own := by
    rw [Frame.children_contract rfl]
    exact hl a
  records := hl

lemma withLedger (hf : f.Honest past) (hsub : past ⊆ past') (hl : ∀ d, Backed past' (l.records d))
    (deployments : List Deployment) : Honest past' ⟨l, f.seat, deployments⟩ := by
  obtain ⟨m, seat, noted⟩ := f
  cases seat with
  | registered a => exact .registered hl a deployments
  | apart c => exact ⟨hf.own.mono hsub, hl⟩

end Frame.Honest

section Changes

open Run

variable {past past' : List Venture} {f : Frame} {l : Ledger}

lemma Ledger.backed_modifyContract (hl : ∀ d, Backed past (l.records d)) (hsub : past ⊆ past')
    (a : Address) {k : Contract → Contract}
    (hk : ∀ c, Backed past c.children → Backed past' (k c).children) (d : Address) :
    Backed past' ((l.modifyContract a k).records d) := by
  rw [records_modifyContract]
  split
  case isFalse => exact (hl d).mono hsub
  case isTrue =>
    cases hc : l.contracts.find? d with
    | none => exact .nil
    | some c => exact hk c (Ledger.records_of_find? hc ▸ hl d)

lemma Frame.Honest.modifyContract (hf : f.Honest past) (hsub : past ⊆ past')
    {k : Contract → Contract} (hk : ∀ c, Backed past c.children → Backed past' (k c).children) :
    (f.modifyContract k).Honest past' := by
  obtain ⟨l, seat, deployments⟩ := f
  cases seat with
  | registered a =>
    exact .registered (Ledger.backed_modifyContract hf.records hsub a hk) a deployments
  | apart c => exact ⟨hk c hf.own, fun d => (hf.records d).mono hsub⟩

lemma backed_withdraw (hl : ∀ d, Backed past (l.records d)) (deployments : List Deployment)
    (d : Address) : Backed past ((withdraw l deployments).records d) := by
  refine (hl d).of_contains fun child hin => ?_
  rw [Table.contains, find?_records_withdraw] at hin
  split at hin
  case isTrue => cases hin
  case isFalse => exact hin

lemma backed_carryOver (hl : ∀ d, Backed past (l.records d)) {copy : Contract}
    (hcopy : Backed past copy.children) (target d : Address) :
    Backed past ((carryOver l target copy).1.records d) := by
  cases hc : l.contracts.find? target with
  | none =>
    rw [carryOver, hc]
    exact hl d
  | some c =>
    rw [records_carryOver copy hc]
    split
    case isFalse => exact hl d
    case isTrue =>
      refine (hl target).append (hcopy.of_contains fun child hin => ?_)
      exact ((contains_fresh copy hc child).mp hin).2

lemma Frame.Honest.rolledBack (hf : f.Honest past) {before : Contract}
    (hbefore : Backed past before.children) : (rolledBack before f).Honest past := by
  have hrestored := hf.modifyContract (k := fun c =>
    { c with states := before.states, children := before.children }) (List.Subset.refl _)
    fun _ _ => hbefore
  exact hrestored.withLedger (List.Subset.refl _) (backed_withdraw hrestored.records _) []

lemma Frame.Honest.closed {g : Frame} (hf : f.Honest past) (hsub : past ⊆ past')
    (hg : g.Honest past') (target : Address) (response : CallResponse) :
    (closed target g.contract g.deployments response { f with ledger := g.ledger }).Honest past' := by
  have hcarried := backed_carryOver hg.records hg.own target
  exact (hf.withLedger hsub hcarried _).still (.modifyContract _ ⟨fun _ => rfl, fun _ h => h⟩)

end Changes

namespace Run

variable {call : Address → Bytes → Run CallResponse}
  {nested : Address → Bytes → Frame → List Venture} {f g h : Frame} {vs us : List Venture}

/-- With these ventures a part of a run leads from frame to frame: those that are refused are warranted,
and the records have come of those that are not. -/
def Books (vs : List Venture) (f g : Frame) : Prop :=
  ∀ past, f.Honest past → Warranted past vs ∧ g.Honest (past ++ vs)

namespace Books

lemma of_still (h : Still f g) : Books [] f g := by
  intro past hf
  rw [List.append_nil]
  exact ⟨warranted_nil, hf.still h⟩

lemma append (hfg : Books vs f g) (hgh : Books us g h) : Books (vs ++ us) f h := by
  intro past hf
  obtain ⟨hvs, hg⟩ := hfg past hf
  obtain ⟨hus, hh⟩ := hgh _ hg
  rw [← List.append_assoc]
  exact ⟨hvs.append hus, hh⟩

lemma trans_still (hfg : Books vs f g) (hgh : Still g h) : Books vs f h :=
  fun past hf => (hfg past hf).imp_right fun hg => hg.still hgh

lemma still_trans (hfg : Still f g) (hgh : Books vs g h) : Books vs f h :=
  fun past hf => hgh past (hf.still hfg)

end Books

lemma venture_of_refused {source : Address} {salt : Bytes} {e : Failure}
    (hx : (Host.deployCopy source salt).outcome f = some (.error e, g))
    (hkind : e.fault?.map Fault.kind = some .alreadyDeployed) :
    ∃ code, f.ledger.code? source = .ok code ∧
      venture source salt f = [.refused ⟨f.contract.address, salt, code⟩] := by
  cases copies_deployCopy hx with
  | failed hother _ => exact absurd hkind hother
  | refused hcode _ _ =>
    refine ⟨_, hcode, ?_⟩
    rw [venture, hcode, hx]
    exact if_pos hkind

lemma venture_books {source : Address} {salt : Bytes} {q : Except Failure (Bytes × Address)}
    (hx : (Host.deployCopy source salt).outcome f = some (q, g)) :
    Books (venture source salt f) f g := by
  rw [venture, hx]
  cases copies_deployCopy hx with
  | refused hcode htaken hstill =>
    rw [hcode]
    refine fun past hf => ⟨warranted_refused (hf.own _ htaken), ?_⟩
    exact (hf.still hstill).mono (List.subset_append_left _ _)
  | failed hother hstill =>
    cases f.ledger.code? source with
    | error e => exact .of_still hstill
    | ok code =>
      dsimp only
      rw [if_neg hother]
      exact .of_still hstill
  | @recorded code f' hcode hnew hstill hstill' =>
    rw [hcode]
    intro past hf
    let d : Derivation := ⟨f.contract.address, salt, code⟩
    have hsub : past ⊆ past ++ [.recorded d] := List.subset_append_left _ _
    have hd : .recorded d ∈ past ++ [.recorded d] := by simp
    have hrecorded := (hf.still hstill).modifyContract (k := recording d.address code) hsub
      fun c hc => (hc.mono hsub).insert hd code
    exact ⟨warranted_recorded d, hrecorded.still hstill'⟩

def Booked (call : Address → Bytes → Run CallResponse)
    (nested : Address → Bytes → Frame → List Venture) : Prop :=
  ∀ target calldata f q g, (call target calldata).outcome f = some (q, g) →
    Books (nested target calldata f) f g

lemma requestVentures_books (hcall : Booked call nested) {request : HostFunction} {data : Bytes}
    {q : Except Failure Bytes} (hx : (Host.answer call request data).outcome f = some (q, g)) :
    Books (requestVentures nested request data f) f g := by
  by_cases hc : request = .call
  · subst hc
    rw [requestVentures]
    rcases answer_call_cases hx with ⟨e, hdata, -, rfl⟩ | ⟨target, calldata, r, hdata, hrun, -⟩
    · rw [hdata]
      exact .of_still (.refl _)
    · rw [hdata]
      exact hcall target calldata f r g hrun
  by_cases hd : request = .deploy
  · subst hd
    rw [answer_deploy, outcome_bind, outcome_lift] at hx
    rw [requestVentures]
    cases hdata : deployRequest data with
    | error e =>
      rw [hdata] at hx
      cases hx
      exact .of_still (.refl _)
    | ok p =>
      obtain ⟨source, salt⟩ := p
      simp only [hdata, Outcome.some_andThen, outcome_bind] at hx ⊢
      obtain ⟨r, h, hcopy, hx⟩ := Outcome.andThen_eq_some hx
      obtain rfl : h = g := by
        cases r <;> (cases hx; rfl)
      exact venture_books hcopy
  have hquiet : requestVentures nested request data f = [] := by
    cases request <;> first | rfl | contradiction
  rw [hquiet]
  exact .of_still (Calm.answer call data hc hd f q g hx)

lemma programVentures_books (hcall : Booked call nested) {number : Nat} {p : Program} {gas : Int}
    {q : Except Failure Bytes}
    (hx : (interpret (Host.answer call) number p gas).outcome f = some (q, g)) :
    Books (programVentures call nested number p gas f) f g := by
  -- Each request is answered from where the one before has led, so the frame is general.
  induction p generalizing gas f with
  | done reply =>
    cases hx
    exact .of_still (.refl _)
  | fail e =>
    cases hx
    exact .of_still (.refl _)
  | ask request data next ih =>
    rw [outcome_interpret_ask] at hx
    obtain ⟨reply, h, hrequest, hx⟩ := Outcome.andThen_eq_some hx
    rw [programVentures, hrequest]
    have hstill := still_answered number request reply h
    exact (requestVentures_books hcall hrequest).append (.still_trans hstill (ih reply hx))
  | charge amount next ih =>
    rw [outcome_interpret_charge] at hx
    exact .still_trans (still_charged number (gas + amount) f) (ih hx)
  | caught e next ih =>
    rw [interpret, outcome_bind, outcome_enter, Outcome.some_andThen] at hx
    have hstill : Still f { f with ledger := f.ledger.enter [.caught number e] } :=
      .withLedger f rfl
    exact .still_trans hstill (ih hx)

lemma running_books (hcall : Booked call nested) {start : Run (Nat × Program)}
    (hstart : ∀ r g, start.outcome f = some (r, g) → Still f g) {q : Except Failure Bytes}
    (hx : (running call start).outcome f = some (q, g)) :
    Books (venturesOf call nested start f) f g := by
  rw [running, outcome_bind] at hx
  obtain ⟨r, h, hbegin, hx⟩ := Outcome.andThen_eq_some hx
  have hstill := hstart r h hbegin
  rw [venturesOf, hbegin]
  cases r with
  | error e =>
    cases hx
    exact .of_still hstill
  | ok p => exact .still_trans hstill (programVentures_books hcall hx)

lemma deploy_books (hcall : Booked call nested) {q : Except Failure Unit}
    (hx : (deploy call).outcome f = some (q, g)) : Books (deployVentures call nested f) f g := by
  rw [deployVentures]
  rcases deploy_cases hx with ⟨hnew, -, hend⟩ | ⟨hnew, r, h, hconstruct, hsettle⟩
  · rw [hnew, if_neg Bool.false_ne_true]
    rcases hend with ⟨-, rfl⟩ | ⟨-, rfl⟩
    · exact .of_still (.refl _)
    · exact .of_still (.modifyContract f ⟨fun _ => rfl, fun _ _ => rfl⟩)
  · rw [hnew, if_pos rfl]
    rw [construct_eq, outcome_bind] at hconstruct
    obtain ⟨p, k, hrun, hend⟩ := Outcome.andThen_eq_some hconstruct
    obtain rfl : k = h := by
      cases p <;> (cases hend; rfl)
    have hbooks := running_books hcall (fun _ _ hbegin => (idles_inception hbegin).still) hrun
    rcases settling_cases hsettle with ⟨e, -, hemptied⟩ | ⟨-, hidles⟩
    · exact hbooks.trans_still (idles_emptied hemptied).still
    · have hconstructed : Still k (k.modifyContract constructed) :=
        .modifyContract k ⟨fun _ => rfl, fun _ _ => rfl⟩
      exact hbooks.trans_still (hconstructed.trans hidles.still)

lemma execute_books (hcall : Booked call nested) {calldata : Bytes}
    {sender origin : Option Address} {q : Except Failure CallResponse}
    (hx : (execute call calldata sender origin).outcome f = some (q, g)) :
    Books (executeVentures call nested calldata sender origin f) f g := by
  cases hdeploy : (deploy call).outcome f with
  | none =>
    rw [execute, outcome_bind, outcome_attempt, hdeploy] at hx
    cases hx
  | some o =>
  obtain ⟨r, h⟩ := o
  rw [executeVentures, hdeploy]
  refine (deploy_books hcall hdeploy).append ?_
  cases r with
  | error e =>
    rw [execute, outcome_bind, outcome_attempt, hdeploy] at hx
    cases hx
    exact .of_still (.refl _)
  | ok done =>
    rw [outcome_execute_of_deploy hdeploy, runMethod_eq] at hx
    obtain ⟨q, k, hmethod, hx⟩ := Outcome.andThen_eq_some hx
    have hbooks := running_books hcall (Calm.entry calldata (.caller sender origin) _) hmethod
    intro past hh
    obtain ⟨hwarranted, hk⟩ := hbooks past ⟨hh.own, hh.records⟩
    cases q with
    | ok reply =>
      cases hx
      exact ⟨hwarranted, hk⟩
    | error e =>
      cases hx
      have hback := hk.rolledBack (hh.own.mono (List.subset_append_left _ _))
      exact ⟨hwarranted, hback.still (still_abandoned _ _)⟩

lemma openCall_books (hcall : Booked call nested) {target : Address} {q : Except Failure Unit}
    (hx : (openCall call target).outcome f = some (q, g)) :
    Books (openVentures call nested target f) f g := by
  have hopened := (idles_opened f target).still
  rw [outcome_openCall_eq] at hx
  rw [openVentures]
  cases hn : f.ledger.nestedCalls with
  | false =>
    rw [hn, if_pos rfl] at hx
    cases hx
    exact .of_still (.refl f)
  | true =>
  rw [hn, if_neg (Bool.false_ne_true ∘ Eq.symm)] at hx
  cases ht : f.ledger.hasContract target with
  | false =>
    rw [ht, if_neg Bool.false_ne_true] at hx
    cases hx
    exact .of_still hopened
  | true =>
    rw [ht, if_pos rfl] at hx
    obtain ⟨r, h, hdeploy, hx⟩ := Outcome.andThen_eq_some hx
    cases hx
    intro past hf
    have hthere := Frame.Honest.registered (hf.still hopened).records target []
    obtain ⟨hwarranted, hh⟩ := deploy_books hcall hdeploy past hthere
    exact ⟨hwarranted, hf.withLedger (List.subset_append_left _ _) hh.records _⟩

lemma children_copied {target : Address} {copy : Contract}
    (hx : (copied call target).outcome f = some (.ok copy, g)) :
    copy.children = g.ledger.records target := by
  rw [copied, outcome_bind] at hx
  obtain ⟨r, h, hopen, hx⟩ := Outcome.andThen_eq_some hx
  cases r with
  | error e => cases hx
  | ok done =>
    simp only [outcome_copyTarget] at hx
    split at hx
    case h_2 => cases hx
    case h_1 l copy hcopy =>
      cases hx
      obtain ⟨code, resolved, rfl, rfl⟩ := copyOf_eq_ok hcopy
      exact Frame.children_contract (f := ⟨h.ledger, .registered target, []⟩) rfl

lemma copied_books (hcall : Booked call nested) {target : Address} {q : Except Failure Contract}
    (hx : (copied call target).outcome f = some (q, g)) :
    Books (openVentures call nested target f) f g := by
  rw [copied, outcome_bind] at hx
  obtain ⟨r, h, hopen, hx⟩ := Outcome.andThen_eq_some hx
  have hbooks := openCall_books hcall hopen
  cases r with
  | error e =>
    cases hx
    exact hbooks
  | ok done =>
    simp only [outcome_copyTarget] at hx
    split at hx
    case h_2 =>
      cases hx
      exact hbooks
    case h_1 l copy hcopy =>
      cases hx
      obtain ⟨code, resolved, rfl, rfl⟩ := copyOf_eq_ok hcopy
      exact hbooks.trans_still (.withLedger _ rfl)

lemma visitVentures_books (hcall : Booked call nested) :
    Booked (callWith call) (visitVentures call nested) := by
  intro target calldata f q g hx
  rw [outcome_callWith] at hx
  obtain ⟨r, h, hcopied, hx⟩ := Outcome.andThen_eq_some hx
  rw [visitVentures, hcopied]
  refine (copied_books hcall hcopied).append ?_
  cases r with
  | error e =>
    cases hx
    exact .of_still (.refl _)
  | ok copy =>
    obtain ⟨response, k, k', hexecute, hreported, rfl, -⟩ := entered_cases hx
    intro past hh
    have hcopy : Frame.Honest past ⟨h.ledger, .apart copy, []⟩ :=
      ⟨(children_copied hcopied).symm ▸ hh.records target, hh.records⟩
    have hvisit := (execute_books hcall hexecute).trans_still (reported_cases hreported).2
    obtain ⟨hwarranted, hk⟩ := hvisit past (hcopy.still (still_heard calldata _))
    exact ⟨hwarranted, hh.closed (List.subset_append_left _ _) hk target response⟩

lemma callVentures_books (n : Nat) : Booked (Run.call n) (callVentures n) := by
  induction n with
  | zero => exact fun _ _ _ _ _ hx => by cases hx
  | succ n ih => exact visitVentures_books ih

end Run

end ChainReplay
