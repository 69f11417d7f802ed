import ChainReplay.Proofs.Execution.Resumption

/-! What a contract asks of its host on a ledger that has been set back: calls of other contracts, and
copies of their code. -/

namespace ChainReplay

open Run

variable {w : Residue} {s : Accord} {p : Post} {α β γ δ : Type} {R : α → β → Prop}

lemma SameDeployments.append {first first' second second' : List Deployment}
    (h : SameDeployments w first first') (h' : SameDeployments w second second') :
    SameDeployments w (first ++ second) (first' ++ second') := by
  intro owner child hchild
  rw [List.mem_append, List.mem_append, h owner child hchild, h' owner child hchild]

namespace Run

/-- The request asks for a copy at an address where one of two records has one. -/
def asksAgain (differ : Address → Address → Bool) (f : Frame) (request : HostFunction)
    (data : Bytes) : Bool :=
  match request with
  | .deploy =>
    match deployRequest data with
    | .error _ => false
    | .ok (source, salt) =>
      (f.ledger.codes.find? source).any fun code =>
        differ f.contract.address (Ledger.derivedAddress f.contract.address salt code)
  | _ => false

/-- The request calls one of the contracts that are stale. -/
def asksStale (stale : Address → Bool) (request : HostFunction) (data : Bytes) : Bool :=
  match request with
  | .call =>
    match callRequest data with
    | .error _ => false
    | .ok (target, _) => stale target
  | _ => false

/-- The request asks for code of the others, for a copy that only one of two records has, or for a call
of a contract that is stale. -/
def asksAnew (others : List (Table Address Bytes)) (differ : Address → Address → Bool)
    (stale : Address → Bool) (f : Frame) (request : HostFunction) (data : Bytes) : Bool :=
  asksFor others f request data || asksAgain differ f request data || asksStale stale request data

lemma codes_modifyContract (f : Frame) (k : Contract → Contract) :
    (f.modifyContract k).ledger.codes = f.ledger.codes := by
  rw [Frame.modifyContract]
  cases f.seat <;> rfl

end Run

namespace Resumes

/-- What is run in another seat may bring the ledgers into further accord. -/
lemma bind_inSeat {t : Accord} {p' : Post} {U V : Frame → Frame → Prop} {x y : Run γ}
    {seat seat' : Seat} {k : Except Failure γ × Seat × List Deployment → Run α}
    {m : Except Failure γ × Seat × List Deployment → Run β}
    (hxy : Passes (Frame.Revived w s p') (Frame.Revived w t p') (Frame.Revived w t p') Eq x y)
    (hseat : Seat.Revived w p' seat seat')
    (hk : ∀ q visited visited' deployments deployments', Seat.Revived w p' visited visited' →
      SameDeployments w deployments deployments' →
      Passes (Frame.Revived w t p) V U R (k (q, visited, deployments))
        (m (q, visited', deployments'))) :
    Passes (Frame.Revived w s p) V U R (inSeat seat x >>= k) (inSeat seat' y >>= m) := by
  intro f g hfg q f' hx
  rw [outcome_bind, outcome_inSeat] at hx
  obtain ⟨visited, f₁, hvisit, hx⟩ := Outcome.andThen_eq_some hx
  obtain ⟨r, f₂, hrun, hend⟩ := Outcome.andThen_eq_some hvisit
  cases hend
  have hthere : Frame.Revived w s p' ⟨f.ledger, seat, []⟩ ⟨g.ledger, seat', []⟩ :=
    ⟨hfg.ledger, hseat, fun _ _ _ => .rfl⟩
  obtain ⟨r', g₂, hrun', hend⟩ := hxy _ _ hthere r f₂ hrun
  have hboth : r = r' ∧ Frame.Revived w t p' f₂ g₂ := by
    cases hend with
    | ok hr hcame => exact ⟨by rw [hr], hcame⟩
    | error e hcame => exact ⟨rfl, hcame⟩
  obtain ⟨rfl, hcame⟩ := hboth
  rw [outcome_bind, outcome_inSeat, hrun']
  exact hk r f₂.seat g₂.seat f₂.deployments g₂.deployments hcame.seat hcame.deployments _ _
    (hfg.withLedger hcame.ledger) q f' hx

lemma copyTarget (target : Address) :
    Resumes w s p (fun c d => c.address = target ∧ c.Revived w True True d)
      (Run.copyTarget target) (Run.copyTarget target) := by
  intro f g hfg q f' hx
  rw [outcome_copyTarget] at hx ⊢
  obtain ⟨hc, hd⟩ | ⟨c, d, hc, hd, hcd⟩ := hfg.ledger.found target
  · simp only [Seat.contract, hc, hd, Option.getD_none] at hx ⊢
    rw [copyOf_of_unresolved _ rfl] at hx ⊢
    cases hx
    exact ⟨_, _, rfl, .error _, hfg⟩
  · simp only [Seat.contract, hc, hd, Option.getD_some] at hx ⊢
    have haddress := hfg.ledger.filed target c hc
    have hsame : d.code = c.code ∧ d.address = c.address := by
      obtain ⟨-, -, -⟩ := hcd
      exact ⟨rfl, rfl⟩
    cases hcode : c.code with
    | none =>
      rw [copyOf_of_unresolved _ hcode] at hx
      rw [copyOf_of_unresolved _ (hsame.1.trans hcode), hsame.2]
      cases hx
      exact ⟨_, _, rfl, .error _, hfg⟩
    | some code =>
      have hfound := hfg.ledger.resolved target c hc code hcode
      have hfound' : g.ledger.codes.find? target = some code := by
        rw [hfg.ledger.codes, hfound, Option.some_or]
      rw [copyOf_of_known hcode (haddress ▸ hfound)] at hx
      rw [copyOf_of_known (hsame.1.trans hcode) (hsame.2.trans haddress ▸ hfound')]
      cases hx
      exact ⟨_, _, rfl, .ok ⟨haddress, hcd.twin code⟩, hfg⟩

lemma checkResponse_revived {l m : Ledger} (hl : l.surface = m.surface) {agreed loaded : Prop}
    {c d : Contract} (hcd : c.Revived w agreed loaded d) (hloaded : loaded)
    (response : CallResponse) : checkResponse l c response = checkResponse m d response := by
  obtain ⟨⟩ := Ledger.faces_of_surface hl
  obtain ⟨-, -, hremains⟩ := hcd
  obtain ⟨-, rfl, -⟩ := hremains hloaded
  rfl

lemma closeCall (hs : s.Covers p) {target : Address} (htarget : target ∈ w.keys)
    (hdeployed : s.deployed target) {c d : Contract} (hc : c.address = target)
    (hcd : c.Revived w True True d) {deployments deployments' : List Deployment}
    (hsame : SameDeployments w deployments deployments') (response : CallResponse) :
    Resumes w s p Eq (closeCall target c deployments response)
      (closeCall target d deployments' response) := by
  intro f g hfg q f' hx
  obtain ⟨hcarried, hnoted⟩ := hfg.ledger.carryOver htarget hdeployed hc hcd
  have hclosed : Frame.Revived w s p (closed target c deployments response f)
      (closed target d deployments' response g) := by
    have hcarry := (hfg.withLedger hcarried).withDeployments
      ((hfg.deployments.append hnoted).append hsame)
    exact hcarry.modifyContract (hcarry.contract.adopt response) ((Accord.Within.refl s).beyond p)
      (fun _ => rfl) fun _ => rfl
  rw [outcome_closeCall] at hx
  cases hx
  refine ⟨_, _, outcome_closeCall _ _ _ _ g, ?_, hclosed⟩
  rw [checkResponse_revived hcarried.surface hclosed.contract hs.loaded]
  exact .refl _

lemma receive (calldata : Bytes) {respond respond' : Run CallResponse}
    (h : Resumes w s p Eq respond respond') :
    Resumes w s p Eq (receive calldata respond) (receive calldata respond') := by
  rw [Run.receive]
  refine bind_contract fun c d _ _ => bind_ledger ?_
  rintro l _ - ⟨⟩
  refine Alike.optional (note _ _ _ _) (Alike.bind_eq h fun response => bind_ledger ?_)
  rintro l _ - ⟨⟩
  exact Alike.optional (note _ _ _ _) (Alike.bind_eq dispose fun _ => .pure rfl)

section Calls

variable {host host' : HostFunction → Bytes → Run Bytes}
  (hh : ∀ s p, s.Covers p → ∀ request data, Resumes w s p Eq (host request data) (host' request data))

include hh

/-- Once a call is opened, the two are in accord on the deployment of its target. -/
lemma openCallOn {target : Address} (hfresh : w.stale target = false) :
    Passes (Frame.Revived w s p) (Frame.Revived w (s.deploy (.registered target)) p)
      (Frame.Revived w s p) (fun _ _ => target ∈ w.keys) (openCallOn host target)
      (openCallOn host' target) := by
  have hwithin := s.within_deploy (.registered target)
  rw [Run.openCallOn, Run.openCallOn]
  refine (Passes.of_simulates contract fun _ _ hfg => hfg).bind ?_
  rintro caller _ ⟨-, -, -, -⟩
  refine (Passes.of_simulates ledger fun _ _ hfg => hfg).bind ?_
  rintro l l' ⟨hl, hfaces⟩
  rw [hl.hasContract target]
  obtain ⟨⟩ := hfaces
  refine .ite _ (.throw _ fun _ _ hfg => hfg) ?_
  refine .optional (note _ _ _ _) (fun _ _ hfg => hfg) ?_
  by_cases htarget : target ∈ w.keys
  case neg =>
    rw [if_pos, if_pos]
    · exact .throw _ fun _ _ hfg => hfg
    all_goals rw [Bool.eq_false_iff.mpr (mt (hl.hasContract_iff target).mp htarget), Bool.not_false]
  case pos =>
    rw [(hl.hasContract_iff target).mpr htarget]
    have hdeploy := deployOn (s := s) (p := .registered target) hh (.inr hfresh)
    refine bind_inSeat hdeploy (.registered htarget) fun q _ _ _ _ _ _ => ?_
    refine (Passes.of_simulates (Simulates.lift ?_) fun _ _ hfg => hfg).mono
      (fun _ _ hfg => hfg) fun _ _ hfg => hfg.mono hwithin
    cases q with
    | ok _ => exact .ok htarget
    | error e => exact .error e

lemma callOn (hs : s.Covers p) {target : Address} (hfresh : w.stale target = false)
    (calldata : Bytes) :
    Resumes w s p Eq (callOn host target calldata) (callOn host' target calldata) := by
  have hwithin := s.within_deploy (.registered target)
  have hcovers : (s.deploy (.registered target)).Covers p :=
    ⟨hwithin.deployedAt hs.deployed, hwithin.loadedAt hs.loaded⟩
  rw [Run.callOn, Run.callOn]
  refine Passes.simulates ((openCallOn hh hfresh).bind fun _ _ htarget => mono ?_ hwithin)
  refine (copyTarget target).bind ?_
  rintro copy copy' ⟨haddress, hcopy⟩
  refine bind_contract ?_
  rintro caller _ - ⟨-, -, -⟩
  refine bind_ledger ?_
  rintro l _ - ⟨⟩
  have hrun := receive (s := s.deploy (.registered target)) calldata
    (executeOn (p := .apart copy.address) hh (.inl trivial) calldata (some caller.address)
      (some l.origin))
  refine (bind_inSeat (Passes.of_simulates hrun fun _ _ hfg => hfg) (.apart hcopy) ?_).simulates
  intro q visited visited' deployments deployments' hvisited hsame
  refine Passes.of_simulates (bind_ledger fun l l' hl _ => ?_) fun _ _ hfg => hfg
  refine Alike.bind_eq (Alike.lift q) fun response => ?_
  obtain ⟨hthere, hcarried⟩ := hvisited.contract hl
  exact closeCall hcovers htarget (.inr rfl) (hthere.trans haddress) hcarried hsame response

end Calls

lemma loadPointer (pointer : Int) :
    Resumes w s p Eq (Host.loadPointer pointer) (Host.loadPointer pointer) := by
  rw [Host.loadPointer]
  refine bind_contract ?_
  rintro c _ - ⟨-, -, -⟩
  refine bind_ledger ?_
  rintro l _ - ⟨⟩
  exact Alike.optional (note _ _ _ _) (.pure rfl)

lemma storePointer (hs : s.deployedAt p) (pointer value : Int) :
    Resumes w s p Eq (Host.storePointer pointer value) (Host.storePointer pointer value) := by
  rw [Host.storePointer]
  refine bind_contract ?_
  rintro c _ - ⟨-, -, -⟩
  refine bind_ledger ?_
  rintro l _ - ⟨⟩
  refine Alike.optional (note _ _ _ _) (modifyContract ?_ (fun _ => rfl) fun _ => rfl)
  intro c d _ hcd
  have hstored := hcd.withStates hs (c.states.store pointer value)
  obtain ⟨-, -, -⟩ := hcd
  exact hstored

lemma answer {call call' : Address → Bytes → Run CallResponse} (hs : s.Covers p)
    (hcall : ∀ target calldata, w.stale target = false →
      Resumes w s p Eq (call target calldata) (call' target calldata))
    {request : HostFunction} {data : Bytes} (hdeploy : request ≠ .deploy)
    (hfresh : ∀ target calldata, request = .call → callRequest data = .ok (target, calldata) →
      w.stale target = false) :
    Resumes w s p Eq (Host.answer call request data) (Host.answer call' request data) := by
  cases request with
  | load =>
    refine Alike.bind_eq (Alike.lift _) fun pointer => ?_
    exact Alike.bind_eq (loadPointer _) fun value => Alike.lift _
  | store =>
    refine Alike.bind_eq (Alike.lift _) fun entry => ?_
    exact Alike.bind_eq (storePointer hs.deployed _ _) fun _ => .pure rfl
  | nextPointer =>
    refine Alike.bind_eq (Alike.lift _) fun query => bind_contract ?_
    rintro c _ - ⟨-, -, -⟩
    exact Alike.lift _
  | call =>
    refine Simulates.bind (.lift (Agree.itself _)) ?_
    rintro ⟨target, calldata⟩ _ ⟨rfl, hrequest⟩
    refine Alike.bind_eq (hcall _ _ (hfresh target calldata rfl hrequest)) fun response => ?_
    exact Alike.bind_eq (Alike.lift _) fun gas => .pure rfl
  | deploy => exact absurd rfl hdeploy
  | inputs =>
    refine bind_ledger ?_
    rintro l _ - ⟨⟩
    exact .pure rfl
  | outputs =>
    refine bind_ledger ?_
    rintro l _ - ⟨⟩
    exact .pure rfl
  | log =>
    refine Alike.bind_eq (Alike.lift _) fun message => ?_
    exact Alike.bind_eq (bind_contract fun _ _ _ _ => note _ _ _ _) fun _ => .pure rfl
  | emit =>
    refine Alike.bind_eq (Alike.lift _) fun event => ?_
    refine Alike.bind_eq (modifyContract ?_ (fun _ => rfl) fun _ => rfl) fun _ => .pure rfl
    exact fun _ _ _ hcd => hcd.emit _

def Deploying (w : Residue) (s : Accord) (p : Post) (codes : Table Address Bytes) (f g : Frame) :
    Prop :=
  Frame.Revived w s p f g ∧ codes.Included f.ledger.codes

lemma deployFrom_revived {agreed loaded : Prop} {c d : Contract} {l m : Ledger} {source : Address}
    {salt : Bytes} (hcd : c.Revived w agreed loaded d) (hl : l.Revived w s m) (hfaces : l.Faces m)
    (hunaware : Follows.Unaware w.offset l c.address source salt)
    (hdiffer : ∀ code, l.codes.find? source = some code →
      ¬w.differ c.address (Ledger.derivedAddress c.address salt code)) :
    Simulates (Deploying w s p l.codes) Eq (Follows.deployFrom c l source salt)
      (Follows.deployFrom d m source salt) := by
  have hcode := Follows.code?_of_extends hl.codes hunaware.unknown
  have hnote (level : Level) (text : Text) :
      Simulates (Deploying w s p l.codes) Eq (Run.note level text) (Run.note level text) :=
    .step (outcome_note level text) (outcome_note level text) (fun _ _ _ => rfl)
      fun f g hfg => ⟨hfg.1.withLedger (hfg.1.ledger.withBooks _ _ _ _ _ _), hfg.2⟩
  obtain ⟨hrecords, -, -⟩ := hcd
  obtain ⟨⟩ := hfaces
  rw [Follows.deployFrom, Follows.deployFrom, Ledger.generateAddress, Ledger.generateAddress, hcode]
  refine Alike.optional (hnote _ _) (Simulates.bind (.lift (Agree.itself _)) ?_)
  rintro ⟨seed, derived⟩ _ ⟨rfl, hgenerated⟩
  -- the code of the source is known, or no address would have been derived
  obtain ⟨code, hfound⟩ : ∃ code, l.codes.find? source = some code := by
    cases hfind : l.codes.find? source with
    | some code => exact ⟨code, rfl⟩
    | none =>
      simp only [Ledger.code?, hfind] at hgenerated
      cases hgenerated
  have hknown : l.code? source = .ok code := by simp only [Ledger.code?, hfound]
  have hderived : derived = Ledger.derivedAddress c.address salt code := by
    rw [hknown] at hgenerated
    cases hgenerated
    rfl
  dsimp only
  rw [hrecords derived (hderived ▸ hdiffer code hfound), hknown]
  refine .ite _ (.throw _) (.ite _ (.throw _) (Simulates.bind (.lift (Agree.itself _)) ?_))
  rintro own _ ⟨rfl, hown⟩
  cases hown
  refine Alike.bind_eq (.step (outcome_modifyLedger _) (outcome_modifyLedger _)
    (fun _ _ _ => rfl) fun f g hfg => ?_) fun _ => ?_
  · refine ⟨hfg.1.withLedger (hfg.1.ledger.setCode ?_), hfg.2.trans (Table.included_insertNew _ _ _)⟩
    exact (hderived ▸ hunaware.derived code hfound).imp_left hfg.2.contains
  refine Alike.bind_eq (.step (outcome_modifyContract _) (outcome_modifyContract _)
    (fun _ _ _ => rfl) fun f g hfg => ⟨?_, ?_⟩) fun _ => Alike.optional (hnote _ _) (.pure rfl)
  · exact hfg.1.modifyContract (hfg.1.contract.recording derived code)
      ((Accord.Within.refl s).beyond p) (fun _ => rfl) fun _ => rfl
  · rw [codes_modifyContract]
    exact hfg.2

lemma deployCopy {f g : Frame} (hfg : Frame.Revived w s p f g) {source : Address} {salt : Bytes}
    (hunaware : Follows.Unaware w.offset f.ledger f.contract.address source salt)
    (hdiffer : ∀ code, f.ledger.codes.find? source = some code →
      ¬w.differ f.contract.address (Ledger.derivedAddress f.contract.address salt code))
    {q : Except Failure (Bytes × Address)} {f' : Frame}
    (hx : (Host.deployCopy source salt).outcome f = some (q, f')) :
    ∃ g', (Host.deployCopy source salt).outcome g = some (q, g') ∧ Frame.Revived w s p f' g' := by
  have hfrom := deployFrom_revived (s := s) (p := p) hfg.contract hfg.ledger hfg.faces hunaware
    hdiffer
  obtain ⟨g', hg', hS⟩ := hfrom.outcome ⟨hfg, .refl _⟩ hx
  exact ⟨g', hg', hS.1⟩

section Barred

variable {others : List (Table Address Bytes)}

lemma deploy (hothers : w.offset.Within others) (call call' : Address → Bytes → Run CallResponse)
    (data : Bytes) :
    Resumes w s p Eq (barring (asksAnew others w.differ w.stale) (Host.answer call) .deploy data)
      (Host.answer call' .deploy data) := by
  intro f g hfg q f' hx
  rw [outcome_barring] at hx
  split at hx
  case isTrue => cases hx
  case isFalse hasks =>
    rw [answer_deploy, outcome_bind, outcome_lift] at hx ⊢
    cases hdata : deployRequest data with
    | error e =>
      rw [hdata] at hx
      cases hx
      exact ⟨_, _, rfl, .error e, hfg⟩
    | ok request =>
      obtain ⟨source, salt⟩ := request
      rw [asksAnew, Bool.or_eq_true, Bool.or_eq_true, not_or, not_or, Bool.not_eq_true,
        Bool.not_eq_true] at hasks
      obtain ⟨⟨hreveals, hagain⟩, -⟩ := hasks
      simp only [asksFor, hdata] at hreveals
      simp only [asksAgain, hdata] at hagain
      have hdiffer (code : Bytes) (hcode : f.ledger.codes.find? source = some code) :
          ¬w.differ f.contract.address
            (Ledger.derivedAddress f.contract.address salt code) := by
        rw [hcode, Option.any_some] at hagain
        rw [hagain]
        exact Bool.false_ne_true
      simp only [hdata, Outcome.some_andThen, outcome_bind] at hx ⊢
      obtain ⟨r, f₁, hcopy, hx⟩ := Outcome.andThen_eq_some hx
      obtain ⟨g₁, hcopy', hfg₁⟩ := deployCopy hfg
        (Follows.unaware_of_not_reveals hothers hreveals) hdiffer hcopy
      rw [hcopy']
      cases r with
      | error e =>
        cases hx
        exact ⟨_, _, rfl, .error e, hfg₁⟩
      | ok copy =>
        cases hx
        exact ⟨_, _, rfl, .ok rfl, hfg₁⟩

lemma barring (hothers : w.offset.Within others) {call call' : Address → Bytes → Run CallResponse}
    (hs : s.Covers p)
    (hcall : ∀ target calldata, w.stale target = false →
      Resumes w s p Eq (call target calldata) (call' target calldata))
    (request : HostFunction) (data : Bytes) :
    Resumes w s p Eq (barring (asksAnew others w.differ w.stale) (Host.answer call) request data)
      (Host.answer call' request data) := by
  by_cases hdeploy : request = .deploy
  · rw [hdeploy]
    exact deploy hothers call call' data
  · intro f g hfg q f' hx
    rw [outcome_barring] at hx
    split at hx
    case isTrue => cases hx
    case isFalse hasks =>
      refine answer hs hcall hdeploy ?_ f g hfg q f' hx
      rintro target calldata rfl hrequest
      rw [asksAnew, Bool.or_eq_true, not_or, Bool.not_eq_true, Bool.not_eq_true] at hasks
      simpa only [asksStale, hrequest] using hasks.2

/-- A request is answered alike if it does not ask anew for what is left of the runs undone. -/
theorem barredHost (hothers : w.offset.Within others) (n : Nat) (s : Accord) (p : Post)
    (hs : s.Covers p) (request : HostFunction) (data : Bytes) :
    Resumes w s p Eq (barredHost (asksAnew others w.differ w.stale) n request data)
      (Host.answer (Run.call n) request data) := by
  have hcall (s : Accord) (p : Post) (hs : s.Covers p) (target : Address) (calldata : Bytes)
      (hfresh : w.stale target = false) :
      Resumes w s p Eq (barredCall (asksAnew others w.differ w.stale) n target calldata)
        (Run.call n target calldata) := by
    induction n generalizing s p target calldata with
    | zero => exact .outOfFuel _
    | succ n ih =>
      rw [Run.call, callWith_eq_callOn]
      exact callOn (fun s p hs => barring hothers hs (ih s p hs)) hs hfresh calldata
  exact barring hothers hs (hcall s p hs) request data

end Barred

end Resumes

end ChainReplay
