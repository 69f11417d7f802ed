import ChainReplay.Proofs.Execution.Counterpart
import ChainReplay.Proofs.Execution.Hosting

/-! Runs on counterparts. What a run does on the first frame, it does on the second one too, as long
as it does not ask for code that only the second ledger knows. -/

namespace ChainReplay

open Run

abbrev Follows (o : Offset) (codes : Table Address Bytes) {α β : Type} (R : α → β → Prop)
    (x : Run α) (y : Run β) : Prop :=
  Simulates (Frame.Counterpart o codes) R x y

lemma Contract.Counterpart.handle? {o : Offset} {c d : Contract} (h : c.Counterpart o d) :
    Agree (Handle.Counterpart o) c.handle? d.handle? := by
  obtain ⟨-, -, hhandle⟩ := h
  cases hc : c.handle with
  | none =>
    rw [hc] at hhandle
    cases hhandle
    simp only [Contract.handle?, hc]
    exact .error _
  | some x =>
    rw [hc] at hhandle
    cases hhandle with
    | some hx =>
      simp only [Contract.handle?, hc]
      exact .ok hx

lemma Agree.itself {α : Type} (r : Except Failure α) :
    Agree (fun a b => a = b ∧ r = .ok a) r r := by
  cases r with
  | ok a => exact .ok ⟨rfl, rfl⟩
  | error e => exact .error e

namespace Follows

variable {o : Offset} {codes : Table Address Bytes} {α β γ δ : Type} {R : α → β → Prop}

lemma bind_contract {k : Contract → Run α} {m : Contract → Run β}
    (h : ∀ codes' c d, codes.Included codes' → c.Known codes' → c.Counterpart o d →
      Follows o codes' R (k c) (m d)) :
    Follows o codes R (contract >>= k) (contract >>= m) := by
  intro f g hfg q f' hx
  rw [outcome_bind, outcome_contract, Outcome.some_andThen] at hx
  obtain ⟨r, g', hy, hr, hS⟩ := h f.ledger.codes f.contract g.contract hfg.included hfg.known
    hfg.contract f g hfg.self q f' hx
  refine ⟨r, g', ?_, hr, hS.weaken hfg.included⟩
  rw [outcome_bind, outcome_contract, Outcome.some_andThen]
  exact hy

lemma bind_ledger {k : Ledger → Run α} {m : Ledger → Run β}
    (h : ∀ l l', codes.Included l.codes → l.Counterpart o l' → l.Faces l' →
      Follows o l.codes R (k l) (m l')) :
    Follows o codes R (ledger >>= k) (ledger >>= m) := by
  intro f g hfg q f' hx
  rw [outcome_bind, outcome_ledger, Outcome.some_andThen] at hx
  obtain ⟨r, g', hy, hr, hS⟩ := h f.ledger g.ledger hfg.included hfg.ledger
    (Ledger.faces_of_surface hfg.surface) f g hfg.self q f' hx
  refine ⟨r, g', ?_, hr, hS.weaken hfg.included⟩
  rw [outcome_bind, outcome_ledger, Outcome.some_andThen]
  exact hy

lemma modifyContract {k k' : Contract → Contract}
    (hk : ∀ c d, c.Counterpart o d → (k c).Counterpart o (k' d))
    (hknown : ∀ codes' c, codes.Included codes' → c.Known codes' → (k c).Known codes') :
    Follows o codes Eq (Run.modifyContract k) (Run.modifyContract k') :=
  .step (outcome_modifyContract k) (outcome_modifyContract k') (fun _ _ _ => rfl)
    fun f _ hfg => hfg.modifyContract hk (hknown f.ledger.codes · hfg.included)

lemma modifyLedger {k k' : Ledger → Ledger}
    (hk : ∀ l l', l.Counterpart o l' → (k l).Counterpart o (k' l'))
    (hsurface : ∀ l, (k l).surface = l.surface) (hsurface' : ∀ l, (k' l).surface = l.surface)
    (hcodes : ∀ l, (k l).codes = l.codes) :
    Follows o codes Eq (Run.modifyLedger k) (Run.modifyLedger k') := by
  refine .step (outcome_modifyLedger k) (outcome_modifyLedger k') (fun _ _ _ => rfl)
    fun f g hfg => hfg.withLedger (hk _ _ hfg.ledger) ?_ ?_
  · rw [hsurface, hsurface', hfg.surface]
  · rw [hcodes]
    exact .refl _

lemma enter (e e' : Entry) : Follows o codes Eq (Run.enter e) (Run.enter e') :=
  modifyLedger (fun _ _ h => h.withBooks _ _ _ _ _ _) (fun _ => rfl) (fun _ => rfl) fun _ => rfl

lemma note (level level' : Level) (text text' : Text) :
    Follows o codes Eq (Run.note level text) (Run.note level' text') :=
  modifyLedger (fun _ _ h => h.note _ _ _ _) (fun _ => rfl) (fun _ => rfl) fun _ => rfl

lemma count {n n' : Nat} (h : n + o.second = n' + o.first) :
    Follows o codes Eq (Run.modifyLedger fun l => { l with handles := n })
      (Run.modifyLedger fun l => { l with handles := n' }) :=
  modifyLedger (fun _ _ hl => ⟨hl.contracts, hl.known, hl.codes, h⟩) (fun _ => rfl) (fun _ => rfl)
    fun _ => rfl

lemma dispose : Follows o codes Eq Run.dispose Run.dispose := by
  rw [Run.dispose]
  refine bind_contract fun codes' c d hcodes hc hcd => Alike.bind_eq ?_ fun _ => ?_
  · exact modifyLedger (fun _ _ h => h.withBooks _ _ _ _ _ _) (fun _ => rfl) (fun _ => rfl)
      fun _ => rfl
  · exact modifyContract (fun _ _ h => h.dispose) fun _ _ _ h => h.dispose

lemma load : Follows o codes (Handle.Counterpart o) Run.load Run.load := by
  rw [Run.load]
  refine Alike.bind_eq dispose fun _ => Alike.bind_eq (modifyContract ?_ ?_) fun _ => ?_
  · rintro c _ ⟨hs, ht, hh⟩
    exact .intro hs ht hh
  · exact fun _ c _ hc => ⟨hc.code, hc.children⟩
  refine bind_contract ?_
  rintro codes' c _ - hc ⟨hs, ht, hh⟩
  refine bind_ledger ?_
  rintro l _ - hl ⟨codes, contracts, retired, handles, journal, notices⟩
  refine Alike.bind_eq (Alike.lift c.code?) fun code => ?_
  refine Alike.bind_eq (Alike.lift l.engine?) fun engine => ?_
  have hcount : l.handles + 1 + o.second = handles + 1 + o.first := by
    have hhandles : l.handles + o.second = handles + o.first := hl.handles
    omega
  refine Alike.bind_eq (count hcount) fun _ => Alike.bind_eq (enter _ _) fun _ => ?_
  refine Alike.bind_eq (Alike.lift (engine.instantiate _)) fun program => ?_
  have hhandle : Handle.Counterpart o ⟨l.handles + 1, 0, program⟩ ⟨handles + 1, 0, program⟩ :=
    .intro hcount
  refine Alike.bind_eq (modifyContract ?_ ?_) fun _ => .pure hhandle
  · rintro c _ ⟨hs, ht, _⟩
    exact .intro hs ht (.some hhandle)
  · exact fun _ c _ hc => ⟨hc.code, hc.children⟩

lemma setEnvironment (given : EnvironmentGiven) :
    Follows o codes Eq (setEnvironment given) (setEnvironment given) := by
  rw [Run.setEnvironment]
  refine bind_contract fun codes' c d _ hc hcd => ?_
  refine bind_ledger ?_
  rintro l _ - hl ⟨codes, contracts, retired, handles, journal, notices⟩
  have hrecord : environmentRecord l c given = environmentRecord
      { l with codes, contracts, retired, handles, journal, notices } d given := by
    obtain ⟨⟩ := hcd
    rfl
  rw [hrecord]
  refine Alike.bind_eq (Alike.lift _) fun record => Simulates.bind (.lift hcd.handle?) ?_
  rintro h _ ⟨number⟩
  refine Alike.bind_eq (enter _ _) fun _ => ?_
  cases h.program.refusal with
  | some e => exact .throw e
  | none => exact .pure rfl

lemma observeGas (gas : Int) (method : Text) :
    Follows o codes Eq (Host.observeGas gas method) (Host.observeGas gas method) := by
  rw [Host.observeGas]
  refine bind_ledger ?_
  rintro l _ - hl ⟨⟩
  exact .ite _ (bind_contract fun _ _ _ _ _ _ => note _ _ _ _) (.pure rfl)

lemma meter {number number' : Nat} (h : number + o.second = number' + o.first) (gas : Int) :
    Follows o codes Eq (Run.modifyContract (·.meter number gas))
      (Run.modifyContract (·.meter number' gas)) :=
  modifyContract (fun _ _ hcd => hcd.meter h gas) fun _ _ _ hc => ⟨hc.code, hc.children⟩

lemma discardDeployments : Follows o codes Eq discardDeployments discardDeployments := by
  refine .step outcome_discardDeployments outcome_discardDeployments (fun _ _ _ => rfl) ?_
  intro f g hfg
  rw [hfg.deployments]
  exact (hfg.withdraw g.deployments.reverse).withDeployments []

lemma pure_response {c d : Contract} (h : c.Counterpart o d) (result : Except Failure Bytes) :
    Follows o codes Eq
      (pure (⟨result, c.events, c.callStack, (c.handle.map (·.gas)).getD 0⟩ : CallResponse))
      (pure (⟨result, d.events, d.callStack, (d.handle.map (·.gas)).getD 0⟩ : CallResponse)) := by
  rw [h.gas]
  obtain ⟨-, -, -⟩ := h
  exact .pure rfl

section Hosts

variable {host host' : HostFunction → Bytes → Run Bytes}
  (hh : ∀ codes request data, Follows o codes Eq (host request data) (host' request data))

include hh

lemma interpret {number number' : Nat} (h : number + o.second = number' + o.first) (p : Program)
    (gas : Int) :
    Follows o codes Eq (interpret host number p gas) (interpret host' number' p gas) := by
  induction p generalizing gas with
  | done reply => exact .pure rfl
  | fail e => exact .throw e
  | ask request data next ih =>
    refine (hh codes request data).attempt.bind fun q r hqr => ?_
    cases hqr.eq
    cases q with
    | error e => exact ih (.error e) gas
    | ok bs =>
      exact .ite _ (Alike.bind_eq (enter _ _) fun _ => ih (.ok bs) gas) (ih (.ok bs) gas)
  | charge amount next ih =>
    refine Alike.bind_eq (meter h _) fun _ => ?_
    exact Alike.bind_eq (observeGas _ _) fun _ => ih _
  | caught e next ih => exact Alike.bind_eq (enter _ _) fun _ => ih gas

lemma runMethod (calldata : Bytes) (given : EnvironmentGiven) :
    Follows o codes Eq (runMethod host calldata given) (runMethod host' calldata given) := by
  rw [Run.runMethod, Run.runMethod]
  refine Simulates.bind load ?_
  rintro h _ ⟨number⟩
  refine Alike.bind_eq (setEnvironment given) fun record => ?_
  exact Alike.bind_eq (enter _ _) fun _ => interpret hh number _ _

lemma constructOn : Follows o codes Eq (constructOn host) (constructOn host') := by
  rw [Run.constructOn, Run.constructOn]
  refine Simulates.bind load ?_
  rintro h _ ⟨number⟩
  refine bind_contract ?_
  rintro codes' c _ - hc ⟨hs, ht, -⟩
  refine Alike.bind_eq (setEnvironment _) fun record => ?_
  refine Alike.bind_eq (enter _ _) fun _ => ?_
  exact Alike.bind_eq (interpret hh number _ _) fun _ => .pure rfl

lemma deployOn : Follows o codes Eq (deployOn host) (deployOn host') := by
  rw [Run.deployOn, Run.deployOn]
  refine bind_contract ?_
  rintro codes' c _ - hc ⟨hs, ht, -⟩
  refine .ite _ (.pure rfl) ?_
  simp only [hs.isEmpty, ht.isEmpty]
  refine .ite _ (Alike.bind_eq (modifyContract ?_ ?_) fun _ => .pure rfl) ?_
  · rintro c _ ⟨hs, ht, hh⟩
    exact .intro hs ht hh
  · exact fun _ c _ hc => ⟨hc.code, hc.children⟩
  refine (constructOn hh).attempt.bind fun q r hqr => ?_
  cases hqr.eq
  cases q with
  | error e =>
    refine Alike.bind_eq (modifyContract ?_ ?_) fun _ => ?_
    · rintro c _ ⟨hs, ht, hh⟩
      exact .intro (.refl []) ht hh
    · exact fun _ c _ hc => ⟨hc.code, hc.children⟩
    · exact Alike.bind_eq dispose fun _ => .throw _
  | ok _ =>
    refine Alike.bind_eq (modifyContract ?_ ?_) fun _ => ?_
    · rintro c _ ⟨hs, ht, hh⟩
      exact .intro hs hs hh
    · exact fun _ c _ hc => ⟨hc.code, hc.children⟩
    refine bind_ledger ?_
    rintro l _ - hl ⟨⟩
    refine .ite _ (bind_contract fun _ _ _ _ _ _ => ?_) dispose
    exact Alike.bind_eq (note _ _ _ _) fun _ => dispose

lemma executeOn (calldata : Bytes) (sender origin : Option Address) :
    Follows o codes Eq (executeOn host calldata sender origin)
      (executeOn host' calldata sender origin) := by
  rw [Run.executeOn, Run.executeOn]
  refine (deployOn hh).attempt.bind fun q r hqr => ?_
  cases hqr.eq
  cases q with
  | error e =>
    refine bind_contract ?_
    rintro codes' c _ - hc ⟨-, -, -⟩
    exact .pure rfl
  | ok _ => ?_
  refine bind_contract ?_
  rintro codes₁ before _ - hbefore ⟨hs, ht, -⟩
  refine Alike.bind_eq (.step (outcome_modify _) (outcome_modify _) (fun _ _ _ => rfl)
    fun f g hfg => hfg.withDeployments []) fun _ => ?_
  refine (runMethod hh _ _).attempt.bind fun q r hqr => ?_
  cases hqr.eq
  cases q with
  | ok reply =>
    exact bind_contract fun _ c d _ _ hcd => pure_response hcd _
  | error e =>
    refine Alike.bind_eq (modifyContract ?_ ?_) fun _ => ?_
    · rintro c _ ⟨-, ht', hh'⟩
      exact .intro hs ht' hh'
    · exact fun codes₂ c hcodes hc =>
        ⟨hc.code, fun a ha => hcodes.contains (hbefore.children a ha)⟩
    refine Alike.bind_eq discardDeployments fun _ => bind_contract fun _ c d _ _ hcd => ?_
    refine Alike.bind_eq (note _ _ _ _) fun _ => Alike.bind_eq dispose fun _ => ?_
    exact pure_response hcd _

end Hosts

/-- What comes back from another seat is known of the ledger that comes back. -/
lemma bind_inSeat {x y : Run γ} {s t : Seat}
    {k m : Except Failure γ × Seat × List Deployment → Run δ}
    (hxy : ∀ codes, Follows o codes Eq x y) (hseat : s.Counterpart o t)
    (hknown : ∀ c, s = .apart c → c.Known codes)
    (hk : ∀ codes' q s' t' deployments, codes.Included codes' → s'.Counterpart o t' →
      (∀ c, s' = .apart c → c.Known codes') →
      Follows o codes' Eq (k (q, s', deployments)) (m (q, t', deployments))) :
    Follows o codes Eq (inSeat s x >>= k) (inSeat t y >>= m) := by
  intro f g hfg q f' hx
  rw [outcome_bind, outcome_inSeat] at hx
  obtain ⟨visited, f₁, hvisit, hx⟩ := Outcome.andThen_eq_some hx
  obtain ⟨r, f₂, hrun, hend⟩ := Outcome.andThen_eq_some hvisit
  cases hend
  have hthere := hfg.visit hseat fun c hc => (hknown c hc).mono hfg.included
  obtain ⟨g₂, hrun', hcame⟩ := (hxy _).outcome hthere hrun
  have hback := hfg.comeBack hcame
  obtain ⟨r', g', hy, hr, hS⟩ := hk f₂.ledger.codes r f₂.seat g₂.seat f₂.deployments
    (hfg.included.trans hcame.included) hcame.seat (fun _ => hcame.known_apart) _ _ hback q f' hx
  refine ⟨r', g', ?_, hr, hS.weaken (hfg.included.trans hcame.included)⟩
  rw [outcome_bind, outcome_inSeat, hrun']
  simp only [Outcome.some_andThen, ← hcame.deployments]
  exact hy

/-- The copy that a nested call runs on is known. -/
lemma bind_copyTarget {target : Address} {k m : Contract → Run δ}
    (hk : ∀ codes' c d, codes.Included codes' → c.Known codes' → c.Counterpart o d →
      Follows o codes' Eq (k c) (m d)) :
    Follows o codes Eq (copyTarget target >>= k) (copyTarget target >>= m) := by
  intro f g hfg q f' hx
  rw [outcome_bind, outcome_copyTarget] at hx
  rw [outcome_bind, outcome_copyTarget]
  have htarget := Seat.Counterpart.contract hfg.ledger (.registered target)
  have hknown := Frame.Counterpart.known_registered hfg.ledger target
  revert htarget hknown hx
  generalize Seat.contract f.ledger (.registered target) = c
  generalize Seat.contract g.ledger (.registered target) = d
  intro hx hcd hc
  have haddress : d.code = c.code ∧ d.address = c.address := by
    obtain ⟨-, -, -⟩ := hcd
    exact ⟨rfl, rfl⟩
  cases hcode : c.code with
  | none =>
    rw [copyOf_of_unresolved _ hcode] at hx
    rw [copyOf_of_unresolved _ (haddress.1.trans hcode), haddress.2]
    cases hx
    exact ⟨_, _, rfl, .error _, hfg⟩
  | some code =>
    have hfound := hc.code code hcode
    rw [copyOf_of_known hcode hfound] at hx
    rw [copyOf_of_known (haddress.1.trans hcode) (haddress.2 ▸ hfg.ledger.code hfound)]
    obtain ⟨r, g', hy, hr, hS⟩ := hk f.ledger.codes _ _ hfg.included (hc.twin hcode)
      (hcd.twin code) f g hfg.self q f' hx
    exact ⟨r, g', hy, hr, hS.weaken hfg.included⟩

lemma checkResponse_counterpart {l m : Ledger} (hl : l.surface = m.surface) {c d : Contract}
    (hcd : c.Counterpart o d) (response : CallResponse) :
    checkResponse l c response = checkResponse m d response := by
  obtain ⟨⟩ := Ledger.faces_of_surface hl
  obtain ⟨-, -, -⟩ := hcd
  rfl

lemma closeCall (target : Address) {c d : Contract} (hc : c.Known codes) (hcd : c.Counterpart o d)
    (deployments : List Deployment) (response : CallResponse) :
    Follows o codes Eq (closeCall target c deployments response)
      (closeCall target d deployments response) := by
  intro f g hfg q f' hx
  obtain ⟨hcarried, hnoted⟩ := hfg.ledger.carryOver target hcd (hc.mono hfg.included)
  have hsurface :
      (carryOver f.ledger target c).1.surface = (carryOver g.ledger target d).1.surface := by
    rw [Ledger.surface_carryOver, Ledger.surface_carryOver, hfg.surface]
  have hgrown : f.ledger.codes.Included (carryOver f.ledger target c).1.codes := by
    rw [Ledger.codes_carryOver]
    exact .refl _
  have hclosed : Frame.Counterpart o codes (closed target c deployments response f)
      (closed target d deployments response g) := by
    have hcarry := (hfg.withLedger hcarried hsurface hgrown).withDeployments
      (f.deployments ++ (carryOver f.ledger target c).2 ++ deployments)
    rw [closed, closed, ← hnoted, ← hfg.deployments]
    refine hcarry.modifyContract ?_ fun _ hknown => ⟨hknown.code, hknown.children⟩
    rintro _ _ ⟨hs, ht, hh⟩
    exact .intro hs ht hh
  rw [outcome_closeCall] at hx
  cases hx
  refine ⟨_, _, outcome_closeCall _ _ _ _ g, ?_, hclosed⟩
  rw [checkResponse_counterpart ((Ledger.surface_carryOver _ _ _).trans
    (hfg.surface.trans (Ledger.surface_carryOver _ _ _).symm)) hclosed.contract]
  exact .refl _

lemma receive (calldata : Bytes) {respond respond' : Run CallResponse}
    (h : ∀ codes, Follows o codes Eq respond respond') :
    Follows o codes Eq (receive calldata respond) (receive calldata respond') := by
  rw [Run.receive]
  refine bind_contract fun codes₁ c d _ _ hcd => bind_ledger ?_
  rintro l _ - - ⟨⟩
  refine Alike.optional (note _ _ _ _) (Alike.bind_eq (h _) fun response => bind_ledger ?_)
  rintro l _ - - ⟨⟩
  exact Alike.optional (note _ _ _ _) (Alike.bind_eq dispose fun _ => .pure rfl)

section Calls

variable {host host' : HostFunction → Bytes → Run Bytes}
  (hh : ∀ codes request data, Follows o codes Eq (host request data) (host' request data))

include hh

lemma openCallOn (target : Address) :
    Follows o codes Eq (openCallOn host target) (openCallOn host' target) := by
  rw [Run.openCallOn, Run.openCallOn]
  refine bind_contract ?_
  rintro codes₁ caller _ - - ⟨-, -, -⟩
  refine bind_ledger fun l l' _ hl hfaces => ?_
  rw [hl.hasContract target]
  obtain ⟨⟩ := hfaces
  refine .ite _ (.throw _) (Alike.optional (note _ _ _ _) (.ite _ (.throw _) ?_))
  refine bind_inSeat (fun _ => deployOn hh) (.registered target) (fun _ h => by cases h) ?_
  exact fun _ q _ _ _ _ _ _ => Alike.lift q

lemma callOn (target : Address) (calldata : Bytes) :
    Follows o codes Eq (callOn host target calldata) (callOn host' target calldata) := by
  rw [Run.callOn, Run.callOn]
  refine Alike.bind_eq (openCallOn hh target) fun _ => bind_copyTarget ?_
  intro codes₁ copy copy' _ hcopy hcopied
  refine bind_contract ?_
  rintro codes₂ caller _ hcodes₂ - ⟨-, -, -⟩
  refine bind_ledger ?_
  rintro l _ hcodes₃ - ⟨⟩
  refine bind_inSeat (fun _ => receive calldata fun _ => executeOn hh _ _ _) (.apart hcopied)
    ?_ ?_
  · rintro _ ⟨⟩
    exact hcopy.mono (hcodes₂.trans hcodes₃)
  intro codes₄ q s t deployments _ hseat hseen
  refine bind_ledger fun l l' hcodes₅ hl _ => Alike.bind_eq (Alike.lift q) fun response => ?_
  refine closeCall target ?_ (hseat.contract hl) deployments response
  cases s with
  | registered a => exact Frame.Counterpart.known_registered hl a
  | apart c => exact (hseen c rfl).mono hcodes₅

end Calls

lemma loadPointer (pointer : Int) :
    Follows o codes Eq (Host.loadPointer pointer) (Host.loadPointer pointer) := by
  rw [Host.loadPointer]
  refine bind_contract ?_
  rintro _ c _ - - ⟨hs, -, -⟩
  simp only [hs.load]
  refine bind_ledger ?_
  rintro l _ - - ⟨⟩
  exact Alike.optional (note _ _ _ _) (.pure rfl)

lemma storePointer (pointer value : Int) :
    Follows o codes Eq (Host.storePointer pointer value) (Host.storePointer pointer value) := by
  rw [Host.storePointer]
  refine bind_contract ?_
  rintro _ c _ - - ⟨-, -, -⟩
  refine bind_ledger ?_
  rintro l _ - - ⟨⟩
  refine Alike.optional (note _ _ _ _) (modifyContract ?_ fun _ _ _ hc => ⟨hc.code, hc.children⟩)
  rintro c _ ⟨hs, ht, hh⟩
  exact .intro (hs.store pointer value) ht hh

lemma emitEvent (kind : Text) (data : Bytes) :
    Follows o codes Eq (Host.emitEvent kind data) (Host.emitEvent kind data) := by
  refine modifyContract ?_ fun _ _ _ hc => ⟨hc.code, hc.children⟩
  rintro c _ ⟨hs, ht, hh⟩
  exact .intro hs ht hh

lemma answer {call call' : Address → Bytes → Run CallResponse}
    (hcall : ∀ codes target calldata,
      Follows o codes Eq (call target calldata) (call' target calldata))
    {request : HostFunction} (data : Bytes) (hdeploy : request ≠ .deploy) :
    Follows o codes Eq (Host.answer call request data) (Host.answer call' request data) := by
  cases request with
  | load =>
    refine Alike.bind_eq (Alike.lift _) fun pointer => ?_
    exact Alike.bind_eq (loadPointer _) fun value => Alike.lift _
  | store =>
    refine Alike.bind_eq (Alike.lift _) fun entry => ?_
    exact Alike.bind_eq (storePointer _ _) fun _ => .pure rfl
  | nextPointer =>
    refine Alike.bind_eq (Alike.lift _) fun query => bind_contract ?_
    rintro _ c _ - - ⟨hs, -, -⟩
    simp only [hs.nextPointer]
    exact Alike.lift _
  | call =>
    refine Alike.bind_eq (Alike.lift _) fun target => ?_
    refine Alike.bind_eq (hcall codes _ _) fun response => ?_
    exact Alike.bind_eq (Alike.lift _) fun gas => .pure rfl
  | deploy => exact absurd rfl hdeploy
  | inputs =>
    refine bind_ledger ?_
    rintro l _ - - ⟨⟩
    exact .pure rfl
  | outputs =>
    refine bind_ledger ?_
    rintro l _ - - ⟨⟩
    exact .pure rfl
  | log =>
    refine Alike.bind_eq (Alike.lift _) fun message => ?_
    exact Alike.bind_eq (bind_contract fun _ _ _ _ _ _ => note _ _ _ _) fun _ => .pure rfl
  | emit =>
    refine Alike.bind_eq (Alike.lift _) fun event => ?_
    exact Alike.bind_eq (emitEvent _ _) fun _ => .pure rfl

lemma bind_record {derived : Address} {code : Bytes}
    (hextra : codes.contains derived = true ∨ o.extra derived = none ∨ o.extra derived = some code)
    {x : Run α} {y : Run β} (h : Follows o codes R x y) :
    Follows o codes R
      (Run.modifyLedger (·.setCode derived code) >>= fun _ =>
        (Run.modifyContract fun c =>
          { c with children := Table.insert derived code c.children }) >>= fun _ => x)
      (Run.modifyLedger (·.setCode derived code) >>= fun _ =>
        (Run.modifyContract fun c =>
          { c with children := Table.insert derived code c.children }) >>= fun _ => y) := by
  intro f g hfg q f' hx
  have hset := hfg.ledger.setCode (hextra.imp_left hfg.included.contains)
  have hledger : Frame.Counterpart o codes { f with ledger := f.ledger.setCode derived code }
      { g with ledger := g.ledger.setCode derived code } :=
    hfg.withLedger hset hfg.surface (Table.included_insertNew _ _ _)
  refine h _ _ (hledger.modifyContract ?_ ?_) q f' hx
  · rintro _ _ ⟨hs, ht, hh⟩
    exact .intro hs ht hh
  · refine fun c hc => ⟨hc.code, fun a ha => ?_⟩
    rw [Table.contains, Table.find?_insert] at ha
    by_cases heq : derived = a
    · rw [← heq]
      exact Table.contains_insertNew_self _ _ _
    · rw [if_neg heq] at ha
      exact hc.children a ha

/-- What a contract does to deploy a copy, on a ledger that it has looked at. -/
def deployFrom (c : Contract) (l : Ledger) (source : Address) (salt : Bytes) :
    Run (Bytes × Address) := do
  if l.traceDeployments then
    Run.note .info (c.address.text ++ " deploys a copy of " ++ source.text ++ ", salt " ++ salt.hex)
  let (seed, derived) ← lift (l.generateAddress c.address salt source)
  if c.children.contains derived then
    throw (c.fault .alreadyDeployed "Contract already deployed")
  if source = c.address then
    throw (c.fault .selfDeployment "Cannot deploy the same contract")
  let code ← lift (l.code? source)
  Run.modifyLedger (·.setCode derived code)
  Run.modifyContract fun c => { c with children := Table.insert derived code c.children }
  if l.traceDeployments then
    Run.note .info (c.address.text ++ " recorded deployment at " ++ derived.text ++ " (seed 0x"
      ++ seed.hex ++ ")")
  return (seed, derived)

/-- Neither the source of a deployment nor the address of the copy tells the second ledger more than
the first. -/
structure Unaware (o : Offset) (l : Ledger) (deployer source : Address) (salt : Bytes) : Prop where
  unknown : l.codes.find? source = none → o.extra source = none
  derived : ∀ code, l.codes.find? source = some code →
    l.codes.contains (Ledger.derivedAddress deployer salt code) = true ∨
      o.extra (Ledger.derivedAddress deployer salt code) = none ∨
        o.extra (Ledger.derivedAddress deployer salt code) = some code

lemma code?_of_extends {l m : Ledger} (hcodes : o.Extends l.codes m.codes) {source : Address}
    (h : l.codes.find? source = none → o.extra source = none) :
    m.code? source = l.code? source := by
  have hfind := hcodes source
  cases hfound : l.codes.find? source with
  | none => simp only [Ledger.code?, hfind, hfound, h hfound, Option.or_none]
  | some code => simp only [Ledger.code?, hfind, hfound, Option.some_or]

lemma deployFrom_counterpart {c d : Contract} {l m : Ledger} {source : Address} {salt : Bytes}
    (hcd : c.Counterpart o d) (hl : l.Counterpart o m) (hfaces : l.Faces m)
    (hunaware : Unaware o l c.address source salt) :
    Follows o l.codes Eq (deployFrom c l source salt) (deployFrom d m source salt) := by
  have hcode := code?_of_extends hl.codes hunaware.unknown
  obtain ⟨-, -, -⟩ := hcd
  obtain ⟨⟩ := hfaces
  rw [deployFrom, deployFrom, Ledger.generateAddress, Ledger.generateAddress, hcode]
  refine Alike.optional (note _ _ _ _) (Simulates.bind (.lift (Agree.itself _)) ?_)
  rintro ⟨seed, derived⟩ _ ⟨rfl, hgenerated⟩
  refine .ite _ (.throw _) (.ite _ (.throw _) ?_)
  refine Simulates.bind (.lift (Agree.itself _)) ?_
  rintro code _ ⟨rfl, hfound⟩
  have hderived : derived = Ledger.derivedAddress c.address salt code := by
    rw [hfound] at hgenerated
    cases hgenerated
    rfl
  have hsource : l.codes.find? source = some code := by
    rw [Ledger.code?] at hfound
    split at hfound
    case h_1 known hknown => rwa [Except.ok.inj hfound] at hknown
    case h_2 => cases hfound
  refine bind_record (hderived ▸ hunaware.derived code hsource) ?_
  exact Alike.optional (note _ _ _ _) (.pure rfl)

lemma deployCopy {f g : Frame} (hfg : Frame.Counterpart o codes f g) {source : Address}
    {salt : Bytes} (hunaware : Unaware o f.ledger f.contract.address source salt)
    {q : Except Failure (Bytes × Address)} {f' : Frame}
    (hx : (Host.deployCopy source salt).outcome f = some (q, f')) :
    ∃ g', (Host.deployCopy source salt).outcome g = some (q, g') ∧
      Frame.Counterpart o codes f' g' := by
  have hfrom := deployFrom_counterpart hfg.contract hfg.ledger
    (Ledger.faces_of_surface hfg.surface) hunaware
  obtain ⟨g', hg', hS⟩ := hfrom.outcome hfg.self hx
  exact ⟨g', hg', hS.weaken hfg.included⟩

lemma unaware_of_not_reveals {others : List (Table Address Bytes)} (hothers : o.Within others)
    {l : Ledger} {deployer source : Address} {salt : Bytes}
    (h : (others.any fun codes => reveals codes l deployer source salt) = false) :
    Unaware o l deployer source salt := by
  obtain ⟨codes, hmem, hextra⟩ := hothers
  rw [List.any_eq_false] at h
  have h := Bool.eq_false_iff.mpr (h codes hmem)
  constructor
  · intro hnone
    simp only [reveals, hnone] at h
    rcases hextra source with hextra | hextra
    · exact hextra
    · rw [hextra]
      exact (Table.contains_eq_false_iff _ _).mp h
  · intro code hfound
    simp only [reveals, hfound, Bool.and_eq_false_iff, Bool.not_eq_false'] at h
    rcases h with h | h
    · exact .inl h
    · refine .inr ?_
      rcases hextra (Ledger.derivedAddress deployer salt code) with hextra | hextra
      · exact .inl hextra
      · rw [hextra]
        cases hfind : codes.find? (Ledger.derivedAddress deployer salt code) with
        | none => exact .inl rfl
        | some other =>
          rw [hfind] at h
          simpa using h

lemma deploy {others : List (Table Address Bytes)} (hothers : o.Within others)
    (call call' : Address → Bytes → Run CallResponse) (data : Bytes) :
    Follows o codes Eq (barring (asksFor others) (Host.answer call) .deploy data)
      (Host.answer call' .deploy data) := by
  intro f g hfg q f' hx
  rw [outcome_barring] at hx
  split at hx
  case isTrue => cases hx
  case isFalse hasks =>
    rw [answer_deploy, outcome_bind, outcome_lift] at hx ⊢
    cases hdata : deployRequest data with
    | error e =>
      rw [hdata] at hx
      cases hx
      exact ⟨_, _, rfl, .error e, hfg⟩
    | ok p =>
      obtain ⟨source, salt⟩ := p
      simp only [asksFor, hdata, Bool.not_eq_true] at hasks
      simp only [hdata, Outcome.some_andThen, outcome_bind] at hx ⊢
      obtain ⟨r, f₁, hcopy, hx⟩ := Outcome.andThen_eq_some hx
      obtain ⟨g₁, hcopy', hfg₁⟩ := deployCopy hfg (unaware_of_not_reveals hothers hasks) hcopy
      rw [hcopy']
      cases r with
      | error e =>
        cases hx
        exact ⟨_, _, rfl, .error e, hfg₁⟩
      | ok p =>
        cases hx
        exact ⟨_, _, rfl, .ok rfl, hfg₁⟩

/-- A request that does not ask for code that only the second ledger knows. -/
lemma barring {others : List (Table Address Bytes)} (hothers : o.Within others)
    {call call' : Address → Bytes → Run CallResponse}
    (hcall : ∀ codes target calldata,
      Follows o codes Eq (call target calldata) (call' target calldata))
    (request : HostFunction) (data : Bytes) :
    Follows o codes Eq (barring (asksFor others) (Host.answer call) request data)
      (Host.answer call' request data) := by
  by_cases hdeploy : request = .deploy
  · rw [hdeploy]
    exact deploy hothers call call' data
  · intro f g hfg q f' hx
    rw [outcome_barring] at hx
    split at hx
    case isTrue => cases hx
    case isFalse => exact answer hcall data hdeploy f g hfg q f' hx

lemma barredHost {others : List (Table Address Bytes)} (hothers : o.Within others) (n : Nat)
    (request : HostFunction) (data : Bytes) :
    Follows o codes Eq (barredHost (asksFor others) n request data)
      (Host.answer (Run.call n) request data) := by
  have hcall (codes : Table Address Bytes) (target : Address) (calldata : Bytes) :
      Follows o codes Eq (barredCall (asksFor others) n target calldata)
        (Run.call n target calldata) := by
    induction n generalizing codes target calldata with
    | zero => exact .outOfFuel _
    | succ n ih =>
      rw [Run.call, callWith_eq_callOn]
      exact callOn (fun _ => barring hothers ih) target calldata
  exact barring hothers hcall request data

end Follows

end ChainReplay
