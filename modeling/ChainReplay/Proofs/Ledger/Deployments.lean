import ChainReplay.Proofs.Ledger.Honesty
import ChainReplay.Proofs.Ledger.Overriding

/-! Deployment records in a world, whatever its users do. A copy is refused only if one was recorded at
its address before, and unless two digests collide that was the same copy. -/

namespace ChainReplay

namespace Run

/-- The contracts that the ledger has given up are left alone. -/
def Spares (f g : Frame) : Prop := g.ledger.retired = f.ledger.retired

instance : IsPreorder Frame Spares where
  refl := fun _ => rfl
  trans := fun _ _ _ h h' => h'.trans h

instance : IsPreorder Frame Still where
  refl := Still.refl
  trans := fun _ _ _ => Still.trans

lemma spares_modifyContract (f : Frame) (k : Contract → Contract) : Spares f (f.modifyContract k) := by
  obtain ⟨l, seat, deployments⟩ := f
  cases seat <;> rfl

lemma sustained_spares : Sustained Spares where
  note := fun _ _ _ => rfl
  code := fun _ _ _ => rfl
  own := fun f k _ => spares_modifyContract f k
  other := fun _ _ _ _ => rfl
  deployments := fun _ _ => rfl
  dispose := fun _ => spares_modifyContract _ _
  enter := fun _ _ _ => rfl
  equip := by
    intro f r g _ hx
    rcases equip_cases hx with ⟨e, -, rfl⟩ | ⟨engine, parameters, -, ⟨e, -, -, rfl⟩ | ⟨i, -, -, rfl⟩⟩
    · exact refl _
    · rfl
    · exact spares_modifyContract (asked parameters f) _
  visit := fun _ _ _ _ h _ => h
  copy := fun _ _ _ _ h _ => h

end Run

lemma Ledger.Honest.behind {past vs : List Venture} {l : Ledger} {g : Frame} (hl : l.Honest past)
    (hg : g.Honest (past ++ vs)) (hretired : g.ledger.retired = l.retired) :
    g.ledger.Honest (past ++ vs) where
  records := hg.records
  retired := hretired ▸ (hl.mono (List.subset_append_left past vs)).retired

namespace Demand

open Run

variable {fuel : Nat} {demand : Demand} {f g : Frame}

def ventures (fuel : Nat) (demand : Demand) (f : Frame) : List Venture :=
  match demand with
  | .deploy => deployVentures (Run.call fuel) (callVentures fuel) f
  | .execute calldata sender origin =>
    executeVentures (Run.call fuel) (callVentures fuel) calldata sender origin f
  | .receive calldata sender origin =>
    executeVentures (Run.call fuel) (callVentures fuel) calldata (some sender) (some origin)
      (heard calldata f)
  | .call target calldata => callVentures fuel target calldata f
  | .answer request data => requestVentures (callVentures fuel) request data f
  | _ => []

/-- No copy is put on record by hand. -/
def Fair : Demand → Prop
  | .change k _ =>
    ∀ c child, (k c).children.contains child = true → c.children.contains child = true
  | _ => True

section Wrapped

variable {α : Type} {P : Frame → Frame → Prop} [IsPreorder Frame P]

lemma leads_silently {x : Run α} (hx : Leads P f x) : Leads P f (silently x) :=
  hx.bind fun _ _ => .pure _

lemma leads_judging {x : Run CallResponse} (hx : Leads P f x) : Leads P f (judging x) :=
  hx.bind fun _ _ => .pure _

lemma books_silently {x : Run α} {vs : List Venture} {q : Except Failure (Option Bool)}
    (h : (silently x).outcome f = some (q, g))
    (hx : ∀ r, x.outcome f = some (r, g) → Books vs f g) : Books vs f g := by
  obtain ⟨r, hrun, -⟩ := silently_cases h
  exact hx r hrun

end Wrapped

lemma spares : Leads Spares f (demand.run fuel) := by
  have hP := sustained_spares
  have hcall (target : Address) (calldata : Bytes) (f : Frame) :
      Leads Spares f (Run.call fuel target calldata) := hP.leads_call fuel target calldata
  cases demand with
  | init => exact leads_silently (leads_resolve hP.code fun f _ => spares_modifyContract f _)
  | deploy => exact leads_silently (hP.leads_deploy hcall)
  | execute calldata sender origin => exact leads_judging (hP.leads_execute hcall _ _ _)
  | receive calldata sender origin => exact leads_judging (hP.leads_receive hcall _ _ _ _)
  | call target calldata => exact leads_silently (hcall target calldata f)
  | answer request data => exact leads_silently (hP.leads_request hcall request data)
  | environment given => exact leads_silently (hP.leads_setEnvironment given)
  | dispose => exact leads_silently hP.leads_dispose
  | delete =>
    refine leads_silently (hP.leads_dispose.bind fun _ h => ?_)
    exact .of_outcome (outcome_modifyContract _ h) (spares_modifyContract h _)
  | change k hk =>
    have hchange := spares_modifyContract f k
    exact leads_silently (.of_outcome (outcome_modifyContract k f) hchange)

lemma books_change {k : Contract → Contract}
    (hk : ∀ c child, (k c).children.contains child = true → c.children.contains child = true) :
    Books [] f (f.modifyContract k) := by
  intro past hf
  rw [List.append_nil]
  exact ⟨warranted_nil, hf.modifyContract (List.Subset.refl _) fun c hc => hc.of_contains (hk c)⟩

lemma books (hfair : demand.Fair) {q : Except Failure (Option Bool)}
    (h : (demand.run fuel).outcome f = some (q, g)) : Books (demand.ventures fuel f) f g := by
  have hcall := callVentures_books fuel
  cases demand with
  | init =>
    refine books_silently h fun r hrun => ?_
    have hresolve : Leads Still f resolve := leads_resolve
      (fun f _ _ => .withLedger f rfl) fun f _ => .modifyContract f ⟨fun _ => rfl, fun _ h => h⟩
    exact .of_still (hresolve r g hrun)
  | deploy => exact books_silently h fun _ => deploy_books hcall
  | execute calldata sender origin =>
    obtain ⟨response, hrun, -⟩ := judging_cases (.execute _ _ _ _) h
    exact execute_books hcall hrun
  | receive calldata sender origin =>
    have hreturns := Returns.execute (Run.call fuel) calldata (some sender) (some origin)
    obtain ⟨response, hrun, -⟩ := judging_cases (.receive _ hreturns) h
    obtain ⟨_, k, -, hexecute, hreported⟩ := receive_parts hreturns hrun
    have hbooks := (execute_books hcall hexecute).trans_still (reported_cases hreported).2
    exact .still_trans (still_heard calldata f) hbooks
  | call target calldata => exact books_silently h fun r => hcall target calldata f r g
  | answer request data => exact books_silently h fun _ => requestVentures_books hcall
  | environment given =>
    exact books_silently h fun r hrun => .of_still (Calm.setEnvironment given f r g hrun)
  | dispose => exact books_silently h fun r hrun => .of_still (Calm.dispose f r g hrun)
  | delete =>
    refine books_silently h fun r hrun => ?_
    rw [outcome_bind, outcome_dispose, Outcome.some_andThen, outcome_modifyContract] at hrun
    cases hrun
    have hdisposed := Calm.dispose f _ _ (outcome_dispose f)
    exact .still_trans hdisposed (books_change fun _ _ hin => by cases hin)
  | change k hk =>
    refine books_silently h fun r hrun => ?_
    rw [outcome_modifyContract] at hrun
    cases hrun
    exact books_change hfair

end Demand

namespace Block

open Run

variable {fuel : Nat} {past : List Venture} {l m : Ledger} {t : Turn} {ts : List Turn}

def Turn.ventures (fuel : Nat) (t : Turn) : List Venture :=
  executeVentures (Run.call fuel) (callVentures fuel) t.transaction.calldata
    (some t.transaction.sender) (some t.transaction.sender)
    ⟨t.shown, .registered t.transaction.target, []⟩

lemma Turn.Presents.honest {response : CallResponse} {seat : Seat} (h : t.Presents l)
    (hrun : t.outcome fuel = some (.ok response, m, seat)) (hl : l.Honest past) :
    Warranted past (t.ventures fuel) ∧ (withdrawnFrom l m).Honest (past ++ t.ventures fuel) := by
  obtain ⟨inputs, outputs, -, -, hshown⟩ := h.shown
  have hpresented : l.Upholds t.shown := by
    rw [hshown]
    exact .of_contracts rfl rfl
  obtain ⟨g, rfl, hexecute⟩ := execute_of_perform hrun
  have hpresent := hpresented past hl
  have hseated := Frame.Honest.registered hpresent.records t.transaction.target []
  obtain ⟨hwarranted, hg⟩ := execute_books (callVentures_books fuel) hexecute past hseated
  have hspares := sustained_spares.leads_execute
    (fun target calldata _ => sustained_spares.leads_call fuel target calldata) _ _ _ _ _ hexecute
  have hwithdrawn : g.ledger.Upholds (withdrawnFrom l g.ledger) := .of_contracts rfl rfl
  exact ⟨hwarranted, hwithdrawn _ (hpresent.behind hg hspares)⟩

lemma Course.honest (h : Course Ledger.Upholds fuel l ts m) (hl : l.Honest past) :
    Warranted past (ts.flatMap (Turn.ventures fuel)) ∧
      m.Honest (past ++ ts.flatMap (Turn.ventures fuel)) := by
  induction h generalizing past with
  | ended l => exact ⟨warranted_nil, (List.append_nil past).symm ▸ hl⟩
  | idle h _ ih => exact ih (h past hl)
  -- what follows the turn has the copies of the turn in its past
  | turn hpresents hrun _ ih =>
    obtain ⟨hturn, hbehind⟩ := hpresents.honest hrun hl
    obtain ⟨hrest, hend⟩ := ih hbehind
    rw [List.flatMap_cons, ← List.append_assoc]
    exact ⟨hturn.append hrest, hend⟩

lemma honest_replay {b b' : Block} {q : Except Failure ReplayResult}
    (h : b.replay fuel l = some (q, b', m)) (hl : l.Honest past) :
    Warranted past ((b.turns fuel l).flatMap (Turn.ventures fuel)) ∧
      m.Honest (past ++ (b.turns fuel l).flatMap (Turn.ventures fuel)) := by
  obtain ⟨k, hk, hcourse, -⟩ := course_replay Ledger.Upholds.enlists h
  rcases hcourse with ⟨hnone, hend⟩ | hcourse
  · rw [hnone, List.flatMap_nil, List.append_nil]
    exact ⟨warranted_nil, hend past (hk past hl)⟩
  · have hraised : k.Upholds { k with blockNumber := b.height } := .of_contracts rfl rfl
    exact hcourse.honest (hraised past (hk past hl))

end Block

/-- The copies on record in a world have been recorded in the past, those of contracts that are not
registered included. -/
structure World.Honest (past : List Venture) (w : World) : Prop where
  ledger : w.ledger.Honest past
  loose : ∀ r ∈ w.loose, Backed past r.contract.children

/-- Copies are not put on record by hand, and stages are given no snapshots. -/
def Operation.Fair : Operation → Prop
  | .perform _ demand => demand.Fair
  | .prepare stage _ => stage.overrides = []
  | _ => True

namespace World

variable {fuel : Nat} {past past' vs : List Venture} {w v : World} {l : Ledger} {place : Place}

def venturesAt (w : World) (place : Place) (ventures : Frame → List Venture) : List Venture :=
  match w.seat? place with
  | none => []
  | some seat => ventures ⟨w.ledger, seat, []⟩

def ventures (fuel : Nat) (w : World) : Operation → List Venture
  | .perform place demand => w.venturesAt place (demand.ventures fuel)
  | .replay b => (b.turns fuel w.ledger).flatMap (Block.Turn.ventures fuel)
  | _ => []

def Books (vs : List Venture) (w v : World) : Prop :=
  ∀ past, w.Honest past → Warranted past vs ∧ v.Honest (past ++ vs)

namespace Honest

lemma mono (hw : w.Honest past) (hsub : past ⊆ past') : w.Honest past' where
  ledger := hw.ledger.mono hsub
  loose := fun r hr => (hw.loose r hr).mono hsub

lemma seated (hw : w.Honest past) {seat : Seat} (hseat : w.seat? place = some seat) :
    Frame.Honest past ⟨w.ledger, seat, []⟩ := by
  cases place with
  | registered a =>
    rw [seat?, Option.ite_none_right_eq_some] at hseat
    obtain ⟨-, heq⟩ := hseat
    cases heq
    exact .registered hw.ledger.records a []
  | loose i =>
    obtain ⟨r, hr, rfl⟩ := Option.map_eq_some_iff.mp hseat
    exact ⟨hw.loose r (List.mem_of_getElem? hr), hw.ledger.records⟩

lemma put (hw : w.Honest past) {g : Frame} (hg : g.Honest past) (hl : g.ledger.Honest past)
    (place : Place) (verdict : Option Bool) :
    ((w.follow g.ledger).put g.seat verdict place).Honest past := by
  cases place with
  | registered a => exact ⟨hl, hw.loose⟩
  | loose i =>
    refine ⟨hl, fun r hr => ?_⟩
    rcases List.mem_or_eq_of_mem_set hr with hr | rfl
    · exact hw.loose r hr
    · exact hg.own

end Honest

namespace Books

lemma quiet (h : ∀ past, w.Honest past → v.Honest past) : Books [] w v := by
  intro past hw
  rw [List.append_nil]
  exact ⟨warranted_nil, h past hw⟩

lemma follow (h : w.ledger.Upholds l) : Books [] w (w.follow l) :=
  quiet fun past hw => ⟨h past hw.ledger, hw.loose⟩

lemma enact {x : Run (Option Bool)} {ventures : Frame → List Venture}
    (hspares : ∀ f, Leads Run.Spares f x)
    (hx : ∀ f q g, x.outcome f = some (q, g) → Run.Books (ventures f) f g)
    (h : w.enact place x = some v) : Books (w.venturesAt place ventures) w v := by
  rw [venturesAt]
  rcases enact_cases h with ⟨hnone, rfl⟩ | ⟨seat, q, g, hseat, hrun, rfl⟩
  · rw [hnone]
    exact quiet fun _ h => h
  rw [hseat]
  change Books (ventures ⟨w.ledger, seat, []⟩) w _
  intro past hw
  obtain ⟨hwarranted, hg⟩ := hx _ q g hrun past (hw.seated hseat)
  have hbefore := hw.mono (List.subset_append_left past (ventures ⟨w.ledger, seat, []⟩))
  have hledger := hw.ledger.behind hg (hspares _ q g hrun)
  exact ⟨hwarranted, hbefore.put hg hledger place _⟩

lemma register (w : World) (index : Nat) : Books [] w (w.register index) := by
  refine quiet fun past hw => ?_
  rw [World.register]
  split
  · exact hw
  next r hr =>
  split
  · exact hw
  next l hregister =>
  have hown := hw.loose r (List.mem_of_getElem? hr)
  exact ⟨hw.ledger.register hown hregister, fun s hs => hw.loose s (List.mem_of_mem_eraseIdx hs)⟩

lemma clear (hkeys : w.ledger.contracts.keys.Nodup) : Books [] w { w.forget with
    ledger := { w.ledger with contracts := [] }, loose := w.registered ++ w.loose } := by
  refine quiet fun past hw => ⟨⟨fun _ => .nil, hw.ledger.retired⟩, fun r hr => ?_⟩
  rcases List.mem_append.mp hr with hr | hr
  · obtain ⟨⟨a, c⟩, hmem, rfl⟩ := List.mem_map.mp hr
    have hrecords := hw.ledger.records a
    rwa [Ledger.records_of_find? ((Table.find?_eq_some_iff hkeys).mpr hmem)] at hrecords
  · exact hw.loose r hr

lemma recover (w : World) : Books [] w { w with
    ledger := { w.ledger with retired := [] }, loose := w.retired ++ w.loose } := by
  refine quiet fun past hw => ⟨⟨hw.ledger.records, List.forall_mem_nil _⟩, fun r hr => ?_⟩
  rcases List.mem_append.mp hr with hr | hr
  · obtain ⟨c, hmem, rfl⟩ := List.mem_map.mp hr
    exact hw.ledger.retired c hmem
  · exact hw.loose r hr

end Books

lemma upholds_preparation (preparation : Preparation) (s : Stage) :
    Leads Stage.Upholds s preparation.run := by
  cases preparation with
  | setUp => exact Stage.works_upholds.leads_setUp
  | loadStates height => exact Stage.works_upholds.leads_loadStates height
  | cleanUp => exact Stage.works_upholds.leads_cleanUp

lemma honest_prepare {stage stage' : Stage} {preparation : Preparation} {q : Except Failure Unit}
    (hw : w.Honest past) (ho : stage.overrides.Backed past)
    (h : (ExceptT.run preparation.run).run { stage with ledger := w.ledger } = some (q, stage')) :
    World.Honest past (if preparation.forsakes then (w.follow stage'.ledger).forget
      else w.follow stage'.ledger) ∧ stage'.overrides.Backed past := by
  have hstage := upholds_preparation preparation _ q stage' h past ⟨hw.ledger, ho⟩
  refine ⟨?_, hstage.overrides⟩
  split <;> exact ⟨hstage.ledger, hw.loose⟩

lemma books_step (hkeys : w.ledger.contracts.keys.Nodup) {operation : Operation}
    (hfair : operation.Fair) (h : w.step fuel operation = some v) :
    Books (w.ventures fuel operation) w v := by
  cases operation with
  | create address deployer gasLimit ownCode constructorCalldata =>
    cases h
    refine .quiet fun past hw => ⟨hw.ledger, fun r hr => ?_⟩
    rcases List.mem_append.mp hr with hr | hr
    · exact hw.loose r hr
    · rw [List.mem_singleton.mp hr]
      exact .nil
  | register index =>
    cases h
    exact .register w index
  | perform place demand => exact .enact (fun _ => Demand.spares) (fun _ _ _ => demand.books hfair) h
  | registerDeployments place =>
    simp only [World.step] at h
    split at h
    · cases h
      exact .quiet fun _ h => h
    · cases h
      exact .follow (Ledger.Upholds.enlists.registerChildren _ _ _)
  | registerTouched addresses =>
    cases h
    exact .follow (Ledger.Upholds.enlists.registerTouched _ _)
  | init =>
    cases h
    exact .follow (.init _)
  | dispose =>
    cases h
    exact .follow (.dispose _)
  | cleanup =>
    cases h
    exact .quiet fun past hw => ⟨Ledger.Upholds.cleanup _ past hw.ledger, hw.loose⟩
  | clear =>
    cases h
    exact .clear hkeys
  | backup =>
    cases h
    exact .follow (.modifyAll _ fun _ _ => id)
  | restore =>
    cases h
    exact .follow (.modifyAll _ fun _ _ => id)
  | recover =>
    cases h
    exact .recover w
  | adjust g hg =>
    cases h
    obtain ⟨hcontracts, hretired, -, -⟩ := hg w.ledger
    have hadjusted : w.ledger.Upholds (g w.ledger) := .of_contracts hcontracts hretired
    exact .quiet fun past hw => ⟨hadjusted past hw.ledger, hw.loose⟩
  | prepare stage preparation =>
    obtain ⟨⟨q, stage'⟩, hrun, rfl⟩ := Option.map_eq_some_iff.mp h
    have hnone : ∀ past, stage.overrides.Backed past := by
      rw [show stage.overrides = [] from hfair]
      exact fun _ => List.forall_mem_nil _
    exact .quiet fun past hw => (honest_prepare hw (hnone past) hrun).1
  | replay b =>
    obtain ⟨⟨q, b', l⟩, hrun, rfl⟩ := Option.map_eq_some_iff.mp h
    intro past hw
    obtain ⟨hwarranted, hl⟩ := Block.honest_replay hrun hw.ledger
    exact ⟨hwarranted, hl, (hw.mono (List.subset_append_left _ _)).loose⟩

end World

/-- The snapshots of the handler tell of no other copies. -/
structure Workbench.Honest (past : List Venture) (o : Workbench) : Prop where
  sound : o.world.Sound
  world : o.world.Honest past
  overrides : o.overrides.Backed past

/-- What is done with a world and one handler of overrides for it: beside the acts, a stage prepares the
ledger with this handler, or a copy is asked for at a place. -/
inductive Deed where
  | work (act : Act)
  | prepare (stage : Stage) (preparation : Preparation)
  | deployCopy (place : Place) (source : Address) (salt : Bytes)

namespace Deed

variable {fuel : Nat} {past : List Venture} {o p : Workbench} {deed : Deed}

def Fair : Deed → Prop
  | .work (.other operation) => operation.Fair
  | _ => True

def run (fuel : Nat) (o : Workbench) : Deed → Option Workbench
  | .work act => o.step fuel act
  | .prepare stage preparation =>
    let stage := { stage with ledger := o.world.ledger, overrides := o.overrides }
    ((ExceptT.run preparation.run).run stage).map fun (_, stage) =>
      let world := o.world.follow stage.ledger
      ⟨if preparation.forsakes then world.forget else world, stage.overrides⟩
  | .deployCopy place source salt =>
    (o.world.enact place (Demand.silently (Host.deployCopy source salt))).map fun world =>
      { o with world }

def ventures (fuel : Nat) (o : Workbench) : Deed → List Venture
  | .work (.other operation) => o.world.ventures fuel operation
  | .deployCopy place source salt => o.world.venturesAt place (Run.venture source salt)
  | _ => []

lemma quiet (hp : p.Honest past) : Warranted past [] ∧ p.Honest (past ++ []) :=
  ⟨warranted_nil, (List.append_nil past).symm ▸ hp⟩

lemma honest_override (ho : o.Honest past) {r : Except Failure (Overrides × Ledger)}
    (hr : ∀ overrides l, r = .ok (overrides, l) →
      o.world.ledger.Rests l ∧ l.Honest past ∧ overrides.Backed past) : (o.override r).Honest past := by
  rcases r with e | ⟨overrides, l⟩
  · exact ho
  · obtain ⟨hrests, hl, hoverrides⟩ := hr overrides l rfl
    exact ⟨ho.sound.rest hrests, ⟨hl, ho.world.loose⟩, hoverrides⟩

lemma honest_work (ho : o.Honest past) {act : Act} (hfair : Fair (.work act))
    (h : o.step fuel act = some p) :
    Warranted past (ventures fuel o (.work act)) ∧ p.Honest (past ++ ventures fuel o (.work act)) := by
  have hstages := Ledger.Rests.stages
  cases act with
  | states a states =>
    cases h
    exact quiet (honest_override ho fun _ _ hr => ⟨hstages.overrideStates hr,
      Overrides.honest_overrideStates hr ho.world.ledger ho.overrides⟩)
  | deployment a =>
    cases h
    exact quiet (honest_override ho fun _ _ hr => ⟨hstages.overrideDeployment hr,
      Overrides.honest_overrideDeployment hr ho.world.ledger ho.overrides⟩)
  | purge =>
    cases h
    have hpurged := Overrides.honest_purge ho.world.ledger ho.overrides
    exact quiet ⟨ho.sound.rest (hstages.purge _ _), ⟨hpurged, ho.world.loose⟩,
      List.forall_mem_nil _⟩
  | other operation =>
    obtain ⟨w, hstep, rfl⟩ := Option.map_eq_some_iff.mp h
    obtain ⟨hwarranted, hw⟩ := World.books_step ho.sound.keys hfair hstep past ho.world
    exact ⟨hwarranted, ho.sound.step hstep, hw, ho.overrides.mono (List.subset_append_left _ _)⟩

lemma honest_run (ho : o.Honest past) (hfair : deed.Fair) (h : deed.run fuel o = some p) :
    Warranted past (deed.ventures fuel o) ∧ p.Honest (past ++ deed.ventures fuel o) := by
  cases deed with
  | work act => exact honest_work ho hfair h
  | prepare stage preparation =>
    obtain ⟨⟨q, stage'⟩, hrun, rfl⟩ := Option.map_eq_some_iff.mp h
    let handled : Stage := { stage with overrides := o.overrides }
    have hhandled : (ExceptT.run preparation.run).run { handled with ledger := o.world.ledger } =
        some (q, stage') := hrun
    obtain ⟨hworld, hoverrides⟩ := World.honest_prepare ho.world ho.overrides hhandled
    have hsound := ho.sound.prepare hhandled
    exact quiet ⟨hsound, hworld, hoverrides⟩
  | deployCopy place source salt =>
    obtain ⟨w, henact, rfl⟩ := Option.map_eq_some_iff.mp h
    have hsound := ho.sound.enact
      (Demand.custody_silently (Run.slight_stays.leads_deployCopy source salt)) henact
    have hspares (f : Frame) :
        Leads Run.Spares f (Demand.silently (Host.deployCopy source salt)) :=
      Demand.leads_silently (Run.sustained_spares.leads_deployCopy source salt)
    have hventure (f : Frame) (q : Except Failure (Option Bool)) (g : Frame)
        (hx : (Demand.silently (Host.deployCopy source salt)).outcome f = some (q, g)) :
        Run.Books (Run.venture source salt f) f g :=
      Demand.books_silently hx fun _ => Run.venture_books
    obtain ⟨hwarranted, hw⟩ := World.Books.enact hspares hventure henact past ho.world
    exact ⟨hwarranted, hsound, hw, ho.overrides.mono (List.subset_append_left _ _)⟩

end Deed

/-- A world, and the handlers of overrides that there are for its ledger. -/
structure Workshop where
  world : World
  overrides : Nat → Overrides

namespace Workshop

open Sha256 (Collides)

variable {fuel : Nat} {past vs : List Venture} {s t : Workshop}

def start (settings : Settings) (engine : Option Engine) : Workshop :=
  ⟨World.start settings engine, fun _ => []⟩

def bench (s : Workshop) (i : Nat) : Workbench := ⟨s.world, s.overrides i⟩

def step (fuel : Nat) (s : Workshop) (i : Nat) (deed : Deed) : Option Workshop :=
  (deed.run fuel (s.bench i)).map fun o => ⟨o.world, Function.update s.overrides i o.overrides⟩

/-- What deeds with these handlers ask for in all, and what they make of the workshop. -/
def run (fuel : Nat) (s : Workshop) : List (Nat × Deed) → Option (List Venture × Workshop)
  | [] => some ([], s)
  | (i, deed) :: rest => (s.step fuel i deed).bind fun t =>
    (t.run fuel rest).map fun (vs, t) => (deed.ventures fuel (s.bench i) ++ vs, t)

def Honest (past : List Venture) (s : Workshop) : Prop := ∀ i, (s.bench i).Honest past

lemma honest_start (settings : Settings) (engine : Option Engine) :
    (start settings engine).Honest [] := fun _ =>
  ⟨World.sound_start settings engine, ⟨⟨fun _ => .nil, List.forall_mem_nil _⟩, List.forall_mem_nil _⟩,
    List.forall_mem_nil _⟩

lemma Honest.step {i : Nat} {deed : Deed} (hs : s.Honest past) (hfair : deed.Fair)
    (h : s.step fuel i deed = some t) :
    Warranted past (deed.ventures fuel (s.bench i)) ∧
      t.Honest (past ++ deed.ventures fuel (s.bench i)) := by
  obtain ⟨o, hrun, rfl⟩ := Option.map_eq_some_iff.mp h
  obtain ⟨hwarranted, ho⟩ := Deed.honest_run (hs i) hfair hrun
  refine ⟨hwarranted, fun j => ⟨ho.sound, ho.world, ?_⟩⟩
  by_cases hj : j = i
  · subst hj
    simp only [bench, Function.update_self]
    exact ho.overrides
  · simp only [bench, Function.update_of_ne hj]
    exact (hs j).overrides.mono (List.subset_append_left _ _)

lemma Honest.run {deeds : List (Nat × Deed)} (hs : s.Honest past)
    (hfair : ∀ deed ∈ deeds, deed.2.Fair) (h : s.run fuel deeds = some (vs, t)) :
    Warranted past vs ∧ t.Honest (past ++ vs) := by
  induction deeds generalizing s past vs with
  | nil =>
    cases h
    exact ⟨warranted_nil, (List.append_nil past).symm ▸ hs⟩
  | cons first rest ih =>
    obtain ⟨hfirst, hrest⟩ := List.forall_mem_cons.mp hfair
    obtain ⟨u, hstep, h⟩ := Option.bind_eq_some_iff.mp h
    obtain ⟨⟨us, t'⟩, hrun, heq⟩ := Option.map_eq_some_iff.mp h
    cases heq
    obtain ⟨hwarranted, hu⟩ := hs.step hfirst hstep
    obtain ⟨hwarranted', ht⟩ := ih hu hrest hrun
    rw [← List.append_assoc]
    exact ⟨hwarranted.append hwarranted', ht⟩

/-- Derived addresses are free of collisions but for those of the hash: if two derivations give one seed
or one address, they are the same, or this pair of byte strings shares a digest. So whatever is done to
a world, a contract that is told that a copy is on record has asked for that very copy before, or there
is such a pair. -/
theorem derived_addresses_collision_free :
    (∀ (l m : Ledger) (a b : Address) (d e : Derivation) (seed seed' : Bytes) (x y : Address),
      l.code? a = .ok d.code → m.code? b = .ok e.code →
      l.generateAddress d.deployer d.salt a = .ok (seed, x) →
      m.generateAddress e.deployer e.salt b = .ok (seed', y) → seed = seed' ∨ x = y →
        d = e ∨ Collides (Derivation.collisionPair d e)) ∧
    (∀ (source : Address) (salt : Bytes) (f g : Frame) (e : Failure),
      (Host.deployCopy source salt).outcome f = some (.error e, g) →
      e.fault?.map Fault.kind = some .alreadyDeployed → ∃ code, f.ledger.code? source = .ok code ∧
        Run.venture source salt f = [.refused ⟨f.contract.address, salt, code⟩]) ∧
    ∀ (settings : Settings) (engine : Option Engine) (fuel : Nat) (deeds : List (Nat × Deed))
      (vs : List Venture) (s : Workshop), (∀ deed ∈ deeds, deed.2.Fair) →
      (start settings engine).run fuel deeds = some (vs, s) →
      (∀ a, Backed vs (s.world.ledger.records a)) ∧
        ∀ before d after, vs = before ++ .refused d :: after →
          ∃ e, .recorded e ∈ before ∧ (e = d ∨ Collides (Derivation.collisionPair e d)) := by
  refine ⟨?_, fun _ _ _ _ _ => Run.venture_of_refused, ?_⟩
  · intro l m a b d e seed seed' x y hcode hcode' hgenerate hgenerate' hsame
    rw [Ledger.generateAddress, hcode] at hgenerate
    rw [Ledger.generateAddress, hcode'] at hgenerate'
    cases hgenerate
    cases hgenerate'
    apply Derivation.eq_or_collides
    rcases hsame with hseed | haddress
    · exact Address.mk.injEq .. ▸ hseed
    · exact haddress
  · intro settings engine fuel deeds vs s hfair hrun
    obtain ⟨hwarranted, hs⟩ := (honest_start settings engine).run hfair hrun
    refine ⟨(hs 0).world.ledger.records, fun before d after hsplit => ?_⟩
    obtain ⟨e, he, haddress⟩ := hwarranted before d after hsplit
    exact ⟨e, he, Derivation.eq_or_collides haddress⟩

section Repeating

open Run (entrance chamber vault deploying)

/-- Whoever is called deploys a copy of the chamber. -/
def repeating : Engine where
  instantiate _ := .ok
    { refusal := none
      construct := fun _ _ => .done []
      execute := fun _ _ => deploying chamber (.done []) }

/-- Once the entrance has been called, it asks for the same copy again. -/
def insisting : List (Nat × Deed) :=
  World.visiting.map (fun operation => (0, .work (.other operation))) ++
    [(0, .deployCopy (.registered entrance) chamber (Bytes.zeros 32))]

/-- The copy that the call has left. -/
def called : Derivation := ⟨entrance, Bytes.zeros 32, []⟩

/-- The chamber and the vault have the same code. -/
def twins : Ledger :=
  { Ledger.create Settings.default none with codes := [(chamber, []), (vault, [])] }

/-- The entrance has that copy on record. -/
def recording : Frame :=
  ⟨twins, .apart { Contract.create entrance entrance (.amount 0) none [] with
    children := [(called.address, [])] }, []⟩

def answeredKind {α : Type} (o : Option (Except Failure α × Frame)) : Option FaultKind :=
  o.bind fun o => match o.1 with
    | .ok _ => none
    | .error e => e.fault?.map Fault.kind

theorem refused_insisting :
    (∃ s, (start Settings.default (some repeating)).run 2 insisting =
        some ([.recorded called, .refused called], s) ∧
      ∃ e, .recorded e ∈ [Venture.recorded called] ∧
        (e = called ∨ Collides (Derivation.collisionPair e called))) ∧
    Run.venture vault called.salt recording = [.refused called] ∧
    (called = called ∨ Collides (Derivation.collisionPair called called)) := by
  obtain ⟨hfrom, hbetween, hwithin⟩ := derived_addresses_collision_free
  refine ⟨?_, ?_, hfrom twins twins chamber vault called called _ _ _ _ rfl rfl rfl rfl (.inl rfl)⟩
  · have hends : ((start Settings.default (some repeating)).run 2 insisting).map (·.1) =
        some [.recorded called, .refused called] := by decide +kernel
    obtain ⟨⟨vs, s⟩, hrun, hvs⟩ := Option.map_eq_some_iff.mp hends
    cases hvs
    have hfair : ∀ deed ∈ insisting, deed.2.Fair := by
      simp [insisting, World.visiting, Deed.Fair, Operation.Fair, Demand.Fair]
    exact ⟨s, hrun, (hwithin _ _ _ _ _ s hfair hrun).2 [.recorded called] called _ rfl⟩
  · have hkind : answeredKind ((Host.deployCopy vault called.salt).outcome recording) =
        some .alreadyDeployed := by decide +kernel
    rcases hx : (Host.deployCopy vault called.salt).outcome recording with _ | ⟨e | r, g⟩
    all_goals rw [hx] at hkind
    · cases hkind
    · obtain ⟨code, hcode, hrefused⟩ := hbetween vault called.salt recording g e hx hkind
      cases hcode
      exact hrefused
    · cases hkind

end Repeating

end Workshop

end ChainReplay
