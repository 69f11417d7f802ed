import ChainReplay.Proofs.Custody.Turnover

/-! Handles in a run. What a run has given out is given back when it ends, except for the handle that
the running contract itself then holds. -/

namespace ChainReplay

section Changes

variable {k : Contract → Contract} (hk : ∀ c, (k c).number? = c.number?)

include hk

lemma numbers_modify (t : Table Address Contract) (a : Address) :
    numbers (t.modify a k).values = numbers t.values := by
  induction t with
  | nil => rfl
  | cons entry t ih =>
    rw [Table.modify_cons, Table.values_cons, Table.values_cons, numbers_cons, numbers_cons, ih]
    split
    · rw [hk]
    · rfl

lemma Ledger.held_modifyContract (l : Ledger) (a : Address) : (l.modifyContract a k).held = l.held := by
  simp only [held, modifyContract, numbers_append, numbers_modify hk]

lemma Ledger.number_modifyContract (l : Ledger) (a b : Address) :
    (l.modifyContract a k).number b = l.number b := by
  simp only [number, Seat.contract, modifyContract, Table.find?_modify]
  split
  case isTrue h =>
    cases l.contracts.find? b with
    | none => rfl
    | some c => exact hk c
  case isFalse => rfl

end Changes

lemma Ledger.number_modifyContract_of_ne (l : Ledger) {a b : Address} (h : b ≠ a)
    (k : Contract → Contract) : (l.modifyContract a k).number b = l.number b := by
  simp only [number, Seat.contract, modifyContract, Table.find?_modify, if_neg h]

lemma Seat.eq_registered {seat : Seat} {a : Address} (h : seat.address? = some a) :
    seat = .registered a := by
  cases seat with
  | registered b => exact congrArg registered (Option.some.inj h)
  | apart c => cases h

def Seat.held : Seat → List Nat
  | .registered _ => []
  | .apart c => c.number?.toList

namespace Frame

def held (f : Frame) : List Nat := f.ledger.held ++ f.seat.held

/-- No two contracts are registered under one address, and the running one is, or is apart. -/
structure Placed (f : Frame) : Prop where
  keys : f.ledger.contracts.keys.Nodup
  known : ∀ a, f.seat.address? = some a → f.ledger.hasContract a = true

lemma Placed.registered {l : Ledger} {a : Address} {deployments : List Deployment}
    (hkeys : l.contracts.keys.Nodup) (ha : l.hasContract a = true) :
    Placed ⟨l, .registered a, deployments⟩ where
  keys := hkeys
  known := by
    rintro _ ⟨⟩
    exact ha

lemma Placed.exists_rest {f : Frame} (hf : f.Placed) :
    ∃ rest, f.held.Perm (f.contract.number?.toList ++ rest) ∧
      ∀ k, (f.modifyContract k).held.Perm ((k f.contract).number?.toList ++ rest) := by
  obtain ⟨l, seat, deployments⟩ := f
  cases seat with
  | apart c => exact ⟨l.held, List.perm_append_comm, fun k => List.perm_append_comm⟩
  | registered a =>
    obtain ⟨c, hc⟩ := Option.isSome_iff_exists.mp (hf.known a rfl)
    obtain ⟨before, after, hsplit, hmodify⟩ := Table.exists_split hf.keys hc
    have hcontract : (Frame.mk l (.registered a) deployments).contract = c :=
      contract_of_find? (f := ⟨l, .registered a, deployments⟩) rfl hc
    let rest := numbers (Table.values before) ++ (numbers (Table.values after) ++ numbers l.retired)
    have hperm (d : Contract) : (numbers (before ++ (a, d) :: after : Table Address Contract).values ++
        numbers l.retired).Perm (d.number?.toList ++ rest) := by
      rw [Table.values_append, Table.values_cons, numbers_append, numbers_cons]
      simp only [List.append_assoc, rest]
      rw [← List.append_assoc, ← List.append_assoc d.number?.toList]
      exact List.perm_append_comm.append_right _
    refine ⟨rest, ?_, fun k => ?_⟩
    · rw [hcontract, held, Seat.held, List.append_nil, Ledger.held, numbers_append, hsplit]
      exact hperm c
    · rw [hcontract, held, modifyContract, Seat.held, List.append_nil, Ledger.held, numbers_append]
      simp only [hmodify]
      exact hperm (k c)

/-- What the running contract holds changes, and what others hold stays or is given back. -/
structure Custody (f g : Frame) : Prop where
  turnover : f.ledger.Turnover g.ledger f.held g.held
  keys : g.ledger.contracts.keys = f.ledger.contracts.keys
  retired : g.ledger.retired = f.ledger.retired
  seat : g.seat.address? = f.seat.address?
  others : ∀ a, f.seat.address? ≠ some a →
    g.ledger.number a = none ∨ g.ledger.number a = f.ledger.number a

namespace Custody

variable {f g h : Frame}

lemma hasContract (hfg : f.Custody g) (a : Address) :
    g.ledger.hasContract a = f.ledger.hasContract a := by
  rw [Bool.eq_iff_iff, Ledger.hasContract, Ledger.hasContract, Table.contains_iff,
    Table.contains_iff, hfg.keys]

lemma placed (hfg : f.Custody g) (hf : f.Placed) : g.Placed where
  keys := hfg.keys ▸ hf.keys
  known := fun a ha => (hfg.hasContract a).trans (hf.known a (hfg.seat.symm.trans ha))

lemma trans (hfg : f.Custody g) (hgh : g.Custody h) : f.Custody h where
  turnover := hfg.turnover.trans hgh.turnover
  keys := hgh.keys.trans hfg.keys
  retired := hgh.retired.trans hfg.retired
  seat := hgh.seat.trans hfg.seat
  others := by
    intro a ha
    rcases hgh.others a (hfg.seat ▸ ha) with hnone | hsame
    · exact .inl hnone
    · rw [hsame]
      exact hfg.others a ha

lemma withLedger (f : Frame) {l : Ledger} (hturnover : ∀ xs, f.ledger.Turnover l xs xs)
    (hcontracts : l.contracts = f.ledger.contracts) (hretired : l.retired = f.ledger.retired)
    (d : List Deployment) : f.Custody ⟨l, f.seat, d⟩ where
  turnover := by
    have hheld : (Frame.mk l f.seat d).held = f.held := by
      simp only [held, Ledger.held, hcontracts, hretired]
    rw [hheld]
    exact hturnover f.held
  keys := by rw [hcontracts]
  retired := hretired
  seat := rfl
  others := fun a _ => .inr (by simp only [Ledger.number, Seat.contract, hcontracts])

lemma refl (f : Frame) : f.Custody f := withLedger f (.refl f.ledger) rfl rfl _

lemma book (f : Frame) {l : Ledger} (hjournal : l.journal = f.ledger.journal)
    (hengine : l.engine = f.ledger.engine) (hhandles : l.handles = f.ledger.handles)
    (hcontracts : l.contracts = f.ledger.contracts) (hretired : l.retired = f.ledger.retired) :
    f.Custody { f with ledger := l } :=
  withLedger f (fun _ => .of_journal hjournal hengine hhandles (.refl _)) hcontracts hretired _

lemma other (f : Frame) (a : Address) {k : Contract → Contract}
    (hk : ∀ c, (k c).number? = c.number?) :
    f.Custody { f with ledger := f.ledger.modifyContract a k } where
  turnover := by
    have hheld : ({ f with ledger := f.ledger.modifyContract a k } : Frame).held = f.held := by
      simp only [held, Ledger.held_modifyContract hk]
    rw [hheld]
    exact .of_journal rfl rfl rfl (.refl _)
  keys := Table.keys_modify _ _ _
  retired := rfl
  seat := rfl
  others := fun b _ => .inr (f.ledger.number_modifyContract hk a b)

lemma own (f : Frame) {k : Contract → Contract} (hk : ∀ c, (k c).number? = c.number?) :
    f.Custody (f.modifyContract k) := by
  obtain ⟨l, seat, deployments⟩ := f
  cases seat with
  | registered a => exact other ⟨l, .registered a, deployments⟩ a hk
  | apart c =>
    refine ⟨?_, rfl, rfl, rfl, fun b _ => .inr rfl⟩
    apply Ledger.Turnover.of_journal rfl rfl rfl
    simp only [held, modifyContract, Seat.held, hk]
    exact .refl _

end Custody

lemma frame_modifyContract (f : Frame) (k : Contract → Contract) :
    (f.modifyContract k).ledger.contracts.keys = f.ledger.contracts.keys ∧
      (f.modifyContract k).ledger.retired = f.ledger.retired ∧
      (f.modifyContract k).ledger.engine = f.ledger.engine ∧
      (f.modifyContract k).ledger.handles = f.ledger.handles ∧
      (f.modifyContract k).seat.address? = f.seat.address? ∧
      ∀ a, f.seat.address? ≠ some a →
        (f.modifyContract k).ledger.number a = f.ledger.number a := by
  obtain ⟨l, seat, deployments⟩ := f
  cases seat with
  | registered a =>
    refine ⟨Table.keys_modify _ _ _, rfl, rfl, rfl, rfl, fun b hb => ?_⟩
    exact l.number_modifyContract_of_ne (fun h => hb (congrArg some h.symm)) k
  | apart c => exact ⟨rfl, rfl, rfl, rfl, rfl, fun _ _ => rfl⟩

lemma contract_withLedger {f : Frame} {l : Ledger} (h : l.contracts = f.ledger.contracts)
    (d : List Deployment) : (Frame.mk l f.seat d).contract = f.contract := by
  obtain ⟨m, seat, deployments⟩ := f
  cases seat with
  | registered a => simp only [contract, Seat.contract, h]
  | apart c => rfl

lemma Custody.exchange {f : Frame} (hf : f.Placed) {l : Ledger} {k : Contract → Contract}
    (hcontracts : l.contracts = f.ledger.contracts) (hretired : l.retired = f.ledger.retired)
    (hturnover : ∀ xs, f.ledger.Turnover l (f.contract.number?.toList ++ xs)
      ((k f.contract).number?.toList ++ xs)) :
    f.Custody ({ f with ledger := l }.modifyContract k) := by
  have hkept : (Frame.mk l f.seat f.deployments).held = f.held := by
    simp only [held, Ledger.held, hcontracts, hretired]
  have hplaced : (Frame.mk l f.seat f.deployments).Placed := by
    refine ⟨hcontracts ▸ hf.keys, fun a ha => ?_⟩
    rw [Ledger.hasContract, hcontracts]
    exact hf.known a ha
  obtain ⟨rest, hrest, hchanged⟩ := hplaced.exists_rest
  rw [hkept, contract_withLedger hcontracts] at hrest
  rw [contract_withLedger hcontracts] at hchanged
  obtain ⟨hkeys, hretired', hengine, hhandles, hseat, hothers⟩ :=
    frame_modifyContract (Frame.mk l f.seat f.deployments) k
  refine ⟨?_, hkeys.trans (by rw [hcontracts]), hretired'.trans hretired, hseat, fun a ha => ?_⟩
  · have hchange := (hturnover rest).perm hrest.symm (.refl _)
    exact hchange.trans
      (.of_journal (journal_modifyContract _ k) hengine hhandles (hchanged k).symm)
  · right
    rw [hothers a ha]
    simp only [Ledger.number, Seat.contract, hcontracts]

end Frame

namespace Run

variable {f g h : Frame}

/-- A run keeps the account of handles. -/
def Keeps (f g : Frame) : Prop := f.Placed → f.Custody g

instance : IsPreorder Frame Keeps where
  refl := fun f _ => .refl f
  trans := fun _ _ _ h h' hf => (h hf).trans (h' ((h hf).placed hf))

lemma keeps_disposed (f : Frame) : Keeps f (disposed f) := by
  intro hf
  apply Frame.Custody.exchange hf (l := f.ledger.enter f.contract.disposal) rfl rfl
  intro xs
  rw [number?_dispose]
  exact .disposal f.ledger f.contract xs

lemma keeps_asked {engine : Engine} {parameters : Parameters} {e : Failure}
    (hengine : f.ledger.engine = some engine) (hrefused : engine.instantiate parameters = .error e) :
    Keeps f (asked parameters f) := by
  intro _
  refine .withLedger f (l := (asked parameters f).ledger) (fun xs => ?_) rfl rfl _
  refine ⟨rfl, Nat.le_succ _, [.instantiated (f.ledger.handles + 1) parameters], rfl, ?_⟩
  have hnothing : grants f.ledger.engine [.instantiated (f.ledger.handles + 1) parameters] = [] := by
    simp [grants, Entry.granted?, hengine, hrefused, Except.toOption]
  rw [hnothing]
  exact ⟨fun i => rfl, List.nodup_nil, fun i hi => absurd hi List.not_mem_nil⟩

lemma keeps_equipped {engine : Engine} {parameters : Parameters} {program : Instance}
    (hengine : f.ledger.engine = some engine) (hgiven : engine.instantiate parameters = .ok program)
    (hnone : f.contract.handle = none) :
    Keeps f ((asked parameters f).modifyContract
      (equipped ⟨f.ledger.handles + 1, 0, program⟩)) := by
  intro hf
  apply Frame.Custody.exchange hf (l := (asked parameters f).ledger) rfl rfl
  intro xs
  have hgrant : grants f.ledger.engine [.instantiated (f.ledger.handles + 1) parameters] =
      [f.ledger.handles + 1] := by
    simp [grants, Entry.granted?, hengine, hgiven, Except.toOption]
  rw [(f.contract.number?_eq_none_iff).mpr hnone]
  refine ⟨rfl, Nat.le_succ _, [.instantiated (f.ledger.handles + 1) parameters], rfl, ?_⟩
  rw [hgrant]
  refine ⟨fun i => ?_, List.nodup_cons.mpr ⟨List.not_mem_nil, List.nodup_nil⟩, fun i hi => ?_⟩
  · have hreleases : releases [.instantiated (f.ledger.handles + 1) parameters] = [] := rfl
    simp only [hreleases, equipped, Contract.number?, Option.map_some, Option.toList_some,
      Option.toList_none, List.count_append, List.count_nil]
    omega
  · rw [List.mem_singleton.mp hi]
    exact ⟨Nat.lt_succ_self _, Nat.le_refl _⟩

lemma slight_keeps : Slight Keeps where
  note := fun f _ _ _ => .book f rfl rfl rfl rfl rfl
  code := fun f _ _ _ => .book f rfl rfl rfl rfl rfl
  own := fun f _ hk _ => .own f hk.number
  other := fun f a _ hk _ => .other f a hk.number
  deployments := fun f d _ => .withLedger f (.refl f.ledger) rfl rfl d
  dispose := keeps_disposed

lemma keeps_enter (f : Frame) (e : Entry) (he : e.isMessage = true) :
    Keeps f { f with ledger := f.ledger.enter [e] } :=
  fun _ => .withLedger f (.enter f.ledger he) rfl rfl _

/-- A run in whose course the running contract may only lose its handle. -/
def Stays (f g : Frame) : Prop :=
  f.Placed → f.Custody g ∧ (g.contract.number? = none ∨ g.contract.number? = f.contract.number?)

instance : IsPreorder Frame Stays where
  refl := fun f _ => ⟨.refl f, .inr rfl⟩
  trans := by
    intro f g h hfg hgh hf
    obtain ⟨hcustody, hown⟩ := hfg hf
    obtain ⟨hcustody', hown'⟩ := hgh (hcustody.placed hf)
    refine ⟨hcustody.trans hcustody', hown'.elim .inl fun hsame => ?_⟩
    rw [hsame]
    exact hown

lemma stays_of_keeps (h : Keeps f g) (hown : g.contract.number? = f.contract.number?) : Stays f g :=
  fun hf => ⟨h hf, .inr hown⟩

lemma slight_stays : Slight Stays where
  note := fun f level text => stays_of_keeps (slight_keeps.note f level text)
    (congrArg Contract.number? (Frame.contract_withLedger rfl _))
  code := fun f a code => stays_of_keeps (slight_keeps.code f a code)
    (congrArg Contract.number? (Frame.contract_withLedger rfl _))
  own := fun f k hk => stays_of_keeps (slight_keeps.own f k hk) (number?_modifyContract f hk.number)
  other := by
    intro f a k hk
    apply stays_of_keeps (slight_keeps.other f a k hk)
    obtain ⟨l, seat, deployments⟩ := f
    cases seat with
    | registered b => exact l.number_modifyContract hk.number a b
    | apart c => rfl
  deployments := fun f d => stays_of_keeps (slight_keeps.deployments f d)
    (congrArg Contract.number? (Frame.contract_withLedger rfl _))
  dispose := fun f hf =>
    ⟨keeps_disposed f hf, .inl ((Contract.number?_eq_none_iff _).mpr (handle_disposed f))⟩

lemma stays_enter (f : Frame) (e : Entry) (he : e.isMessage = true) :
    Stays f { f with ledger := f.ledger.enter [e] } :=
  stays_of_keeps (keeps_enter f e he) (congrArg Contract.number? (Frame.contract_withLedger rfl _))

/-- A run in another place, where no handle is left, is seen from here. -/
lemma stays_elsewhere {seat : Seat} (h : (Frame.mk f.ledger seat []).Custody g)
    (hbefore : seat.held = []) (hafter : g.seat.held = [])
    (hall : ∀ a, g.ledger.number a = none ∨ g.ledger.number a = f.ledger.number a) :
    Stays f { f with ledger := g.ledger } := by
  intro _
  refine ⟨⟨?_, h.keys, h.retired, rfl, fun a _ => hall a⟩, ?_⟩
  · have hframed := h.turnover.frame f.seat.held
    simp only [Frame.held, hbefore, hafter, List.append_nil] at hframed
    exact hframed
  · obtain ⟨l, place, deployments⟩ := f
    cases place with
    | registered a => exact hall a
    | apart c => exact .inr rfl

lemma relays_stays : Relays Keeps Stays where
  toSlight := slight_stays
  visit := by
    intro f target g hknown h hhandle hf
    have hcustody := h (.registered hf.keys hknown)
    have hseat := Seat.eq_registered hcustody.seat
    refine stays_elsewhere hcustody rfl (by rw [hseat]; rfl) (fun a => ?_) hf
    -- the visit says of all others that they keep what they have; the target itself is known by `hhandle`
    by_cases ha : a = target
    · subst ha
      rw [Frame.contract, hseat] at hhandle
      exact hhandle.imp_left (Contract.number?_eq_none_iff _).mpr
    · exact hcustody.others a fun h => ha (Option.some.inj h).symm
  copy := by
    intro f c g hc h hg hf
    have hcustody := h ⟨hf.keys, fun a ha => by cases ha⟩
    have hnone : c.number? = none := (Contract.number?_eq_none_iff c).mpr hc
    have hleft : g.seat.held = [] := by
      obtain ⟨l, seat, deployments⟩ := g
      cases seat with
      | registered a => rfl
      | apart d =>
        have hd : d.number? = none := (Contract.number?_eq_none_iff d).mpr hg
        simp [Seat.held, hd]
    refine stays_elsewhere hcustody (by simp [Seat.held, hnone]) hleft (fun a => ?_) hf
    exact hcustody.others a (by simp [Seat.address?])

lemma sustained_keeps : Sustained Keeps where
  toSlight := slight_keeps
  visit := fun f target g hknown h hhandle hf => (relays_stays.visit f target g hknown h hhandle hf).1
  copy := fun f c g hc h hg hf => (relays_stays.copy f c g hc h hg hf).1
  enter := keeps_enter
  equip := by
    intro f r g hnone hx
    rcases equip_cases hx with
      ⟨e, -, rfl⟩ | ⟨engine, parameters, hengine, ⟨e, hrefused, -, rfl⟩ | ⟨i, hgiven, -, rfl⟩⟩
    · exact refl _
    · exact keeps_asked hengine hrefused
    · exact keeps_equipped hengine hgiven hnone

end Run

end ChainReplay
