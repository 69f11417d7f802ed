import ChainReplay.Proofs.Custody.Operations
import ChainReplay.Proofs.Execution.Counterpart

/-! Overriding the storage of contracts, and undoing it. What was put aside at the first override of a
contract stays put aside, whatever happens to the world, until it is put back. -/

namespace ChainReplay

namespace Table

variable {κ α : Type} [DecidableEq κ] {t : Table κ α} {k : κ}

lemma keys_insertNew (h : k ∉ keys t) (a : α) : keys (t.insertNew k a) = keys t ++ [k] := by
  rw [insertNew, if_neg fun hk => h ((contains_iff t k).mp hk), keys, List.map_append]
  rfl

lemma nodup_keys_insertNew (h : (keys t).Nodup) (k : κ) (a : α) :
    (keys (t.insertNew k a)).Nodup := by
  by_cases hk : k ∈ keys t
  · rw [insertNew, if_pos ((contains_iff t k).mpr hk)]
    exact h
  · rw [keys_insertNew hk]
    refine List.nodup_append.mpr ⟨h, by simp, fun j hj i hi => ?_⟩
    rw [List.mem_singleton.mp hi]
    rintro rfl
    exact hk hj

end Table

namespace Overrides

/-- What becomes of overriding the contract at an address. If there is none, it fails. -/
inductive Result (o : Overrides) (l : Ledger) (a : Address) (g : Contract → Contract) :
    Except Failure (Overrides × Ledger) → Prop
  | done {c : Contract} {m : Ledger} (found : l.contracts.find? a = some c)
      (contracts : m.contracts = l.contracts.modify a g) :
      Result o l a g (.ok (o.insertNew a (c.snapshot l.blockNumber), m))
  | missing (none : l.contracts.find? a = none) : Result o l a g (.error (.unknownContract a))

lemma result_overrideStates (o : Overrides) (l : Ledger) (a : Address) (states : Storage) :
    Result o l a (·.setStates states) (o.overrideStates l a states) := by
  rw [overrideStates, Ledger.contract?]
  cases hc : l.contracts.find? a with
  | some c => exact .done hc rfl
  | none => exact .missing hc

lemma result_overrideDeployment (o : Overrides) (l : Ledger) (a : Address) :
    Result o l a (fun c => { c with deployed := true }) (o.overrideDeployment l a) := by
  rw [overrideDeployment, Ledger.contract?]
  cases hc : l.contracts.find? a with
  | some c => exact .done hc rfl
  | none => exact .missing hc

def settle (o : Overrides) (a : Address) (c : Contract) : Contract :=
  match o.find? a with
  | some before => c.applySnapshot before
  | none => c

lemma find?_putBack {o : Overrides} (h : o.keys.Nodup) (l : Ledger) (a : Address) :
    (o.foldl (fun l (a, before) => l.modifyContract a (·.applySnapshot before))
      l).contracts.find? a = (l.contracts.find? a).map (o.settle a) := by
  induction o generalizing l with
  | nil => exact Option.map_id'.symm
  | cons entry o ih =>
    obtain ⟨b, before⟩ := entry
    obtain ⟨hb, ho⟩ := List.nodup_cons.mp h
    have hlast : Table.find? o b = none := by
      rw [← Table.contains_eq_false_iff, Bool.eq_false_iff]
      exact fun hin => hb ((Table.contains_iff o b).mp hin)
    have hmodify : (l.modifyContract b (·.applySnapshot before)).contracts.find? a =
        if a = b then (l.contracts.find? a).map (·.applySnapshot before)
        else l.contracts.find? a :=
      Table.find?_modify l.contracts b (·.applySnapshot before) a
    rw [List.foldl_cons, ih ho, hmodify]
    by_cases hba : b = a
    · subst hba
      rw [if_pos rfl, Option.map_map]
      refine congrArg (Option.map · _) (funext fun c => ?_)
      simp only [settle, Function.comp_apply, hlast, Table.find?_cons, if_true]
    · rw [if_neg (Ne.symm hba)]
      refine congrArg (Option.map · _) (funext fun c => ?_)
      rw [settle, settle, Table.find?_cons, if_neg hba]

lemma find?_purge {o : Overrides} (h : o.keys.Nodup) (l : Ledger) (a : Address) :
    (o.purge l).contracts.find? a = (l.contracts.find? a).map (o.settle a) := by
  rw [← find?_putBack h, purge]
  split <;> rfl

lemma purge_rest (o : Overrides) (l : Ledger) :
    ∃ contracts notices, o.purge l = { l with contracts, notices } := by
  have hputBack : ∃ contracts,
      o.foldl (fun l (a, before) => l.modifyContract a (·.applySnapshot before)) l =
        { l with contracts } := by
    induction o generalizing l with
    | nil => exact ⟨l.contracts, rfl⟩
    | cons entry o ih => exact ih (l.modifyContract entry.1 (·.applySnapshot entry.2))
  obtain ⟨contracts, hputBack⟩ := hputBack
  rw [purge, hputBack]
  split
  · exact ⟨contracts, l.notices, rfl⟩
  · exact ⟨contracts, _, rfl⟩

lemma keys_purge (o : Overrides) (l : Ledger) : (o.purge l).contracts.keys = l.contracts.keys := by
  have hkeys : (o.foldl (fun l (a, before) => l.modifyContract a (·.applySnapshot before))
      l).contracts.keys = l.contracts.keys := by
    induction o generalizing l with
    | nil => rfl
    | cons entry o ih =>
      refine (ih (l.modifyContract entry.1 (·.applySnapshot entry.2))).trans ?_
      exact Table.keys_modify l.contracts entry.1 (·.applySnapshot entry.2)
  rw [← hkeys, purge]
  split <;> rfl

end Overrides

lemma World.follow_of_journal (w : World) {l : Ledger} (h : l.journal = w.ledger.journal) :
    w.follow l = { w with ledger := l } := by
  rw [follow, h, List.drop_length]
  exact congrArg (World.mk _ _ _) (List.append_nil _)

/-- A world with a handler of overrides for its ledger. -/
structure Workbench where
  world : World
  overrides : Overrides

/-- What is done with it: contracts are overridden, overrides are undone, and users go on with the
world as before. -/
inductive Act where
  | states (address : Address) (states : Storage)
  | deployment (address : Address)
  | purge
  | other (operation : Operation)

def Act.overridden? : Act → Option Address
  | .states a _ => some a
  | .deployment a => some a
  | _ => none

namespace Workbench

def start (w : World) : Workbench := ⟨w, []⟩

def contract? (o : Workbench) (a : Address) : Option Contract := o.world.ledger.contracts.find? a

/-- Overriding a contract that is not registered does nothing. -/
def override (o : Workbench) (result : Except Failure (Overrides × Ledger)) : Workbench :=
  match result with
  | .ok (overrides, l) => ⟨o.world.follow l, overrides⟩
  | .error _ => o

def purge (o : Workbench) : Workbench := ⟨o.world.follow (o.overrides.purge o.world.ledger), []⟩

def step (fuel : Nat) (o : Workbench) : Act → Option Workbench
  | .states a states => some (o.override (o.overrides.overrideStates o.world.ledger a states))
  | .deployment a => some (o.override (o.overrides.overrideDeployment o.world.ledger a))
  | .purge => some o.purge
  | .other operation => (o.world.step fuel operation).map fun world => { o with world }

def run (fuel : Nat) (o : Workbench) : List Act → Option Workbench
  | [] => some o
  | act :: rest => (o.step fuel act).bind fun o => o.run fuel rest

variable {fuel : Nat} {o p q : Workbench} {a : Address} {acts before after : List Act} {act : Act}
  {c d : Contract}

lemma run_append (fuel : Nat) (o : Workbench) (xs ys : List Act) :
    o.run fuel (xs ++ ys) = (o.run fuel xs).bind fun o => o.run fuel ys := by
  induction xs generalizing o with
  | nil => rfl
  | cons act xs ih =>
    rw [List.cons_append, run, run, Option.bind_assoc]
    exact congrArg (Option.bind _) (funext ih)

/-- After some of the acts the contract at an address is overridden, and the others follow. -/
structure Overrode (fuel : Nat) (o : Workbench) (a : Address) (acts before after : List Act)
    (c : Contract) : Prop where
  split : ∃ act, acts = before ++ act :: after ∧ act.overridden? = some a
  found : ∃ p, o.run fuel before = some p ∧ p.contract? a = some c

/-- It has been overridden since the last purge. -/
def Overridden (fuel : Nat) (o : Workbench) (a : Address) (acts : List Act) : Prop :=
  ∃ before after c, Overrode fuel o a acts before after c ∧ Act.purge ∉ after

/-- This it was before it was overridden for the first time since the last purge. -/
def Original (fuel : Nat) (o : Workbench) (a : Address) (acts : List Act) (c : Contract) : Prop :=
  ∃ before after, Overrode fuel o a acts before after c ∧ Act.purge ∉ after ∧
    ¬Overridden fuel o a before

namespace Overrode

lemma snoc (h : Overrode fuel o a acts before after c) (act : Act) :
    Overrode fuel o a (acts ++ [act]) before (after ++ [act]) c := by
  obtain ⟨⟨first, rfl, hfirst⟩, hfound⟩ := h
  exact ⟨⟨first, by simp, hfirst⟩, hfound⟩

lemma last (hrun : o.run fuel acts = some p) (hact : act.overridden? = some a)
    (hc : p.contract? a = some c) : Overrode fuel o a (acts ++ [act]) acts [] c :=
  ⟨⟨act, rfl, hact⟩, p, hrun, hc⟩

lemma snoc_cases (h : Overrode fuel o a (acts ++ [act]) before after c)
    (hrun : o.run fuel acts = some p) :
    (∃ rest, after = rest ++ [act] ∧ Overrode fuel o a acts before rest c) ∨
      after = [] ∧ act.overridden? = some a ∧ p.contract? a = some c := by
  obtain ⟨⟨first, hsplit, hfirst⟩, q, hq, hc⟩ := h
  rcases List.eq_nil_or_concat after with rfl | ⟨rest, last, rfl⟩
  · obtain ⟨rfl, heq⟩ := List.append_inj' hsplit rfl
    obtain rfl := List.singleton_inj.mp heq
    cases hrun.symm.trans hq
    exact .inr ⟨rfl, hfirst, hc⟩
  · rw [List.concat_eq_append, ← List.cons_append, ← List.append_assoc] at hsplit
    obtain ⟨rfl, heq⟩ := List.append_inj' hsplit rfl
    obtain rfl := List.singleton_inj.mp heq
    exact .inl ⟨rest, List.concat_eq_append, ⟨first, rfl, hfirst⟩, q, hq, hc⟩

/-- Either the second comes later than the first, or they are the same. -/
lemma later {between after' : List Act} (h : Overrode fuel o a acts before after c)
    (h' : Overrode fuel o a acts (before ++ between) after' d) :
    c = d ∨ ∃ rest act, after = rest ++ act :: after' ∧
      Overrode fuel o a (before ++ between) before rest c := by
  obtain ⟨⟨act, rfl, hact⟩, p, hp, hc⟩ := h
  obtain ⟨⟨act', hsplit, -⟩, q, hq, hd⟩ := h'
  rw [List.append_assoc, List.append_cancel_left_eq] at hsplit
  cases between with
  | nil =>
    rw [List.append_nil] at hq
    cases hp.symm.trans hq
    exact .inl (Option.some.inj (hc.symm.trans hd))
  | cons first rest =>
    obtain ⟨rfl, rfl⟩ := List.cons.inj hsplit
    exact .inr ⟨rest, act', rfl, ⟨act, rfl, hact⟩, p, hp, hc⟩

lemma isPrefix (h : Overrode fuel o a acts before after c) : before <+: acts := by
  obtain ⟨⟨act, rfl, -⟩, -⟩ := h
  exact List.prefix_append _ _

end Overrode

lemma Original.unique (h : Original fuel o a acts c) (h' : Original fuel o a acts d) : c = d := by
  obtain ⟨before, after, hc, hafter, hfirst⟩ := h
  obtain ⟨before', after', hd, hafter', hfirst'⟩ := h'
  rcases List.prefix_or_prefix_of_prefix hc.isPrefix hd.isPrefix with ⟨between, rfl⟩ | ⟨between, rfl⟩
  · rcases hc.later hd with heq | ⟨rest, act, rfl, hearlier⟩
    · exact heq
    · exact absurd ⟨_, _, _, hearlier, fun hin => hafter (List.mem_append_left _ hin)⟩ hfirst'
  · rcases hd.later hc with heq | ⟨rest, act, rfl, hearlier⟩
    · exact heq.symm
    · exact absurd ⟨_, _, _, hearlier, fun hin => hafter' (List.mem_append_left _ hin)⟩ hfirst

lemma Original.overridden (h : Original fuel o a acts c) : Overridden fuel o a acts := by
  obtain ⟨before, after, hc, hafter, -⟩ := h
  exact ⟨before, after, c, hc, hafter⟩

lemma Original.snoc (h : Original fuel o a acts c) (hact : act ≠ .purge) :
    Original fuel o a (acts ++ [act]) c := by
  obtain ⟨before, after, hc, hafter, hfirst⟩ := h
  refine ⟨before, after ++ [act], hc.snoc act, fun hin => ?_, hfirst⟩
  rcases List.mem_append.mp hin with hin | hin
  · exact hafter hin
  · exact hact (List.mem_singleton.mp hin).symm

lemma Overridden.snoc_cases (h : Overridden fuel o a (acts ++ [act]))
    (hrun : o.run fuel acts = some p) :
    act ≠ .purge ∧
      (Overridden fuel o a acts ∨ ∃ c, act.overridden? = some a ∧ p.contract? a = some c) := by
  obtain ⟨before, after, c, hc, hafter⟩ := h
  rcases hc.snoc_cases hrun with ⟨rest, rfl, hearlier⟩ | ⟨rfl, hact, hc⟩
  · rw [List.mem_append, List.mem_singleton, not_or] at hafter
    exact ⟨Ne.symm hafter.2, .inl ⟨before, rest, c, hearlier, hafter.1⟩⟩
  · refine ⟨?_, .inr ⟨c, hact, hc⟩⟩
    rintro rfl
    cases hact

inductive PutsAside (o : Workbench) (act : Act) (p : Workbench) : Prop
  | nothing (hact : act = .purge) (overrides : p.overrides = [])
  | contract {a : Address} {c : Contract} {n : Int} (hact : act.overridden? = some a)
      (found : o.contract? a = some c)
      (overrides : p.overrides = o.overrides.insertNew a (c.snapshot n))
  | same (hact : act ≠ .purge) (idle : ∀ a, act.overridden? = some a → o.contract? a = none)
      (overrides : p.overrides = o.overrides)

lemma putsAside_override {g : Contract → Contract} {r : Except Failure (Overrides × Ledger)}
    (h : o.overrides.Result o.world.ledger a g r) (hact : act.overridden? = some a) :
    o.PutsAside act (o.override r) := by
  cases h with
  | done found _ => exact .contract hact found rfl
  | missing none =>
    refine .same ?_ (fun b hb => ?_) rfl
    · rintro rfl
      cases hact
    · cases hact.symm.trans hb
      exact none

lemma putsAside (h : o.step fuel act = some p) : o.PutsAside act p := by
  cases act with
  | states a states =>
    cases h
    exact putsAside_override (Overrides.result_overrideStates _ _ a states) rfl
  | deployment a =>
    cases h
    exact putsAside_override (Overrides.result_overrideDeployment _ _ a) rfl
  | purge =>
    cases h
    exact .nothing rfl rfl
  | other operation =>
    obtain ⟨w, -, rfl⟩ := Option.map_eq_some_iff.mp h
    exact .same nofun nofun rfl

/-- Put aside is what the contracts overridden since the last purge were before. -/
structure Recorded (fuel : Nat) (o : Workbench) (acts : List Act) (p : Workbench) : Prop where
  keys : p.overrides.keys.Nodup
  original : ∀ a before, p.overrides.find? a = some before →
    ∃ c n, Original fuel o a acts c ∧ before = c.snapshot n
  others : ∀ a, p.overrides.find? a = none → ¬Overridden fuel o a acts

namespace Recorded

lemma start (fuel : Nat) (w : World) : Recorded fuel (start w) [] (start w) where
  keys := List.nodup_nil
  original := nofun
  others := by
    rintro a - ⟨before, after, c, ⟨⟨act, hsplit, -⟩, -⟩, -⟩
    simp at hsplit

lemma purged (hrun : o.run fuel acts = some p) (hact : act = .purge) (hnone : q.overrides = []) :
    Recorded fuel o (acts ++ [act]) q := by
  constructor
  · exact hnone ▸ List.nodup_nil
  · rw [hnone]
    exact nofun
  · exact fun a _ hin => (hin.snoc_cases hrun).1 hact

lemma overridden {n : Int} (h : Recorded fuel o acts p) (hrun : o.run fuel acts = some p)
    (hact : act.overridden? = some a) (hc : p.contract? a = some c)
    (hnew : q.overrides = p.overrides.insertNew a (c.snapshot n)) :
    Recorded fuel o (acts ++ [act]) q := by
  have hpurge : act ≠ .purge := by
    rintro rfl
    cases hact
  constructor
  · exact hnew ▸ Table.nodup_keys_insertNew h.keys a _
  · intro b before hbefore
    rw [hnew, Table.find?_insertNew] at hbefore
    cases hold : p.overrides.find? b with
    | some old =>
      rw [hold, Option.some_or] at hbefore
      cases hbefore
      obtain ⟨d, m, hd, hsnapshot⟩ := h.original b _ hold
      exact ⟨d, m, hd.snoc hpurge, hsnapshot⟩
    | none =>
      -- nothing of it was put aside, so this is its first override
      rw [hold, Option.none_or] at hbefore
      split at hbefore
      case isFalse => cases hbefore
      case isTrue hb =>
        cases hbefore
        subst hb
        exact ⟨c, n, ⟨acts, [], .last hrun hact hc, List.not_mem_nil, h.others b hold⟩, rfl⟩
  · intro b hnone hin
    rw [hnew, Table.find?_insertNew, Option.or_eq_none_iff] at hnone
    obtain hin | ⟨d, hb, -⟩ := (hin.snoc_cases hrun).2
    · exact h.others b hnone.1 hin
    · cases hact.symm.trans hb
      simp at hnone

lemma kept (h : Recorded fuel o acts p) (hrun : o.run fuel acts = some p) (hact : act ≠ .purge)
    (hidle : ∀ a, act.overridden? = some a → p.contract? a = none)
    (hsame : q.overrides = p.overrides) : Recorded fuel o (acts ++ [act]) q := by
  constructor
  · exact hsame ▸ h.keys
  · intro a before hbefore
    obtain ⟨d, m, hd, hsnapshot⟩ := h.original a before (hsame ▸ hbefore)
    exact ⟨d, m, hd.snoc hact, hsnapshot⟩
  · intro a hnone hin
    obtain hin | ⟨d, ha, hd⟩ := (hin.snoc_cases hrun).2
    · exact h.others a (hsame ▸ hnone) hin
    · cases (hidle a ha).symm.trans hd

lemma step (h : Recorded fuel o acts p) (hrun : o.run fuel acts = some p)
    (hstep : p.step fuel act = some q) : Recorded fuel o (acts ++ [act]) q := by
  cases putsAside hstep with
  | nothing hact hnone => exact purged hrun hact hnone
  | contract hact hc hnew => exact h.overridden hrun hact hc hnew
  | same hact hidle hsame => exact h.kept hrun hact hidle hsame

lemma run {w : World} (h : (Workbench.start w).run fuel acts = some p) :
    Recorded fuel (Workbench.start w) acts p := by
  induction acts using List.reverseRecOn generalizing p with
  | nil =>
    cases h
    exact start fuel w
  | append_singleton acts act ih =>
    rw [run_append] at h
    obtain ⟨q, hq, h⟩ := Option.bind_eq_some_iff.mp h
    obtain ⟨p', hp', ⟨⟩⟩ := Option.bind_eq_some_iff.mp h
    exact (ih hq).step hq hp'

lemma contract?_purge (h : Recorded fuel o acts p) (a : Address) :
    p.purge.contract? a = (p.contract? a).map (p.overrides.settle a) :=
  Overrides.find?_purge h.keys _ a

lemma restored (h : Recorded fuel o acts p) (hc : Original fuel o a acts c)
    (hd : p.contract? a = some d) :
    p.purge.contract? a = some { d with
      states := c.states, deploymentStates := c.deploymentStates, children := c.children
      deployed := c.deployed } := by
  cases hbefore : p.overrides.find? a with
  | none => exact absurd hc.overridden (h.others a hbefore)
  | some before =>
    obtain ⟨c', n, hc', rfl⟩ := h.original a before hbefore
    cases hc.unique hc'
    rw [h.contract?_purge, hd, Option.map_some, Overrides.settle, hbefore]
    rfl

lemma exists_original (h : Recorded fuel o acts p) (ha : Overridden fuel o a acts) :
    ∃ c, Original fuel o a acts c := by
  cases hbefore : p.overrides.find? a with
  | none => exact absurd ha (h.others a hbefore)
  | some before =>
    obtain ⟨c, n, hc, -⟩ := h.original a before hbefore
    exact ⟨c, hc⟩

lemma untouched (h : Recorded fuel o acts p) (ha : ¬Overridden fuel o a acts) :
    p.purge.contract? a = p.contract? a := by
  cases hbefore : p.overrides.find? a with
  | none =>
    have hsettle : p.overrides.settle a = id := by
      funext c
      rw [Overrides.settle, hbefore]
      rfl
    rw [h.contract?_purge, hsettle, Option.map_id]
    rfl
  | some before =>
    obtain ⟨c, n, hc, -⟩ := h.original a before hbefore
    exact absurd hc.overridden ha

end Recorded

/-- After these acts a purge leads from the one to the other: contracts that have been overridden are
again what they were before that, and all else is as it was. -/
structure Undone (fuel : Nat) (w : World) (acts : List Act) (p q : Workbench) : Prop where
  restored : ∀ a c d, Original fuel (start w) a acts c → p.contract? a = some d →
    q.contract? a = some { d with
      states := c.states, deploymentStates := c.deploymentStates, children := c.children
      deployed := c.deployed }
  original : ∀ a, Overridden fuel (start w) a acts → ∃ c, Original fuel (start w) a acts c
  others : ∀ a, ¬Overridden fuel (start w) a acts → q.contract? a = p.contract? a
  registered : q.world.ledger.contracts.keys = p.world.ledger.contracts.keys
  rest : ∃ contracts notices,
    q.world = { p.world with ledger := { p.world.ledger with contracts, notices } }
  nothing : q.overrides = []
  again : q.purge = q

theorem purge_undoes_overrides (w : World) (acts : List Act)
    (h : (start w).run fuel acts = some p) : Undone fuel w acts p p.purge := by
  have hrecorded := Recorded.run h
  constructor
  case restored => exact fun a c d hc hd => hrecorded.restored hc hd
  case original => exact fun a ha => hrecorded.exists_original ha
  case others => exact fun a ha => hrecorded.untouched ha
  case registered => exact Overrides.keys_purge _ _
  case rest =>
    obtain ⟨contracts, notices, hrest⟩ := p.overrides.purge_rest p.world.ledger
    refine ⟨contracts, notices, ?_⟩
    rw [purge, hrest]
    exact p.world.follow_of_journal rfl
  case nothing => rfl
  case again => exact congrArg (Workbench.mk · []) (p.purge.world.follow_of_journal rfl)

section Visiting

open Run (entrance chamber reentering)

def visited : Workbench :=
  start (World.start Settings.default (some (reentering (.done []) (.done []))))

/-- Once both contracts are known the chamber is overridden, called, and overridden again. -/
def overriding : List Act :=
  World.visiting.map .other ++ [.states chamber [(1, 2)],
    .other (.perform (.registered chamber) (.execute [] none none)), .states chamber [(3, 4)]]

theorem purge_undoes_overrides_of_chamber :
    ∃ p c d, visited.run 2 overriding = some p ∧ Original 2 visited chamber overriding c ∧
      p.contract? chamber = some d ∧ d.states = [(3, 4)] ∧
      p.purge.contract? chamber = some { d with
        states := c.states, deploymentStates := c.deploymentStates, children := c.children
        deployed := c.deployed } := by
  obtain ⟨hends, hknown⟩ :
      (visited.run 2 overriding).map (fun p => (p.contract? chamber).map (·.states)) =
        some (some [(3, 4)]) ∧
      ((visited.run 2 (World.visiting.map .other)).bind (·.contract? chamber)).isSome = true := by
    decide +kernel
  obtain ⟨p, hrun, hstates⟩ := Option.map_eq_some_iff.mp hends
  obtain ⟨d, hd, hstates⟩ := Option.map_eq_some_iff.mp hstates
  obtain ⟨first, hfirst⟩ := Option.isSome_iff_exists.mp hknown
  obtain ⟨q, hq, hfirst⟩ := Option.bind_eq_some_iff.mp hfirst
  have hundone := purge_undoes_overrides _ overriding hrun
  obtain ⟨c, hc⟩ := hundone.original chamber
    ⟨_, _, first, ⟨⟨_, rfl, rfl⟩, q, hq, hfirst⟩, by simp⟩
  exact ⟨p, c, d, hrun, hc, hd, hstates, hundone.restored chamber c d hc hd⟩

end Visiting

end Workbench

end ChainReplay
