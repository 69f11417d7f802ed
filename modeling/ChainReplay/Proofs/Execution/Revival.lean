import ChainReplay.Proofs.Execution.Counterpart
import ChainReplay.Proofs.Execution.DeploymentRecords
import ChainReplay.Proofs.Execution.Sustained

/-! Ledgers that have been set back. The registered contracts have the storage of the first ledger
again, but not all that runs have made of them is undone: some are deployed that were not, some have
copies on record, and some have been loaded. -/

namespace ChainReplay

open Run

/-- What stays of the runs that have been undone: code and numbers of handles, for each contract the
copies that one of the two ledgers has on record and the other has not, and the contracts whose
constructor the second one has run and the first one has not. The keys are the addresses of the
registered contracts. -/
structure Residue where
  offset : Offset
  differ : Address → Address → Bool
  stale : Address → Bool
  keys : List Address

/-- The registered contracts in which the two ledgers agree: on whether they are deployed, and on what
their last call has left behind. -/
structure Accord where
  deployed : Address → Prop
  loaded : Address → Prop

inductive Post where
  | registered (address : Address)
  | apart (address : Address)

def Post.address : Post → Address
  | registered a => a
  | apart a => a

namespace Accord

structure Within (s t : Accord) : Prop where
  deployed : ∀ a, s.deployed a → t.deployed a
  loaded : ∀ a, s.loaded a → t.loaded a

lemma Within.refl (s : Accord) : s.Within s := ⟨fun _ h => h, fun _ h => h⟩

lemma Within.trans {s t u : Accord} (h : s.Within t) (h' : t.Within u) : s.Within u :=
  ⟨fun a ha => h'.deployed a (h.deployed a ha), fun a ha => h'.loaded a (h.loaded a ha)⟩

/-- Contracts that stand apart are copies, which agree in everything. -/
def deployedAt (s : Accord) : Post → Prop
  | .registered a => s.deployed a
  | .apart _ => True

def loadedAt (s : Accord) : Post → Prop
  | .registered a => s.loaded a
  | .apart _ => True

def deploy (s : Accord) (p : Post) : Accord :=
  { s with deployed := fun a => s.deployed a ∨ p = .registered a }

def load (s : Accord) (p : Post) : Accord :=
  { s with loaded := fun a => s.loaded a ∨ p = .registered a }

lemma within_deploy (s : Accord) (p : Post) : s.Within (s.deploy p) :=
  ⟨fun _ h => .inl h, fun _ h => h⟩

lemma within_load (s : Accord) (p : Post) : s.Within (s.load p) :=
  ⟨fun _ h => h, fun _ h => .inl h⟩

lemma deployedAt_deploy (s : Accord) (p : Post) : (s.deploy p).deployedAt p := by
  cases p with
  | registered a => exact .inr rfl
  | apart a => trivial

lemma loadedAt_load (s : Accord) (p : Post) : (s.load p).loadedAt p := by
  cases p with
  | registered a => exact .inr rfl
  | apart a => trivial

lemma Within.deployedAt {s t : Accord} (h : s.Within t) {p : Post} (hp : s.deployedAt p) :
    t.deployedAt p := by
  cases p with
  | registered a => exact h.deployed a hp
  | apart a => trivial

lemma Within.loadedAt {s t : Accord} (h : s.Within t) {p : Post} (hp : s.loadedAt p) :
    t.loadedAt p := by
  cases p with
  | registered a => exact h.loaded a hp
  | apart a => trivial

/-- Away from a post, an accord holds no more than another. -/
def Beyond (s t : Accord) (p : Post) : Prop :=
  ∀ a, p ≠ .registered a → (s.deployed a → t.deployed a) ∧ (s.loaded a → t.loaded a)

lemma Within.beyond {s t : Accord} (h : s.Within t) (p : Post) : s.Beyond t p :=
  fun a _ => ⟨h.deployed a, h.loaded a⟩

lemma beyond_deploy (s : Accord) (p : Post) : (s.deploy p).Beyond s p :=
  fun _ ha => ⟨fun h => h.resolve_right ha, fun h => h⟩

lemma beyond_load (s : Accord) (p : Post) : (s.load p).Beyond s p :=
  fun _ ha => ⟨fun h => h, fun h => h.resolve_right ha⟩

end Accord

variable {w : Residue} {s t : Accord} {p : Post}

namespace Contract

/-- The second contract has the storage of the first one. Where there is no accord on its deployment it
may be deployed ahead of the first one. -/
inductive Revived (w : Residue) (agreed loaded : Prop) (c : Contract) : Contract → Prop
  | intro {gasUsed : Int} {deploymentStates : Storage} {children : Table Address Bytes}
      {deployed : Bool} {events : List Event} {callStack : List Address} {backup : Storage}
      {handle : Option Handle}
      (records : ∀ child, ¬w.differ c.address child →
        children.contains child = c.children.contains child)
      (deployment : deployed = c.deployed ∧
          (c.deployed = false → deploymentStates = c.deploymentStates) ∨
        ¬agreed ∧ deployed = true ∧ c.deployed = false ∧
          (c.isNew = true → w.stale c.address = true))
      (remains : loaded → events = c.events ∧ callStack = c.callStack ∧
        Option.Rel (Handle.Counterpart w.offset) c.handle handle) :
      Revived w agreed loaded c
        { c with gasUsed, deploymentStates, children, deployed, events, callStack, backup, handle }

namespace Revived

variable {agreed agreed' loaded loaded' : Prop} {c d : Contract}

lemma mono (h : c.Revived w agreed loaded d) (hagreed : agreed' → agreed)
    (hloaded : loaded' → loaded) : c.Revived w agreed' loaded' d := by
  obtain ⟨hrecords, hdeployment, hremains⟩ := h
  exact .intro hrecords (hdeployment.imp_right fun h => ⟨fun ha => h.1 (hagreed ha), h.2⟩)
    fun hl => hremains (hloaded hl)

lemma agree (h : c.Revived w agreed loaded d) (hd : d.deployed = c.deployed) (agreed' : Prop) :
    c.Revived w agreed' loaded d := by
  obtain ⟨hrecords, hdeployment, hremains⟩ := h
  refine .intro hrecords (.inl ?_) hremains
  rcases hdeployment with hdeployment | ⟨-, htrue, hfalse, -⟩
  · exact hdeployment
  · exact absurd (htrue.symm.trans (hd.trans hfalse)) nofun

lemma isNew (h : c.Revived w agreed loaded d) (hc : agreed ∨ w.stale c.address = false) :
    d.isNew = c.isNew := by
  obtain ⟨-, hdeployment, -⟩ := h
  rcases hdeployment with ⟨rfl, hstates⟩ | ⟨hagreed, rfl, -, hnew⟩
  · cases hc : c.deployed with
    | true => simp [Contract.isNew, hc]
    | false => simp [Contract.isNew, hc, hstates hc]
  · have hold : c.isNew = false := by
      rw [Bool.eq_false_iff]
      intro hisNew
      rw [hc.resolve_left hagreed] at hnew
      exact Bool.false_ne_true (hnew hisNew)
    rw [hold]
    rfl

lemma dispose (h : c.Revived w agreed loaded d) :
    c.dispose.Revived w agreed loaded d.dispose := by
  obtain ⟨hrecords, hdeployment, hremains⟩ := h
  rename_i handle
  cases hc : c.handle <;> cases handle <;> simp only [Contract.dispose, hc]
  case none.none => exact .intro hrecords hdeployment hremains
  case none.some =>
    exact .intro hrecords hdeployment fun hl =>
      ⟨(hremains hl).1, (hremains hl).2.1, by rw [hc]; exact .none⟩
  case some.none | some.some =>
    exact .intro hrecords hdeployment fun hl => ⟨(hremains hl).1, (hremains hl).2.1, .none⟩

lemma begun (h : c.Revived w agreed loaded d) (loaded' : Prop) :
    (begun c.dispose).Revived w agreed loaded' (begun d.dispose) := by
  obtain ⟨hrecords, hdeployment, -⟩ := h
  rename_i handle
  cases hc : c.handle <;> cases handle <;> simp only [Contract.dispose, hc]
  case none.none | none.some =>
    exact .intro hrecords hdeployment fun _ => ⟨rfl, rfl, by rw [Run.begun, hc]; exact .none⟩
  case some.none | some.some =>
    exact .intro hrecords hdeployment fun _ => ⟨rfl, rfl, .none⟩

lemma equipped (h : c.Revived w agreed loaded d) {x y : Handle}
    (hxy : x.Counterpart w.offset y) :
    (equipped x c).Revived w agreed loaded (equipped y d) := by
  obtain ⟨hrecords, hdeployment, hremains⟩ := h
  exact .intro hrecords hdeployment fun hl => ⟨(hremains hl).1, (hremains hl).2.1, .some hxy⟩

lemma meter (h : c.Revived w agreed loaded d) {n m : Nat}
    (hnm : n + w.offset.second = m + w.offset.first) (gas : Int) :
    (c.meter n gas).Revived w agreed loaded (d.meter m gas) := by
  obtain ⟨hrecords, hdeployment, hremains⟩ := h
  refine .intro hrecords hdeployment fun hl => ⟨(hremains hl).1, (hremains hl).2.1, ?_⟩
  have hhandle := (hremains hl).2.2
  revert hhandle
  change Option.Rel _ c.handle _ → Option.Rel _ (c.handle.map _) (Option.map _ _)
  generalize c.handle = x
  rintro (hx | _)
  · exact .some (hx.metered hnm gas)
  · exact .none

lemma gas (h : c.Revived w agreed loaded d) (hl : loaded) :
    d.handle.map (·.gas) = c.handle.map (·.gas) := by
  obtain ⟨-, -, hremains⟩ := h
  have hhandle := (hremains hl).2.2
  revert hhandle
  generalize c.handle = x
  rintro (⟨⟨_⟩⟩ | _) <;> rfl

lemma handle? (h : c.Revived w agreed loaded d) (hl : loaded) :
    Agree (Handle.Counterpart w.offset) c.handle? d.handle? := by
  obtain ⟨-, -, hremains⟩ := h
  have hhandle := (hremains hl).2.2
  cases hc : c.handle with
  | none =>
    rw [hc] at hhandle
    cases hhandle
    simp only [Contract.handle?, hc]
    exact .error _
  | some x =>
    rw [hc] at hhandle
    cases hhandle with
    | some hx =>
      simp only [Contract.handle?, hc]
      exact .ok hx

lemma withStates (h : c.Revived w agreed loaded d) (ha : agreed) (states : Storage) :
    { c with states }.Revived w agreed loaded { d with states } := by
  obtain ⟨hrecords, hdeployment, hremains⟩ := h
  exact .intro hrecords (.inl (hdeployment.resolve_right fun h => h.1 ha)) hremains

lemma withChildren (h : c.Revived w agreed loaded d) {children children' : Table Address Bytes}
    (hchildren : ∀ child, ¬w.differ c.address child →
      children'.contains child = children.contains child) :
    { c with children }.Revived w agreed loaded { d with children := children' } := by
  obtain ⟨-, hdeployment, hremains⟩ := h
  exact .intro hchildren hdeployment hremains

lemma contains_children (h : c.Revived w agreed loaded d) {child : Address}
    (hchild : ¬w.differ c.address child) : d.children.contains child = c.children.contains child := by
  obtain ⟨hrecords, -, -⟩ := h
  exact hrecords child hchild

lemma recording (h : c.Revived w agreed loaded d) (child : Address) (code : Bytes) :
    (recording child code c).Revived w agreed loaded (recording child code d) := by
  refine h.withChildren fun x hx => ?_
  rw [Table.contains, Table.find?_insert, Table.contains, Table.find?_insert]
  split
  · rfl
  · exact h.contains_children hx

lemma adopt (h : c.Revived w agreed loaded d) (response : CallResponse) :
    (adopt response c).Revived w agreed loaded (adopt response d) := by
  obtain ⟨hrecords, hdeployment, hremains⟩ := h
  refine .intro hrecords hdeployment fun hl => ?_
  obtain ⟨hevents, hstack, hhandle⟩ := hremains hl
  exact ⟨by rw [hevents]; rfl, by rw [hstack]; rfl, hhandle⟩

lemma twin (h : c.Revived w agreed loaded d) (code : Bytes) :
    (c.twin code code).Revived w True True (d.twin code code) := by
  obtain ⟨hrecords, -, -⟩ := h
  exact .intro hrecords (.inl ⟨rfl, nofun⟩) fun _ => ⟨rfl, rfl, .none⟩

lemma emit (h : c.Revived w agreed loaded d) (e : Event) :
    { c with events := c.events ++ [e] }.Revived w agreed loaded
      { d with events := d.events ++ [e] } := by
  obtain ⟨hrecords, hdeployment, hremains⟩ := h
  exact .intro hrecords hdeployment fun hl => ⟨by rw [(hremains hl).1], (hremains hl).2⟩

/-- A contract that has storage is noted as deployed, if the second one is not so already. -/
lemma marked (h : c.Revived w agreed loaded d) (agreed' : Prop) :
    (marked c).Revived w agreed' loaded (marked d) := by
  obtain ⟨hrecords, -, hremains⟩ := h
  exact .intro hrecords (.inl ⟨rfl, nofun⟩) hremains

lemma constructed (h : c.Revived w agreed loaded d) :
    (constructed c).Revived w agreed loaded (constructed d) := by
  obtain ⟨hrecords, -, hremains⟩ := h
  exact .intro hrecords (.inl ⟨rfl, nofun⟩) hremains

end Revived

end Contract

namespace Ledger

/-- What a registered contract runs is the code that is known under its address. -/
def Resolved (l : Ledger) : Prop :=
  ∀ a c, l.contracts.find? a = some c → ∀ code, c.code = some code → l.codes.find? a = some code

structure Revived (w : Residue) (s : Accord) (l m : Ledger) : Prop where
  surface : l.surface = m.surface
  keys : l.contracts.keys = w.keys
  contracts : ∀ a, Option.Rel (Contract.Revived w (s.deployed a) (s.loaded a))
    (l.contracts.find? a) (m.contracts.find? a)
  filed : l.Filed
  resolved : l.Resolved
  codes : w.offset.Extends l.codes m.codes
  handles : l.handles + w.offset.second = m.handles + w.offset.first

namespace Revived

variable {l m : Ledger}

lemma found (h : l.Revived w s m) (a : Address) :
    (l.contracts.find? a = none ∧ m.contracts.find? a = none) ∨
      ∃ c d, l.contracts.find? a = some c ∧ m.contracts.find? a = some d ∧
        c.Revived w (s.deployed a) (s.loaded a) d := by
  have hfind := h.contracts a
  revert hfind
  generalize l.contracts.find? a = x
  generalize m.contracts.find? a = y
  rintro (hcd | _)
  · exact .inr ⟨_, _, rfl, rfl, hcd⟩
  · exact .inl ⟨rfl, rfl⟩

lemma hasContract_iff (h : l.Revived w s m) (a : Address) : l.hasContract a = true ↔ a ∈ w.keys := by
  rw [Ledger.hasContract, Table.contains_iff, h.keys]

lemma hasContract (h : l.Revived w s m) (a : Address) : m.hasContract a = l.hasContract a := by
  rw [Ledger.hasContract, Ledger.hasContract, Table.contains, Table.contains]
  obtain ⟨hc, hd⟩ | ⟨c, d, hc, hd, -⟩ := h.found a
  · rw [hc, hd]
  · rw [hc, hd]
    rfl

lemma found_of_mem (h : l.Revived w s m) {a : Address} (ha : a ∈ w.keys) :
    ∃ c d, l.contracts.find? a = some c ∧ m.contracts.find? a = some d ∧ c.address = a ∧
      c.Revived w (s.deployed a) (s.loaded a) d := by
  obtain ⟨hc, -⟩ | ⟨c, d, hc, hd, hcd⟩ := h.found a
  · have hkey := (h.hasContract_iff a).mpr ha
    rw [Ledger.hasContract, Table.contains, hc] at hkey
    cases hkey
  · exact ⟨c, d, hc, hd, h.filed a c hc, hcd⟩

lemma mono (h : l.Revived w t m) (hst : s.Within t) : l.Revived w s m where
  surface := h.surface
  keys := h.keys
  contracts := by
    intro a
    obtain ⟨hc, hd⟩ | ⟨c, d, hc, hd, hcd⟩ := h.found a
    · rw [hc, hd]
      exact .none
    · rw [hc, hd]
      exact .some (hcd.mono (hst.deployed a) (hst.loaded a))
  filed := h.filed
  resolved := h.resolved
  codes := h.codes
  handles := h.handles

lemma withBooks (h : l.Revived w s m) (retired retired' : List Contract)
    (journal journal' : List Entry) (notices notices' : List Notice) :
    { l with retired := retired, journal := journal, notices := notices }.Revived w s
      { m with retired := retired', journal := journal', notices := notices' } :=
  ⟨h.surface, h.keys, h.contracts, h.filed, h.resolved, h.codes, h.handles⟩

/-- One contract is changed on both ledgers, and the accord on it may change as well. -/
lemma modifyContract (h : l.Revived w s m) {a : Address} {k k' : Contract → Contract}
    (hk : ∀ c d, l.contracts.find? a = some c → m.contracts.find? a = some d →
      c.Revived w (s.deployed a) (s.loaded a) d →
      (k c).Revived w (t.deployed a) (t.loaded a) (k' d))
    (hts : t.Beyond s (.registered a)) (haddress : ∀ c, (k c).address = c.address)
    (hcode : ∀ c, (k c).code = c.code) :
    (l.modifyContract a k).Revived w t (m.modifyContract a k') := by
  have hchanged (b : Address) (c : Contract)
      (hc : (l.contracts.modify a k).find? b = some c) :
      ∃ c', l.contracts.find? b = some c' ∧ c.address = c'.address ∧ c.code = c'.code := by
    rw [Table.find?_modify] at hc
    split at hc
    · obtain ⟨c', hc', rfl⟩ := Option.map_eq_some_iff.mp hc
      exact ⟨c', hc', haddress c', hcode c'⟩
    · exact ⟨c, hc, rfl, rfl⟩
  constructor
  case contracts =>
    intro b
    simp only [Ledger.modifyContract]
    rw [Table.find?_modify, Table.find?_modify]
    obtain ⟨hc, hd⟩ | ⟨c, d, hc, hd, hcd⟩ := h.found b
    · rw [hc, hd, Option.map_none, Option.map_none, ite_self]
      exact .none
    · rw [hc, hd]
      by_cases hb : b = a
      · subst hb
        rw [if_pos rfl, if_pos rfl]
        exact .some (hk c d hc hd hcd)
      · rw [if_neg hb, if_neg hb]
        have hbeyond := hts b fun heq => hb (Post.registered.inj heq).symm
        exact .some (hcd.mono hbeyond.1 hbeyond.2)
  case keys => exact (Table.keys_modify _ _ _).trans h.keys
  case filed =>
    intro b c hc
    obtain ⟨c', hc', haddress', -⟩ := hchanged b c hc
    exact haddress'.trans (h.filed b c' hc')
  case resolved =>
    intro b c hc code hrun
    obtain ⟨c', hc', -, hcode'⟩ := hchanged b c hc
    exact h.resolved b c' hc' code (hcode'.symm.trans hrun)
  case surface => exact h.surface
  case codes => exact h.codes
  case handles => exact h.handles

lemma setCode (h : l.Revived w s m) {a : Address} {code : Bytes}
    (ha : l.codes.contains a = true ∨ w.offset.extra a = none ∨ w.offset.extra a = some code) :
    (l.setCode a code).Revived w s (m.setCode a code) where
  surface := h.surface
  keys := h.keys
  contracts := h.contracts
  filed := h.filed
  resolved := fun b c hc own hown =>
    Table.included_insertNew _ _ _ _ _ (h.resolved b c hc own hown)
  codes := .insertNew h.codes ha
  handles := h.handles

end Revived

end Ledger

lemma Run.find?_withdraw (l : Ledger) (deployments : List Deployment) (a : Address) :
    (withdraw l deployments).contracts.find? a = (l.contracts.find? a).map fun c =>
      { c with children := (withdraw l deployments).records a } := by
  induction deployments generalizing l with
  | nil =>
    cases hc : l.contracts.find? a with
    | none => exact hc
    | some c =>
      change l.contracts.find? a = some { c with children := l.records a }
      rw [Ledger.records_of_find? hc, hc]
  | cons d rest ih =>
    refine (ih (l.modifyContract d.1 (forget d.2))).trans ?_
    change Option.map _ ((l.contracts.modify d.1 (forget d.2)).find? a) = _
    rw [Table.find?_modify]
    split
    · rw [Option.map_map]
      rfl
    · rfl

/-- The two lists name the same deployments, as far as the ledgers have them alike on record. -/
def SameDeployments (w : Residue) (deployments deployments' : List Deployment) : Prop :=
  ∀ owner child, ¬w.differ owner child →
    ((owner, child) ∈ deployments ↔ (owner, child) ∈ deployments')

namespace Ledger.Revived

variable {l m : Ledger}

lemma withdraw (h : l.Revived w s m) {deployments deployments' : List Deployment}
    (hsame : SameDeployments w deployments deployments') :
    (withdraw l deployments).Revived w s (withdraw m deployments') where
  surface := by rw [Ledger.surface_withdraw, Ledger.surface_withdraw, h.surface]
  keys := by
    have hkeys (l : Ledger) (deployments : List Deployment) :
        (Run.withdraw l deployments).contracts.keys = l.contracts.keys := by
      induction deployments generalizing l with
      | nil => rfl
      | cons d rest ih => exact (ih _).trans (Table.keys_modify _ _ _)
    rw [hkeys, h.keys]
  contracts := by
    intro a
    rw [find?_withdraw, find?_withdraw]
    obtain ⟨hc, hd⟩ | ⟨c, d, hc, hd, hcd⟩ := h.found a
    · rw [hc, hd]
      exact .none
    · rw [hc, hd]
      refine .some (hcd.withChildren fun child hchild => ?_)
      rw [Table.contains, find?_records_withdraw, Table.contains, find?_records_withdraw,
        Ledger.records_of_find? hc, Ledger.records_of_find? hd]
      have hiff := hsame c.address child hchild
      rw [h.filed a c hc] at hiff
      by_cases hmem : (a, child) ∈ deployments
      · rw [if_pos hmem, if_pos (hiff.mp hmem)]
      · rw [if_neg hmem, if_neg (mt hiff.mpr hmem)]
        exact hcd.contains_children hchild
  filed := by
    intro a c hc
    rw [find?_withdraw] at hc
    obtain ⟨c', hc', rfl⟩ := Option.map_eq_some_iff.mp hc
    exact h.filed a c' hc'
  resolved := by
    intro a c hc code hcode
    rw [find?_withdraw] at hc
    obtain ⟨c', hc', rfl⟩ := Option.map_eq_some_iff.mp hc
    rw [Ledger.codes_withdraw]
    exact h.resolved a c' hc' code hcode
  codes := by
    rw [Ledger.codes_withdraw, Ledger.codes_withdraw]
    exact h.codes
  handles := by
    have hhandles (l : Ledger) (deployments : List Deployment) :
        (Run.withdraw l deployments).handles = l.handles := by
      induction deployments generalizing l with
      | nil => rfl
      | cons d rest ih => exact ih _
    rw [hhandles, hhandles]
    exact h.handles

lemma contains_fresh {copy c : Contract} {child : Address} :
    Table.contains (Overlay.fresh copy c) child =
      (copy.children.contains child && !c.children.contains child) := by
  rw [Table.contains, Overlay.fresh, Table.find?_filter_new]
  split
  case isTrue hin => simp [hin]
  case isFalse hnew =>
    rw [Bool.eq_false_iff.mpr hnew, Bool.not_false, Bool.and_true]
    rfl

/-- What a copy has come to is carried over to contracts that are in accord on their deployment. -/
lemma carryOver (h : l.Revived w s m) {target : Address} (htarget : target ∈ w.keys)
    (hdeployed : s.deployed target) {copy copy' : Contract} (haddress : copy.address = target)
    (hcopy : copy.Revived w True True copy') :
    (carryOver l target copy).1.Revived w s (carryOver m target copy').1 ∧
      SameDeployments w (carryOver l target copy).2 (carryOver m target copy').2 := by
  obtain ⟨c, d, hc, hd, rfl, hcd⟩ := h.found_of_mem htarget
  have hfresh (child : Address) (hchild : ¬w.differ c.address child) :
      Table.contains (Overlay.fresh copy' d) child =
        Table.contains (Overlay.fresh copy c) child := by
    rw [contains_fresh, contains_fresh, hcd.contains_children hchild,
      hcopy.contains_children (by rwa [haddress])]
  rw [Overlay.carryOver_of_find? copy hc, Overlay.carryOver_of_find? copy' hd]
  constructor
  · refine h.modifyContract ?_ ((Accord.Within.refl s).beyond _) (fun _ => rfl) fun _ => rfl
    rintro e e' he - hee
    have hstates : copy'.states = copy.states := by
      obtain ⟨-, -, -⟩ := hcopy
      rfl
    rw [Overlay.taken, Overlay.taken, hstates]
    refine (hee.withStates hdeployed copy.states).withChildren fun child hchild => ?_
    have hchild' : ¬w.differ c.address child := by
      rw [← h.filed _ e he]
      exact hchild
    rw [Table.contains_append, Table.contains_append, hfresh child hchild',
      hee.contains_children hchild]
  · intro owner child hchild
    have hmem (fresh : List (Address × Bytes)) :
        (owner, child) ∈ fresh.map (fun entry => (c.address, entry.1)) ↔
          owner = c.address ∧ Table.contains fresh child = true := by
      rw [Table.contains_iff, Table.keys, List.mem_map, List.mem_map]
      constructor
      · rintro ⟨entry, hentry, heq⟩
        cases heq
        exact ⟨rfl, entry, hentry, rfl⟩
      · rintro ⟨rfl, entry, hentry, rfl⟩
        exact ⟨entry, hentry, rfl⟩
    rw [hmem, hmem]
    refine and_congr_right fun howner => ?_
    rw [hfresh child (howner ▸ hchild)]

end Ledger.Revived

inductive Seat.Revived (w : Residue) : Post → Seat → Seat → Prop
  | registered {a : Address} (h : a ∈ w.keys) :
      Revived w (.registered a) (.registered a) (.registered a)
  | apart {c d : Contract} (h : c.Revived w True True d) :
      Revived w (.apart c.address) (.apart c) (.apart d)

lemma Seat.Revived.contract {l m : Ledger} (hl : l.Revived w s m) {seat seat' : Seat}
    (h : Seat.Revived w p seat seat') :
    (seat.contract l).address = p.address ∧
      (seat.contract l).Revived w (s.deployedAt p) (s.loadedAt p) (seat'.contract m) := by
  cases h with
  | @registered a ha =>
    obtain ⟨c, d, hc, hd, haddress, hcd⟩ := hl.found_of_mem ha
    simp only [Seat.contract, hc, hd]
    exact ⟨haddress, hcd⟩
  | apart h => exact ⟨rfl, h⟩

lemma Frame.modifyContract_id (f : Frame) : f.modifyContract id = f := by
  obtain ⟨l, seat, deployments⟩ := f
  cases seat with
  | registered a =>
    have hmodify : l.contracts.modify a id = l.contracts := by
      rw [Table.modify]
      refine (List.map_congr_left fun entry _ => ?_).trans (List.map_id _)
      split
      case isTrue heq => exact Prod.ext heq.symm rfl
      case isFalse => rfl
    simp only [Frame.modifyContract, hmodify]
  | apart c => rfl

structure Frame.Revived (w : Residue) (s : Accord) (p : Post) (f g : Frame) : Prop where
  ledger : f.ledger.Revived w s g.ledger
  seat : Seat.Revived w p f.seat g.seat
  deployments : SameDeployments w f.deployments g.deployments

namespace Frame.Revived

variable {f g : Frame}

lemma address (h : Frame.Revived w s p f g) : f.contract.address = p.address :=
  (Seat.Revived.contract h.ledger h.seat).1

lemma contract (h : Frame.Revived w s p f g) :
    f.contract.Revived w (s.deployedAt p) (s.loadedAt p) g.contract :=
  (Seat.Revived.contract h.ledger h.seat).2

lemma faces (h : Frame.Revived w s p f g) : f.ledger.Faces g.ledger :=
  Ledger.faces_of_surface h.ledger.surface

lemma mono (h : Frame.Revived w t p f g) (hst : s.Within t) : Frame.Revived w s p f g :=
  ⟨h.ledger.mono hst, h.seat, h.deployments⟩

lemma withLedger (h : Frame.Revived w s p f g) {l m : Ledger} (hl : l.Revived w t m) :
    Frame.Revived w t p { f with ledger := l } { g with ledger := m } :=
  ⟨hl, h.seat, h.deployments⟩

lemma withDeployments (h : Frame.Revived w s p f g) {deployments deployments' : List Deployment}
    (hsame : SameDeployments w deployments deployments') :
    Frame.Revived w s p { f with deployments := deployments } { g with deployments := deployments' } :=
  ⟨h.ledger, h.seat, hsame⟩

/-- The running contract is changed in both frames, and the accord on it may change as well. -/
lemma modifyContract (h : Frame.Revived w s p f g) {k k' : Contract → Contract}
    (hk : (k f.contract).Revived w (t.deployedAt p) (t.loadedAt p) (k' g.contract))
    (hts : t.Beyond s p) (haddress : ∀ c, (k c).address = c.address)
    (hcode : ∀ c, (k c).code = c.code) :
    Frame.Revived w t p (f.modifyContract k) (g.modifyContract k') := by
  obtain ⟨l, seat, deployments⟩ := f
  obtain ⟨m, seat', deployments'⟩ := g
  obtain ⟨hl, hseat, hdeployments⟩ := h
  cases hseat with
  | @registered a ha =>
    refine ⟨hl.modifyContract ?_ hts haddress hcode, .registered ha, hdeployments⟩
    intro c d hc hd _
    simp only [Frame.contract, Seat.contract, hc, hd, Option.getD_some] at hk
    exact hk
  | @apart c d hcd =>
    have hbeyond (a : Address) := hts a (by simp)
    have hwithin : t.Within s := ⟨fun a => (hbeyond a).1, fun a => (hbeyond a).2⟩
    have hpost : Post.apart c.address = .apart (k c).address := by rw [haddress]
    refine ⟨hl.mono hwithin, ?_, hdeployments⟩
    rw [hpost]
    exact .apart hk

lemma agree (h : Frame.Revived w s p f g) (hd : g.contract.deployed = f.contract.deployed) :
    Frame.Revived w (s.deploy p) p f g := by
  rw [← f.modifyContract_id, ← g.modifyContract_id]
  have hloaded : (s.deploy p).loadedAt p → s.loadedAt p := by
    cases p <;> exact id
  exact h.modifyContract ((h.contract.agree hd _).mono id hloaded) (s.beyond_deploy p)
    (fun _ => rfl) fun _ => rfl

end Frame.Revived

end ChainReplay
