import Mathlib.Data.List.Forall2
import Mathlib.Data.Option.Basic
import ChainReplay.Proofs.Execution.Nesting
import ChainReplay.Proofs.Ledger.Registry
import ChainReplay.Proofs.Storage

/-! Ledgers on which runs go the same way although they are not equal: storage may stand in another
order as far as no program notices, handles may be counted from another number, and the second
ledger may know code that the first does not. -/

namespace ChainReplay

namespace Table

variable {κ α β : Type} {R : α → β → Prop} {t : Table κ α} {u : Table κ β}

/-- The same keys in the same order, with related entries. -/
def Lined (R : α → β → Prop) (t : Table κ α) (u : Table κ β) : Prop :=
  List.Forall₂ (fun entry entry' => entry.1 = entry'.1 ∧ R entry.2 entry'.2) t u

namespace Lined

lemma keys (h : Lined R t u) : t.keys = u.keys := by
  induction h with
  | nil => rfl
  | cons hentry _ ih => exact congrArg₂ List.cons hentry.1 ih

lemma concat (h : Lined R t u) (k : κ) {a : α} {b : β} (hab : R a b) :
    Lined R (t ++ [(k, a)]) (u ++ [(k, b)]) := by
  induction h with
  | nil => exact .cons ⟨rfl, hab⟩ .nil
  | cons hentry _ ih => exact .cons hentry ih

lemma map (h : Lined R t u) {f : α → α} {g : β → β} (hfg : ∀ a b, R a b → R (f a) (g b)) :
    Lined R (t.map fun (k, a) => (k, f a)) (u.map fun (k, b) => (k, g b)) := by
  induction h with
  | nil => exact .nil
  | cons hentry _ ih => exact .cons ⟨hentry.1, hfg _ _ hentry.2⟩ ih

variable [DecidableEq κ]

lemma find? (h : Lined R t u) (k : κ) : Option.Rel R (t.find? k) (u.find? k) := by
  induction h with
  | nil => exact .none
  | cons hentry _ ih =>
    obtain ⟨hk, hR⟩ := hentry
    rw [Table.find?_cons, Table.find?_cons, hk]
    split
    · exact .some hR
    · exact ih

lemma contains (h : Lined R t u) (k : κ) : t.contains k = u.contains k := by
  have hfind := h.find? k
  rw [Table.contains, Table.contains]
  revert hfind
  generalize t.find? k = x
  generalize u.find? k = y
  rintro (_ | _) <;> rfl

lemma modify (h : Lined R t u) (k : κ) {f : α → α} {g : β → β}
    (hfg : ∀ a b, R a b → R (f a) (g b)) : Lined R (t.modify k f) (u.modify k g) := by
  induction h with
  | nil => exact .nil
  | cons hentry _ ih =>
    obtain ⟨hk, hR⟩ := hentry
    refine .cons ?_ ih
    simp only [hk]
    split
    · exact ⟨rfl, hfg _ _ hR⟩
    · exact ⟨hk, hR⟩

end Lined

variable [DecidableEq κ]

def Included (t u : Table κ α) : Prop := ∀ k a, t.find? k = some a → u.find? k = some a

lemma Included.refl (t : Table κ α) : Included t t := fun _ _ h => h

lemma Included.trans {t u v : Table κ α} (h : Included t u) (h' : Included u v) : Included t v :=
  fun k a ha => h' k a (h k a ha)

lemma Included.contains {t u : Table κ α} (h : Included t u) {k : κ} (hk : t.contains k = true) :
    u.contains k = true := by
  obtain ⟨a, ha⟩ := Option.isSome_iff_exists.mp hk
  exact contains_of_find? (h k a ha)

lemma find?_insertNew (t : Table κ α) (k : κ) (a : α) (j : κ) :
    (t.insertNew k a).find? j = (t.find? j).or (if j = k then some a else none) := by
  rw [insertNew]
  split
  case isTrue hk =>
    by_cases hj : j = k
    · obtain ⟨b, hb⟩ := Option.isSome_iff_exists.mp (hj ▸ hk : t.contains j = true)
      rw [hb, Option.some_or]
    · rw [if_neg hj, Option.or_none]
  case isFalse =>
    rw [find?_append, find?_cons]
    by_cases hj : j = k
    · rw [if_pos hj, if_pos hj.symm]
    · rw [if_neg hj, if_neg (Ne.symm hj), find?_nil]

lemma included_insertNew (t : Table κ α) (k : κ) (a : α) : Included t (t.insertNew k a) := by
  intro j b hb
  rw [find?_insertNew, hb, Option.some_or]

end Table

/-- What sets a second ledger apart from a first: code that it has beside the code of the first, and
the numbers from which the two count handles. -/
structure Offset where
  extra : Address → Option Bytes
  first : Nat
  second : Nat

/-- The code that the second ledger has beside that of the first comes from one of these tables. -/
def Offset.Within (o : Offset) (others : List (Table Address Bytes)) : Prop :=
  ∃ codes ∈ others, ∀ a, o.extra a = none ∨ o.extra a = codes.find? a

variable {o : Offset}

/-- The second table has the code of the first one, and that beside it. -/
def Offset.Extends (o : Offset) (t u : Table Address Bytes) : Prop :=
  ∀ a, u.find? a = (t.find? a).or (o.extra a)

/-- Both get to know the same code, unless one of them has known other code before. -/
lemma Offset.Extends.insertNew {t u : Table Address Bytes} (h : o.Extends t u) {a : Address}
    {code : Bytes} (ha : t.contains a = true ∨ o.extra a = none ∨ o.extra a = some code) :
    o.Extends (t.insertNew a code) (u.insertNew a code) := by
  intro b
  rw [Table.find?_insertNew, Table.find?_insertNew, h]
  by_cases hb : b = a
  · subst hb
    rw [if_pos rfl]
    rcases ha with ha | ha | ha
    · obtain ⟨known, hknown⟩ := Option.isSome_iff_exists.mp ha
      simp only [hknown, Option.some_or]
    · rw [ha, Option.or_none, Option.or_none]
    · rw [ha]
  · rw [if_neg hb, Option.or_none, Option.or_none]

inductive Handle.Counterpart (o : Offset) (h : Handle) : Handle → Prop
  | intro {n : Nat} (number : h.number + o.second = n + o.first) :
      Counterpart o h { h with number := n }

lemma Handle.Counterpart.metered {h k : Handle} (hk : h.Counterpart o k) {n m : Nat}
    (hnm : n + o.second = m + o.first) (gas : Int) :
    Handle.Counterpart o (if h.number = n then { h with gas } else h)
      (if k.number = m then { k with gas } else k) := by
  cases hk with
  | @intro number hnumber =>
    have hiff : h.number = n ↔ number = m := by omega
    simp only [hiff]
    split <;> exact .intro hnumber

namespace Contract

inductive Counterpart (o : Offset) (c : Contract) : Contract → Prop
  | intro {s t : Storage} {h : Option Handle} (states : c.states.Similar s)
      (deploymentStates : c.deploymentStates.Similar t)
      (handle : Option.Rel (Handle.Counterpart o) c.handle h) :
      Counterpart o c { c with states := s, deploymentStates := t, handle := h }

/-- The code that a contract runs and the copies that it has deployed are in the table. -/
structure Known (codes : Table Address Bytes) (c : Contract) : Prop where
  code : ∀ code, c.code = some code → codes.find? c.address = some code
  children : ∀ a, c.children.contains a = true → codes.contains a = true

lemma Known.mono {codes codes' : Table Address Bytes} (h : codes.Included codes') {c : Contract}
    (hc : c.Known codes) : c.Known codes' where
  code := fun code hcode => h _ _ (hc.code code hcode)
  children := fun a ha => h.contains (hc.children a ha)

lemma counterpart_create (o : Offset) (a deployer : Address) (limit : GasLimit)
    (code : Option Bytes) (calldata : Bytes) :
    (create a deployer limit code calldata).Counterpart o
      (create a deployer limit code calldata) :=
  .intro (.refl _) (.refl _) .none

lemma known_create (codes : Table Address Bytes) (a deployer : Address) (limit : GasLimit)
    (code : Option Bytes) (calldata : Bytes) :
    (create a deployer limit code calldata).Known codes where
  code := nofun
  children := nofun

lemma Counterpart.dispose {c d : Contract} (h : c.Counterpart o d) :
    c.dispose.Counterpart o d.dispose := by
  obtain ⟨hstates, hdeployment, hhandle⟩ := h
  cases hc : c.handle with
  | none =>
    rw [hc] at hhandle
    cases hhandle
    simp only [Contract.dispose, hc]
    exact .intro hstates hdeployment (by rw [hc]; exact .none)
  | some x =>
    rw [hc] at hhandle
    cases hhandle with
    | some hx =>
      obtain ⟨_⟩ := hx
      simp only [Contract.dispose, hc]
      exact .intro hstates hdeployment .none

lemma Known.dispose {codes : Table Address Bytes} {c : Contract} (h : c.Known codes) :
    c.dispose.Known codes := by
  rw [Contract.dispose]
  split
  · exact h
  · exact ⟨h.code, h.children⟩

lemma Counterpart.twin {c d : Contract} (h : c.Counterpart o d) (code : Bytes) :
    (c.twin code code).Counterpart o (d.twin code code) := by
  obtain ⟨hs, ht, -⟩ := h
  exact .intro hs ht .none

lemma Known.twin {codes : Table Address Bytes} {c : Contract} (h : c.Known codes) {code : Bytes}
    (hc : c.code = some code) : (c.twin code code).Known codes where
  code := by
    rintro _ ⟨⟩
    exact h.code code hc
  children := h.children

lemma Counterpart.gas {c d : Contract} (h : c.Counterpart o d) :
    c.handle.map (·.gas) = d.handle.map (·.gas) := by
  obtain ⟨-, -, hhandle⟩ := h
  revert hhandle
  generalize c.handle = x
  rintro (⟨⟨_⟩⟩ | _) <;> rfl

lemma Counterpart.meter {c d : Contract} (h : c.Counterpart o d) {n m : Nat}
    (hnm : n + o.second = m + o.first) (gas : Int) :
    (c.meter n gas).Counterpart o (d.meter m gas) := by
  obtain ⟨hstates, hdeployment, hhandle⟩ := h
  refine .intro hstates hdeployment (?_ : Option.Rel _ (c.handle.map _) (Option.map _ _))
  revert hhandle
  generalize c.handle = x
  rintro (hx | _)
  · exact .some (hx.metered hnm gas)
  · exact .none

lemma Known.erase {codes : Table Address Bytes} {c : Contract} (h : c.Known codes)
    (child : Address) :
    { c with children := c.children.erase child }.Known codes where
  code := h.code
  children := by
    intro a ha
    refine h.children a ?_
    rw [Table.contains_iff] at ha ⊢
    obtain ⟨entry, hmem, hentry⟩ := List.mem_map.mp ha
    exact List.mem_map.mpr ⟨entry, List.mem_of_mem_filter hmem, hentry⟩

end Contract

namespace Ledger

/-- What runs can see of a ledger apart from its contracts and their code. -/
def surface (l : Ledger) : Ledger :=
  { l with codes := [], contracts := [], retired := [], handles := 0, journal := [], notices := [] }

/-- What is left of a ledger's surface between transactions. -/
def bare (l : Ledger) : Ledger :=
  { l.surface with
    transactionId := [], inputs := [], outputs := [], sender := Address.zero
    origin := Address.zero }

/-- What is left of it between blocks. -/
def setup (l : Ledger) : Ledger := { l.bare with blockNumber := 0 }

/-- The second ledger has the surface of the first. -/
inductive Faces (l : Ledger) : Ledger → Prop
  | intro (codes : Table Address Bytes) (contracts : Table Address Contract)
      (retired : List Contract) (handles : Nat) (journal : List Entry) (notices : List Notice) :
      Faces l { l with codes, contracts, retired, handles, journal, notices }

lemma faces_of_surface {l m : Ledger} (h : l.surface = m.surface) : l.Faces m := by
  cases l
  cases m
  simp only [surface, Ledger.mk.injEq] at h
  obtain ⟨rfl, rfl, -, -, -, rfl, rfl, rfl, rfl, rfl, rfl, rfl, rfl, rfl, rfl, rfl, rfl, rfl, rfl,
    -, -, -⟩ := h
  exact .intro _ _ _ _ _ _

structure Counterpart (o : Offset) (l m : Ledger) : Prop where
  contracts : Table.Lined (Contract.Counterpart o) l.contracts m.contracts
  known : ∀ entry ∈ l.contracts, entry.2.Known l.codes
  codes : ∀ a, m.codes.find? a = (l.codes.find? a).or (o.extra a)
  handles : l.handles + o.second = m.handles + o.first

namespace Counterpart

variable {l m : Ledger}

lemma hasContract (h : l.Counterpart o m) (a : Address) : l.hasContract a = m.hasContract a :=
  h.contracts.contains a

lemma code (h : l.Counterpart o m) {a : Address} {code : Bytes} (ha : l.codes.find? a = some code) :
    m.codes.find? a = some code := by
  rw [h.codes, ha, Option.some_or]

lemma withBooks (h : l.Counterpart o m) (retired retired' : List Contract)
    (journal journal' : List Entry) (notices notices' : List Notice) :
    { l with retired := retired, journal := journal, notices := notices }.Counterpart o
      { m with retired := retired', journal := journal', notices := notices' } :=
  ⟨h.contracts, h.known, h.codes, h.handles⟩

lemma note (h : l.Counterpart o m) (level level' : Level) (text text' : Text) :
    (l.note level text).Counterpart o (m.note level' text') :=
  h.withBooks _ _ _ _ _ _

lemma modifyContract (h : l.Counterpart o m) (a : Address) {k k' : Contract → Contract}
    (hk : ∀ c d, c.Counterpart o d → (k c).Counterpart o (k' d))
    (hknown : ∀ c, c.Known l.codes → (k c).Known l.codes) :
    (l.modifyContract a k).Counterpart o (m.modifyContract a k') where
  contracts := h.contracts.modify a hk
  known := by
    intro entry hmem
    rcases Table.mem_modify hmem with hmem | ⟨_, c, hmem, heq⟩
    · exact h.known entry hmem
    · rw [heq]
      exact hknown c (h.known _ hmem)
  codes := h.codes
  handles := h.handles

lemma withdraw (h : l.Counterpart o m) (deployments : List Deployment) :
    (Run.withdraw l deployments).Counterpart o (Run.withdraw m deployments) := by
  induction deployments generalizing l m with
  | nil => exact h
  | cons d rest ih =>
    refine ih (h.modifyContract d.1 ?_ fun c hc => hc.erase d.2)
    rintro c _ ⟨hs, ht, hh⟩
    exact .intro hs ht hh

lemma carryOver (h : l.Counterpart o m) (target : Address) {copy copy' : Contract}
    (hcopy : copy.Counterpart o copy') (hknown : copy.Known l.codes) :
    (Run.carryOver l target copy).1.Counterpart o (Run.carryOver m target copy').1 ∧
      (Run.carryOver l target copy).2 = (Run.carryOver m target copy').2 := by
  obtain ⟨hs, ht, hh⟩ := hcopy
  have hfind := h.contracts.find? target
  rw [Run.carryOver, Run.carryOver]
  revert hfind
  generalize l.contracts.find? target = x
  generalize m.contracts.find? target = y
  rintro (⟨⟨-, -, -⟩⟩ | _)
  case none => exact ⟨h, rfl⟩
  refine ⟨h.modifyContract target ?_ fun d hd => ⟨hd.code, fun a ha => ?_⟩, rfl⟩
  · rintro d _ ⟨-, ht, hh⟩
    exact .intro hs ht hh
  · rw [Table.contains_append, Bool.or_eq_true] at ha
    rcases ha with ha | ha
    · exact hd.children a ha
    · refine hknown.children a ?_
      rw [Table.contains_iff] at ha ⊢
      obtain ⟨entry, hmem, hentry⟩ := List.mem_map.mp ha
      exact List.mem_map.mpr ⟨entry, List.mem_of_mem_filter hmem, hentry⟩

lemma setCode (h : l.Counterpart o m) {a : Address} {code : Bytes}
    (ha : l.codes.contains a = true ∨ o.extra a = none ∨ o.extra a = some code) :
    (l.setCode a code).Counterpart o (m.setCode a code) where
  contracts := h.contracts
  known := fun entry hmem => (h.known entry hmem).mono (Table.included_insertNew _ _ _)
  codes := Offset.Extends.insertNew h.codes ha
  handles := h.handles

end Counterpart

end Ledger

namespace Ledger

lemma surface_withdraw (l : Ledger) (deployments : List Deployment) :
    (Run.withdraw l deployments).surface = l.surface := by
  induction deployments generalizing l with
  | nil => rfl
  | cons d rest ih => exact ih _

lemma surface_carryOver (l : Ledger) (target : Address) (copy : Contract) :
    (Run.carryOver l target copy).1.surface = l.surface := by
  rw [Run.carryOver]
  split <;> rfl

lemma codes_carryOver (l : Ledger) (target : Address) (copy : Contract) :
    (Run.carryOver l target copy).1.codes = l.codes := by
  rw [Run.carryOver]
  split <;> rfl

lemma codes_withdraw (l : Ledger) (deployments : List Deployment) :
    (Run.withdraw l deployments).codes = l.codes := by
  induction deployments generalizing l with
  | nil => rfl
  | cons d rest ih => exact ih _

end Ledger

lemma copyOf_of_unresolved (l : Ledger) {c : Contract} (hc : c.code = none) :
    Run.copyOf l c = .error (.missingCode (.unresolved c.address)) := by
  have hcode : c.code? = .error (.missingCode (.unresolved c.address)) := by
    simp only [Contract.code?, hc]
  rw [Run.copyOf_eq, hcode]
  rfl

lemma copyOf_of_known {l : Ledger} {c : Contract} {code : Bytes} (hc : c.code = some code)
    (hknown : l.codes.find? c.address = some code) :
    Run.copyOf l c = .ok (l, c.twin code code) := by
  have hcode : c.code? = .ok code := by simp only [Contract.code?, hc]
  have hset : l.setCode c.address code = l := by
    rw [Ledger.setCode, Table.insertNew, Table.contains, hknown]
    rfl
  have hfound : l.code? c.address = .ok code := by simp only [Ledger.code?, hknown]
  rw [Run.copyOf_eq, hcode]
  change ((l.setCode c.address code).code? c.address).map _ = _
  rw [hset, hfound]
  rfl

namespace Seat

inductive Counterpart (o : Offset) : Seat → Seat → Prop
  | registered (a : Address) : Counterpart o (.registered a) (.registered a)
  | apart {c d : Contract} (h : c.Counterpart o d) : Counterpart o (.apart c) (.apart d)

lemma Counterpart.contract {l m : Ledger} (hl : l.Counterpart o m) {s t : Seat}
    (h : s.Counterpart o t) : (s.contract l).Counterpart o (t.contract m) := by
  cases h with
  | registered a =>
    simp only [Seat.contract]
    have hfind := hl.contracts.find? a
    revert hfind
    generalize l.contracts.find? a = x
    generalize m.contracts.find? a = y
    rintro (hcd | _)
    · exact hcd
    · exact Contract.counterpart_create o _ _ _ _ _
  | apart h => exact h

end Seat

/-- The second frame goes the way of the first; the code of the first has grown from the given
table. -/
structure Frame.Counterpart (o : Offset) (codes : Table Address Bytes) (f g : Frame) : Prop where
  ledger : f.ledger.Counterpart o g.ledger
  surface : f.ledger.surface = g.ledger.surface
  seat : f.seat.Counterpart o g.seat
  known : f.contract.Known f.ledger.codes
  deployments : f.deployments = g.deployments
  included : codes.Included f.ledger.codes

namespace Frame.Counterpart

variable {codes codes' : Table Address Bytes} {f g : Frame}

lemma contract (h : Frame.Counterpart o codes f g) : f.contract.Counterpart o g.contract :=
  Seat.Counterpart.contract h.ledger h.seat

lemma self (h : Frame.Counterpart o codes f g) :
    Frame.Counterpart o f.ledger.codes f g :=
  { h with included := .refl _ }

lemma weaken (h : Frame.Counterpart o codes f g) (hcodes : codes'.Included codes) :
    Frame.Counterpart o codes' f g :=
  { h with included := hcodes.trans h.included }

lemma known_registered {l m : Ledger} (h : l.Counterpart o m) (a : Address) :
    (Seat.contract l (.registered a)).Known l.codes := by
  simp only [Seat.contract]
  cases hfind : l.contracts.find? a with
  | none => exact Contract.known_create _ _ _ _ _ _
  | some c => exact h.known _ (Table.mem_of_find? hfind)

lemma withLedger (h : Frame.Counterpart o codes f g) {l m : Ledger} (hl : l.Counterpart o m)
    (hsurface : l.surface = m.surface) (hgrown : f.ledger.codes.Included l.codes) :
    Frame.Counterpart o codes { f with ledger := l } { g with ledger := m } where
  ledger := hl
  surface := hsurface
  seat := h.seat
  known := by
    have hknown := h.known
    simp only [Frame.contract] at hknown ⊢
    cases hs : f.seat with
    | registered a => exact known_registered hl a
    | apart c =>
      rw [hs] at hknown
      exact hknown.mono hgrown
  deployments := h.deployments
  included := h.included.trans hgrown

lemma withdraw (h : Frame.Counterpart o codes f g) (deployments : List Deployment) :
    Frame.Counterpart o codes { f with ledger := Run.withdraw f.ledger deployments }
      { g with ledger := Run.withdraw g.ledger deployments } := by
  refine h.withLedger (h.ledger.withdraw deployments) ?_ ?_
  · rw [Ledger.surface_withdraw, Ledger.surface_withdraw, h.surface]
  · rw [Ledger.codes_withdraw]
    exact .refl _

lemma withDeployments (h : Frame.Counterpart o codes f g) (deployments : List Deployment) :
    Frame.Counterpart o codes { f with deployments } { g with deployments } :=
  ⟨h.ledger, h.surface, h.seat, h.known, rfl, h.included⟩

lemma modifyContract (h : Frame.Counterpart o codes f g) {k k' : Contract → Contract}
    (hk : ∀ c d, c.Counterpart o d → (k c).Counterpart o (k' d))
    (hknown : ∀ c, c.Known f.ledger.codes → (k c).Known f.ledger.codes) :
    Frame.Counterpart o codes (f.modifyContract k) (g.modifyContract k') := by
  obtain ⟨l, seat, deployments⟩ := f
  obtain ⟨m, seat', deployments'⟩ := g
  obtain ⟨hl, hsurface, hseat, hc, hd, hincluded⟩ := h
  cases hseat with
  | registered a =>
    have hmodified := hl.modifyContract a hk hknown
    exact ⟨hmodified, hsurface, .registered a, known_registered hmodified a, hd, hincluded⟩
  | apart hcd => exact ⟨hl, hsurface, .apart (hk _ _ hcd), hknown _ hc, hd, hincluded⟩

lemma visit (h : Frame.Counterpart o codes f g) {s t : Seat} (hseat : s.Counterpart o t)
    (hknown : ∀ c, s = .apart c → c.Known f.ledger.codes) :
    Frame.Counterpart o f.ledger.codes ⟨f.ledger, s, []⟩ ⟨g.ledger, t, []⟩ where
  ledger := h.ledger
  surface := h.surface
  seat := hseat
  known := by
    cases s with
    | registered a => exact known_registered h.ledger a
    | apart c => exact hknown c rfl
  deployments := rfl
  included := .refl _

lemma comeBack {f' g' : Frame} (h : Frame.Counterpart o codes f g)
    (h' : Frame.Counterpart o f.ledger.codes f' g') :
    Frame.Counterpart o f'.ledger.codes { f with ledger := f'.ledger }
      { g with ledger := g'.ledger } :=
  (h.withLedger h'.ledger h'.surface h'.included).self

lemma known_apart (h : Frame.Counterpart o codes f g) {c : Contract} (hc : f.seat = .apart c) :
    c.Known f.ledger.codes := by
  have hknown := h.known
  rw [Frame.contract, hc] at hknown
  exact hknown

end Frame.Counterpart

end ChainReplay
