import ChainReplay.Proofs.Custody.Ledger
import ChainReplay.Proofs.Execution.Ventures

/-! Deployment records in what is done to a ledger as a whole, and on a stage: none of it brings a copy
on record that no run has recorded. -/

namespace ChainReplay

variable {past past' : List Venture}

/-- The copies on record with the contracts of the ledger have been recorded in the past. -/
structure Ledger.Honest (past : List Venture) (l : Ledger) : Prop where
  records : ∀ d, Backed past (l.records d)
  retired : ∀ c ∈ l.retired, Backed past c.children

lemma Ledger.Honest.mono {l : Ledger} (hl : l.Honest past) (hsub : past ⊆ past') :
    l.Honest past' where
  records := fun d => (hl.records d).mono hsub
  retired := fun c hc => (hl.retired c hc).mono hsub

lemma Ledger.Honest.register {l m : Ledger} {c : Contract} (hl : l.Honest past)
    (hc : Backed past c.children) (h : l.register c = .ok m) : m.Honest past := by
  have htakes := takes_of_register h
  refine ⟨fun d => ?_, htakes.retired ▸ hl.retired⟩
  have hseat := Frame.children_contract (f := ⟨m, .registered d, []⟩) rfl
  rw [← hseat, Frame.contract, htakes.contract]
  split
  · exact hc
  · have hd := hl.records d
    rwa [← Frame.children_contract (f := ⟨l, .registered d, []⟩) rfl] at hd

namespace Ledger

/-- What is honest of the one ledger is honest of the other. -/
def Upholds (l m : Ledger) : Prop := ∀ past, l.Honest past → m.Honest past

namespace Upholds

variable {l m : Ledger} {c d : Contract} {a : Address}

instance : IsPreorder Ledger Upholds where
  refl := fun _ _ h => h
  trans := fun _ _ _ h h' past hl => h' past (h past hl)

lemma of_records (hrecords : ∀ past d, Backed past (l.records d) → Backed past (m.records d))
    (hretired : m.retired = l.retired) : l.Upholds m := fun past hl =>
  ⟨fun d => hrecords past d (hl.records d), hretired ▸ hl.retired⟩

lemma of_contracts (hcontracts : m.contracts = l.contracts) (hretired : m.retired = l.retired) :
    l.Upholds m := by
  refine of_records (fun past d h => ?_) hretired
  rwa [records, hcontracts]

lemma note (l : Ledger) (level : Level) (text : Text) : l.Upholds (l.note level text) :=
  of_contracts rfl rfl

lemma modifyContract (l : Ledger) (a : Address) {k : Contract → Contract}
    (hk : ∀ c, (k c).children = c.children) : l.Upholds (l.modifyContract a k) := by
  refine of_records (fun past d h => ?_) rfl
  rwa [records_modifyContract_of_blind l a hk]

lemma enlists : Enlists Upholds where
  note := note
  code := fun _ _ _ => of_contracts rfl rfl
  register := fun _ _ _ _ hc h _ hl => hl.register (hc ▸ .nil) h

lemma modifyAll (l : Ledger) {k : Contract → Contract}
    (hk : ∀ c child, (k c).children.contains child = true → c.children.contains child = true) :
    l.Upholds (l.modifyAll k) := by
  refine of_records (fun past d h => ?_) rfl
  rw [records, find?_modifyAll]
  cases hc : l.contracts.find? d with
  | none => exact .nil
  | some c => exact (records_of_find? hc ▸ h : Backed past c.children).of_contains (hk c)

lemma dispose (l : Ledger) : l.Upholds l.dispose := by
  have hentered : l.Upholds (l.enter (l.contracts.values.flatMap Contract.disposal)) :=
    of_contracts rfl rfl
  refine trans_of Upholds hentered (modifyAll _ fun c child h => ?_)
  rwa [Run.discreet_dispose.children] at h

lemma cleanup (l : Ledger) : l.Upholds l.cleanup := by
  refine fun past hl => ⟨fun d => .nil, fun c hc => ?_⟩
  rcases List.mem_append.mp hc with hc | hc
  · exact hl.retired c hc
  · rw [values_modifyAll] at hc
    obtain ⟨b, -, rfl⟩ := List.mem_map.mp hc
    exact .nil

lemma replace (hc : l.contracts.find? a = some c) (hd : d.children = c.children) :
    l.Upholds (l.modifyContract a fun _ => d) := by
  refine of_records (fun past b h => ?_) rfl
  rw [records_modifyContract]
  split
  case isFalse => exact h
  case isTrue hb =>
    rw [hb, records_of_find? hc, ← hd] at h
    rw [hb, hc]
    exact h

lemma resolveAll (l : Ledger) (addresses : List Address) : l.Upholds (l.resolveAll addresses).1 := by
  induction addresses generalizing l with
  | nil => exact refl l
  | cons a rest ih =>
    rw [Ledger.resolveAll]
    cases hc : l.contracts.find? a with
    | none => exact ih l
    | some c =>
      have hresolve := enlists.resolveCode l c
      have hcontracts := l.contracts_resolveCode c
      cases hresolved : l.resolveCode c with | mk m r =>
      rw [hresolved] at hresolve hcontracts
      simp only [hresolved]
      cases r with
      | error f => exact hresolve
      | ok d =>
        obtain ⟨code, rfl⟩ := resolveCode_eq_ok hresolved
        have hfound : m.contracts.find? a = some c := hcontracts ▸ hc
        have hreplace := replace (d := { c with code := some code }) hfound rfl
        exact trans_of Upholds hresolve (trans_of Upholds hreplace (ih _))

lemma init (l : Ledger) : l.Upholds l.init.1 := trans_of Upholds (dispose l) (resolveAll _ _)

end Upholds

end Ledger

/-- Nor do the snapshots that overrides have put aside tell of any other copy. -/
def Overrides.Backed (past : List Venture) (o : Overrides) : Prop :=
  ∀ entry ∈ o, ChainReplay.Backed past entry.2.children

namespace Overrides

variable {o o' : Overrides} {l m : Ledger} {a : Address}

lemma Backed.mono (ho : o.Backed past) (hsub : past ⊆ past') : o.Backed past' :=
  fun entry hentry => (ho entry hentry).mono hsub

lemma Backed.remember (ho : o.Backed past) (hl : l.Honest past) {c : Contract}
    (hc : l.contracts.find? a = some c) : (o.remember l c a).Backed past := by
  intro entry hentry
  rw [Overrides.remember, Table.insertNew] at hentry
  split at hentry
  · exact ho entry hentry
  · rcases List.mem_append.mp hentry with hentry | hentry
    · exact ho entry hentry
    · rw [List.mem_singleton.mp hentry]
      have hown := hl.records a
      rwa [Ledger.records_of_find? hc] at hown

lemma honest_overrideStates {states : Storage} (h : o.overrideStates l a states = .ok (o', m))
    (hl : l.Honest past) (ho : o.Backed past) : m.Honest past ∧ o'.Backed past := by
  rw [overrideStates, Ledger.contract?] at h
  cases hc : l.contracts.find? a with
  | none =>
    rw [hc] at h
    cases h
  | some c =>
    rw [hc] at h
    cases h
    have hset := Ledger.Upholds.modifyContract l a (k := (·.setStates states)) fun _ => rfl
    exact ⟨Ledger.Upholds.note _ _ _ past (hset past hl), ho.remember hl hc⟩

lemma honest_overrideDeployment (h : o.overrideDeployment l a = .ok (o', m))
    (hl : l.Honest past) (ho : o.Backed past) : m.Honest past ∧ o'.Backed past := by
  rw [overrideDeployment, Ledger.contract?] at h
  cases hc : l.contracts.find? a with
  | none =>
    rw [hc] at h
    cases h
  | some c =>
    rw [hc] at h
    cases h
    have hset := Ledger.Upholds.modifyContract l a (k := fun c => { c with deployed := true })
      fun _ => rfl
    exact ⟨hset past hl, ho.remember hl hc⟩

lemma honest_purge (hl : l.Honest past) (ho : o.Backed past) : (o.purge l).Honest past := by
  let restore (l : Ledger) (entry : Address × Snapshot) : Ledger :=
    l.modifyContract entry.1 (·.applySnapshot entry.2)
  have hback : (o.foldl restore l).Honest past := by
    induction o generalizing l with
    | nil => exact hl
    | cons entry o ih =>
      obtain ⟨hentry, hrest⟩ := List.forall_mem_cons.mp ho
      apply ih _ hrest
      exact ⟨Ledger.backed_modifyContract hl.records (List.Subset.refl _) entry.1
        fun _ _ => hentry, hl.retired⟩
  rw [purge]
  split
  · exact hback
  · exact Ledger.Upholds.note _ _ _ past hback

end Overrides

structure Stage.Honest (past : List Venture) (s : Stage) : Prop where
  ledger : s.ledger.Honest past
  overrides : s.overrides.Backed past

namespace Stage

def Upholds (s t : Stage) : Prop := ∀ past, s.Honest past → t.Honest past

instance : IsPreorder Stage Upholds where
  refl := fun _ _ h => h
  trans := fun _ _ _ h h' past hs => h' past (h past hs)

lemma works_upholds : Works Ledger.Upholds Upholds where
  toEnlists := Ledger.Upholds.enlists
  notices := fun _ _ => .of_contracts rfl rfl
  actors := fun _ _ _ => .of_contracts rfl rfl
  init := .init
  clean := fun l => trans_of Ledger.Upholds (.dispose l) (.cleanup _)
  carry := fun _ _ _ hoverrides hledger past hs =>
    ⟨hledger past hs.ledger, hoverrides.symm ▸ hs.overrides⟩
  states := by
    intro s a states o l h past hs
    obtain ⟨hl, ho⟩ := Overrides.honest_overrideStates h hs.ledger hs.overrides
    exact ⟨hl, ho⟩
  deployment := by
    intro s a o l h past hs
    obtain ⟨hl, ho⟩ := Overrides.honest_overrideDeployment h hs.ledger hs.overrides
    exact ⟨hl, ho⟩
  purge := fun s past hs => ⟨Overrides.honest_purge hs.ledger hs.overrides, List.forall_mem_nil _⟩

end Stage

end ChainReplay
