import Mathlib.Data.List.Perm.Basic
import ChainReplay.Proofs.Execution.Sustained

/-! What comes in and what goes out: between two ledgers, the handles that are given back and those that
are held afterwards are the handles that are given out and those that were held before. -/

namespace ChainReplay

namespace Table

variable {κ α : Type} [DecidableEq κ]

lemma modify_of_not_mem {t : Table κ α} {k : κ} (h : k ∉ keys t) (f : α → α) : modify t k f = t := by
  induction t with
  | nil => rfl
  | cons entry t ih =>
    rw [keys, List.map_cons, List.mem_cons, not_or] at h
    rw [modify_cons, if_neg (Ne.symm h.1), ih h.2]

lemma exists_split {t : Table κ α} (ht : (keys t).Nodup) {k : κ} {a : α} (h : find? t k = some a) :
    ∃ before after, t = before ++ (k, a) :: after ∧
      ∀ f, modify t k f = before ++ (k, f a) :: after := by
  induction t with
  | nil => cases h
  | cons entry t ih =>
    obtain ⟨hkey, hrest⟩ := List.nodup_cons.mp ht
    rw [find?_cons] at h
    split at h
    case isTrue hk =>
      subst hk
      cases h
      refine ⟨[], t, rfl, fun f => ?_⟩
      rw [modify_cons, if_pos rfl, modify_of_not_mem hkey]
      rfl
    case isFalse hk =>
      obtain ⟨before, after, hsplit, hmodify⟩ := ih hrest h
      refine ⟨entry :: before, after, congrArg (entry :: ·) hsplit, fun f => ?_⟩
      rw [modify_cons, if_neg hk, hmodify]
      rfl

omit [DecidableEq κ] in
lemma values_append (t u : Table κ α) : values (t ++ u : List (κ × α)) = values t ++ values u :=
  List.map_append

omit [DecidableEq κ] in
lemma values_cons (entry : κ × α) (t : Table κ α) : values (entry :: t) = entry.2 :: values t := rfl

end Table

namespace Entry

def disposed? : Entry → Option Nat
  | .disposed n => some n
  | _ => none

/-- A request counts if this engine gives out a handle. -/
def granted? (engine : Option Engine) : Entry → Option Nat
  | .instantiated n parameters =>
    (engine.bind fun e => (e.instantiate parameters).toOption).map fun _ => n
  | _ => none

lemma disposed?_of_isMessage {e : Entry} (h : e.isMessage = true) : e.disposed? = none := by
  cases e <;> first | rfl | cases h

lemma granted?_of_isMessage {e : Entry} (h : e.isMessage = true) (engine : Option Engine) :
    e.granted? engine = none := by
  cases e <;> first | rfl | cases h

end Entry

def releases (entries : List Entry) : List Nat := entries.filterMap Entry.disposed?

def grants (engine : Option Engine) (entries : List Entry) : List Nat :=
  entries.filterMap (Entry.granted? engine)

@[simp] lemma releases_append (xs ys : List Entry) :
    releases (xs ++ ys) = releases xs ++ releases ys := List.filterMap_append

@[simp] lemma grants_append (engine : Option Engine) (xs ys : List Entry) :
    grants engine (xs ++ ys) = grants engine xs ++ grants engine ys := List.filterMap_append

lemma releases_disposal (c : Contract) : releases c.disposal = c.number?.toList := by
  cases h : c.handle <;> simp [releases, Contract.disposal, Contract.number?, h, Entry.disposed?]

lemma grants_disposal (engine : Option Engine) (c : Contract) : grants engine c.disposal = [] := by
  cases h : c.handle <;> simp [grants, Contract.disposal, h, Entry.granted?]

lemma number?_dispose (c : Contract) : c.dispose.number? = none :=
  (c.dispose.number?_eq_none_iff).mpr c.handle_dispose

def numbers (contracts : List Contract) : List Nat := contracts.filterMap Contract.number?

@[simp] lemma numbers_append (xs ys : List Contract) : numbers (xs ++ ys) = numbers xs ++ numbers ys :=
  List.filterMap_append

@[simp] lemma numbers_cons (c : Contract) (cs : List Contract) :
    numbers (c :: cs) = c.number?.toList ++ numbers cs := by
  rw [numbers, List.filterMap_cons]
  cases c.number? <;> rfl

lemma releases_disposals (contracts : List Contract) :
    releases (contracts.flatMap Contract.disposal) = numbers contracts := by
  induction contracts with
  | nil => rfl
  | cons c cs ih => simp [releases_disposal, ih]

lemma grants_disposals (engine : Option Engine) (contracts : List Contract) :
    grants engine (contracts.flatMap Contract.disposal) = [] := by
  induction contracts with
  | nil => rfl
  | cons c cs ih => simp [grants_disposal, ih]

namespace Ledger

def held (l : Ledger) : List Nat := numbers (l.contracts.values ++ l.retired)

def number (l : Ledger) (a : Address) : Option Nat := (Seat.contract l (.registered a)).number?

/-- From one ledger to the other, the handles in `before` give way to those in `after`. -/
structure Turnover (l m : Ledger) (before after : List Nat) : Prop where
  engine : m.engine = l.engine
  handles : l.handles ≤ m.handles
  entries : ∃ entries, m.journal = l.journal ++ entries ∧
    (∀ n, (releases entries).count n + after.count n =
      (grants l.engine entries).count n + before.count n) ∧
    (grants l.engine entries).Nodup ∧
    ∀ n ∈ grants l.engine entries, l.handles < n ∧ n ≤ m.handles

namespace Turnover

variable {l m n : Ledger} {xs ys zs : List Nat}

lemma trans (h : l.Turnover m xs ys) (h' : m.Turnover n ys zs) : l.Turnover n xs zs := by
  obtain ⟨first, hfirst, hbalance, hnodup, hrange⟩ := h.entries
  obtain ⟨second, hsecond, hbalance', hnodup', hrange'⟩ := h'.entries
  have hhandles := h.handles
  have hhandles' := h'.handles
  rw [h.engine] at hbalance' hnodup' hrange'
  refine ⟨h'.engine.trans h.engine, Nat.le_trans hhandles hhandles', first ++ second, ?_, ?_, ?_, ?_⟩
  · rw [hsecond, hfirst, List.append_assoc]
  · intro i
    have hi := hbalance i
    have hi' := hbalance' i
    simp only [releases_append, grants_append, List.count_append]
    omega
  · rw [grants_append]
    apply List.nodup_append.mpr ⟨hnodup, hnodup', ?_⟩
    intro i hi j hj
    have := hrange i hi
    have := hrange' j hj
    omega
  · intro i hi
    rw [grants_append, List.mem_append] at hi
    rcases hi with hi | hi
    · have := hrange i hi
      omega
    · have := hrange' i hi
      omega

lemma frame (h : l.Turnover m xs ys) (zs : List Nat) : l.Turnover m (xs ++ zs) (ys ++ zs) := by
  obtain ⟨entries, hentries, hbalance, hrest⟩ := h.entries
  refine ⟨h.engine, h.handles, entries, hentries, fun i => ?_, hrest⟩
  have hi := hbalance i
  simp only [List.count_append]
  omega

lemma perm (h : l.Turnover m xs ys) {xs' ys' : List Nat} (hxs : xs.Perm xs') (hys : ys.Perm ys') :
    l.Turnover m xs' ys' := by
  obtain ⟨entries, hentries, hbalance, hrest⟩ := h.entries
  refine ⟨h.engine, h.handles, entries, hentries, fun i => ?_, hrest⟩
  rw [← hxs.count_eq, ← hys.count_eq]
  exact hbalance i

lemma of_entries (entries : List Entry) (hjournal : m.journal = l.journal ++ entries)
    (hengine : m.engine = l.engine) (hhandles : m.handles = l.handles)
    (hgrants : grants l.engine entries = []) (h : xs.Perm (releases entries ++ ys)) :
    l.Turnover m xs ys := by
  refine ⟨hengine, Nat.le_of_eq hhandles.symm, entries, hjournal, fun i => ?_, ?_, ?_⟩
  · rw [hgrants, h.count_eq, List.count_append, List.count_nil]
    omega
  · rw [hgrants]
    exact List.nodup_nil
  · rw [hgrants]
    exact fun i hi => absurd hi List.not_mem_nil

lemma of_journal (hjournal : m.journal = l.journal) (hengine : m.engine = l.engine)
    (hhandles : m.handles = l.handles) (h : xs.Perm ys) : l.Turnover m xs ys := by
  apply of_entries [] _ hengine hhandles rfl h
  rw [hjournal, List.append_nil]

lemma refl (l : Ledger) (xs : List Nat) : l.Turnover l xs xs := of_journal rfl rfl rfl (.refl _)

lemma enter (l : Ledger) {e : Entry} (he : e.isMessage = true) (xs : List Nat) :
    l.Turnover (l.enter [e]) xs xs := by
  refine of_entries [e] (m := l.enter [e]) rfl rfl rfl ?_ ?_
  · simp [grants, Entry.granted?_of_isMessage he]
  · simp [releases, Entry.disposed?_of_isMessage he]

lemma disposal (l : Ledger) (c : Contract) (xs : List Nat) :
    l.Turnover (l.enter c.disposal) (c.number?.toList ++ xs) xs := by
  refine of_entries c.disposal (m := l.enter c.disposal) rfl rfl rfl ?_ ?_
  · exact grants_disposal l.engine c
  · rw [releases_disposal]

lemma disposals (l : Ledger) (contracts : List Contract) (xs : List Nat) :
    l.Turnover (l.enter (contracts.flatMap Contract.disposal)) (numbers contracts ++ xs) xs := by
  refine of_entries _ (m := l.enter (contracts.flatMap Contract.disposal)) rfl rfl rfl ?_ ?_
  · exact grants_disposals l.engine contracts
  · rw [releases_disposals]

end Turnover

end Ledger

end ChainReplay
