import Mathlib.Tactic.Lemma
import ChainReplay.Disk
import ChainReplay.Proofs.Table

/-! Laws of the file system: where paths lead once more directories are there, and what making a
directory and writing a file do. -/

namespace ChainReplay

namespace Disk

variable {d m : Disk} {p : Path}

lemma isDirectoryKey_mono (h : d.directories ⊆ m.directories) {key : List Text}
    (hkey : d.isDirectoryKey key = true) : m.isDirectoryKey key = true := by
  simp only [isDirectoryKey, Bool.or_eq_true, List.contains_iff_mem] at hkey ⊢
  rcases hkey with hkey | hkey
  · exact .inl hkey
  · exact .inr (h hkey)

lemma isDirectoryKey_congr (h : d.directories = m.directories) (key : List Text) :
    d.isDirectoryKey key = m.isDirectoryKey key := by
  simp only [isDirectoryKey]
  rw [h]

/-- A path that leads nowhere for want of a directory. -/
def Astray {α : Type} (r : Except Failure α) : Prop :=
  r = .error (.access .missing) ∨ r = .error (.access .notDirectory)

lemma follow_mono (h : d.directories ⊆ m.directories) (key parts : List Text) :
    m.follow key parts = d.follow key parts ∨ Astray (d.follow key parts) := by
  induction parts generalizing key with
  | nil => exact .inl rfl
  | cons part parts ih =>
    simp only [follow]
    by_cases hkey : d.isDirectoryKey key = true
    · simp only [hkey, isDirectoryKey_mono h hkey, Bool.not_true, Bool.false_eq_true, if_false]
      split
      · exact ih _
      · split
        · exact .inl rfl
        · exact ih _
    · right
      simp only [hkey, Bool.not_false, if_true, Astray]
      cases d.isFileKey key
      · exact .inl rfl
      · exact .inr rfl

lemma key_mono (h : d.directories ⊆ m.directories) (p : Path) :
    m.key p = d.key p ∨ Astray (d.key p) := by
  simp only [key]
  cases check p.text with
  | error e => exact .inl rfl
  | ok _ => exact follow_mono h _ _

lemma key_eq_ok_mono (h : d.directories ⊆ m.directories) {k : List Text} (hk : d.key p = .ok k) :
    m.key p = .ok k := by
  rcases key_mono h p with heq | heq | heq
  · exact heq.trans hk
  · rw [hk] at heq
    cases heq
  · rw [hk] at heq
    cases heq

lemma follow_append (d : Disk) (key parts others : List Text) :
    d.follow key (parts ++ others) = (d.follow key parts).bind fun k => d.follow k others := by
  induction parts generalizing key with
  | nil => rfl
  | cons part parts ih =>
    rw [List.cons_append, follow, follow]
    split
    · rfl
    · split
      · exact ih _
      · split
        · rfl
        · exact ih _

lemma key_child {root : Path.Root} {parts : List Text} {part : Text} (hpart : part ≠ "..")
    {kd k : List Text} (hdir : d.key ⟨root, parts⟩ = .ok kd)
    (hk : d.key ⟨root, parts ++ [part]⟩ = .ok k) : k = kd ++ [part] := by
  rw [key] at hdir hk
  rw [follow_append] at hk
  cases hc : check (Path.text ⟨root, parts⟩) with
  | error e => simp [hc, bind, Except.bind] at hdir
  | ok _ =>
    cases hc' : check (Path.text ⟨root, parts ++ [part]⟩) with
    | error e => simp [hc', bind, Except.bind] at hk
    | ok _ =>
      simp only [hc, hc', bind, Except.bind] at hdir hk
      rw [hdir] at hk
      simp only [follow, if_neg hpart] at hk
      split at hk
      · cases hk
      · split at hk
        · cases hk
        · exact (Except.ok.inj hk).symm

lemma kind_eq_ok {found : Kind} (h : d.kind p = .ok found) :
    ∃ k, d.key p = .ok k ∧ (found = .file ↔ d.isFileKey k = true) ∧
      (found = .directory → d.isDirectoryKey k = true) := by
  rw [kind] at h
  cases hk : d.key p with
  | error e => simp [hk, bind, Except.bind] at h
  | ok k =>
    refine ⟨k, rfl, ?_⟩
    simp only [hk, bind, Except.bind] at h
    cases hf : d.isFileKey k
    · cases hd : d.isDirectoryKey k
      · simp [hf, hd, throw, throwThe, MonadExceptOf.throw] at h
      · simp only [hf, hd, if_true, Bool.false_eq_true, if_false] at h
        cases h
        simp
    · simp only [hf, if_true] at h
      cases h
      simp

lemma kind_of_key {k : List Text} (hk : d.key p = .ok k) (hf : d.isFileKey k = false)
    (hd : d.isDirectoryKey k = true) : d.kind p = .ok .directory := by
  simp [kind, hk, hf, hd, bind, Except.bind, pure, Except.pure]

lemma present_of_key {k : List Text} (hk : d.key p = .ok k) :
    d.present p = .ok (d.isFileKey k || d.isDirectoryKey k) := by
  rw [present, leadsTo, kind]
  cases hf : d.isFileKey k <;> cases hd : d.isDirectoryKey k <;>
    simp [hk, hf, hd, bind, Except.bind, pure, Except.pure, throw, throwThe, MonadExceptOf.throw]

lemma present_of_key_error {e : Failure} (hk : d.key p = .error e) :
    d.present p = .ok false ∨ ∃ e', d.present p = .error e' := by
  rw [present, leadsTo, kind]
  simp only [hk, bind, Except.bind]
  split
  · cases ‹_›
  · exact .inr ⟨_, rfl⟩
  · exact .inl rfl

lemma present_of_astray (hk : Astray (d.key p)) : d.present p = .ok false := by
  rw [present, leadsTo, kind]
  rcases hk with hk | hk <;> simp [hk, bind, Except.bind]

lemma read_of_key {k : List Text} (hk : d.key p = .ok k) {content : Bytes}
    (hc : d.files.find? k = some content) : d.read p = .ok content := by
  simp [read, hk, hc, bind, Except.bind, pure, Except.pure]

lemma read_eq_ok {content : Bytes} (h : d.read p = .ok content) :
    ∃ k, d.key p = .ok k ∧ d.files.find? k = some content := by
  rw [read] at h
  cases hk : d.key p with
  | error e => simp [hk, bind, Except.bind] at h
  | ok k =>
    refine ⟨k, rfl, ?_⟩
    simp only [hk, bind, Except.bind] at h
    cases hc : d.files.find? k with
    | none => simp [hc, throw, throwThe, MonadExceptOf.throw] at h
    | some c =>
      simp only [hc] at h
      cases h
      rfl

lemma readOr_of_ok {content : Bytes} {unusable : Failure} (h : d.read p = .ok content) :
    d.readOr p unusable = .ok content := by
  rw [readOr, h]
  rfl

lemma readOr_of_error {e : Failure} (h : d.read p = .error e) (unusable : Failure) :
    ∃ e', d.readOr p unusable = .error e' := by
  rw [readOr, h]
  exact ⟨_, rfl⟩

end Disk

namespace Filing

open Disk

variable {α β : Type} {d m : Disk} {p : Path}

def outcome (x : Filing α) (d : Disk) : Except Failure α × Disk := (ExceptT.run x).run d

lemma outcome_bind (x : Filing α) (k : α → Filing β) (d : Disk) :
    outcome (x >>= k) d =
      match outcome x d with
      | (.ok a, m) => outcome (k a) m
      | (.error e, m) => (.error e, m) := by
  simp only [outcome, ExceptT.run_bind, StateT.run_bind]
  rcases (ExceptT.run x).run d with ⟨_ | a, m⟩ <;> rfl

lemma outcome_tryCatch (x : Filing α) (h : Failure → Filing α) (d : Disk) :
    outcome (tryCatch x h) d =
      match outcome x d with
      | (.ok a, m) => (.ok a, m)
      | (.error e, m) => outcome (h e) m := by
  simp only [outcome, ExceptT.run, StateT.run]
  simp only [tryCatch, tryCatchThe, MonadExceptOf.tryCatch, ExceptT.tryCatch, ExceptT.mk, bind,
    StateT.bind]
  obtain ⟨e | a, m⟩ := x d <;> rfl

@[simp] lemma outcome_pure (a : α) (d : Disk) : outcome (pure a) d = (.ok a, d) := rfl

@[simp] lemma outcome_throw (e : Failure) (d : Disk) :
    outcome (throw e : Filing α) d = (.error e, d) := rfl

@[simp] lemma outcome_get (d : Disk) : outcome get d = (.ok d, d) := rfl

@[simp] lemma outcome_set (d m : Disk) : outcome (set m) d = (.ok ⟨⟩, m) := rfl

@[simp] lemma outcome_lift (f : Disk → Except Failure α) (d : Disk) :
    outcome (lift f) d = (f d, d) := by
  change outcome (liftM (f d) : Filing α) d = _
  cases f d <;> rfl

lemma outcome_makeOne (p : Path) (d : Disk) :
    outcome (makeOne p) d =
      match d.key p with
      | .error e => (.error e, d)
      | .ok k =>
        if d.isFileKey k || d.isDirectoryKey k then (.error (.access .taken), d)
        else (.ok ⟨⟩, { d with directories := d.directories ++ [k] }) := by
  rw [makeOne]
  rw [outcome_bind, outcome_lift]
  cases d.key p with
  | error e => rfl
  | ok k =>
    simp only [outcome_bind, outcome_get]
    split <;> rfl

lemma outcome_write (p : Path) (content : Bytes) (d : Disk) :
    outcome (write p content) d =
      match d.key p with
      | .error e => (.error e, d)
      | .ok k =>
        if d.isDirectoryKey k then (.error (.access .isDirectory), d)
        else (.ok ⟨⟩, { d with files := Table.insert k content d.files }) := by
  rw [write]
  rw [outcome_bind, outcome_lift]
  cases d.key p with
  | error e => rfl
  | ok k =>
    simp only [outcome_bind, outcome_get]
    split <;> rfl

lemma read_of_write {u : Unit} {content : Bytes} (h : outcome (write p content) d = (.ok u, m)) :
    m.read p = .ok content := by
  rw [outcome_write] at h
  cases hkey : d.key p with
  | error e =>
    rw [hkey] at h
    cases h
  | ok k =>
    rw [hkey] at h
    dsimp only at h
    split at h
    case isTrue => cases h
    case isFalse =>
      obtain ⟨-, hm⟩ := Prod.mk.inj h
      have hdirectories : d.directories ⊆ m.directories := by
        rw [← hm]
        exact List.Subset.refl _
      refine read_of_key (key_eq_ok_mono hdirectories hkey) ?_
      rw [← hm, Table.find?_insert, if_pos rfl]

structure Grown (d m : Disk) : Prop where
  files : m.files = d.files
  directories : d.directories ⊆ m.directories

def Grows (x : Filing α) : Prop := ∀ d, Grown d (outcome x d).2

lemma Grown.trans {n : Disk} (h : Grown d m) (h' : Grown m n) : Grown d n :=
  ⟨h'.files.trans h.files, fun _ hk => h'.directories (h.directories hk)⟩

lemma Grows.of_eq {x : Filing α} (h : ∀ d, (outcome x d).2 = d) : Grows x := by
  intro d
  rw [h d]
  exact ⟨rfl, fun _ hk => hk⟩

lemma Grows.bind {x : Filing α} {k : α → Filing β} (hx : Grows x) (hk : ∀ a, Grows (k a)) :
    Grows (x >>= k) := by
  intro d
  rw [outcome_bind]
  have hd := hx d
  generalize outcome x d = o at hd ⊢
  obtain ⟨_ | a, m⟩ := o
  · exact hd
  · exact hd.trans (hk a m)

lemma Grows.tryCatch {x : Filing α} {h : Failure → Filing α} (hx : Grows x)
    (hh : ∀ e, Grows (h e)) : Grows (tryCatch x h) := by
  intro d
  rw [outcome_tryCatch]
  have hd := hx d
  generalize outcome x d = o at hd ⊢
  obtain ⟨e | a, m⟩ := o
  · exact hd.trans (hh e m)
  · exact hd

lemma Grows.throw (e : Failure) : Grows (throw e : Filing α) := .of_eq fun _ => rfl

lemma grows_makeOne (p : Path) : Grows (makeOne p) := by
  intro d
  rw [outcome_makeOne]
  cases d.key p with
  | error e => exact ⟨rfl, fun _ hk => hk⟩
  | ok k =>
    simp only
    split
    · exact ⟨rfl, fun _ hk => hk⟩
    · exact ⟨rfl, fun _ hk => List.mem_append_left _ hk⟩

lemma grows_ensureOne (p : Path) : Grows (ensureOne p) := by
  refine (grows_makeOne p).tryCatch fun e => ?_
  split
  · exact .throw _
  · refine (Grows.of_eq fun d => by rw [outcome_lift]).bind fun found => ?_
    cases found
    · exact .throw _
    · exact .of_eq fun _ => rfl
  · exact .throw _

lemma grows_makeDirectory (p : Path) : Grows (makeDirectory p) := by
  rw [makeDirectory]
  induction p.parts.reverse with
  | nil => exact grows_ensureOne _
  | cons part parts ih =>
    refine (grows_ensureOne _).tryCatch fun e => ?_
    split
    · exact ih.bind fun _ => grows_ensureOne _
    · exact .throw _

lemma leadsTo_directory {found : Kind} (h : d.kind p = .ok found) :
    d.leadsTo p (· = .directory) = .ok (decide (found = .directory)) := by
  simp [leadsTo, h]

lemma outcome_ensureOne_of_directory (h : d.kind p = .ok .directory) :
    outcome (ensureOne p) d = (.ok ⟨⟩, d) := by
  obtain ⟨k, hk, _, hd⟩ := kind_eq_ok h
  have htaken : outcome (makeOne p) d = (.error (.access .taken), d) := by
    rw [outcome_makeOne, hk]
    simp [hd rfl]
  rw [ensureOne]
  rw [outcome_tryCatch, htaken]
  simp only [outcome_bind, outcome_lift, leadsTo_directory h]
  rfl

lemma kind_of_leadsTo (h : d.leadsTo p (· = .directory) = .ok true) :
    d.kind p = .ok .directory := by
  rw [leadsTo] at h
  cases hk : d.kind p with
  | error e =>
    simp only [hk] at h
    split at h
    case h_1 heq => cases heq
    case h_2 => cases h
    case h_3 => cases h
  | ok found =>
    simp only [hk, Except.ok.injEq, decide_eq_true_eq] at h
    rw [h]

lemma kind_of_makeOne (p : Path) (d : Disk) :
    (∃ e, outcome (makeOne p) d = (.error e, d)) ∨
      ∃ m, outcome (makeOne p) d = (.ok ⟨⟩, m) ∧ m.kind p = .ok .directory := by
  rw [outcome_makeOne]
  cases hk : d.key p with
  | error e => exact .inl ⟨e, rfl⟩
  | ok k =>
    cases hfree : d.isFileKey k || d.isDirectoryKey k
    · have hsub : d.directories ⊆ d.directories ++ [k] := List.subset_append_left _ _
      refine .inr ⟨⟨d.files, d.directories ++ [k]⟩, by simp [hfree], ?_⟩
      refine kind_of_key (key_eq_ok_mono hsub hk) (Bool.or_eq_false_iff.mp hfree).1 ?_
      simp [isDirectoryKey]
    · exact .inl ⟨.access .taken, by simp [hfree]⟩

lemma kind_of_ensureOne {a : Unit} (h : outcome (ensureOne p) d = (.ok a, m)) :
    m.kind p = .ok .directory := by
  rw [ensureOne] at h
  rw [outcome_tryCatch] at h
  obtain ⟨e, he⟩ | ⟨m', hm, hkind⟩ := kind_of_makeOne p d
  · simp only [he] at h
    split at h
    · cases h
    · rw [outcome_bind, outcome_lift] at h
      cases hl : d.leadsTo p (· = .directory) with
      | error f =>
        simp only [hl] at h
        cases h
      | ok found =>
        simp only [hl] at h
        cases found
        · cases h
        · cases h
          exact kind_of_leadsTo hl
    · cases h
  · simp only [hm] at h
    cases h
    exact hkind

lemma outcome_makeDirectory_of_directory (h : d.kind p = .ok .directory) :
    outcome (makeDirectory p) d = (.ok ⟨⟩, d) := by
  obtain ⟨root, parts⟩ := p
  rw [makeDirectory]
  rw [← parts.reverse_reverse] at h
  generalize parts.reverse = reversed at h ⊢
  cases reversed with
  | nil => exact outcome_ensureOne_of_directory h
  | cons part rest =>
    rw [ensureWithin]
    rw [outcome_tryCatch, outcome_ensureOne_of_directory h]

lemma kind_of_makeDirectory {a : Unit} (h : outcome (makeDirectory p) d = (.ok a, m)) :
    m.kind p = .ok .directory := by
  obtain ⟨root, parts⟩ := p
  rw [makeDirectory] at h
  rw [← parts.reverse_reverse]
  generalize parts.reverse = reversed at h ⊢
  cases reversed with
  | nil => exact kind_of_ensureOne h
  | cons part rest =>
    rw [ensureWithin] at h
    rw [outcome_tryCatch] at h
    rcases hone : outcome (ensureOne ⟨root, (part :: rest).reverse⟩) d with ⟨e | b, n⟩
    · simp only [hone] at h
      split at h
      · rw [outcome_bind] at h
        rcases hrest : outcome (ensureWithin root rest) n with ⟨e | b, n'⟩
        · simp only [hrest] at h
          cases h
        · simp only [hrest] at h
          exact kind_of_ensureOne h
      · cases h
    · simp only [hone] at h
      cases h
      exact kind_of_ensureOne hone

end Filing

end ChainReplay
