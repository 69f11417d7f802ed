import ChainReplay.Proofs.Table
import ChainReplay.Storage

/-! Storages that no program can tell apart. The order in which pointers stand in a storage shows in
searches only, and there only among pointers of the same token and word position. -/

namespace ChainReplay.Storage

/-- What stands under the pointers of this token and word position, in order. -/
def entriesAt (s : Storage) (t w : Int) : Storage :=
  List.filter (fun entry => token entry.1 = t ∧ wordPosition entry.1 = w) s

def Similar (s t : Storage) : Prop := ∀ k w, s.entriesAt k w = t.entriesAt k w

lemma entriesAt_cons (entry : Int × Int) (s : Storage) (k w : Int) :
    entriesAt (entry :: s) k w =
      if token entry.1 = k ∧ wordPosition entry.1 = w then entry :: s.entriesAt k w
      else s.entriesAt k w := by
  simp only [entriesAt, List.filter_cons, decide_eq_true_eq]

lemma find?_entriesAt (s : Storage) (p : Int) :
    (s.entriesAt (token p) (wordPosition p)).find? p = s.find? p := by
  induction s with
  | nil => rfl
  | cons entry s ih =>
    rw [entriesAt_cons, Table.find?_cons]
    by_cases hp : entry.1 = p
    · rw [if_pos ⟨hp ▸ rfl, hp ▸ rfl⟩, Table.find?_cons, if_pos hp, if_pos hp]
    · rw [if_neg hp, ← ih]
      split
      · rw [Table.find?_cons, if_neg hp]
      · rfl

lemma entriesAt_store (s : Storage) (p v k w : Int) :
    (s.store p v).entriesAt k w =
      if token p = k ∧ wordPosition p = w then (s.entriesAt k w).store p v
      else s.entriesAt k w := by
  simp only [store]
  induction s with
  | nil => exact entriesAt_cons (p, v) [] k w
  | cons entry s ih =>
    rw [Table.insert_cons, entriesAt_cons]
    by_cases hp : entry.1 = p
    · rw [if_pos hp, entriesAt_cons, hp]
      split
      · rw [Table.insert_cons, if_pos hp]
      · rfl
    · rw [if_neg hp, entriesAt_cons, ih]
      by_cases hk : token p = k ∧ wordPosition p = w
      · rw [if_pos hk, if_pos hk]
        split
        · rw [Table.insert_cons, if_neg hp]
        · rfl
      · rw [if_neg hk, if_neg hk]

namespace Similar

variable {s t : Storage}

lemma refl (s : Storage) : Similar s s := fun _ _ => rfl

lemma find? (h : Similar s t) (p : Int) : s.find? p = t.find? p := by
  rw [← find?_entriesAt, h, find?_entriesAt]

lemma load (h : Similar s t) (p : Int) : s.load p = t.load p := by
  rw [Storage.load, h.find?, Storage.load]

lemma store (h : Similar s t) (p v : Int) : Similar (s.store p v) (t.store p v) := by
  intro k w
  rw [entriesAt_store, entriesAt_store, h k w]

lemma eq_nil (h : Similar [] t) : t = [] := by
  cases t with
  | nil => rfl
  | cons entry t =>
    have hentry := h (token entry.1) (wordPosition entry.1)
    rw [entriesAt_cons, if_pos ⟨rfl, rfl⟩] at hentry
    cases hentry

lemma isEmpty (h : Similar s t) : s.isEmpty = t.isEmpty := by
  cases s with
  | nil => rw [h.eq_nil]
  | cons entry s =>
    cases t with
    | nil => cases eq_nil fun k w => (h k w).symm
    | cons entry t => rfl

end Similar

section Search

variable (down : Bool)

/-- In a search the second pointer is preferred to the first, whichever comes earlier. -/
def Precedes (p q : Int) : Prop :=
  if down then wordPosition p < wordPosition q else wordPosition q < wordPosition p

lemma nearer_some (p q : Int) [Decidable (Precedes down p q)] :
    nearer down (some p) q = some (if Precedes down p q then q else p) := by
  cases down <;> simp only [nearer, Precedes, Bool.false_eq_true, if_true, if_false]

/-- What a search has found: no candidate is preferred to it, and it comes first at its position. -/
structure Found (candidates : List Int) (p : Int) : Prop where
  best : ∀ q ∈ candidates, ¬Precedes down p q
  first : (candidates.filter (wordPosition · = wordPosition p)).head? = some p

lemma found_foldl (p : Int) (candidates : List Int) :
    ∃ q, candidates.foldl (nearer down) (some p) = some q ∧ Found down (p :: candidates) q := by
  classical
  induction candidates generalizing p with
  | nil =>
    refine ⟨p, rfl, fun q hq => ?_, by simp⟩
    rw [List.mem_singleton.mp hq]
    cases down <;> simp [Precedes]
  | cons c rest ih =>
    rw [List.foldl_cons, nearer_some]
    by_cases hc : Precedes down p c
    · rw [if_pos hc]
      obtain ⟨q, hfold, hbest, hfirst⟩ := ih c
      have hq := hbest c List.mem_cons_self
      refine ⟨q, hfold, fun r hr => ?_, ?_⟩
      · rcases List.mem_cons.mp hr with rfl | hr
        · cases down <;> simp only [Precedes] at * <;> grind
        · exact hbest r hr
      · have hp : wordPosition p ≠ wordPosition q := by
          cases down <;> simp only [Precedes] at * <;> grind
        rw [List.filter_cons_of_neg (by simpa using hp), hfirst]
    · rw [if_neg hc]
      obtain ⟨q, hfold, hbest, hfirst⟩ := ih p
      have hq := hbest p List.mem_cons_self
      refine ⟨q, hfold, fun r hr => ?_, ?_⟩
      · rcases List.mem_cons.mp hr with rfl | hr
        · exact hq
        · rcases List.mem_cons.mp hr with rfl | hr
          · cases down <;> simp only [Precedes] at * <;> grind
          · exact hbest r (List.mem_cons_of_mem _ hr)
      · by_cases hp : wordPosition p = wordPosition q
        · rw [List.filter_cons_of_pos (by simpa using hp)] at hfirst ⊢
          exact hfirst
        · have hcq : wordPosition c ≠ wordPosition q := by
            cases down <;> simp only [Precedes] at * <;> grind
          rw [List.filter_cons_of_neg (by simpa using hp)] at hfirst ⊢
          rw [List.filter_cons_of_neg (by simpa using hcq), hfirst]

variable {down}

lemma Found.mem {candidates : List Int} {p : Int} (h : Found down candidates p) :
    p ∈ candidates := by
  have hp := List.mem_of_head? h.first
  exact (List.mem_filter.mp hp).1

lemma Found.unique {candidates others : List Int}
    (hsame : ∀ w, candidates.filter (wordPosition · = w) = others.filter (wordPosition · = w))
    {p q : Int} (hp : Found down candidates p) (hq : Found down others q) : p = q := by
  have hmem {r : Int} : r ∈ candidates ↔ r ∈ others := by
    have hfilter := congrArg (r ∈ ·) (hsame (wordPosition r))
    simpa using hfilter
  have hposition : wordPosition p = wordPosition q := by
    have hbest := hp.best q (hmem.mpr hq.mem)
    have hbest' := hq.best p (hmem.mp hp.mem)
    cases down <;> simp only [Precedes] at * <;> grind
  have hfirst := hp.first
  rw [hposition, hsame, hq.first] at hfirst
  exact (Option.some.inj hfirst).symm

lemma foldl_nearer_congr {candidates others : List Int}
    (hsame : ∀ w, candidates.filter (wordPosition · = w) = others.filter (wordPosition · = w)) :
    candidates.foldl (nearer down) none = others.foldl (nearer down) none := by
  cases candidates with
  | nil =>
    cases others with
    | nil => rfl
    | cons q others =>
      have hq := hsame (wordPosition q)
      rw [List.filter_cons_of_pos (by simp)] at hq
      cases hq
  | cons p candidates =>
    cases others with
    | nil =>
      have hp := hsame (wordPosition p)
      rw [List.filter_cons_of_pos (by simp)] at hp
      cases hp
    | cons q others =>
      obtain ⟨r, hr, hfound⟩ := found_foldl down p candidates
      obtain ⟨r', hr', hfound'⟩ := found_foldl down q others
      change candidates.foldl (nearer down) (some p) = others.foldl (nearer down) (some q)
      rw [hr, hr', hfound.unique hsame hfound']

end Search

lemma filter_candidates (s : Storage) (p bound : Int) (down : Bool) (w : Int) :
    ((s.filter (matchesSearch p bound down)).map (·.1)).filter (wordPosition · = w) =
      ((s.entriesAt (token p) w).filter (matchesSearch p bound down)).map (·.1) := by
  rw [List.filter_map, List.filter_filter, entriesAt, List.filter_filter]
  congr 1
  refine List.filter_congr fun entry _ => ?_
  by_cases hk : token entry.1 = token p <;> simp [matchesSearch, hk, Bool.and_comm]

lemma Similar.nextPointer {s t : Storage} (h : Similar s t) (p bound : Int) (down : Bool) :
    s.nextPointer p bound down = t.nextPointer p bound down := by
  simp only [Storage.nextPointer]
  rw [foldl_nearer_congr fun w => ?_]
  rw [filter_candidates, filter_candidates, h]

-- Pointers that differ above their token only: here the order shows.
example : nextPointer [(1, 5), (1 + 2 ^ 240, 5)] 0 0 false = 1 ∧
    nextPointer [(1 + 2 ^ 240, 5), (1, 5)] 0 0 false = 1 + 2 ^ 240 := by decide +kernel

end ChainReplay.Storage
