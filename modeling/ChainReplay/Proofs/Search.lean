import ChainReplay.Proofs.Storage

/-! What a pointer search gives: the nearest stored pointer of the same token that lies on the right
side and holds enough. Word positions alone decide what is near, so pointers that differ above
their token are equally near, and among these the one stored first wins. -/

namespace ChainReplay.Storage

variable {s t : Storage} {p bound q r : Int} {down : Bool}

/-- A search from `p` for values above `bound` may give the stored pointer `q`. -/
structure Accepts (s : Storage) (p bound : Int) (down : Bool) (q : Int) : Prop where
  token : token q = token p
  side : if down then wordPosition q ≤ wordPosition p else wordPosition p < wordPosition q
  stored : ∃ value, (q, value) ∈ s ∧ bound < value

/-- No accepted pointer is nearer than the accepted pointer `q`. -/
structure Nearest (s : Storage) (p bound : Int) (down : Bool) (q : Int) : Prop extends
    Accepts s p bound down q where
  nearest : ∀ r, s.Accepts p bound down r →
    if down then wordPosition r ≤ wordPosition q else wordPosition q ≤ wordPosition r

def candidates (s : Storage) (p bound : Int) (down : Bool) : List Int :=
  (s.filter (matchesSearch p bound down)).map (·.1)

lemma mem_candidates : q ∈ s.candidates p bound down ↔ s.Accepts p bound down q := by
  simp only [candidates, List.mem_map, List.mem_filter, Prod.exists, exists_and_right,
    exists_eq_right]
  constructor
  · rintro ⟨value, hmem, hmatch⟩
    simp only [matchesSearch, Bool.and_eq_true, decide_eq_true_eq] at hmatch
    obtain ⟨⟨htoken, hvalue⟩, hside⟩ := hmatch
    refine ⟨htoken, ?_, value, hmem, hvalue⟩
    cases down <;> simpa using hside
  · rintro ⟨htoken, hside, value, hmem, hvalue⟩
    refine ⟨value, hmem, ?_⟩
    cases down <;> simpa [matchesSearch, htoken, hvalue] using hside

lemma candidates_perm (h : s.Perm t) (p bound : Int) (down : Bool) :
    (s.candidates p bound down).Perm (t.candidates p bound down) :=
  (h.filter _).map _

lemma accepts_perm (h : s.Perm t) : s.Accepts p bound down q ↔ t.Accepts p bound down q := by
  rw [← mem_candidates, ← mem_candidates]
  exact (candidates_perm h p bound down).mem_iff

lemma nearest_iff : s.Nearest p bound down q ↔ s.Accepts p bound down q ∧
    ∀ r ∈ s.candidates p bound down, ¬Precedes down q r := by
  have hbest (r : Int) : (¬Precedes down q r) ↔
      if down then wordPosition r ≤ wordPosition q else wordPosition q ≤ wordPosition r := by
    cases down <;> simp [Precedes]
  constructor
  · rintro ⟨haccepts, hnearest⟩
    exact ⟨haccepts, fun r hr => (hbest r).mpr (hnearest r (mem_candidates.mp hr))⟩
  · rintro ⟨haccepts, hnearest⟩
    exact ⟨haccepts, fun r hr => (hbest r).mp (hnearest r (mem_candidates.mpr hr))⟩

lemma nearest_perm (h : s.Perm t) : s.Nearest p bound down q ↔ t.Nearest p bound down q := by
  have hmem (r : Int) := (candidates_perm h p bound down).mem_iff (a := r)
  simp only [nearest_iff, accepts_perm h, hmem]

lemma found_nextPointer (h : s.Accepts p bound down q) :
    Found down (s.candidates p bound down) (s.nextPointer p bound down) := by
  have hq := mem_candidates.mpr h
  have hnext : s.nextPointer p bound down =
      ((s.candidates p bound down).foldl (nearer down) none).getD 0 := rfl
  cases hc : s.candidates p bound down with
  | nil =>
    rw [hc] at hq
    cases hq
  | cons c rest =>
    obtain ⟨found, hfold, hfound⟩ := found_foldl down c rest
    rw [hnext, hc, List.foldl_cons, nearer, hfold]
    exact hfound

lemma nearest_nextPointer (h : s.Accepts p bound down q) :
    s.Nearest p bound down (s.nextPointer p bound down) := by
  have hfound := found_nextPointer h
  exact nearest_iff.mpr ⟨mem_candidates.mp hfound.mem, hfound.best⟩

lemma nextPointer_of_none (h : ∀ q, ¬s.Accepts p bound down q) :
    s.nextPointer p bound down = 0 := by
  have hnil : s.candidates p bound down = [] :=
    List.eq_nil_iff_forall_not_mem.mpr fun q hq => h q (mem_candidates.mp hq)
  change ((s.candidates p bound down).foldl (nearer down) none).getD 0 = 0
  rw [hnil]
  rfl

example : nextPointer [(5 * 2 ^ 80 + 1, 10), (5 * 2 ^ 80 + 3, 50), (9 * 2 ^ 80 + 4, 100)]
    (5 * 2 ^ 80 + 5) 5 true = 5 * 2 ^ 80 + 3 := by decide +kernel

lemma Nearest.wordPosition (hq : s.Nearest p bound down q) (hr : s.Nearest p bound down r) :
    wordPosition q = wordPosition r := by
  have hqr := hq.nearest r hr.toAccepts
  have hrq := hr.nearest q hq.toAccepts
  cases down
  · exact Int.le_antisymm hqr hrq
  · exact Int.le_antisymm hrq hqr

/-- Token and word position are the bits of a pointer below the 240th. -/
lemma low_bits (q : Int) : q % 2 ^ 240 = token q * 2 ^ 80 + wordPosition q := by
  simp only [Storage.token, Storage.wordPosition]
  omega

lemma Nearest.low_bits (hq : s.Nearest p bound down q) (hr : s.Nearest p bound down r) :
    q % 2 ^ 240 = r % 2 ^ 240 := by
  rw [Storage.low_bits, Storage.low_bits, hq.token, hr.token, hq.wordPosition hr]

lemma nextPointer_low_bits (h : s.Perm t) (p bound : Int) (down : Bool) :
    s.nextPointer p bound down % 2 ^ 240 = t.nextPointer p bound down % 2 ^ 240 := by
  by_cases hs : ∃ q, s.Accepts p bound down q
  · obtain ⟨q, hq⟩ := hs
    have hnearest := nearest_nextPointer ((accepts_perm h).mp hq)
    exact (nearest_nextPointer hq).low_bits ((nearest_perm h).mpr hnearest)
  · rw [not_exists] at hs
    rw [nextPointer_of_none hs, nextPointer_of_none fun q hq => hs q ((accepts_perm h).mpr hq)]

/-- Among the nearest pointers the one that is stored first is found. -/
lemma Nearest.nextPointer_cons {value : Int} (h : Nearest ((q, value) :: s) p bound down q)
    (hvalue : bound < value) : nextPointer ((q, value) :: s) p bound down = q := by
  have hfound := found_nextPointer h.toAccepts
  have hposition := (nearest_nextPointer h.toAccepts).wordPosition h
  have hmatch : matchesSearch p bound down (q, value) = true := by
    have hside := h.side
    cases down <;> simpa [matchesSearch, h.token, hvalue] using hside
  have hcons : candidates ((q, value) :: s) p bound down = q :: s.candidates p bound down := by
    rw [candidates, List.filter_cons_of_pos hmatch]
    rfl
  have hfirst := hfound.first
  rw [hcons, hposition, List.filter_cons_of_pos (by simp)] at hfirst
  exact (Option.some.inj hfirst).symm

lemma Nearest.first_of_perm (h : s.Nearest p bound down q) :
    ∃ t : Storage, s.Perm t ∧ t.nextPointer p bound down = q := by
  obtain ⟨value, hmem, hvalue⟩ := h.stored
  have hperm := List.perm_cons_erase hmem
  exact ⟨_, hperm, ((nearest_perm hperm).mp h).nextPointer_cons hvalue⟩

/-- The search gives the same pointer in whichever order the entries stand. -/
def OrderFree (s : Storage) (p bound : Int) (down : Bool) : Prop :=
  ∀ t : Storage, s.Perm t → t.nextPointer p bound down = s.nextPointer p bound down

/-- What the order of the entries can change of a search: nothing if a single pointer is nearest,
and never the token or the word position of what is found. -/
theorem orderFree_iff_nearest_unique (s : Storage) (p bound : Int) (down : Bool) :
    (s.OrderFree p bound down ↔
        ∀ q r, s.Nearest p bound down q → s.Nearest p bound down r → q = r) ∧
      ∀ t : Storage, s.Perm t →
        t.nextPointer p bound down % 2 ^ 240 = s.nextPointer p bound down % 2 ^ 240 := by
  refine ⟨⟨fun hfree q r hq hr => ?_, fun hunique t ht => ?_⟩,
    fun t ht => (nextPointer_low_bits ht p bound down).symm⟩
  · obtain ⟨t, ht, hqt⟩ := hq.first_of_perm
    obtain ⟨u, hu, hru⟩ := hr.first_of_perm
    rw [← hqt, ← hru, hfree t ht, hfree u hu]
  · by_cases hs : ∃ q, s.Accepts p bound down q
    · obtain ⟨q, hq⟩ := hs
      have hnearest := nearest_nextPointer ((accepts_perm ht).mp hq)
      exact hunique _ _ ((nearest_perm ht).mpr hnearest) (nearest_nextPointer hq)
    · rw [not_exists] at hs
      rw [nextPointer_of_none hs, nextPointer_of_none fun q hq => hs q ((accepts_perm ht).mpr hq)]

theorem order_of_entries_shows : ¬∀ s t : Storage, s.keys.Nodup → s.Perm t →
    ∀ p bound down, s.nextPointer p bound down = t.nextPointer p bound down := by
  intro h
  have hsame := h [(1, 5), (1 + 2 ^ 240, 5)] [(1 + 2 ^ 240, 5), (1, 5)] (by decide +kernel)
    (List.Perm.swap _ _ _) 0 0 false
  exact absurd hsame (by decide +kernel)

end ChainReplay.Storage
