import Mathlib.Algebra.Order.Group.Int
import Mathlib.Data.List.Induction
import ChainReplay.Proofs.Feed.Snapshot

/-! Storage as of a height: each pointer has the value of its newest record, and of several at one
height of the earliest. So the order of other records is of no account, and storage can be brought from
a height to a later one by what was recorded in between. -/

namespace ChainReplay

/-- Of the records with its pointer that are not later than the height, this is one of the greatest
height, and the earliest of those. -/
structure Newest (records : List StateRecord) (height : Int) (r : StateRecord) : Prop where
  le : r.height ≤ height
  greatest : ∀ q ∈ records, q.pointer = r.pointer → q.height ≤ height → q.height ≤ r.height
  earliest : (records.filter fun q => q.pointer = r.pointer ∧ q.height = r.height).head? = some r

/-- These are the records in another order, but those of one pointer and height are in theirs. -/
def Rearranged (records others : List StateRecord) : Prop :=
  ∀ p n, (records.filter fun q => q.pointer = p ∧ q.height = n) =
    others.filter fun q => q.pointer = p ∧ q.height = n

lemma Rearranged.symm {records others : List StateRecord} (h : Rearranged records others) :
    Rearranged others records := fun p n => (h p n).symm

namespace Newest

variable {records others : List StateRecord} {height : Int} {r q : StateRecord}

lemma mem (h : Newest records height r) : r ∈ records :=
  (List.mem_filter.mp (List.mem_of_head? h.earliest)).1

lemma unique (hr : Newest records height r) (hq : Newest records height q)
    (hpointer : q.pointer = r.pointer) : q = r := by
  have hheight : q.height = r.height := by
    apply Int.le_antisymm
    · exact hr.greatest q hq.mem hpointer hq.le
    · exact hq.greatest r hr.mem hpointer.symm hr.le
  have hfirst := hq.earliest
  rw [hpointer, hheight, hr.earliest] at hfirst
  exact (Option.some.inj hfirst).symm

lemma rearranged (h : Newest records height r) (hsame : Rearranged records others) :
    Newest others height r where
  le := h.le
  greatest := by
    intro q hq
    apply h.greatest
    have hmem : q ∈ others.filter fun q' => q'.pointer = q.pointer ∧ q'.height = q.height := by
      simpa using hq
    rw [← hsame] at hmem
    exact (List.mem_filter.mp hmem).1
  earliest := by rw [← hsame, h.earliest]

lemma concat_of_gt (hle : q.height ≤ height)
    (h : ∀ r ∈ records, r.pointer = q.pointer → r.height ≤ height → r.height < q.height) :
    Newest (records ++ [q]) height q where
  le := hle
  greatest := by
    intro r hr hpointer hr'
    rcases List.mem_append.mp hr with hr | hr
    · exact (h r hr hpointer hr').le
    · rw [List.mem_singleton.mp hr]
  earliest := by
    have hnone : (records.filter fun r => r.pointer = q.pointer ∧ r.height = q.height) = [] := by
      apply List.filter_eq_nil_iff.mpr
      intro r hr hsame
      obtain ⟨hpointer, hheight⟩ := of_decide_eq_true hsame
      have hlt := h r hr hpointer (hheight ▸ hle)
      omega
    rw [List.filter_append, hnone]
    simp

lemma concat (hr : Newest records height r)
    (hq : q.pointer = r.pointer → q.height ≤ height → q.height ≤ r.height) :
    Newest (records ++ [q]) height r where
  le := hr.le
  greatest := by
    intro q' hq'
    rcases List.mem_append.mp hq' with hq' | hq'
    · exact hr.greatest q' hq'
    · rw [List.mem_singleton.mp hq']
      exact hq
  earliest := by rw [List.filter_append, List.head?_append, hr.earliest, Option.some_or]

end Newest

/-- What is found once the records have been read: the newest of each pointer. -/
structure Holds (records : List StateRecord) (height : Int) (found : Table Nat StateRecord) :
    Prop where
  newest : ∀ p r, found.find? p = some r → r.pointer = p ∧ Newest records height r
  complete : ∀ r ∈ records, r.height ≤ height → found.contains r.pointer = true

namespace Holds

variable {records : List StateRecord} {height : Int} {found : Table Nat StateRecord}
  {q : StateRecord}

lemma concat_of_ne (h : Holds records height found) {p : Nat} {r : StateRecord}
    (hfound : found.find? p = some r) (hp : q.pointer ≠ p) :
    r.pointer = p ∧ Newest (records ++ [q]) height r := by
  obtain ⟨hpointer, hnewest⟩ := h.newest p r hfound
  refine ⟨hpointer, hnewest.concat fun hsame => ?_⟩
  exact absurd (hsame.trans hpointer) hp

lemma pass (h : Holds records height found)
    (hq : q.height ≤ height → ∃ r, found.find? q.pointer = some r ∧ q.height ≤ r.height) :
    Holds (records ++ [q]) height found where
  newest := by
    intro p r hfound
    obtain ⟨hpointer, hnewest⟩ := h.newest p r hfound
    refine ⟨hpointer, hnewest.concat fun hsame hle => ?_⟩
    obtain ⟨r', hr', hle'⟩ := hq hle
    rw [hsame, hpointer, hfound] at hr'
    cases hr'
    exact hle'
  complete := by
    intro r hr hle
    rcases List.mem_append.mp hr with hr | hr
    · exact h.complete r hr hle
    · obtain rfl := List.mem_singleton.mp hr
      obtain ⟨r', hr', -⟩ := hq hle
      exact Table.contains_of_find? hr'

lemma insert (h : Holds records height found) (hle : q.height ≤ height)
    (hq : ∀ r, found.find? q.pointer = some r → r.height < q.height) :
    Holds (records ++ [q]) height (Table.insert q.pointer q found) where
  newest := by
    intro p r hfound
    rw [Table.find?_insert] at hfound
    split at hfound
    case isTrue hp =>
      cases hfound
      refine ⟨hp, .concat_of_gt hle fun r hr hpointer hle' => ?_⟩
      -- What is found for the pointer is not behind the record that was read before.
      obtain ⟨r', hr'⟩ := Option.isSome_iff_exists.mp (h.complete r hr hle')
      rw [hpointer] at hr'
      obtain ⟨hpointer', hnewest⟩ := h.newest _ r' hr'
      have hgreatest := hnewest.greatest r hr (hpointer.trans hpointer'.symm) hle'
      exact lt_of_le_of_lt hgreatest (hq r' hr')
    case isFalse hp => exact h.concat_of_ne hfound hp
  complete := by
    intro r hr hle'
    rw [Table.contains, Table.find?_insert]
    split
    · rfl
    case isFalse hp =>
      rcases List.mem_append.mp hr with hr | hr
      · exact h.complete r hr hle'
      · exact absurd (congrArg _ (List.mem_singleton.mp hr).symm) hp

lemma latest (h : Holds records height found) (q : StateRecord) :
    Holds (records ++ [q]) height (latest height found q) := by
  rw [ChainReplay.latest]
  split
  case isTrue hlate => exact h.pass fun hle => absurd hle (not_le.mpr hlate)
  case isFalse hlate =>
  have hle : q.height ≤ height := not_lt.mp hlate
  split
  case h_1 hnone =>
    apply h.insert hle
    intro r hr
    rw [hnone] at hr
    cases hr
  case h_2 previous hprevious =>
  split
  case isTrue hlater =>
    apply h.insert hle
    intro r hr
    rw [hprevious] at hr
    cases hr
    exact hlater
  case isFalse hlater => exact h.pass fun _ => ⟨previous, hprevious, not_lt.mp hlater⟩

end Holds

lemma holds_foldl (records : List StateRecord) (height : Int) :
    Holds records height (records.foldl (latest height) []) := by
  induction records using List.reverseRecOn with
  | nil => exact ⟨nofun, nofun⟩
  | append_singleton records q ih =>
    rw [List.foldl_append]
    exact ih.latest q

lemma find?_map_cast (found : Table Nat StateRecord) (p : Nat) :
    Table.find? (found.map fun (p, r) => ((p : Int), (r.value : Int))) (p : Int) =
      (found.find? p).map fun r => (r.value : Int) := by
  induction found with
  | nil => rfl
  | cons entry found ih =>
    rw [List.map_cons, Table.find?_cons, Table.find?_cons, ih]
    by_cases hp : entry.1 = p
    · rw [if_pos hp, if_pos (congrArg Nat.cast hp)]
      rfl
    · rw [if_neg hp, if_neg fun h => hp (Int.ofNat_inj.mp h)]

lemma find?_materialize_nat (records : List StateRecord) (height : Int) (p : Nat) (v : Int) :
    (materialize records height).find? p = some v ↔
      ∃ r, Newest records height r ∧ r.pointer = p ∧ (r.value : Int) = v := by
  have hholds := holds_foldl records height
  rw [materialize, find?_map_cast, Option.map_eq_some_iff]
  constructor
  · rintro ⟨r, hfound, hv⟩
    obtain ⟨hpointer, hnewest⟩ := hholds.newest p r hfound
    exact ⟨r, hnewest, hpointer, hv⟩
  · rintro ⟨r, hnewest, rfl, hv⟩
    obtain ⟨q, hq⟩ := Option.isSome_iff_exists.mp (hholds.complete r hnewest.mem hnewest.le)
    obtain ⟨hpointer, hnewest'⟩ := hholds.newest _ q hq
    rw [hnewest.unique hnewest' hpointer] at hq
    exact ⟨r, hq, hv⟩

lemma natural_of_mem_keys {records : List StateRecord} {height k : Int}
    (hk : k ∈ (materialize records height).keys) : ∃ p : Nat, k = p := by
  obtain ⟨e, he, rfl⟩ := List.mem_map.mp hk
  obtain ⟨p, v, rfl⟩ := (proper_materialize records height).natural e he
  exact ⟨p, rfl⟩

lemma find?_materialize (records : List StateRecord) (height k v : Int) :
    (materialize records height).find? k = some v ↔
      ∃ r, Newest records height r ∧ (r.pointer : Int) = k ∧ (r.value : Int) = v := by
  constructor
  · intro h
    obtain ⟨p, rfl⟩ := natural_of_mem_keys
      ((Table.contains_iff _ k).mp (Table.contains_of_find? h))
    obtain ⟨r, hnewest, hpointer, hv⟩ := (find?_materialize_nat records height p v).mp h
    exact ⟨r, hnewest, congrArg Nat.cast hpointer, hv⟩
  · rintro ⟨r, hnewest, rfl, hv⟩
    exact (find?_materialize_nat records height r.pointer v).mpr ⟨r, hnewest, rfl, hv⟩

lemma mem_keys_materialize (records : List StateRecord) (height k : Int) :
    k ∈ (materialize records height).keys ↔
      ∃ r ∈ records, (r.pointer : Int) = k ∧ r.height ≤ height := by
  rw [← Table.contains_iff]
  constructor
  · intro h
    obtain ⟨v, hv⟩ := Option.isSome_iff_exists.mp h
    obtain ⟨r, hnewest, hpointer, -⟩ := (find?_materialize records height k v).mp hv
    exact ⟨r, hnewest.mem, hpointer, hnewest.le⟩
  · rintro ⟨r, hr, rfl, hle⟩
    rw [Table.contains, materialize, find?_map_cast, Option.isSome_map]
    exact (holds_foldl records height).complete r hr hle

lemma find?_eq_of_newest {records others : List StateRecord} {height height' : Int}
    (h : ∀ r, Newest records height r ↔ Newest others height' r) :
    (materialize records height).find? = (materialize others height').find? := by
  funext k
  apply Option.ext
  intro v
  rw [find?_materialize, find?_materialize]
  simp only [h]

/-- What was recorded behind the first height and not behind the second one. -/
def between (low high : Int) (records : List StateRecord) : List StateRecord :=
  records.filter fun r => low < r.height ∧ r.height ≤ high

lemma filter_between {records : List StateRecord} {low high n : Int} (p : Nat) (hlow : low < n)
    (hhigh : n ≤ high) :
    ((between low high records).filter fun q => q.pointer = p ∧ q.height = n) =
      records.filter fun q => q.pointer = p ∧ q.height = n := by
  rw [between, List.filter_filter]
  apply List.filter_congr
  intro q _
  by_cases hq : q.height = n <;> simp [hq, hlow, hhigh]

lemma newest_between {records : List StateRecord} {low high : Int} {r : StateRecord} :
    Newest (between low high records) high r ↔ Newest records high r ∧ low < r.height := by
  constructor
  · intro h
    have hlow : low < r.height := by
      have hmem := List.mem_filter.mp h.mem
      simp only [decide_eq_true_eq] at hmem
      exact hmem.2.1
    refine ⟨⟨h.le, fun q hq hpointer hle => ?_, ?_⟩, hlow⟩
    · by_cases hq' : low < q.height
      · exact h.greatest q (List.mem_filter.mpr ⟨hq, by simp [hq', hle]⟩) hpointer hle
      · omega
    · rw [← filter_between r.pointer hlow h.le, h.earliest]
  · rintro ⟨h, hlow⟩
    refine ⟨h.le, fun q hq => h.greatest q (List.mem_filter.mp hq).1, ?_⟩
    rw [filter_between r.pointer hlow h.le, h.earliest]

lemma newest_low {records : List StateRecord} {low high : Int} (hle : low ≤ high)
    {r : StateRecord} (hnone : ∀ q ∈ between low high records, q.pointer ≠ r.pointer) :
    Newest records low r ↔ Newest records high r := by
  have hlow (q : StateRecord) (hq : q ∈ records) (hpointer : q.pointer = r.pointer)
      (hhigh : q.height ≤ high) : q.height ≤ low := by
    by_contra hlate
    exact hnone q (List.mem_filter.mpr ⟨hq, by simp [not_le.mp hlate, hhigh]⟩) hpointer
  constructor
  · intro h
    exact ⟨h.le.trans hle, fun q hq hp hq' => h.greatest q hq hp (hlow q hq hp hq'), h.earliest⟩
  · intro h
    exact ⟨hlow r h.mem rfl h.le, fun q hq hp hq' => h.greatest q hq hp (hq'.trans hle), h.earliest⟩

namespace Table

variable {κ α : Type} [DecidableEq κ]

lemma find?_insertAll {entries : Table κ α} (h : entries.keys.Nodup) (t : Table κ α) (k : κ) :
    (t.insertAll entries).find? k = (entries.find? k).or (t.find? k) := by
  induction entries generalizing t with
  | nil => rfl
  | cons entry entries ih =>
    obtain ⟨hnew, hrest⟩ := List.nodup_cons.mp h
    have hfold : t.insertAll (entry :: entries) = (insert entry.1 entry.2 t).insertAll entries := rfl
    rw [hfold, ih hrest, find?_insert, find?_cons]
    by_cases hk : entry.1 = k
    · have hnone : find? entries k = none := by
        rw [← contains_eq_false_iff, Bool.eq_false_iff]
        intro hin
        apply hnew
        have hmem := (contains_iff entries k).mp hin
        rwa [← hk] at hmem
      rw [if_pos hk, if_pos hk, hnone]
      rfl
    · rw [if_neg hk, if_neg hk]

end Table

lemma find?_merge_between (records : List StateRecord) {low high : Int} (hle : low ≤ high) :
    (Storage.merge (materialize records low)
      (materialize (between low high records) high)).find? = (materialize records high).find? := by
  funext k
  have hproper := proper_materialize (between low high records) high
  rw [Storage.merge, Table.find?_insertAll hproper.nodup]
  apply Option.ext
  intro v
  cases hadded : (materialize (between low high records) high).find? k with
  | some w =>
    obtain ⟨r, hnewest, rfl, rfl⟩ := (find?_materialize _ _ _ _).mp hadded
    rw [(find?_materialize records high r.pointer r.value).mpr
      ⟨r, (newest_between.mp hnewest).1, rfl, rfl⟩]
    rfl
  | none =>
    rw [Option.none_or, find?_materialize, find?_materialize]
    have hnone (q : StateRecord) (hq : q ∈ between low high records) : (q.pointer : Int) ≠ k := by
      rintro rfl
      have hkey := (mem_keys_materialize (between low high records) high q.pointer).mpr
        ⟨q, hq, rfl, (of_decide_eq_true (List.mem_filter.mp hq).2).2⟩
      rw [← Table.contains_iff, Table.contains, hadded] at hkey
      cases hkey
    refine exists_congr fun r => ?_
    constructor
    all_goals
      rintro ⟨hnewest, rfl, hv⟩
      have hnone' (q : StateRecord) (hq : q ∈ between low high records) :
          q.pointer ≠ r.pointer := fun h => hnone q hq (congrArg Nat.cast h)
    · exact ⟨(newest_low hle hnone').mp hnewest, rfl, hv⟩
    · exact ⟨(newest_low hle hnone').mpr hnewest, rfl, hv⟩

/-- The storage of a height has the pointers that were recorded up to it, each with the value of its
newest record. It is the same for any other order of the records in which those of one pointer and
height are in their order, and it is that of a lower height with what was recorded since. -/
theorem materialize_asOf (records : List StateRecord) (height : Int) :
    (∀ k, k ∈ (materialize records height).keys ↔
      ∃ r ∈ records, (r.pointer : Int) = k ∧ r.height ≤ height) ∧
    (∀ k v, (materialize records height).find? k = some v ↔
      ∃ r, Newest records height r ∧ (r.pointer : Int) = k ∧ (r.value : Int) = v) ∧
    (∀ others, Rearranged records others →
      (materialize others height).find? = (materialize records height).find?) ∧
    ∀ low ≤ height, (Storage.merge (materialize records low)
        (materialize (between low height records) height)).find? =
      (materialize records height).find? := by
  refine ⟨mem_keys_materialize records height, find?_materialize records height,
    fun others hsame => ?_, fun low hle => find?_merge_between records hle⟩
  apply find?_eq_of_newest
  intro r
  constructor
  · exact fun h => h.rearranged hsame.symm
  · exact fun h => h.rearranged hsame

/-- The second write at height ten comes too late in the file, the third one too late in the chain. -/
def writes : List StateRecord := [⟨1, 5, 10⟩, ⟨1, 6, 10⟩, ⟨2, 7, 3⟩, ⟨1, 8, 20⟩]

def rearrangedWrites : List StateRecord := [⟨1, 8, 20⟩, ⟨2, 7, 3⟩, ⟨1, 5, 10⟩, ⟨1, 6, 10⟩]

lemma rearranged_writes : Rearranged writes rearrangedWrites := by
  intro p n
  simp only [writes, rearrangedWrites, List.filter_cons, List.filter_nil, decide_eq_true_eq]
  grind

theorem materialize_asOf_writes :
    (materialize rearrangedWrites 15).find? = (materialize writes 15).find? ∧
      (Storage.merge (materialize writes 5) (materialize (between 5 15 writes) 15)).find? =
        (materialize writes 15).find? ∧
      (materialize writes 15).find? 1 = some 5 := by
  obtain ⟨-, hfind, hsame, hsince⟩ := materialize_asOf writes 15
  refine ⟨hsame _ rearranged_writes, hsince 5 (by decide), (hfind 1 5).mpr ⟨⟨1, 5, 10⟩, ?_, rfl, rfl⟩⟩
  refine ⟨by decide, ?_, rfl⟩
  simp [writes]

end ChainReplay
