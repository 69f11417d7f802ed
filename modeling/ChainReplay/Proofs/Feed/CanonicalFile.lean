import Mathlib.Data.Int.Order.Basic
import Mathlib.Data.List.Nodup
import ChainReplay.Proofs.Feed.Snapshot
import ChainReplay.Proofs.Wire.Writable

/-! The text that is written for storage is one and the same for every order of its entries, and
another one for other storage. -/

namespace ChainReplay

namespace Storage

variable {s t : Storage}

/-- Storage whose pointers and values are words of 256 bits. -/
structure Words (s : Storage) : Prop where
  pointer : ∀ e ∈ s, Bytes.Holds 32 e.1
  value : ∀ e ∈ s, Bytes.Holds 32 e.2
  nodup : (Table.keys s).Nodup

lemma Words.proper (h : s.Words) : s.Proper := by
  refine ⟨fun e he => ?_, h.nodup⟩
  obtain ⟨p, hp⟩ := Int.eq_ofNat_of_zero_le (h.pointer e he).1
  obtain ⟨v, hv⟩ := Int.eq_ofNat_of_zero_le (h.value e he).1
  exact ⟨p, v, Prod.ext hp hv⟩

lemma nodup_keys_perm (h : s.Perm t) (ht : (Table.keys t).Nodup) : (Table.keys s).Nodup :=
  (h.map fun e : Int × Int => e.1).nodup_iff.mpr ht

lemma Words.perm (h : t.Words) (hperm : s.Perm t) : s.Words :=
  ⟨fun e he => h.pointer e (hperm.mem_iff.mp he), fun e he => h.value e (hperm.mem_iff.mp he),
    nodup_keys_perm hperm h.nodup⟩

lemma pairwise_sorted (s : Storage) : s.sorted.Pairwise fun a b => a.1 ≤ b.1 := by
  have htrans (a b c : Int × Int) (hab : decide (a.1 ≤ b.1) = true)
      (hbc : decide (b.1 ≤ c.1) = true) : decide (a.1 ≤ c.1) = true :=
    decide_eq_true (le_trans (of_decide_eq_true hab) (of_decide_eq_true hbc))
  have htotal (a b : Int × Int) : (decide (a.1 ≤ b.1) || decide (b.1 ≤ a.1)) = true := by
    simpa using le_total a.1 b.1
  exact (List.pairwise_mergeSort htrans htotal s).imp of_decide_eq_true

lemma sorted_congr (h : s.Perm t) (ht : (Table.keys t).Nodup) : s.sorted = t.sorted := by
  have hperm : s.sorted.Perm t.sorted := s.sorted_perm.trans (h.trans t.sorted_perm.symm)
  -- The order compares pointers only: it is that of the entries as no pointer has two of them.
  have hunique : ∀ a ∈ t, ∀ b ∈ t, a.1 = b.1 → a = b := fun a ha b hb =>
    List.inj_on_of_nodup_map ht ha hb
  refine List.Perm.eq_of_pairwise (fun a b ha hb hab hba => ?_) s.pairwise_sorted t.pairwise_sorted
    hperm
  exact hunique a (t.sorted_perm.mem_iff.mp (hperm.mem_iff.mp ha)) b (t.sorted_perm.mem_iff.mp hb)
    (le_antisymm hab hba)

lemma perm_of_find? (hs : (Table.keys s).Nodup) (ht : (Table.keys t).Nodup)
    (h : s.find? = t.find?) : s.Perm t := by
  refine (List.perm_ext_iff_of_nodup (List.Nodup.of_map _ hs) (List.Nodup.of_map _ ht)).mpr ?_
  rintro ⟨p, v⟩
  rw [← Table.find?_eq_some_iff hs, ← Table.find?_eq_some_iff ht, h]

end Storage

namespace Cache

open Storage Filing

variable {s t : Storage} {d m : Disk} {path : Path}

lemma read_of_save {u : Unit} (h : outcome (save path s) d = (.ok u, m)) :
    m.read path = .ok (contentOf s) := by
  rw [save] at h
  rw [outcome_bind] at h
  rcases hmade : outcome (makeDirectory path.parent) d with ⟨e | _, d'⟩
  · rw [hmade] at h
    cases h
  · rw [hmade] at h
    exact read_of_write h

lemma exists_disk (content : Bytes) : ∃ (d : Disk) (path : Path), d.read path = .ok content :=
  ⟨⟨[([Text.ofString "cache"], content)], []⟩, ⟨.relative, ["cache"]⟩, rfl⟩

lemma serialize_eq_iff (hs : s.Proper) (ht : t.Proper) :
    serialize s = serialize t ↔ s.find? = t.find? := by
  constructor
  · intro h
    obtain ⟨d, path, hread⟩ := exists_disk (contentOf s)
    have hcontent : contentOf s = contentOf t := by rw [contentOf, h, contentOf]
    have hload := load_eq_of_read hs hread
    rw [load_eq_of_read ht (hcontent ▸ hread)] at hload
    rw [← Table.find?_perm s.sorted_perm hs.nodup, ← Except.ok.inj hload,
      Table.find?_perm t.sorted_perm ht.nodup]
  · intro h
    have hsorted := sorted_congr (perm_of_find? hs.nodup ht.nodup h) ht.nodup
    change (Json.array (s.sorted.map hexPair)).compact = (Json.array (t.sorted.map hexPair)).compact
    rw [hsorted]

/-- A file that is written for words gives the same storage back, and from that the same text. Other
storage has another text. -/
theorem canonical_file (hs : s.Words) :
    Utf8.encode? (serialize s) = some (contentOf s) ∧
      (∀ d m path u, outcome (save path s) d = (.ok u, m) → m.read path = .ok (contentOf s)) ∧
      (∃ t : Storage, t.Words ∧ t.find? = s.find? ∧ serialize t = serialize s ∧
        ∀ d path, d.read path = .ok (contentOf s) → load d path = .ok t) ∧
      ∀ t : Storage, t.Words → (serialize t = serialize s ↔ t.find? = s.find?) := by
  have hfind : s.sorted.find? = s.find? := Table.find?_perm s.sorted_perm hs.nodup
  have hsorted : s.sorted.Words := hs.perm s.sorted_perm
  refine ⟨encode?_serialize hs.proper.natural, fun d m path u => read_of_save,
    ⟨s.sorted, hsorted, hfind, ?_, fun d path => load_eq_of_read hs.proper⟩,
    fun t ht => serialize_eq_iff ht.proper hs.proper⟩
  exact (serialize_eq_iff hsorted.proper hs.proper).mpr hfind

def outOfOrder : Storage := [(5, 2 ^ 256 - 1), (2, 0)]

theorem canonical_file_of_outOfOrder : outOfOrder.Words ∧
    serialize [(2, 0), (5, 2 ^ 256 - 1)] = serialize outOfOrder ∧
    ∃ t : Storage, t.find? = outOfOrder.find? ∧ serialize t = serialize outOfOrder ∧
      load ⟨[([Text.ofString "cache"], contentOf outOfOrder)], []⟩ ⟨.relative, ["cache"]⟩ =
        .ok t := by
  have hs : outOfOrder.Words := by
    refine ⟨?_, ?_, by decide⟩ <;> simp [outOfOrder, Bytes.Holds]
  have ht : Words [(2, 0), (5, 2 ^ 256 - 1)] := hs.perm (.swap _ _ _)
  obtain ⟨-, -, ⟨t, -, hfind, htext, hload⟩, hequal⟩ := canonical_file hs
  refine ⟨hs, (hequal _ ht).mpr ?_, t, hfind, htext, hload _ _ rfl⟩
  exact Table.find?_perm (.swap _ _ _) hs.nodup

end Cache

end ChainReplay
