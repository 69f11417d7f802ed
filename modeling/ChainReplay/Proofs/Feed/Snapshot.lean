import ChainReplay.Feed.Cache
import ChainReplay.Proofs.Disk
import ChainReplay.Proofs.Json.RoundTrip
import ChainReplay.Proofs.Table

/-! Storage in files: what is written for materialized storage is read back as the same storage. -/

namespace ChainReplay

namespace Storage

structure Proper (s : Storage) : Prop where
  natural : ∀ e ∈ s, ∃ p v : Nat, e = ((p : Int), (v : Int))
  nodup : (Table.keys s).Nodup

def sorted (s : Storage) : Storage := s.mergeSort fun a b => a.1 ≤ b.1

lemma sorted_perm (s : Storage) : s.sorted.Perm s := List.mergeSort_perm s _

end Storage

lemma nodup_keys_latest (height : Int) {found : Table Nat StateRecord} (h : found.keys.Nodup)
    (r : StateRecord) : (latest height found r).keys.Nodup := by
  rw [latest]
  split
  · exact h
  · split
    · exact Table.nodup_keys_insert h _ _
    · split
      · exact Table.nodup_keys_insert h _ _
      · exact h

lemma proper_materialize (records : List StateRecord) (height : Int) :
    (materialize records height).Proper := by
  have hfold (found : Table Nat StateRecord) (h : found.keys.Nodup) :
      (records.foldl (latest height) found).keys.Nodup := by
    induction records generalizing found with
    | nil => exact h
    | cons r records ih => exact ih _ (nodup_keys_latest height h r)
  refine ⟨fun e he => ?_, ?_⟩
  · obtain ⟨⟨p, r⟩, _, rfl⟩ := List.mem_map.mp he
    exact ⟨p, r.value, rfl⟩
  · have hkeys : (materialize records height).keys =
        (records.foldl (latest height) []).keys.map fun p : Nat => (p : Int) := by
      simp [materialize, Table.keys, List.map_map, Function.comp_def]
    rw [hkeys]
    exact List.Pairwise.map (fun p : Nat => (p : Int))
      (fun _ _ hne heq => hne (Int.ofNat_inj.mp heq)) (hfold [] List.nodup_nil)

lemma Feed.proper_load {d : Disk} {feed : Path} {height : Int} {s : Storage}
    (h : Feed.load d feed height = .ok s) : s.Proper := by
  rw [Feed.load] at h
  split at h
  · cases h
  · cases h
    exact proper_materialize _ _

namespace Cache

open Json

lemma plain_digitChar {d : Nat} (hd : d < 16) : IsPlain (Nat.digitChar d) := by
  revert d
  simp only [IsPlain]
  decide

lemma hexadecimal_plain (width n : Nat) :
    ∃ cs, Text.hexadecimal width (n : Int) = Text.ofChars cs ∧ ∀ c ∈ cs, IsPlain c := by
  obtain ⟨ds, hds, hlt, _⟩ := Text.padded_eq (by decide : 1 < 16) width n
  refine ⟨ds.map Nat.digitChar, hds, fun c hc => ?_⟩
  obtain ⟨d, hd, rfl⟩ := List.mem_map.mp hc
  exact plain_digitChar (hlt d hd)

lemma written_hexPair (p v : Nat) : ∃ cs, Written 1 cs (hexPair ((p : Int), (v : Int))) := by
  obtain ⟨cs, hp, hcs⟩ := hexadecimal_plain 64 p
  obtain ⟨ds, hv, hds⟩ := hexadecimal_plain 64 v
  rw [hexPair]
  rw [hp, hv]
  exact ⟨_, .array (.cons (.text hcs) (.cons (.text hds) .nil))⟩

lemma written_hexPairs {s : Storage} (h : ∀ e ∈ s, ∃ p v : Nat, e = ((p : Int), (v : Int))) :
    ∃ css, List.Forall₂ (Written 1) css (s.map hexPair) := by
  induction s with
  | nil => exact ⟨[], .nil⟩
  | cons e s ih =>
    obtain ⟨p, v, rfl⟩ := h e List.mem_cons_self
    obtain ⟨cs, hcs⟩ := written_hexPair p v
    obtain ⟨css, hcss⟩ := ih fun e' he' => h e' (List.mem_cons_of_mem _ he')
    exact ⟨cs :: css, .cons hcs hcss⟩

lemma entry?_hexPair (p v : Nat) :
    entry? (hexPair ((p : Int), (v : Int))) = some ((p : Int), (v : Int)) := by
  simp only [hexPair, entry?, Json.elements, hexNumber?, Numeral.hexadecimal?_hexadecimal]
  rfl

lemma parseEntries_hexPairs (path : Path) {found s : Storage}
    (h : ∀ e ∈ s, ∃ p v : Nat, e = ((p : Int), (v : Int)))
    (hnodup : (Table.keys (found ++ s : List (Int × Int))).Nodup) :
    parseEntries path found (s.map hexPair) = .ok (found ++ s) := by
  induction s generalizing found with
  | nil => rw [List.append_nil]; rfl
  | cons e s ih =>
    obtain ⟨p, v, rfl⟩ := h e List.mem_cons_self
    have hnew : (p : Int) ∉ Table.keys found := by
      intro hmem
      have hkeys : Table.keys (found ++ ((p : Int), (v : Int)) :: s : List (Int × Int)) =
          Table.keys found ++ (p : Int) :: Table.keys s := by
        simp [Table.keys]
      rw [hkeys] at hnodup
      exact (List.nodup_append.mp hnodup).2.2 _ hmem _ List.mem_cons_self rfl
    have hstore : Storage.store found p v = found ++ [((p : Int), (v : Int))] :=
      Table.insert_of_not_mem hnew _
    rw [List.map_cons, parseEntries, entry?_hexPair]
    simp only [hstore]
    rw [ih (fun e' he' => h e' (List.mem_cons_of_mem _ he')) (by simpa using hnodup)]
    simp

def contentOf (s : Storage) : Bytes := (Utf8.encode? (serialize s)).getD []

lemma exists_written {s : Storage} (h : ∀ e ∈ s, ∃ p v : Nat, e = ((p : Int), (v : Int))) :
    ∃ cs, Written 2 cs (.array (s.sorted.map hexPair)) ∧ serialize s = Text.ofChars cs := by
  obtain ⟨css, hcss⟩ := written_hexPairs fun e he => h e (s.sorted_perm.mem_iff.mp he)
  exact ⟨_, .array hcss, (Written.array hcss).compact⟩

lemma encode?_serialize {s : Storage} (h : ∀ e ∈ s, ∃ p v : Nat, e = ((p : Int), (v : Int))) :
    Utf8.encode? (serialize s) = some (contentOf s) := by
  obtain ⟨cs, hwritten, hserialize⟩ := exists_written h
  have hencode := Utf8.encode?_ascii fun c hc => (hwritten.ascii c hc).2
  rw [contentOf, hserialize, hencode]
  rfl

theorem load_eq_of_read {d : Disk} {path : Path} {s : Storage} (hs : s.Proper)
    (hread : d.read path = .ok (contentOf s)) : load d path = .ok s.sorted := by
  obtain ⟨cs, hwritten, hserialize⟩ := exists_written hs.natural
  have htext : Disk.textOf (contentOf s) = .ok cs := by
    rw [contentOf, hserialize]
    exact Disk.textOf_ascii hwritten.ascii
  have hdocument : d.document path (.format (.unreadableCache path)) =
      .ok (.array (s.sorted.map hexPair)) := by
    simp only [Disk.document, Disk.readOr_of_ok hread, bind, Except.bind, htext,
      parse_of_written hwritten (by decide)]
    rfl
  have hnodup : (Table.keys s.sorted).Nodup :=
    (s.sorted_perm.map fun e : Int × Int => e.1).nodup_iff.mpr hs.nodup
  simp only [load, hdocument, bind, Except.bind, Json.elements]
  exact parseEntries_hexPairs path (fun e he => hs.natural e (s.sorted_perm.mem_iff.mp he))
    (by simpa using hnodup)

/-- Reading a file that was written for storage gives the same storage. -/
theorem load_of_read {d : Disk} {path : Path} {s : Storage} (hs : s.Proper)
    (hread : d.read path = .ok (contentOf s)) :
    ∃ t, load d path = .ok t ∧ t.find? = s.find? :=
  ⟨s.sorted, load_eq_of_read hs hread, Table.find?_perm s.sorted_perm hs.nodup⟩

end Cache

end ChainReplay
