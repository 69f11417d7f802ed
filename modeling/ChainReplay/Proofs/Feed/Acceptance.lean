import Mathlib.Data.Nat.Digits.Defs
import ChainReplay.Proofs.Execution.Replies
import ChainReplay.Proofs.Feed.CanonicalFile
import ChainReplay.Proofs.Text.Spelling

/-! Which files are taken for storage, what they are taken for, and what is wrong with the others. A
file in the form that storage is written in gives words, and these can be sent to any contract. -/

namespace ChainReplay.Cache

open Numeral

variable {path : Path} {content : Bytes} {pair : Json} {e : Int × Int} {t : Text}

/-- It has two parts, which are hexadecimal numerals. -/
def IsEntry (pair : Json) (e : Int × Int) : Prop :=
  ∃ a b, pair.elements = .ok [.text a, .text b] ∧ Signed Hexadecimal a e.1 ∧
    Signed Hexadecimal b e.2

def TextIn (content : Bytes) (lines : List Char) : Prop :=
  ∃ cs, Utf8.encode (Text.ofChars cs) = .ok content ∧ Disk.plainLines cs = lines

/-- What reading a file comes to, by what it holds. -/
inductive Loads (path : Path) (content : Bytes) : Except Failure Storage → Prop
  | notText (h : ∀ lines, ¬ TextIn content lines) : Loads path content (.error .undecodable)
  | notJson {lines : List Char} {fault : Json.ReadError} (hlines : TextIn content lines)
    (h : Json.parse lines = .error fault) :
    Loads path content (.error (fault.failure (.format (.unreadableCache path))))
  | noParts {lines : List Char} {j : Json} (hlines : TextIn content lines)
    (hj : Json.parse lines = .ok j) (h : ∀ items, j.elements ≠ .ok items) :
    Loads path content (.error .wrongType)
  | badEntry {lines : List Char} {j pair : Json} {before after : List Json}
    {entries : List (Int × Int)} (hlines : TextIn content lines) (hj : Json.parse lines = .ok j)
    (h : j.elements = .ok (before ++ pair :: after)) (hbefore : List.Forall₂ IsEntry before entries)
    (hpair : ∀ e, ¬ IsEntry pair e) :
    Loads path content (.error (.format (.badCacheEntry path pair)))
  | entries {lines : List Char} {j : Json} {items : List Json} {entries : List (Int × Int)}
    (hlines : TextIn content lines) (hj : Json.parse lines = .ok j) (h : j.elements = .ok items)
    (hentries : List.Forall₂ IsEntry items entries) :
    Loads path content (.ok (Table.ofList entries))

/-- Sixty-four digits, large or small. -/
def HexWord (t : Text) : Prop :=
  t.length = 64 ∧ ∀ c ∈ t, c.val < 0x80 ∧ ∃ d < 16, digitValue? c = some d

/-- The file holds an array of pairs of words. -/
def Documented (content : Bytes) : Prop :=
  ∃ lines items, TextIn content lines ∧ Json.parse lines = .ok (.array items) ∧
    ∀ pair ∈ items, ∃ a b, pair = .array [.text a, .text b] ∧ HexWord a ∧ HexWord b

lemma entry?_eq_some_iff : entry? pair = some e ↔ IsEntry pair e := by
  obtain ⟨p, v⟩ := e
  constructor
  · intro h
    unfold entry? at h
    split at h
    case h_2 => cases h
    case h_1 pointer value hparts =>
      obtain ⟨p', hp, h⟩ := Option.bind_eq_some_iff.mp h
      obtain ⟨v', hv, h⟩ := Option.bind_eq_some_iff.mp h
      cases h
      cases pointer with
      | text a =>
        cases value with
        | text b =>
          exact ⟨a, b, hparts, hexadecimal?_eq_some_iff.mp hp, hexadecimal?_eq_some_iff.mp hv⟩
        | null | bool | int | real | array | object => cases hv
      | null | bool | int | real | array | object => cases hp
  · rintro ⟨a, b, hparts, hp, hv⟩
    unfold entry?
    rw [hparts]
    simp only [hexNumber?, hexadecimal?_eq_some_iff.mpr hp, hexadecimal?_eq_some_iff.mpr hv]
    rfl

lemma entry?_eq_none (h : ∀ e, ¬ IsEntry pair e) : entry? pair = none := by
  cases hpair : entry? pair with
  | none => rfl
  | some e => exact absurd (entry?_eq_some_iff.mp hpair) (h e)

lemma parseEntries_append {before : List Json} {entries : List (Int × Int)}
    (h : List.Forall₂ IsEntry before entries) (found : Storage) (after : List Json) :
    parseEntries path found (before ++ after) =
      parseEntries path (Table.insertAll found entries) after := by
  induction h generalizing found with
  | nil => rfl
  | cons hentry _ ih =>
    rw [List.cons_append, parseEntries, entry?_eq_some_iff.mpr hentry]
    exact ih _

lemma entries_or_not (items : List Json) :
    (∃ entries, List.Forall₂ IsEntry items entries) ∨
      ∃ before entries pair after, items = before ++ pair :: after ∧
        List.Forall₂ IsEntry before entries ∧ ∀ e, ¬ IsEntry pair e := by
  induction items with
  | nil => exact .inl ⟨[], .nil⟩
  | cons item items ih =>
    by_cases hitem : ∃ e, IsEntry item e
    · obtain ⟨e, he⟩ := hitem
      obtain ⟨entries, h⟩ | ⟨before, entries, pair, after, rfl, hbefore, hpair⟩ := ih
      · exact .inl ⟨e :: entries, .cons he h⟩
      · exact .inr ⟨item :: before, e :: entries, pair, after, rfl, .cons he hbefore, hpair⟩
    · exact .inr ⟨[], [], item, items, rfl, .nil, not_exists.mp hitem⟩

lemma load_eq {d : Disk} (hread : d.read path = .ok content) :
    load d path = (do
      let lines ← Disk.textOf content
      let j ← (Json.parse lines).mapError (Json.ReadError.failure (.format (.unreadableCache path)))
      parseEntries path [] (← j.elements)) := by
  simp only [load, Disk.document, Disk.readOr_of_ok hread, bind, Except.bind]
  cases Disk.textOf content with
  | error f => rfl
  | ok lines => cases Json.parse lines <;> rfl

lemma elements_eq_wrongType {j : Json} (h : ∀ items, j.elements ≠ .ok items) :
    j.elements = .error .wrongType := by
  cases j with
  | null | bool | int | real => rfl
  | text | array | object => exact absurd rfl (h _)

lemma Loads.load_eq {d : Disk} {r : Except Failure Storage} (h : Loads path content r)
    (hread : d.read path = .ok content) : load d path = r := by
  rw [Cache.load_eq hread]
  cases h with
  | notText h =>
    have hnone : ∀ cs, Utf8.encode (Text.ofChars cs) ≠ .ok content := fun cs hcs =>
      h _ ⟨cs, hcs, rfl⟩
    rw [Disk.textOf_eq_error_iff.mpr ⟨rfl, hnone⟩]
    rfl
  | notJson hlines h =>
    simp only [Disk.textOf_eq_ok_iff.mpr hlines, bind, Except.bind, h]
    rfl
  | noParts hlines hj h =>
    simp only [Disk.textOf_eq_ok_iff.mpr hlines, bind, Except.bind, hj, Except.mapError,
      elements_eq_wrongType h]
  | badEntry hlines hj h hbefore hpair =>
    simp only [Disk.textOf_eq_ok_iff.mpr hlines, bind, Except.bind, hj, Except.mapError, h,
      parseEntries_append hbefore, parseEntries, entry?_eq_none hpair]
  | @entries lines j items entries hlines hj h hentries =>
    have hall : parseEntries path [] (items ++ []) =
        parseEntries path (Table.insertAll [] entries) [] := parseEntries_append hentries [] []
    rw [List.append_nil] at hall
    simp only [Disk.textOf_eq_ok_iff.mpr hlines, bind, Except.bind, hj, Except.mapError, h, hall]
    rfl

lemma exists_loads (path : Path) (content : Bytes) : ∃ r, Loads path content r := by
  by_cases htext : ∃ lines, TextIn content lines
  · obtain ⟨lines, hlines⟩ := htext
    cases hj : Json.parse lines with
    | error fault => exact ⟨_, .notJson hlines hj⟩
    | ok j =>
      by_cases hparts : ∃ items, j.elements = .ok items
      · obtain ⟨items, hitems⟩ := hparts
        obtain ⟨entries, h⟩ | ⟨before, entries, pair, after, rfl, hbefore, hpair⟩ :=
          entries_or_not items
        · exact ⟨_, .entries hlines hj hitems h⟩
        · exact ⟨_, .badEntry hlines hj hitems hbefore hpair⟩
      · exact ⟨_, .noParts hlines hj (not_exists.mp hparts)⟩
  · exact ⟨_, .notText (not_exists.mp htext)⟩

theorem load_eq_iff {d : Disk} {r : Except Failure Storage} (hread : d.read path = .ok content) :
    load d path = r ↔ Loads path content r := by
  refine ⟨?_, fun h => h.load_eq hread⟩
  rintro rfl
  obtain ⟨r, hr⟩ := exists_loads path content
  rw [hr.load_eq hread]
  exact hr

lemma HexWord.exists_signed (h : HexWord t) : ∃ n, Bytes.Holds 32 n ∧ Signed Hexadecimal t n := by
  obtain ⟨hlength, hdigits⟩ := h
  have hne : t ≠ [] := by
    rintro rfl
    cases hlength
  obtain ⟨n, hn, hdigits⟩ := exists_digits hne fun c hc => (hdigits c hc).2
  rw [hlength] at hn
  have hsigned : Signed Hexadecimal ([] ++ t ++ []) n := .plain (by simp) (by simp) (.bare hdigits)
  rw [List.nil_append, List.append_nil] at hsigned
  refine ⟨n, ⟨Int.natCast_nonneg n, ?_⟩, hsigned⟩
  calc (n : Int) < ((16 ^ 64 : Nat) : Int) := Int.ofNat_lt.mpr hn
    _ = 256 ^ 32 := by norm_num

lemma words_ofList {entries : List (Int × Int)}
    (h : ∀ e ∈ entries, Bytes.Holds 32 e.1 ∧ Bytes.Holds 32 e.2) :
    Storage.Words (Table.ofList entries) := by
  have hmem (e : Int × Int) (he : e ∈ Table.ofList entries) : e ∈ entries :=
    (Table.mem_of_mem_insertAll he).resolve_left List.not_mem_nil
  exact ⟨fun e he => (h e (hmem e he)).1, fun e he => (h e (hmem e he)).2,
    Table.nodup_keys_insertAll (t := []) List.nodup_nil entries⟩

lemma exists_entries {items : List Json}
    (h : ∀ pair ∈ items, ∃ a b, pair = .array [.text a, .text b] ∧ HexWord a ∧ HexWord b) :
    ∃ entries, List.Forall₂ IsEntry items entries ∧
      ∀ e ∈ entries, Bytes.Holds 32 e.1 ∧ Bytes.Holds 32 e.2 := by
  induction items with
  | nil => exact ⟨[], .nil, nofun⟩
  | cons item items ih =>
    obtain ⟨⟨a, b, rfl, ha, hb⟩, hitems⟩ := List.forall_mem_cons.mp h
    obtain ⟨entries, hentries, hwords⟩ := ih hitems
    obtain ⟨p, hp, hap⟩ := ha.exists_signed
    obtain ⟨v, hv, hbv⟩ := hb.exists_signed
    exact ⟨(p, v) :: entries, .cons ⟨a, b, rfl, hap, hbv⟩ hentries,
      List.forall_mem_cons.mpr ⟨⟨hp, hv⟩, hwords⟩⟩

lemma hexWord_hexadecimal {n : Int} (hn : Bytes.Holds 32 n) : HexWord (Text.hexadecimal 64 n) := by
  obtain ⟨p, rfl⟩ := Int.eq_ofNat_of_zero_le hn.1
  have hp : p < 16 ^ 64 := by
    have hlt : (p : Int) < ((16 ^ 64 : Nat) : Int) := by simpa using hn.2
    exact Int.ofNat_lt.mp hlt
  constructor
  · have hdigits := Nat.toDigits_length 16 p 64 (by decide) hp
    change (Text.padded 16 64 p).length = 64
    simp only [Text.padded, Text.ofChars, List.length_map, List.length_append,
      List.length_replicate]
    omega
  · obtain ⟨ds, hds, hlt, -⟩ := Text.padded_eq (by decide : 1 < 16) 64 p
    have hascii : ∀ d < 16, (CodePoint.ofChar (Nat.digitChar d)).val < 0x80 := by decide
    change ∀ c ∈ Text.padded 16 64 p, _
    rw [hds, Text.ofChars]
    simp only [List.forall_mem_map]
    exact fun d hd => ⟨hascii d (hlt d hd), d, hlt d hd, digitValue?_digitChar (hlt d hd)⟩

/-- What is written for words has the form that is read. -/
theorem documented_contentOf {s : Storage} (hs : s.Words) : Documented (contentOf s) := by
  obtain ⟨cs, hwritten, hserialize⟩ := exists_written hs.proper.natural
  have htext : Disk.textOf (contentOf s) = .ok cs := by
    rw [contentOf, hserialize]
    exact Disk.textOf_ascii hwritten.ascii
  refine ⟨cs, _, Disk.textOf_eq_ok_iff.mp htext, Json.parse_of_written hwritten (by decide), ?_⟩
  intro pair hpair
  obtain ⟨e, he, rfl⟩ := List.mem_map.mp hpair
  have hmem := s.sorted_perm.mem_iff.mp he
  exact ⟨_, _, rfl, hexWord_hexadecimal (hs.pointer e hmem), hexWord_hexadecimal (hs.value e hmem)⟩

/-- A file is taken for storage exactly if it is a document with hexadecimal pairs as its parts. If
these are words, every reply about the storage can be sent. -/
theorem load_admits {d : Disk} (hread : d.read path = .ok content) :
    (∀ r, load d path = r ↔ Loads path content r) ∧
      (Documented content → ∃ s, load d path = .ok s ∧ s.Words ∧ Host.Serves s) := by
  refine ⟨fun r => load_eq_iff hread, ?_⟩
  rintro ⟨lines, items, hlines, hj, hpairs⟩
  obtain ⟨entries, hentries, hwords⟩ := exists_entries hpairs
  have hs := words_ofList hwords
  exact ⟨_, (load_eq_iff hread).mpr (.entries hlines hj rfl hentries), hs,
    Host.serves_of_words hs.pointer hs.value⟩

def twoWords : Storage := [(2 ^ 256 - 1, 5), (0, 1)]

lemma words_twoWords : twoWords.Words := by
  refine ⟨?_, ?_, by decide⟩ <;> simp [twoWords, Bytes.Holds]

theorem load_admits_twoWords :
    Documented (contentOf twoWords) ∧
      ∃ s, load ⟨[([Text.ofString "cache"], contentOf twoWords)], []⟩ ⟨.relative, ["cache"]⟩ =
        .ok s ∧ s.Words ∧ Host.Serves s := by
  have hdocumented := documented_contentOf words_twoWords
  exact ⟨hdocumented, (load_admits rfl).2 hdocumented⟩

def looseDocument : Json := .array [.array [.text "-1", .text "0x1_0"]]

def looseLines : List Char := "[[\"-1\", \"0x1_0\"]]".toList

lemma parse_looseLines : Json.parse looseLines = .ok looseDocument := by
  have ha : Json.Written 0 _ (.text "-1") := .text (by simp [Json.IsPlain])
  have hb : Json.Written 0 _ (.text "0x1_0") := .text (by simp [Json.IsPlain])
  have hpair := Json.Written.array (.cons ha (.cons hb .nil))
  exact Json.parse_of_written (.array (.cons hpair .nil)) (by decide)

lemma textOf_looseLines : Disk.textOf (Utf8.asciiBytes looseLines) = .ok looseLines := by
  -- A quantifier over characters would be decided by going through all that there are.
  have hall : looseLines.all (fun c => 0x20 ≤ c.toNat ∧ c.toNat < 0x80) = true := by decide +kernel
  exact Disk.textOf_asciiBytes fun c hc => of_decide_eq_true (List.all_eq_true.mp hall c hc)

theorem loose_file_is_taken :
    load ⟨[([Text.ofString "c.json"], Utf8.asciiBytes looseLines)], []⟩ ⟨.relative, ["c.json"]⟩ =
        .ok [(-1, 16)] ∧
      ¬ Documented (Utf8.asciiBytes looseLines) ∧ ¬ Host.Serves [(-1, 16)] := by
  refine ⟨?_, ?_, ?_⟩
  · rw [load_eq rfl, textOf_looseLines]
    simp only [bind, Except.bind, parse_looseLines]
    rfl
  · rintro ⟨lines, items, hlines, hj, hpairs⟩
    cases (Disk.textOf_eq_ok_iff.mpr hlines).symm.trans textOf_looseLines
    cases hj.symm.trans parse_looseLines
    obtain ⟨a, b, hpair, ha, -⟩ := hpairs _ List.mem_cons_self
    cases hpair
    cases ha.1
  · intro hserves
    have hnext := ((Host.serves_iff _).mp hserves).2 (2 ^ 240 - 1) 0 true
      ⟨by decide, by decide⟩ ⟨by decide, by decide⟩
    have hfound : Storage.nextPointer [(-1, 16)] (2 ^ 240 - 1) 0 true = -1 := by decide +kernel
    rw [hfound] at hnext
    exact absurd hnext.1 (by decide)

end ChainReplay.Cache
