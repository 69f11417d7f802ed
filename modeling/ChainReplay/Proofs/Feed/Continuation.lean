import ChainReplay.Feed.Stream
import ChainReplay.Proofs.Decoding
import ChainReplay.Proofs.Json.Runs

/-! An array of records, from the point of view of a reader that is somewhere in the middle of it: what
the rest of the text has to be for the whole to be a document. -/

namespace ChainReplay.Feed

open Decoding Json

/-- How a reader of documents goes on at a phase of an array, of which `items` have been read, last
one first. -/
inductive Continues (d : Nat) (items : List Json) :
    Phase → List Char → Except ReadError (Json × List Char) → Prop
  | opening {cs rest : List Char} {r : Except ReadError (Json × List Char)}
    (hbracket : behind '[' cs = some rest) (hrest : Continues d items .first rest r) :
    Continues d items .opening cs r
  | noBracket {cs : List Char} (hbracket : behind '[' cs = none) :
    Continues d items .opening cs (.error .malformed)
  | first {cs : List Char} {r : Except ReadError (Json × List Char)}
    (hclosing : behind ']' cs = none) (hrest : Reads d (some (.array items)) cs r) :
    Continues d items .first cs r
  | element {cs : List Char} {r : Except ReadError (Json × List Char)}
    (hrest : Reads d (some (.array items)) cs r) : Continues d items .element cs r
  | separator {cs rest : List Char} {r : Except ReadError (Json × List Char)}
    (hcomma : behind ',' cs = some rest) (hrest : Reads d (some (.array items)) rest r) :
    Continues d items .separator cs r
  | noSeparator {cs : List Char} (hcomma : behind ',' cs = none)
    (hclosing : behind ']' cs = none) : Continues d items .separator cs (.error .malformed)
  | closing {phase : Phase} {cs rest : List Char} (hphase : phase = .first ∨ phase = .separator)
    (hclosing : behind ']' cs = some rest) :
    Continues d items phase cs (.ok (.array items.reverse, rest))

variable {d : Nat} {phase : Phase} {items : List Json} {cs : List Char}
  {r : Except ReadError (Json × List Char)}

lemma behind_inj {a b : Char} {rest after : List Char} (ha : behind a cs = some rest)
    (hb : behind b cs = some after) : a = b ∧ rest = after := by
  rw [behind_eq_some_iff] at ha hb
  rw [ha] at hb
  cases hb
  exact ⟨rfl, rfl⟩

def Awaits (phase : Phase) (cs : List Char) : Prop :=
  phase = .element ∨ phase = .first ∧ behind ']' cs = none

lemma continues_iff_reads (hphase : Awaits phase cs) :
    Continues d items phase cs r ↔ Reads d (some (.array items)) cs r := by
  rcases hphase with rfl | ⟨rfl, hopen⟩
  · constructor
    · intro h
      cases h with
      | element hrest => exact hrest
      | closing hphase => simp at hphase
    · exact .element
  · constructor
    · intro h
      cases h with
      | first _ hrest => exact hrest
      | closing _ hclosing =>
        rw [hopen] at hclosing
        cases hclosing
    · exact .first hopen

lemma reads_items_iff {v : Json} {after : List Char}
    (hvalue : Reads d none (skipSpace cs) (.ok (v, after))) :
    Reads d (some (.array items)) cs r ↔ Continues d (v :: items) .separator after r := by
  constructor
  · intro h
    cases h with
    | noEntry hfront => cases hfront
    | failed hfront hfailed =>
      cases hfront
      cases hfailed.unique hvalue
    | next hfront hread hcomma hrest =>
      cases hfront
      cases hread.unique hvalue
      exact .separator hcomma hrest
    | last hfront hread hcomma hclosing =>
      cases hfront
      cases hread.unique hvalue
      exact .closing (Or.inr rfl) hclosing
    | stuck hfront hread hcomma hclosing =>
      cases hfront
      cases hread.unique hvalue
      exact .noSeparator hcomma hclosing
  · intro h
    cases h with
    | separator hcomma hrest => exact .next rfl hvalue hcomma hrest
    | noSeparator hcomma hclosing => exact .stuck rfl hvalue hcomma hclosing
    | closing _ hclosing =>
      exact .last (k := .array items) rfl hvalue (behind_comma_none (k := .array items) hclosing)
        hclosing

lemma Continues.extends {j : Json} {rest : List Char}
    (h : Continues d items phase cs (.ok (j, rest))) :
    ∃ more, j = .array (items.reverse ++ more) := by
  generalize hr : Except.ok (j, rest) = r at h
  induction h with
  | opening _ _ ih => exact ih hr
  | noBracket | noSeparator => cases hr
  | first _ hrest | element hrest | separator _ hrest =>
    subst hr
    exact hrest.extended
  | closing =>
    cases hr
    exact ⟨[], by rw [List.append_nil]⟩

/-- The characters lead from one phase to another, whatever follows them. -/
def Leads (d : Nat) (items : List Json) (phase : Phase) (used : List Char) (items' : List Json)
    (phase' : Phase) : Prop :=
  ∀ after r, Continues d items phase (used ++ after) r ↔ Continues d items' phase' after r

lemma leads_bracket (d : Nat) (items : List Json) {rest : List Char} (h : behind '[' cs = some rest) :
    ∃ used, cs = used ++ rest ∧ Leads d items .opening used items .first := by
  obtain ⟨c, used, rfl, -, hread⟩ := behind_local h
  refine ⟨c :: used, rfl, fun after r => ⟨fun h => ?_, .opening (hread after)⟩⟩
  cases h with
  | opening hbracket hrest =>
    cases (hread after).symm.trans hbracket
    exact hrest
  | noBracket hbracket => cases (hread after).symm.trans hbracket
  | closing hphase => simp at hphase

lemma leads_comma (d : Nat) (items : List Json) {rest : List Char} (h : behind ',' cs = some rest) :
    ∃ used, cs = used ++ rest ∧ Leads d items .separator used items .element := by
  obtain ⟨c, used, rfl, -, hread⟩ := behind_local h
  refine ⟨c :: used, rfl, fun after r => ⟨fun h => ?_, fun h => ?_⟩⟩
  · cases h with
    | separator hcomma hrest =>
      cases (hread after).symm.trans hcomma
      exact .element hrest
    | noSeparator hcomma => cases (hread after).symm.trans hcomma
    | closing _ hclosing => cases (behind_inj (hread after) hclosing).1
  · exact .separator (hread after) ((continues_iff_reads (Or.inl rfl)).mp h)

lemma leads_element (items : List Json) (hphase : Awaits phase cs) {v : Json} {after : List Char}
    (hvalue : Reads d none (skipSpace cs) (.ok (v, after))) (hv : ¬IsNumber v) :
    ∃ used, cs = used ++ after ∧ Leads d items phase used (v :: items) .separator := by
  obtain ⟨used, hskip, hspells⟩ := hvalue.spells
  obtain ⟨front, rfl, hfront⟩ := hspells.behind_blanks hskip
  obtain ⟨c, tail, rfl⟩ := List.exists_cons_of_ne_nil hspells.ne_nil
  refine ⟨front, rfl, fun ds r => ?_⟩
  have hawaits : Awaits phase (front ++ ds) := by
    refine hphase.imp_right fun ⟨hfirst, hopen⟩ => ⟨hfirst, ?_⟩
    rw [behind_eq_none_iff, hfront] at hopen ⊢
    rintro rest ⟨⟩
    exact hopen _ rfl
  have hread := hspells d (Nat.le_refl d) ds fun _ h => absurd h hv
  rw [← hfront] at hread
  rw [continues_iff_reads hawaits, reads_items_iff hread]

lemma Continues.of_skipSpace {ds : List Char} (h : Continues d items phase cs r)
    (hblanks : skipSpace cs = skipSpace ds) : Continues d items phase ds r := by
  have hbehind : ∀ c, behind c cs = behind c ds := fun c => by rw [behind, behind, hblanks]
  have hitems : ∀ r, Reads d (some (.array items)) cs r → Reads d (some (.array items)) ds r := by
    intro r hrest
    cases hrest with
    | noEntry hfront => cases hfront
    | failed hfront hvalue =>
      cases hfront
      exact .failed rfl (hblanks ▸ hvalue)
    | next hfront hvalue hcomma hrest =>
      cases hfront
      exact .next rfl (hblanks ▸ hvalue) hcomma hrest
    | last hfront hvalue hcomma hclosing =>
      cases hfront
      exact .last (k := .array items) rfl (hblanks ▸ hvalue) hcomma hclosing
    | stuck hfront hvalue hcomma hclosing =>
      cases hfront
      exact .stuck rfl (hblanks ▸ hvalue) hcomma hclosing
  cases h with
  | opening hbracket hrest => exact .opening (hbehind _ ▸ hbracket) hrest
  | noBracket hbracket => exact .noBracket (hbehind _ ▸ hbracket)
  | first hclosing hrest => exact .first (hbehind _ ▸ hclosing) (hitems r hrest)
  | element hrest => exact .element (hitems r hrest)
  | separator hcomma hrest => exact .separator (hbehind _ ▸ hcomma) hrest
  | noSeparator hcomma hclosing => exact .noSeparator (hbehind _ ▸ hcomma) (hbehind _ ▸ hclosing)
  | closing hphase hclosing => exact .closing hphase (hbehind _ ▸ hclosing)

lemma skipSpace_blanks_append {blanks : List Char} (hblanks : ∀ c ∈ blanks, isSpace c = true)
    (cs : List Char) : skipSpace (blanks ++ cs) = skipSpace cs :=
  List.dropWhile_append_of_pos hblanks

lemma leads_blanks {blanks : List Char} (hblanks : ∀ c ∈ blanks, isSpace c = true) :
    Leads d items phase blanks items phase := fun after _ =>
  have hskip := skipSpace_blanks_append hblanks after
  ⟨fun h => h.of_skipSpace hskip, fun h => h.of_skipSpace hskip.symm⟩

/-- No beginning of the text runs into a limit of the reader. -/
def Unlimited (d : Nat) (items : List Json) (phase : Phase) (cs : List Char) : Prop :=
  ∀ front, front <+: cs → ∀ e, Continues d items phase front (.error e) → e = .malformed

/-- The text completes the array, with elements that are these records. -/
def Completes (d : Nat) (items : List Json) (phase : Phase) (cs : List Char)
    (records : List StateRecord) : Prop :=
  ∃ more rest, Continues d items phase cs (.ok (.array (items.reverse ++ more), rest)) ∧
    skipSpace rest = [] ∧ more.mapM StateRecord.ofJson = .ok records

namespace Leads

variable {phase' : Phase} {used rest : List Char} {records : List StateRecord}

lemma unlimited {items' : List Json} (h : Leads d items phase used items' phase')
    (hlimits : Unlimited d items phase (used ++ rest)) : Unlimited d items' phase' rest :=
  fun front hfront e he =>
    hlimits (used ++ front) ((List.prefix_append_right_inj used).mpr hfront) e ((h front _).mpr he)

lemma completes_iff (h : Leads d items phase used items phase') :
    Completes d items phase (used ++ rest) records ↔ Completes d items phase' rest records := by
  simp only [Completes, h rest]

lemma completes_element_iff {v : Json} (h : Leads d items phase used (v :: items) phase') :
    Completes d items phase (used ++ rest) records ↔
      ∃ first others, StateRecord.ofJson v = .ok first ∧ records = first :: others ∧
        Completes d (v :: items) phase' rest others := by
  constructor
  · rintro ⟨more, after, hread, hblank, hrecords⟩
    rw [h rest] at hread
    obtain ⟨others, hothers⟩ := hread.extends
    rw [List.reverse_cons, List.append_assoc] at hothers
    obtain rfl := List.append_cancel_left (Json.array.inj hothers)
    rw [List.singleton_append, List.mapM_cons, bind_eq_ok_iff] at hrecords
    obtain ⟨first, hfirst, hrecords⟩ := hrecords
    obtain ⟨following, hfollowing, ⟨⟩⟩ := bind_eq_ok_iff.mp hrecords
    refine ⟨first, following, hfirst, rfl, others, after, ?_, hblank, hfollowing⟩
    rw [List.reverse_cons, List.append_assoc]
    exact hread
  · rintro ⟨first, others, hfirst, rfl, more, after, hread, hblank, hothers⟩
    refine ⟨v :: more, after, (h rest _).mpr ?_, hblank, ?_⟩
    · rw [List.reverse_cons, List.append_assoc] at hread
      exact hread
    · rw [List.mapM_cons, hfirst, hothers]
      rfl

end Leads

lemma not_isNumber_of_ofJson {v : Json} {record : StateRecord}
    (h : StateRecord.ofJson v = .ok record) : ¬IsNumber v := by
  intro hv
  cases v with
  | int | real => cases h
  | _ => exact hv

lemma Completes.element (hphase : Awaits phase cs) {records : List StateRecord}
    (h : Completes d items phase cs records) :
    ∃ v after record, Reads d none (skipSpace cs) (.ok (v, after)) ∧
      StateRecord.ofJson v = .ok record := by
  obtain ⟨more, rest, hread, -, hrecords⟩ := h
  have hitems := (continues_iff_reads hphase).mp hread
  have hvalue : ∃ v after, Reads d none (skipSpace cs) (.ok (v, after)) := by
    generalize hr : Except.ok (Json.array (items.reverse ++ more), rest) = r at hitems
    cases hitems with
    | noEntry | failed | stuck => cases hr
    | next hfront hvalue | last hfront hvalue =>
      cases hfront
      exact ⟨_, _, hvalue⟩
  obtain ⟨v, after, hvalue⟩ := hvalue
  obtain ⟨others, hothers⟩ := ((reads_items_iff hvalue).mp hitems).extends
  rw [List.reverse_cons, List.append_assoc] at hothers
  obtain rfl := List.append_cancel_left (Json.array.inj hothers)
  rw [List.singleton_append, List.mapM_cons, bind_eq_ok_iff] at hrecords
  obtain ⟨record, hrecord, -⟩ := hrecords
  exact ⟨v, after, record, hvalue, hrecord⟩

lemma completes_closing_iff {rest : List Char} {records : List StateRecord}
    (hphase : phase = .first ∨ phase = .separator)
    (hclosing : behind ']' cs = some rest) :
    Completes d items phase cs records ↔ records = [] ∧ skipSpace rest = [] := by
  constructor
  · rintro ⟨more, after, hread, hblank, hrecords⟩
    generalize hr : Except.ok (Json.array (items.reverse ++ more), after) = r at hread
    cases hread with
    | opening | noBracket | element => simp at hphase
    | first hopen => cases hclosing.symm.trans hopen
    | separator hcomma => cases (behind_inj hclosing hcomma).1
    | noSeparator => cases hr
    | closing _ hclosed =>
      obtain ⟨-, rfl⟩ := behind_inj hclosing hclosed
      obtain ⟨hitems, rfl⟩ := Prod.mk.inj (Except.ok.inj hr)
      obtain rfl : more = [] := by simpa using Json.array.inj hitems
      exact ⟨(Except.ok.inj hrecords).symm, hblank⟩
  · rintro ⟨rfl, hblank⟩
    refine ⟨[], rest, ?_, hblank, rfl⟩
    rw [List.append_nil]
    exact .closing hphase hclosing

/-- An array begins with its bracket, and goes on with a comma or another bracket where an element
has been read. -/
lemma Completes.front {records : List StateRecord} (h : Completes d items phase cs records) :
    ∃ c rest, skipSpace cs = c :: rest ∧ (phase = .opening → c = '[') ∧
      (phase = .separator → c = ',' ∨ c = ']') := by
  obtain ⟨more, after, hread, -⟩ := h
  generalize hr : Except.ok (Json.array (items.reverse ++ more), after) = r at hread
  cases hread with
  | opening hbracket =>
    exact ⟨'[', _, (behind_eq_some_iff ..).mp hbracket, fun _ => rfl, nofun⟩
  | noBracket | noSeparator => cases hr
  | first _ hrest | element hrest =>
    obtain ⟨c, rest, hfront⟩ := List.exists_cons_of_ne_nil (hrest.solid (by simp [← hr]))
    exact ⟨c, rest, hfront, nofun, nofun⟩
  | separator hcomma =>
    exact ⟨',', _, (behind_eq_some_iff ..).mp hcomma, nofun, fun _ => Or.inl rfl⟩
  | closing hphase hclosing =>
    refine ⟨']', _, (behind_eq_some_iff ..).mp hclosing, ?_, fun _ => Or.inr rfl⟩
    rintro rfl
    simp at hphase

lemma bracket_of_reads {after : List Char} {inner : List Json}
    (h : Reads d none cs (.ok (.array inner, after))) : ∃ rest, cs = '[' :: rest := by
  cases hopening : opening cs with
  | none =>
    have hscalar := (Reads.scalar hopening).unique h
    rw [← List.reverse_reverse inner] at hscalar
    exact absurd hscalar (readScalar_ne_value (k := .array inner.reverse))
  | some opened =>
    obtain ⟨k, inside⟩ := opened
    have hextended := h.extended_of_opening hopening
    rw [opening.eq_def] at hopening
    split at hopening
    case h_1 rest => exact ⟨rest, rfl⟩
    case h_2 =>
      cases hopening
      obtain ⟨members, hmembers⟩ := hextended
      cases hmembers
    case h_3 => cases hopening

/-- From its bracket on, an array is read like any other document. -/
lemma continues_opening_iff {rest : List Char} (h : behind '[' cs = some rest) :
    Continues d [] .opening cs r ↔ Reads (d + 1) none (skipSpace cs) r := by
  have hopening : opening ('[' :: rest) = some (.array [], rest) := rfl
  rw [(behind_eq_some_iff ..).mp h]
  constructor
  · intro hread
    cases hread with
    | opening hbracket hrest =>
      cases h.symm.trans hbracket
      cases hrest with
      | first hclosing hrest => exact .opened hopening hclosing hrest
      | closing _ hclosing => exact .empty (k := .array []) hopening hclosing
    | noBracket hbracket => cases h.symm.trans hbracket
    | closing hphase => simp at hphase
  · intro hread
    refine .opening h ?_
    generalize hfront : '[' :: rest = front at hread hopening
    cases hread with
    | scalar hnone => cases hopening.symm.trans hnone
    | empty hopened hclosing =>
      cases hopening.symm.trans hopened
      exact .closing (Or.inl rfl) hclosing
    | opened hopened hclosing hrest =>
      cases hopening.symm.trans hopened
      exact .first hclosing hrest

lemma completes_opening_iff (hd : d + 1 = deepest) (records : List StateRecord) :
    Completes d [] .opening cs records ↔
      ∃ inner, parse cs = .ok (.array inner) ∧ inner.mapM StateRecord.ofJson = .ok records := by
  simp only [parse_eq_ok_iff, ← hd]
  constructor
  · rintro ⟨inner, after, hread, hblank, hrecords⟩
    have hbracket : ∃ rest, behind '[' cs = some rest := by
      cases hread with
      | opening hbracket => exact ⟨_, hbracket⟩
      | closing hphase => simp at hphase
    obtain ⟨rest, hbracket⟩ := hbracket
    exact ⟨inner, ⟨after, (continues_opening_iff hbracket).mp hread, hblank⟩, hrecords⟩
  · rintro ⟨inner, ⟨after, hread, hblank⟩, hrecords⟩
    obtain ⟨rest, hfront⟩ := bracket_of_reads hread
    have hbracket := (behind_eq_some_iff ..).mpr hfront
    exact ⟨inner, after, (continues_opening_iff hbracket).mpr hread, hblank, hrecords⟩

lemma unlimited_opening (hd : d + 1 = deepest)
    (h : ∀ front, front <+: cs → ∀ e, parse front = .error e → e = .malformed) :
    Unlimited d [] .opening cs := by
  intro front hfront e hread
  cases hbracket : behind '[' front with
  | some rest =>
    refine h front hfront e (parse_eq_error ?_)
    rw [← hd]
    exact (continues_opening_iff hbracket).mp hread
  | none =>
    cases hread with
    | opening hopened => cases hbracket.symm.trans hopened
    | noBracket => rfl

end ChainReplay.Feed
