import Mathlib.Data.List.Infix
import ChainReplay.Proofs.Feed.Continuation

/-! Reading an array in pieces. However large they are, the records are those of the elements of the
document that the whole text holds. -/

namespace ChainReplay.Feed

open Decoding Json

variable {d : Nat} {phase : Phase} {items : List Json} {cs : List Char}

namespace Window

/-- The file can be read to its end, which has been reached if the window says so. -/
structure Sound (w : Window) : Prop where
  whole : w.source.broken = false
  ended : w.ended = true → w.source.chars = []

def text (w : Window) : List Char := w.buffer ++ w.source.chars

/-- Bounds the number of steps that remain. -/
def left (w : Window) : Nat :=
  w.buffer.length + 2 * w.source.chars.length + if w.ended then 0 else 1

end Window

lemma Source.next_eq {s : Source} (hs : s.broken = false) {size : Int} (hsize : 1 ≤ size) :
    s.next size =
      .ok (s.chars.take size.toNat, { s with chars := s.chars.drop size.toNat }) := by
  have hpositive : ¬size < 0 := by omega
  simp only [Source.next, hs, Bool.false_and, Bool.false_eq_true, if_false, if_neg hpositive]

lemma Window.refill_eq {w : Window} (hw : w.Sound) (hended : w.ended = false) {size : Int}
    (hsize : 1 ≤ size) :
    ∃ v, w.refill size = .ok v ∧ v.Sound ∧ v.text = w.text ∧ v.left < w.left := by
  let piece := w.source.chars.take size.toNat
  let chars := w.source.chars.drop size.toNat
  refine ⟨⟨w.buffer ++ piece, { w.source with chars }, piece.isEmpty⟩, ?_,
    ⟨hw.whole, fun h => ?_⟩, ?_, ?_⟩
  · rw [refill, Source.next_eq hw.whole hsize]
  · have hpiece : piece = [] := List.isEmpty_iff.mp h
    rcases List.take_eq_nil_iff.mp hpiece with hzero | hnil
    · omega
    · simp only [chars, hnil, List.drop_nil]
  · simp only [text, piece, chars, List.append_assoc, List.take_append_drop]
  · obtain ⟨k, hk⟩ : ∃ k, size.toNat = k + 1 := ⟨size.toNat - 1, by omega⟩
    simp only [left, hended, piece, chars, hk, List.length_append]
    cases w.source.chars with
    | nil => simp
    | cons c cs =>
      simp only [List.take_succ_cons, List.drop_succ_cons, List.length_cons, List.length_take,
        List.length_drop, List.isEmpty_cons, Bool.false_eq_true, if_false]
      omega

section Steps

variable {feed : Path} {size : Int} {n : Nat} {w : Window} {records : List StateRecord}

lemma closeArray_eq_iff (hsize : 1 ≤ size) {s : Source} (hs : s.broken = false)
    (hn : s.chars.length < n) {rest : List Char} :
    closeArray feed size n rest s = (records, none) ↔
      records = [] ∧ skipSpace (rest ++ s.chars) = [] := by
  induction n generalizing rest s with
  | zero => omega
  | succ n ih =>
    rw [closeArray]
    by_cases hrest : skipSpace rest = []
    case neg =>
      have happend : skipSpace (rest ++ s.chars) ≠ [] := by
        rw [skipSpace_append hrest]
        simp [hrest]
      simp [hrest, happend, stopped]
    case pos =>
      have hblanks : ∀ c ∈ rest, isSpace c = true := by
        simpa only [skipSpace, List.dropWhile_eq_nil_iff] using hrest
      rw [skipSpace_blanks_append hblanks, Source.next_eq hs hsize, hrest]
      cases hchars : s.chars with
      | nil => simp [skipSpace, eq_comm]
      | cons c cs =>
        obtain ⟨k, hk⟩ : ∃ k, size.toNat = k + 1 := ⟨size.toNat - 1, by omega⟩
        have hlength : (s.chars.drop size.toNat).length < n := by
          rw [hchars, hk, List.drop_succ_cons, List.length_drop]
          simp only [hchars, List.length_cons] at hn
          omega
        have hfollowing := @ih { s with chars := s.chars.drop size.toNat } hs hlength
          (s.chars.take size.toNat)
        rw [List.take_append_drop, hchars, hk, List.take_succ_cons] at hfollowing
        simpa [hk] using hfollowing

/-- A reader with so many steps gives the records of every text that needs no more. -/
def Faithful (feed : Path) (size : Int) (d n : Nat) : Prop :=
  ∀ ⦃phase items w⦄, w.Sound → w.left < n → Unlimited d items phase w.text → ∀ records,
    readArray feed size n phase w = (records, none) ↔ Completes d items phase w.text records

def readOn (feed : Path) (size : Int) (n : Nat) (phase : Phase) (w : Window)
    (reason : ArrayFault) : Outcome :=
  if w.ended then stopped (.format (.badArray feed reason))
  else match w.refill size with
    | .error f => stopped f
    | .ok w => readArray feed size n phase w

/-- Taking in more characters, blanks in front are left behind. -/
lemma Faithful.readOn (h : Faithful feed size d n) (hsize : 1 ≤ size) (hw : w.Sound)
    (hn : w.left ≤ n) (hlimits : Unlimited d items phase w.text) (reason : ArrayFault)
    (hincomplete : w.ended = true → ¬Completes d items phase w.buffer records) :
    readOn feed size n phase { w with buffer := skipSpace w.buffer } reason = (records, none) ↔
      Completes d items phase w.text records := by
  generalize hu : ({ w with buffer := skipSpace w.buffer } : Window) = u
  have hsound : u.Sound := hu ▸ ⟨hw.whole, hw.ended⟩
  rw [Feed.readOn]
  cases hended : u.ended with
  | true =>
    have hwEnded : w.ended = true := by rw [← hended, ← hu]
    rw [Window.text, hw.ended hwEnded, List.append_nil]
    simp [stopped, hincomplete hwEnded]
  | false =>
    obtain ⟨blanks, hbuffer, hblanks⟩ := exists_skipSpace w.buffer
    have hleads : Leads d items phase blanks items phase := leads_blanks hblanks
    have htext : w.text = blanks ++ u.text := by
      simp only [← hu, Window.text, ← List.append_assoc, ← hbuffer]
    have hshorter : u.left ≤ w.left := by
      have hlength := length_skipSpace w.buffer
      simp only [← hu, Window.left]
      omega
    obtain ⟨v, hrefill, hv, hsame, hleft⟩ := u.refill_eq hsound hended hsize
    rw [htext] at hlimits
    rw [if_neg Bool.false_ne_true, hrefill, htext, hleads.completes_iff, ← hsame]
    exact h hv (by omega) (hsame ▸ hleads.unlimited hlimits) records

lemma readArray_blank (hbuffer : skipSpace w.buffer = []) :
    readArray feed size (n + 1) phase w =
      readOn feed size n phase { w with buffer := [] } .endOfArray := by
  rw [readArray, hbuffer]
  rfl

variable {c : Char} {rest : List Char}

lemma readArray_opening (hbuffer : skipSpace w.buffer = c :: rest) :
    readArray feed size (n + 1) .opening w =
      if c = '[' then readArray feed size n .first { w with buffer := rest }
      else stopped (.format (.badArray feed (.noBracket c))) := by
  rw [readArray, hbuffer]
  rfl

lemma readArray_closing (hbuffer : skipSpace w.buffer = ']' :: rest)
    (hphase : phase = .first ∨ phase = .separator) :
    readArray feed size (n + 1) phase w =
      closeArray feed size (w.source.chars.length + 2) rest w.source := by
  rw [readArray, hbuffer]
  rcases hphase with rfl | rfl <;> rfl

lemma readArray_separator (hbuffer : skipSpace w.buffer = c :: rest) (hc : c ≠ ']') :
    readArray feed size (n + 1) .separator w =
      if c = ',' then readArray feed size n .element { w with buffer := rest }
      else stopped (.format (.badArray feed (.noSeparator c))) := by
  rw [readArray, hbuffer]
  simp [hc]

lemma readArray_element (hbuffer : skipSpace w.buffer = c :: rest)
    (hphase : Awaits phase w.buffer) :
    readArray feed size (n + 1) phase w =
      match readPrefix (c :: rest) with
      | .error .malformed => readOn feed size n phase { w with buffer := c :: rest } .badValue
      | .error e => stopped (e.failure .wrongValue)
      | .ok (document, after) =>
        if after.isEmpty && !w.ended then
          readOn feed size n phase { w with buffer := c :: rest } .badValue
        else match StateRecord.ofJson document with
          | .error f => stopped f
          | .ok r => .cons r (readArray feed size n .separator { w with buffer := after }) := by
  rw [readArray, hbuffer]
  rcases hphase with rfl | ⟨rfl, hopen⟩
  · simp only [reduceCtorEq, if_false, ne_eq, not_true, decide_false, Bool.and_false,
      Bool.false_eq_true]
    rfl
  · have hc : c ≠ ']' := by
      rintro rfl
      exact (behind_eq_none_iff _ _).mp hopen rest hbuffer
    simp only [reduceCtorEq, if_false, ne_eq, hc, decide_false, Bool.false_and, Bool.false_eq_true]
    rfl

/-- The reader of documents, where an element is due, makes the same of the characters taken in. -/
lemma reads_readPrefix (hd : d + 1 = deepest) (hphase : Awaits phase cs)
    (hlimits : ∀ e, Continues d items phase cs (.error e) → e = .malformed) :
    Reads d none (skipSpace cs) (readPrefix (skipSpace cs)) := by
  have hread : Reads (d + 1) none (skipSpace cs) (readPrefix (skipSpace cs)) :=
    hd ▸ (reads_iff _ _).mpr rfl
  rcases hread.shallower with hread | hdeep
  · exact hread
  · cases hlimits _ ((continues_iff_reads hphase).mpr (.failed rfl hdeep))

lemma Faithful.element (h : Faithful feed size d n) (hsize : 1 ≤ size) (hd : d + 1 = deepest)
    (hw : w.Sound) (hn : w.left ≤ n) (hlimits : Unlimited d items phase w.text)
    (hbuffer : skipSpace w.buffer = c :: rest) (hphase : Awaits phase w.buffer) :
    readArray feed size (n + 1) phase w = (records, none) ↔
      Completes d items phase w.text records := by
  have hfront := hlimits w.buffer (List.prefix_append ..)
  have hread := reads_readPrefix hd hphase hfront
  have htext : skipSpace w.text = skipSpace w.buffer ++ w.source.chars :=
    skipSpace_append (by rw [hbuffer]; exact List.cons_ne_nil c rest) _
  have hawaits : Awaits phase w.text := by
    refine hphase.imp_right fun ⟨hfirst, hopen⟩ => ⟨hfirst, ?_⟩
    rw [behind_eq_none_iff, hbuffer] at hopen
    rw [behind_eq_none_iff, htext, hbuffer]
    rintro after ⟨⟩
    exact hopen _ rfl
  rw [readArray_element hbuffer hphase, ← hbuffer]
  cases hfound : readPrefix (skipSpace w.buffer) with
  | error e =>
    rw [hfound] at hread
    obtain rfl := hfront e ((continues_iff_reads hphase).mpr (.failed rfl hread))
    refine h.readOn hsize hw hn hlimits _ fun _ hcomplete => ?_
    obtain ⟨v, after, record, hvalue, -⟩ := hcomplete.element hphase
    cases hvalue.unique hread
  | ok found =>
    obtain ⟨v, after⟩ := found
    rw [hfound] at hread
    dsimp only
    split
    case isTrue hmore =>
      refine h.readOn hsize hw hn hlimits _ fun hended => ?_
      simp [hended] at hmore
    case isFalse =>
      -- A document that ends within the window could be longer only as a number, and no record is one.
      have hsettled : ∀ x y record, Reads d none (skipSpace w.text) (.ok (x, y)) →
          StateRecord.ofJson x = .ok record → x = v ∧ y = after ++ w.source.chars := by
        intro x y record hx hrecord
        rw [htext] at hx
        exact hread.append_inj hx (not_isNumber_of_ofJson hrecord)
      cases hrecord : StateRecord.ofJson v with
      | error f =>
        simp only [stopped, Prod.mk.injEq, reduceCtorEq, and_false, false_iff]
        intro hcomplete
        obtain ⟨x, y, record, hx, hrecord'⟩ := hcomplete.element hawaits
        obtain ⟨rfl, -⟩ := hsettled x y record hx hrecord'
        rw [hrecord] at hrecord'
        cases hrecord'
      | ok record =>
        have hv := not_isNumber_of_ofJson hrecord
        obtain ⟨used, hused, hspells⟩ := hread.spells
        have hvalue := hspells d (Nat.le_refl d) (after ++ w.source.chars) fun _ h => absurd h hv
        rw [← List.append_assoc, ← hused, ← htext] at hvalue
        obtain ⟨front, hfront, hleads⟩ := leads_element items hawaits hvalue hv
        have hshorter : Window.left { w with buffer := after } < w.left := by
          have hlength := Nat.le_trans hread.length (length_skipSpace w.buffer)
          simp only [Window.left]
          omega
        have hrest := h (w := { w with buffer := after }) ⟨hw.whole, hw.ended⟩ (by omega)
          (hleads.unlimited (hfront ▸ hlimits))
        rw [hfront, hleads.completes_element_iff]
        constructor
        · intro hread
          obtain ⟨hrecords, hothers⟩ := Prod.mk.inj hread
          exact ⟨record, _, hrecord, hrecords.symm, (hrest _).mp (Prod.ext rfl hothers)⟩
        · rintro ⟨first, others, hfirst, rfl, hothers⟩
          cases hrecord.symm.trans hfirst
          rw [(hrest others).mpr hothers]
          rfl

theorem faithful (hsize : 1 ≤ size) (hd : d + 1 = deepest) (n : Nat) : Faithful feed size d n := by
  -- Each step takes characters up or takes more of them in, and both make less of what is left.
  induction n with
  | zero => exact fun phase items w hw hn => absurd hn (Nat.not_lt_zero _)
  | succ n ih =>
    intro phase items w hw hn hlimits records
    cases hbuffer : skipSpace w.buffer with
    | nil =>
      rw [readArray_blank hbuffer, ← hbuffer]
      refine ih.readOn hsize hw (Nat.le_of_lt_succ hn) hlimits _ fun _ hcomplete => ?_
      obtain ⟨c, rest, hfront, -⟩ := hcomplete.front
      cases hbuffer.symm.trans hfront
    | cons c rest =>
      have htext : skipSpace w.text = c :: (rest ++ w.source.chars) := by
        rw [Window.text, skipSpace_append (by simp [hbuffer]), hbuffer, List.cons_append]
      have hfollowing : Window.Sound { w with buffer := rest } := ⟨hw.whole, hw.ended⟩
      have hshorter : Window.left { w with buffer := rest } < n := by
        have hlength := length_skipSpace w.buffer
        rw [hbuffer, List.length_cons] at hlength
        simp only [Window.left] at hn ⊢
        omega
      have helement : Awaits phase w.buffer → (readArray feed size (n + 1) phase w =
          (records, none) ↔ Completes d items phase w.text records) :=
        ih.element hsize hd hw (Nat.le_of_lt_succ hn) hlimits hbuffer
      have hclosed : phase = .first ∨ phase = .separator → c = ']' →
          (readArray feed size (n + 1) phase w = (records, none) ↔
            Completes d items phase w.text records) := by
        rintro hphase rfl
        rw [readArray_closing hbuffer hphase, closeArray_eq_iff hsize hw.whole (by omega),
          completes_closing_iff hphase ((behind_eq_some_iff ..).mpr htext)]
      cases phase with
      | opening =>
        rw [readArray_opening hbuffer]
        split
        case isTrue hc =>
          obtain ⟨used, hused, hleads⟩ :=
            leads_bracket d items ((behind_eq_some_iff ..).mpr (hc ▸ htext))
          rw [hused] at hlimits ⊢
          rw [hleads.completes_iff]
          exact ih hfollowing hshorter (hleads.unlimited hlimits) records
        case isFalse hc =>
          simp only [stopped, Prod.mk.injEq, reduceCtorEq, and_false, false_iff]
          intro hcomplete
          obtain ⟨a, after, hfront, hbracket, -⟩ := hcomplete.front
          cases htext.symm.trans hfront
          exact hc (hbracket rfl)
      | first =>
        by_cases hc : c = ']'
        · exact hclosed (Or.inl rfl) hc
        · refine helement (Or.inr ⟨rfl, (behind_eq_none_iff ..).mpr fun after hafter => hc ?_⟩)
          cases hbuffer.symm.trans hafter
          rfl
      | element => exact helement (Or.inl rfl)
      | separator =>
        by_cases hc : c = ']'
        · exact hclosed (Or.inr rfl) hc
        · rw [readArray_separator hbuffer hc]
          split
          case isTrue hcomma =>
            obtain ⟨used, hused, hleads⟩ :=
              leads_comma d items ((behind_eq_some_iff ..).mpr (hcomma ▸ htext))
            rw [hused] at hlimits ⊢
            rw [hleads.completes_iff]
            exact ih hfollowing hshorter (hleads.unlimited hlimits) records
          case isFalse hcomma =>
            simp only [stopped, Prod.mk.injEq, reduceCtorEq, and_false, false_iff]
            intro hcomplete
            obtain ⟨a, after, hfront, -, hmark⟩ := hcomplete.front
            cases htext.symm.trans hfront
            exact (hmark rfl).elim hcomma hc

end Steps

/-- Whatever the size of the pieces in which an array is read, the feed is read without a failure
exactly if the whole text is an array of records, and then its records are theirs. No beginning of
the text may run into a limit of the reader. -/
theorem read_eq_iff {content : Bytes} {cs : List Char} (htext : Disk.textOf content = .ok cs)
    (hfront : (cs.dropWhile isBlank).head? = some '[') {size : Int} (hsize : 1 ≤ size)
    (hlimits : ∀ front, front <+: cs → ∀ e, parse front = .error e → e = .malformed)
    (feed : Path) (records : List StateRecord) :
    read feed content size = (records, none) ↔
      ∃ inner, parse cs = .ok (.array inner) ∧ inner.mapM StateRecord.ofJson = .ok records := by
  have hdecode : ∃ t, Utf8.decode content = .ok t ∧ Source.whole t = ⟨cs, false⟩ := by
    rw [Disk.textOf, Utf8.decode?] at htext
    cases hdecode : Utf8.decode content with
    | error fault =>
      rw [hdecode] at htext
      cases htext
    | ok t =>
      refine ⟨t, rfl, ?_⟩
      rw [hdecode, Except.toOption, Option.bind_some] at htext
      cases hchars : Text.chars? t with
      | none =>
        rw [hchars] at htext
        cases htext
      | some chars =>
        rw [hchars] at htext
        cases htext
        rw [Source.whole, hchars, Option.getD_some]
  obtain ⟨t, hdecode, hwhole⟩ := hdecode
  have hlines : Source.ofBytes content = ⟨cs, false⟩ := by rw [Source.ofBytes, hdecode]; exact hwhole
  have hpieces : Source.inPieces content size = ⟨cs, false⟩ := by
    rw [Source.inPieces, hdecode]
    exact hwhole
  obtain ⟨tail, hblanks⟩ := List.head?_eq_some_iff.mp hfront
  have hread : read feed content size =
      readArray feed size (2 * cs.length + 4) .opening ⟨[], ⟨cs, false⟩, false⟩ := by
    simp only [read, hlines, hpieces, hblanks, if_true]
  have hd : deepest - 1 + 1 = deepest := rfl
  let w : Window := ⟨[], ⟨cs, false⟩, false⟩
  have hleft : w.left < 2 * cs.length + 4 := by simp [w, Window.left]
  rw [hread, faithful hsize hd _ (w := w) ⟨rfl, nofun⟩ hleft (unlimited_opening hd hlimits)]
  exact completes_opening_iff hd records

/-- Two records, with blanks and an escape among them. -/
def spaced : Text :=
  "\n[ \x7b\"pointer\": \"AAAAAAAAAAAAAAAAAAAAAAAAAAAAAAAAAAAAAAAAAAE=\",\r\n" ++
    "\"lastSeenAt\": -12e-1\x7d,\n \x7b\"\\u0070ointer\":" ++
    "\"AAAAAAAAAAAAAAAAAAAAAAAAAAAAAAAAAAAAAAAAAAI=\",\"lastSeenAt\":\"7\"\x7d ]"

theorem read_eq_iff_spaced : ∃ content cs, Disk.textOf content = .ok cs ∧
    (cs.dropWhile isBlank).head? = some '[' ∧
    (∀ front, front <+: cs → ∀ e, parse front = .error e → e = .malformed) ∧
    ∃ inner records, parse cs = .ok (.array inner) ∧
      inner.mapM StateRecord.ofJson = .ok records ∧ records.length = 2 ∧
      read (.ofText "feed") content 3 = (records, none) := by
  let content := (Utf8.encode? spaced).getD []
  let cs := Disk.plainLines ((Text.chars? spaced).getD [])
  have htext : Disk.textOf content = .ok cs := eq_ok_of_toOption (by decide +kernel)
  have hfront : (cs.dropWhile isBlank).head? = some '[' := by decide +kernel
  have hlimits : ∀ front ∈ cs.inits, parse front ≠ .error .longNumber ∧
      parse front ≠ .error .tooDeep := by decide +kernel
  have hlimits' : ∀ front, front <+: cs → ∀ e, parse front = .error e → e = .malformed := by
    intro front hfront e he
    obtain ⟨hlong, hdeep⟩ := hlimits front ((List.mem_inits _ _).mpr hfront)
    cases e with
    | malformed => rfl
    | longNumber => exact absurd he hlong
    | tooDeep => exact absurd he hdeep
  have hread : (read (.ofText "feed") content 3).2.isNone ∧
      (read (.ofText "feed") content 3).1.length = 2 := by decide +kernel
  rcases hpair : read (.ofText "feed") content 3 with ⟨records, failure⟩
  rw [hpair] at hread
  obtain ⟨hsuccess, hlength⟩ := hread
  obtain rfl := Option.isNone_iff_eq_none.mp hsuccess
  obtain ⟨inner, hinner, hrecords⟩ :=
    (read_eq_iff htext hfront (by decide) hlimits' (.ofText "feed") records).mp hpair
  exact ⟨content, cs, htext, hfront, hlimits', inner, records, hinner, hrecords, hlength, hpair⟩

end ChainReplay.Feed
