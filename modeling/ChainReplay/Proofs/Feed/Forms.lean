import ChainReplay.Proofs.Feed.Progress

/-! The same records as one array and one on each line. Both readers deliver the records of the
documents that a feed holds, up to the first that is no record. There is one exception: where a
piece of an array ends inside a number, its digits so far may be more than an integer can have,
though the whole number is a fraction. -/

namespace ChainReplay.Feed

open Decoding Json

/-- The records of the documents, up to the first that is no record. -/
def Outcome.ofDocuments : List Json → Outcome
  | [] => ([], none)
  | document :: rest =>
    match StateRecord.ofJson document with
    | .error f => stopped f
    | .ok r => .cons r (ofDocuments rest)

/-- The outcome is that of the documents, or it breaks off earlier, which takes a cut. -/
inductive Settles (cut : Prop) (documents : List Json) : Outcome → Prop
  | complete : Settles cut documents (.ofDocuments documents)
  | brokenOff (h : cut) (n : Nat) :
    Settles cut documents ((Outcome.ofDocuments documents).1.take n, some .wrongValue)

section Follows

variable {π : Type} {stands : List Json → π → Prop} {cut : Prop} {documents : List Json}
  {move : π → Move π} {p q : π} {o : Outcome}

/-- A move from where the documents are yet to be delivered. -/
inductive Follows (stands : List Json → π → Prop) (cut : Prop) : List Json → Move π → Prop
  | finish : Follows stands cut [] (.stop none)
  | brokenOff {documents : List Json} (h : cut) :
    Follows stands cut documents (.stop (some .wrongValue))
  | go {documents : List Json} {q : π} (h : stands documents q) :
    Follows stands cut documents (.go q)
  | refuse {document : Json} {documents : List Json} {f : Failure}
    (h : StateRecord.ofJson document = .error f) :
    Follows stands cut (document :: documents) (.stop (some f))
  | deliver {document : Json} {documents : List Json} {r : StateRecord} {q : π}
    (h : StateRecord.ofJson document = .ok r) (hrest : stands documents q) :
    Follows stands cut (document :: documents) (.emit r q)

lemma Follows.of_deliver {document : Json} (h : stands documents q) :
    Follows stands cut (document :: documents) (Feed.deliver document q) := by
  rw [Feed.deliver]
  cases hread : StateRecord.ofJson document with
  | error f => exact .refuse hread
  | ok r => exact .deliver hread h

lemma Settles.cons {document : Json} {r : StateRecord} (hr : StateRecord.ofJson document = .ok r)
    (h : Settles cut documents o) : Settles cut (document :: documents) (.cons r o) := by
  have hcons : Outcome.ofDocuments (document :: documents) = .cons r (.ofDocuments documents) := by
    rw [Outcome.ofDocuments, hr]
  cases h with
  | complete => exact hcons ▸ .complete
  | brokenOff hcut n =>
    have hbroken : Settles cut (document :: documents) _ := .brokenOff hcut (n + 1)
    rw [hcons, Outcome.cons, List.take_succ_cons] at hbroken
    exact hbroken

/-- If every move delivers the next document, a run delivers them all. -/
lemma Runs.settles
    (hmove : ∀ documents p, stands documents p → Follows stands cut documents (move p))
    (h : Runs move p o) (hp : stands documents p) : Settles cut documents o := by
  induction h generalizing documents with
  | stop h =>
    have hfollows := hmove documents _ hp
    rw [h] at hfollows
    cases hfollows with
    | finish => exact .complete
    | brokenOff hcut => exact .brokenOff hcut 0
    | refuse hread =>
      rename_i document documents f
      have hstopped : Outcome.ofDocuments (document :: documents) = ([], some f) := by
        rw [Outcome.ofDocuments, hread]
        rfl
      exact hstopped ▸ .complete
  | go h _ ih =>
    have hfollows := hmove documents _ hp
    rw [h] at hfollows
    cases hfollows with
    | go hq => exact ih hq
  | emit h _ ih =>
    have hfollows := hmove documents _ hp
    rw [h] at hfollows
    cases hfollows with
    | deliver hread hrest => exact (ih hrest).cons hread

end Follows

section Lines

variable {feed : Path} {documents : List Json}

/-- The lines that are not blank hold the documents. -/
def Lined (lines : List (List Char)) (documents : List Json) : Prop :=
  (∀ line ∈ lines, '\n' ∉ line) ∧
    List.Forall₂ (fun line document => parse line = .ok document)
      (lines.filter (!·.all isBlank)) documents

inductive LinesStand (documents : List Json) : LinePlace → Prop
  | lines {lines : List (List Char)} {number : Nat} (h : Lined lines documents) :
    LinesStand documents (.line number (['\n'].intercalate lines))
  | done (h : documents = []) : LinesStand documents .done

lemma splitLine_end {line : List Char} (hline : '\n' ∉ line) : splitLine line = (line, none) := by
  obtain ⟨front, rest, -, rfl⟩ | h := append_splitLine line
  · simp at hline
  · exact h

lemma splitLine_append {line : List Char} (hline : '\n' ∉ line) (rest : List Char) :
    splitLine (line ++ '\n' :: rest) = (line, some rest) := by
  have htake : (line ++ '\n' :: rest).takeWhile (· != '\n') = line := by
    have hkept : ∀ c ∈ line, (c != '\n') = true := by
      intro c hc
      rw [bne_iff_ne]
      rintro rfl
      exact hline hc
    simp [List.takeWhile_append_of_pos hkept]
  simp only [splitLine, htake, List.drop_left]

lemma Lined.tail {line : List Char} {lines : List (List Char)} {documents : List Json}
    (h : Lined (line :: lines) documents) :
    line.all isBlank = true ∧ Lined lines documents ∨
      line.all isBlank = false ∧ ∃ document rest, documents = document :: rest ∧
        parse line = .ok document ∧ Lined lines rest := by
  obtain ⟨hlines, hdocuments⟩ := h
  have htail := List.forall_mem_of_forall_mem_cons hlines
  cases hblank : line.all isBlank with
  | true =>
    rw [List.filter_cons_of_neg (by simp [hblank])] at hdocuments
    exact .inl ⟨rfl, htail, hdocuments⟩
  | false =>
    rw [List.filter_cons_of_pos (by simp [hblank])] at hdocuments
    cases hdocuments with
    | cons hparse hrest => exact .inr ⟨rfl, _, _, rfl, hparse, htail, hrest⟩

lemma follows_takeLine {line : List Char} {lines : List (List Char)} {number : Nat}
    {next : LinePlace} (h : Lined (line :: lines) documents)
    (hnext : ∀ rest, Lined lines rest → LinesStand rest next) :
    Follows LinesStand False documents (LinePlace.takeLine feed number line next) := by
  have hall : (Text.ofChars line).all Text.isBlank = line.all isBlank := by
    rw [Text.ofChars, List.all_map]
    rfl
  rw [LinePlace.takeLine, hall]
  obtain ⟨hblank, hrest⟩ | ⟨hsolid, document, rest, rfl, hparse, hrest⟩ := h.tail
  · rw [if_pos hblank]
    exact .go (hnext _ hrest)
  · rw [hsolid, if_neg Bool.false_ne_true, hparse]
    exact .of_deliver (hnext rest hrest)

lemma Lined.nil (h : Lined [] documents) : documents = [] :=
  List.forall₂_nil_left_iff.mp h.2

lemma follows_line (documents : List Json) (p : LinePlace) (h : LinesStand documents p) :
    Follows LinesStand False documents (p.move feed false) := by
  cases h with
  | done h => exact h ▸ .finish
  | @lines lines number hlined =>
    have hdone : ∀ rest, Lined [] rest → LinesStand rest .done := fun rest hrest => .done hrest.nil
    rw [LinePlace.move]
    rcases lines with _ | ⟨line, _ | ⟨next, lines⟩⟩
    · have hempty : Lined [[]] documents := ⟨by simp, hlined.2⟩
      change Follows _ _ _ (LinePlace.takeLine feed number [] .done)
      exact follows_takeLine hempty hdone
    · rw [List.intercalate_singleton, splitLine_end (hlined.1 line List.mem_cons_self)]
      exact follows_takeLine hlined hdone
    · rw [List.intercalate_cons_cons, List.append_assoc, List.singleton_append,
        splitLine_append (hlined.1 line List.mem_cons_self)]
      exact follows_takeLine hlined fun rest hrest => .lines hrest

end Lines

section Array

/-- What remains of the text of an array at a phase, with objects that are these documents. -/
inductive Rest (texts : List (List Char)) : Phase → List Json → List Char → Prop
  | opening {documents : List Json} {cs rest : List Char} (hcs : skipSpace cs = '[' :: rest)
    (hrest : Rest texts .first documents rest) : Rest texts .opening documents cs
  | first {documents : List Json} {cs : List Char} (h : Rest texts .element documents cs) :
    Rest texts .first documents cs
  | element {text following : List Char} {members : List (Text × Json)} {documents : List Json}
    {cs : List Char} (htext : text ∈ texts) (hcs : skipSpace cs = skipSpace text ++ following)
    (hparse : parse text = .ok (.object members))
    (hrest : Rest texts .separator documents following) :
    Rest texts .element (.object members :: documents) cs
  | next {documents : List Json} {cs rest : List Char} (hcs : skipSpace cs = ',' :: rest)
    (hrest : Rest texts .element documents rest) : Rest texts .separator documents cs
  | closing {phase : Phase} {cs rest : List Char} (hphase : phase = .first ∨ phase = .separator)
    (hcs : skipSpace cs = ']' :: rest) (hblank : skipSpace rest = []) : Rest texts phase [] cs

/-- A beginning of an element has more digits than an integer can have. -/
def Cut (texts : List (List Char)) : Prop :=
  ∃ text ∈ texts, ∃ beginning, beginning <+: text ∧ parse beginning = .error .longNumber

inductive Stands (texts : List (List Char)) (documents : List Json) : ArrayPlace → Prop
  | window {phase : Phase} {w : Window} (hw : w.Sound) (h : Rest texts phase documents w.text) :
    Stands texts documents (.window phase w)
  | behind {rest : List Char} {source : Source} (hwhole : source.broken = false)
    (hblank : skipSpace (rest ++ source.chars) = []) (hdocuments : documents = []) :
    Stands texts documents (.behind rest source)

variable {feed : Path} {size : Int} {texts : List (List Char)} {phase : Phase}
  {documents : List Json} {cs ds : List Char} {w : Window}

lemma skipSpace_skipSpace (cs : List Char) : skipSpace (skipSpace cs) = skipSpace cs :=
  have hnone : ∀ c ∈ ([] : List Char), isSpace c = true := by simp
  skipSpace_blanks hnone (ends_dropWhile isSpace cs)

lemma brace_of_reads {d : Nat} {members : List (Text × Json)} {after : List Char}
    (h : Reads d none cs (.ok (.object members, after))) : ∃ rest, cs = '\x7b' :: rest := by
  cases hopening : opening cs with
  | none =>
    have hscalar := (Reads.scalar hopening).unique h
    exact absurd hscalar (readScalar_ne_value (k := .object members))
  | some opened =>
    obtain ⟨k, inside⟩ := opened
    have hextended := h.extended_of_opening hopening
    rw [opening.eq_def] at hopening
    split at hopening
    case h_1 =>
      cases hopening
      obtain ⟨more, hmore⟩ := hextended
      cases hmore
    case h_2 rest => exact ⟨rest, rfl⟩
    case h_3 => cases hopening

/-- The text of an object: what it takes up is read as that object whatever follows. -/
lemma exists_spells {text : List Char} {members : List (Text × Json)}
    (h : parse text = .ok (.object members)) :
    ∃ used blanks, skipSpace text = used ++ blanks ∧ (∀ c ∈ blanks, isSpace c = true) ∧
      (∃ inside, used = '\x7b' :: inside) ∧
      ∀ rest, Reads deepest none (used ++ rest) (.ok (.object members, rest)) := by
  obtain ⟨blanks, hread, hblanks⟩ := parse_eq_ok_iff.mp h
  obtain ⟨used, hused, hspells⟩ := hread.spells
  have hspelt : ∀ rest, Reads deepest none (used ++ rest) (.ok (.object members, rest)) :=
    fun rest => hspells deepest (Nat.le_refl _) rest fun _ => False.elim
  refine ⟨used, blanks, hused, by simpa only [skipSpace, List.dropWhile_eq_nil_iff] using hblanks,
    ?_, hspelt⟩
  have hbare := hspelt []
  rw [List.append_nil] at hbare
  exact brace_of_reads hbare

namespace Rest

lemma of_skipSpace (h : Rest texts phase documents cs) (hds : skipSpace ds = skipSpace cs) :
    Rest texts phase documents ds := by
  induction h with
  | opening hcs hrest => exact .opening (hds.trans hcs) hrest
  | first _ ih => exact .first (ih hds)
  | element htext hcs hparse hrest => exact .element htext (hds.trans hcs) hparse hrest
  | next hcs hrest => exact .next (hds.trans hcs) hrest
  | closing hphase hcs hblank => exact .closing hphase (hds.trans hcs) hblank

lemma brace (h : Rest texts .element documents cs) : ∃ rest, skipSpace cs = '\x7b' :: rest := by
  cases h with
  | element _ hcs hparse =>
    obtain ⟨used, blanks, hused, -, ⟨inside, rfl⟩, -⟩ := exists_spells hparse
    rw [hused] at hcs
    exact ⟨_, hcs⟩
  | closing hphase => simp at hphase

lemma solid (h : Rest texts phase documents cs) : skipSpace cs ≠ [] := by
  induction h with
  | opening hcs | next hcs | closing _ hcs => simp [hcs]
  | first _ ih => exact ih
  | element htext hcs hparse hrest =>
    obtain ⟨rest, hfront⟩ := (element htext hcs hparse hrest).brace
    simp [hfront]

lemma of_elements {back : List Char} (hback : skipSpace back = []) {others : List (List Char)}
    (hne : others ≠ []) (hothers : others ⊆ texts)
    (h : List.Forall₂ (fun text document => parse text = .ok document) others documents)
    (hobjects : ∀ document ∈ documents, ∃ members, document = .object members) :
    Rest texts .element documents ([','].intercalate others ++ ']' :: back) := by
  induction h with
  | nil => exact absurd rfl hne
  | @cons text document others documents hparse hrest ih =>
    obtain ⟨members, rfl⟩ := hobjects document List.mem_cons_self
    obtain ⟨used, blanks, hused, -, ⟨inside, rfl⟩, -⟩ := exists_spells hparse
    have hsolid : skipSpace text ≠ [] := by simp [hused]
    have hmem := hothers List.mem_cons_self
    cases others with
    | nil =>
      cases hrest
      rw [List.intercalate_singleton]
      exact .element hmem (skipSpace_append hsolid _) hparse (.closing (.inr rfl) rfl hback)
    | cons next others =>
      rw [List.intercalate_cons_cons, List.append_assoc, List.append_assoc]
      exact .element hmem (skipSpace_append hsolid _) hparse <| .next rfl <|
        ih (List.cons_ne_nil next others) (fun _ h => hothers (List.mem_cons_of_mem _ h))
          fun _ h => hobjects _ (List.mem_cons_of_mem _ h)

end Rest

lemma Window.text_skipSpace (hsolid : skipSpace w.buffer ≠ []) :
    ({ w with buffer := skipSpace w.buffer } : Window).text = skipSpace w.text := by
  rw [Window.text, Window.text, skipSpace_append hsolid]

lemma follows_takeMore (hsize : 1 ≤ size) (hw : w.Sound) (h : Rest texts phase documents w.text)
    (hended : w.ended = false) (reason : ArrayFault) :
    Follows (Stands texts) (Cut texts) documents
      (ArrayPlace.takeMore feed size phase w reason) := by
  obtain ⟨v, hrefill, hv, htext, -⟩ := Window.refill_eq hw hended hsize
  rw [ArrayPlace.takeMore, hended, if_neg Bool.false_ne_true, hrefill]
  exact .go (.window hv (htext ▸ h))

lemma follows_takeElement (hsize : 1 ≤ size) (hw : w.Sound) (hne : w.buffer ≠ [])
    (hbuffer : skipSpace w.buffer = w.buffer) (hphase : Rest texts phase documents w.text)
    (h : Rest texts .element documents w.text) :
    Follows (Stands texts) (Cut texts) documents
      (ArrayPlace.takeElement feed size phase w) := by
  have htext : skipSpace w.text = w.text := by
    rw [Window.text, skipSpace_append (by rw [hbuffer]; exact hne), hbuffer]
  have hwhole : w.ended = true → w.text = w.buffer := fun hended => by
    rw [Window.text, hw.ended hended, List.append_nil]
  cases h with
  | closing hclosed => simp at hclosed
  | @element text following members documents _ hmem hcs hparse hrest =>
    obtain ⟨used, blanks, hused, hblanks, -, hspelt⟩ := exists_spells hparse
    have hfull : Reads deepest none w.text (.ok (.object members, blanks ++ following)) := by
      rw [← htext, hcs, hused, List.append_assoc]
      exact hspelt _
    rw [ArrayPlace.takeElement]
    cases hread : readPrefix w.buffer with
    | error e =>
      have hfront : Reads deepest none w.buffer (.error e) := (reads_iff _ _).mpr hread
      cases e with
      | malformed =>
        refine follows_takeMore hsize hw hphase (Bool.eq_false_iff.mpr fun hended => ?_) _
        cases (hwhole hended ▸ hfull).unique hfront
      | tooDeep => cases hfull.unique (hfront.tooDeep_append w.source.chars)
      | longNumber =>
        refine .brokenOff ⟨text, hmem, ?_⟩
        -- An element that has been taken in as a whole is read, so only a part of it has been.
        have hprefix : w.buffer <+: skipSpace text := by
          have htaken : w.buffer <+: skipSpace text ++ following :=
            hcs ▸ htext.symm ▸ List.prefix_append _ _
          obtain hpart | ⟨more, hmore⟩ :=
            List.prefix_or_prefix_of_prefix htaken (List.prefix_append _ _)
          · exact hpart
          · rw [← hmore, hused, List.append_assoc] at hfront
            cases hfront.unique (hspelt _)
        obtain ⟨front, hfrontText, hfrontBlanks⟩ := exists_skipSpace text
        refine ⟨front ++ w.buffer, ?_, parse_eq_error ?_⟩
        · rw [hfrontText]
          exact (List.prefix_append_right_inj front).mpr hprefix
        · rw [skipSpace_blanks_append hfrontBlanks, hbuffer]
          exact hfront
    | ok found =>
      obtain ⟨document, after⟩ := found
      have hfront : Reads deepest none w.buffer (.ok (document, after)) :=
        (reads_iff _ _).mpr hread
      obtain ⟨rfl, hafter⟩ := hfront.append_inj hfull id
      dsimp only
      split
      case isTrue hmore =>
        rw [Bool.and_eq_true, Bool.not_eq_true'] at hmore
        exact follows_takeMore hsize hw hphase hmore.2 _
      case isFalse =>
        refine .of_deliver (.window ⟨hw.whole, hw.ended⟩ (hrest.of_skipSpace ?_))
        rw [Window.text, ← hafter, skipSpace_blanks_append hblanks]

lemma follows_window (hsize : 1 ≤ size) (hw : w.Sound) (h : Rest texts phase documents w.text) :
    Follows (Stands texts) (Cut texts) documents
      ((ArrayPlace.window phase w).move feed size) := by
  rw [ArrayPlace.move]
  cases hbuffer : skipSpace w.buffer with
  | nil =>
    have hskip : skipSpace w.source.chars = skipSpace w.text := by
      have hblanks : ∀ c ∈ w.buffer, isSpace c = true := by
        simpa only [skipSpace, List.dropWhile_eq_nil_iff] using hbuffer
      rw [Window.text, skipSpace_blanks_append hblanks]
    have hrest := h.of_skipSpace hskip
    refine follows_takeMore (w := { w with buffer := [] }) hsize ⟨hw.whole, hw.ended⟩ hrest
      (Bool.eq_false_iff.mpr fun hended => hrest.solid ?_) _
    rw [hw.ended hended]
    rfl
  | cons c rest =>
    have hsolid : skipSpace w.buffer ≠ [] := by simp [hbuffer]
    have htext : skipSpace w.text = c :: (rest ++ w.source.chars) := by
      rw [← Window.text_skipSpace hsolid, Window.text, hbuffer, List.cons_append]
    -- The blanks in front are dropped before an element is taken.
    have helement (hphase : Rest texts phase documents w.text)
        (h : Rest texts .element documents w.text) :
        Follows (Stands texts) (Cut texts) documents
          (ArrayPlace.takeElement feed size phase { w with buffer := c :: rest }) := by
      have hskip : ({ w with buffer := c :: rest } : Window).text = skipSpace w.text := by
        rw [htext]
        rfl
      refine follows_takeElement hsize ⟨hw.whole, hw.ended⟩ (List.cons_ne_nil c rest) ?_
        (hphase.of_skipSpace ?_) (h.of_skipSpace ?_)
      · rw [← hbuffer, skipSpace_skipSpace]
      · rw [hskip, skipSpace_skipSpace]
      · rw [hskip, skipSpace_skipSpace]
    cases h with
    | opening hcs hrest =>
      cases htext.symm.trans hcs
      exact .go (.window ⟨hw.whole, hw.ended⟩ hrest)
    | next hcs hrest =>
      cases htext.symm.trans hcs
      exact .go (.window ⟨hw.whole, hw.ended⟩ hrest)
    | closing hphase hcs hblank =>
      cases htext.symm.trans hcs
      rcases hphase with rfl | rfl <;> exact .go (.behind hw.whole hblank rfl)
    | first h =>
      obtain ⟨inside, hbrace⟩ := h.brace
      cases htext.symm.trans hbrace
      exact helement (.first h) h
    | element hmem hcs hparse hrest =>
      have h := Rest.element hmem hcs hparse hrest
      have htake := helement h h
      simpa using htake

lemma follows_array (hsize : 1 ≤ size) (documents : List Json) (p : ArrayPlace)
    (h : Stands texts documents p) :
    Follows (Stands texts) (Cut texts) documents (p.move feed size) := by
  cases h with
  | window hw h => exact follows_window hsize hw h
  | @behind rest source hwhole hblank hdocuments =>
    subst hdocuments
    have hrest : skipSpace rest = [] := by
      by_contra hsolid
      rw [skipSpace_append hsolid, List.append_eq_nil_iff] at hblank
      exact hsolid hblank.1
    rw [skipSpace_blanks_append (by simpa only [skipSpace, List.dropWhile_eq_nil_iff] using hrest)]
      at hblank
    rw [ArrayPlace.move, hrest, Source.next_eq hwhole hsize]
    generalize hpiece : source.chars.take size.toNat = piece
    cases piece with
    | nil => exact .finish
    | cons c piece =>
      refine .go (.behind hwhole ?_ rfl)
      rw [← hpiece, List.take_append_drop]
      exact hblank

end Array

variable {content other : Bytes} {texts : List (List Char)} {documents : List Json} {size : Int}

/-- The text of the file is an array whose elements are spelt by the given texts, with blanks around
them where they are allowed. -/
def InArray (content : Bytes) (texts : List (List Char)) (documents : List Json) : Prop :=
  ∃ front inside back,
    Disk.textOf content =
      .ok (front ++ '[' :: (inside ++ [','].intercalate texts ++ ']' :: back)) ∧
    (∀ c ∈ front ++ inside ++ back, isSpace c = true) ∧
    List.Forall₂ (fun text document => parse text = .ok document) texts documents

/-- The text of the file has a document on each line that is not blank. -/
def OnLines (content : Bytes) (documents : List Json) : Prop :=
  ∃ lines, Disk.textOf content = .ok (['\n'].intercalate lines) ∧ Lined lines documents

def Objects (documents : List Json) : Prop :=
  ∀ document ∈ documents, ∃ members, document = .object members

lemma isBlank_of_isSpace {c : Char} (h : isSpace c = true) : isBlank c = true := by
  simp only [isSpace, Bool.or_eq_true, decide_eq_true_eq] at h
  rcases h with ((rfl | rfl) | rfl) | rfl <;> decide

lemma dropWhile_isBlank {c : Char} (hc : isBlank c = false) {blanks : List Char}
    (hblanks : ∀ b ∈ blanks, isSpace b = true) (rest : List Char) :
    (blanks ++ c :: rest).dropWhile isBlank = c :: rest := by
  rw [List.dropWhile_append_of_pos fun b hb => isBlank_of_isSpace (hblanks b hb),
    List.dropWhile_cons_of_neg (by simp [hc])]

lemma source_of_textOf {cs : List Char} (h : Disk.textOf content = .ok cs) (size : Int) :
    Source.ofBytes content = ⟨cs, false⟩ ∧ Source.inPieces content size = ⟨cs, false⟩ := by
  obtain ⟨chars, hchars, rfl⟩ := Disk.textOf_eq_ok_iff.mp h
  exact source_of_text hchars size

lemma InArray.settles (hsize : 1 ≤ size) (hobjects : Objects documents)
    (h : InArray content texts documents) (feed : Path) :
    Settles (Cut texts) documents (read feed content size) := by
  obtain ⟨front, inside, back, htext, hblanks, hparse⟩ := h
  simp only [List.mem_append, or_imp, forall_and] at hblanks
  obtain ⟨⟨hfront, hinside⟩, hback⟩ := hblanks
  have hblank : skipSpace back = [] := List.dropWhile_eq_nil_iff.mpr hback
  obtain ⟨hbytes, hpieces⟩ := source_of_textOf htext size
  have hrest : Rest texts .first documents (inside ++ [','].intercalate texts ++ ']' :: back) := by
    rw [List.append_assoc]
    refine Rest.of_skipSpace ?_ (skipSpace_blanks_append hinside _)
    by_cases hempty : texts = []
    · subst hempty
      cases hparse
      exact .closing (.inl rfl) rfl hblank
    · exact .first (.of_elements hblank hempty (List.Subset.refl _) hparse hobjects)
  have hopening : Rest texts .opening documents
      (front ++ '[' :: (inside ++ [','].intercalate texts ++ ']' :: back)) :=
    .opening (skipSpace_blanks_append hfront _) hrest
  have hiterates := iterates_read feed content size
  generalize read feed content size = o at hiterates
  cases hiterates with
  | array _ hruns =>
    rw [hpieces] at hruns
    exact hruns.settles (fun _ _ => follows_array hsize _ _) (.window ⟨rfl, nofun⟩ hopening)
  | blank hfirst | faulty hfirst =>
    rw [hbytes, dropWhile_isBlank (by decide) hfront] at hfirst
    cases hfirst
  | lines hfirst hc =>
    rw [hbytes, dropWhile_isBlank (by decide) hfront] at hfirst
    cases hfirst
    exact absurd rfl hc

lemma exists_intercalate (line : List Char) (lines : List (List Char)) :
    ∃ tail, ['\n'].intercalate (line :: lines) = line ++ tail ∧
      tail.dropWhile isBlank = (['\n'].intercalate lines).dropWhile isBlank := by
  cases lines with
  | nil => exact ⟨[], by rw [List.intercalate_singleton, List.append_nil], rfl⟩
  | cons next lines =>
    rw [List.intercalate_cons_cons, List.append_assoc]
    exact ⟨_, rfl, List.dropWhile_append_of_pos (List.forall_mem_singleton.mpr rfl)⟩

/-- Unless all lines are blank, they begin like an object. -/
lemma Lined.front {lines : List (List Char)} (hobjects : Objects documents)
    (h : Lined lines documents) :
    (['\n'].intercalate lines).dropWhile isBlank = [] ∧ documents = [] ∨
      ∃ rest, (['\n'].intercalate lines).dropWhile isBlank = '\x7b' :: rest := by
  induction lines with
  | nil => exact .inl ⟨rfl, h.nil⟩
  | cons line lines ih =>
    obtain ⟨tail, htext, htail⟩ := exists_intercalate line lines
    rw [htext]
    obtain ⟨hblank, hrest⟩ | ⟨-, document, rest, rfl, hparse, -⟩ := h.tail
    · rw [List.dropWhile_append_of_pos (List.all_eq_true.mp hblank), htail]
      exact ih hrest
    · obtain ⟨members, rfl⟩ := hobjects document List.mem_cons_self
      obtain ⟨used, blanks, hused, -, ⟨inside, rfl⟩, -⟩ := exists_spells hparse
      obtain ⟨front, hline, hfront⟩ := exists_skipSpace line
      rw [hline, hused, List.append_assoc, List.append_assoc, List.cons_append]
      exact .inr ⟨_, dropWhile_isBlank (by decide) hfront _⟩

lemma OnLines.read_eq (hobjects : Objects documents) (h : OnLines content documents) (feed : Path)
    (size : Int) : read feed content size = .ofDocuments documents := by
  obtain ⟨lines, htext, hlined⟩ := h
  obtain ⟨hbytes, -⟩ := source_of_textOf htext size
  have hfront := hlined.front hobjects
  have hiterates := iterates_read feed content size
  generalize read feed content size = o at hiterates
  cases hiterates with
  | blank hfirst =>
    rw [hbytes] at hfirst
    rcases hfront with ⟨-, rfl⟩ | ⟨rest, hbrace⟩
    · rfl
    · cases hfirst.symm.trans hbrace
  | faulty _ hbroken =>
    rw [hbytes] at hbroken
    cases hbroken
  | array hfirst =>
    rw [hbytes] at hfirst
    rcases hfront with ⟨hblank, -⟩ | ⟨rest, hbrace⟩
    · cases hfirst.symm.trans hblank
    · cases hfirst.symm.trans hbrace
  | lines _ _ hruns =>
    rw [hbytes] at hruns
    cases hruns.settles follows_line (.lines hlined) with
    | complete => rfl
    | brokenOff hcut => exact hcut.elim

/-- Whatever the size of the pieces, the records of objects are the same from an array and from
lines, and their reading ends alike, at every height. Only an array with an element that a piece may
cut may break off earlier. -/
theorem forms_agree {d m : Disk} {inArray onLines : Path} (hread : d.read inArray = .ok content)
    (hother : m.read onLines = .ok other) (hobjects : Objects documents)
    (harray : InArray content texts documents) (hlines : OnLines other documents) :
    (∀ size, 1 ≤ size →
      readFrom m onLines size = .ofDocuments documents ∧
      (readFrom d inArray size = readFrom m onLines size ∨
        Cut texts ∧ ∃ n, readFrom d inArray size =
          ((readFrom m onLines size).1.take n, some .wrongValue))) ∧
    ∀ height, load d inArray height = load m onLines height ∨
      Cut texts ∧ load d inArray height = .error .wrongValue := by
  have hreadLines (size : Int) : readFrom m onLines size = .ofDocuments documents := by
    rw [readFrom, Disk.readOr_of_ok hother]
    exact hlines.read_eq hobjects onLines size
  have hreadArray (size : Int) (hsize : 1 ≤ size) :
      readFrom d inArray size = readFrom m onLines size ∨
        Cut texts ∧ ∃ n, readFrom d inArray size =
          ((readFrom m onLines size).1.take n, some .wrongValue) := by
    rw [hreadLines, readFrom, Disk.readOr_of_ok hread]
    dsimp only
    generalize hruns : read inArray content size = o
    cases hruns ▸ harray.settles hsize hobjects inArray with
    | complete => exact .inl rfl
    | brokenOff hcut n => exact .inr ⟨hcut, n, rfl⟩
  refine ⟨fun size hsize => ⟨hreadLines size, hreadArray size hsize⟩, fun height => ?_⟩
  rw [load, load]
  obtain hsame | ⟨hcut, n, hbroken⟩ := hreadArray defaultPiece (by decide)
  · rw [hsame]
    exact .inl rfl
  · rw [hbroken]
    exact .inr ⟨hcut, rfl⟩

def laterMembers : List Char :=
  ("\"pointer\":\"AAAAAAAAAAAAAAAAAAAAAAAAAAAAAAAAAAAAAAAAAAE=\"," ++ "\"lastSeenAt\":3\x7d").toList

def goodDocument : Json :=
  .object [("pointer", StateRecord.wordDocument 1), ("lastSeenAt", .int 3)]

lemma wordOf_one : StateRecord.wordOf "pointer" (StateRecord.wordDocument 1) = .ok 1 :=
  StateRecord.wordOf_eq_ok_iff.mpr (StateRecord.givesWord_wordDocument (by decide))

def goodText : List Char := '\x7b' :: laterMembers

def badText : List Char := ['\x7b', '\x7d']

/-- A record and an object that is none, in an array and on lines among blank ones. -/
def goodAndBadArray : List Char := ' ' :: '[' :: goodText ++ [' ', ','] ++ badText ++ [']', '\n']

def goodAndBadLines : List Char := '\n' :: goodText ++ ['\n', ' ', '\n'] ++ badText

theorem forms_agree_up_to_bad_record :
    let array := Utf8.asciiBytes goodAndBadArray
    let lines := Utf8.asciiBytes goodAndBadLines
    let documents := [goodDocument, .object []]
    Objects documents ∧ InArray array [goodText ++ [' '], badText] documents ∧
      OnLines lines documents ∧
      (∀ size, 1 ≤ size →
        readFrom (holding lines) (.ofText "feed") size =
          ([⟨1, 0, 3⟩], some (.format .recordIncomplete)) ∧
        readFrom (holding array) (.ofText "feed") size =
          ([⟨1, 0, 3⟩], some (.format .recordIncomplete))) ∧
      ∀ height, load (holding array) (.ofText "feed") height =
        load (holding lines) (.ofText "feed") height := by
  intro array lines documents
  have hgood : parse goodText = .ok goodDocument := eq_ok_of_toOption (by decide +kernel)
  have hgoodBlank : parse (goodText ++ [' ']) = .ok goodDocument :=
    eq_ok_of_toOption (by decide +kernel)
  have hbad : parse badText = .ok (.object []) := eq_ok_of_toOption (by decide +kernel)
  have hobjects : Objects documents := by simp [Objects, documents, goodDocument]
  have harray : InArray array [goodText ++ [' '], badText] documents :=
    ⟨[' '], [], ['\n'], eq_ok_of_toOption (by decide +kernel), by simp [isSpace],
      .cons hgoodBlank (.cons hbad .nil)⟩
  have hlines : OnLines lines documents := by
    refine ⟨[[], goodText, [' '], badText], eq_ok_of_toOption (by decide +kernel),
      by decide +kernel, ?_⟩
    have hsolid : [[], goodText, [' '], badText].filter (!·.all isBlank) = [goodText, badText] := by
      decide +kernel
    rw [hsolid]
    exact .cons hgood (.cons hbad .nil)
  have hcut : ¬ Cut [goodText ++ [' '], badText] := by
    have hinits : ∀ text ∈ [goodText ++ [' '], badText], ∀ beginning ∈ text.inits,
        parse beginning ≠ .error .longNumber := by decide +kernel
    rintro ⟨text, htext, beginning, hprefix, hlong⟩
    exact hinits text htext beginning ((List.mem_inits _ _).mpr hprefix) hlong
  have houtcome : Outcome.ofDocuments documents =
      ([⟨1, 0, 3⟩], some (.format .recordIncomplete)) := by
    have hrecord : StateRecord.ofJson goodDocument = .ok ⟨1, 0, 3⟩ := by
      rw [goodDocument, StateRecord.ofJson_eq rfl rfl, wordOf_one]
      rfl
    simp only [documents, Outcome.ofDocuments, hrecord]
    rfl
  obtain ⟨hread, hload⟩ :=
    forms_agree (read_holding array) (read_holding lines) hobjects harray hlines
  refine ⟨hobjects, harray, hlines, fun size hsize => ?_, fun height => ?_⟩
  · obtain ⟨hreadLines, hreadArray⟩ := hread size hsize
    have hsame := hreadArray.resolve_right fun h => hcut h.1
    rw [hsame, hreadLines, houtcome]
    exact ⟨rfl, rfl⟩
  · exact (hload height).resolve_right fun h => hcut h.1

/-- If the first piece of an array ends in the first element, behind too many digits, then no record
is read. -/
lemma read_of_cut {inside more : List Char}
    (hread : readPrefix ('\x7b' :: inside) = .error .longNumber)
    (htext : Disk.textOf content = .ok ('[' :: '\x7b' :: inside ++ more)) (feed : Path) :
    read feed content (inside.length + 2) = ([], some .wrongValue) := by
  obtain ⟨hbytes, hpieces⟩ := source_of_textOf htext (inside.length + 2)
  have hfirst : (Source.ofBytes content).chars.dropWhile isBlank =
      '[' :: '\x7b' :: inside ++ more := by
    rw [hbytes, List.cons_append, List.dropWhile_cons_of_neg (by decide)]
  let source : Source := ⟨'[' :: '\x7b' :: inside ++ more, false⟩
  let w : Window := ⟨'[' :: '\x7b' :: inside, ⟨more, false⟩, false⟩
  have hnext : source.next (inside.length + 2) = .ok ('[' :: '\x7b' :: inside, ⟨more, false⟩) := by
    have hsize : ((inside.length + 2 : Int)).toNat = ('[' :: '\x7b' :: inside).length := by
      simp only [List.length_cons]
      omega
    rw [Source.next_eq rfl (by omega), hsize]
    simp only [source, List.take_left, List.drop_left]
  have hmore : (ArrayPlace.window .opening ⟨[], source, false⟩).move feed (inside.length + 2) =
      .go (.window .opening w) := by
    change ArrayPlace.takeMore feed (inside.length + 2) .opening ⟨[], source, false⟩ .endOfArray = _
    rw [ArrayPlace.takeMore, if_neg Bool.false_ne_true, Window.refill, hnext]
    rfl
  have hbracket : (ArrayPlace.window .opening w).move feed (inside.length + 2) =
      .go (.window .first { w with buffer := '\x7b' :: inside }) := rfl
  have hcut : (ArrayPlace.window .first { w with buffer := '\x7b' :: inside }).move feed
      (inside.length + 2) = .stop (some .wrongValue) := by
    change ArrayPlace.takeElement feed _ .first { w with buffer := '\x7b' :: inside } = _
    rw [ArrayPlace.takeElement, hread]
    rfl
  have hruns := Runs.go hmore (.go hbracket (.stop hcut))
  exact (iterates_read feed content _).unique (.array hfirst (hpieces ▸ hruns))

def ones : List Char := List.replicate (Numeral.mostDigits + 1) '1'

/-- The beginning of an object with a number in it, and a way to go on from there. -/
def begun : List Char := ['"', 'n', '"', ':'] ++ ones

def goingOn : List Char := '.' :: '5' :: ',' :: laterMembers

def completed (x : Json) : Json :=
  .object [("n", x), ("pointer", StateRecord.wordDocument 1), ("lastSeenAt", .int 3)]

lemma readWhole_ones {cs : List Char} (hcs : Ends isDigit cs) :
    readWhole (ones ++ cs) = some (ones, cs) := by
  have hdigits : ∀ c ∈ ones, isDigit c = true := by
    intro c hc
    rw [List.eq_of_mem_replicate hc]
    decide
  have hsplit := splitDigits_append hdigits hcs
  have hones : ones = '1' :: List.replicate Numeral.mostDigits '1' := rfl
  rw [hones, List.cons_append] at hsplit ⊢
  rw [readWhole, if_pos (by decide), hsplit]
  exact fun h => absurd h (by decide)

lemma readScalar_ones (cs : List Char) :
    readScalar (ones ++ cs) = readMagnitude false (ones ++ cs) := by
  have hones : ones = '1' :: List.replicate Numeral.mostDigits '1' := rfl
  rw [hones, List.cons_append, readScalar_number (by decide), readNumber_digit (by decide)]

lemma readScalar_begun : readScalar (ones ++ []) = .error .longNumber := by
  have hwhole : readWhole (ones ++ []) = some (ones, []) := readWhole_ones nofun
  have hlength : Numeral.mostDigits < ones.length := by
    rw [ones, List.length_replicate]
    omega
  rw [readScalar_ones, readMagnitude_some hwhole rfl rfl, magnitude]
  simp only [List.isEmpty_nil, Option.isNone_none, Bool.and_true, if_true, if_pos hlength]
  rfl

lemma exists_readScalar_fraction :
    ∃ x, readScalar (ones ++ goingOn) = .ok (.real x, ',' :: laterMembers) := by
  have hends : Ends isDigit goingOn := by
    rintro c ⟨⟩
    decide
  have hfraction : readFraction goingOn = (['5'], ',' :: laterMembers) := rfl
  have hexponent : readExponent (',' :: laterMembers) = (none, ',' :: laterMembers) := rfl
  rw [readScalar_ones, readMagnitude_some (readWhole_ones hends) hfraction hexponent, magnitude]
  exact ⟨_, rfl⟩

/-- In front of the number everything is read alike. -/
lemma reads_begun {cs : List Char} {r : Except ReadError (Json × List Char)}
    (h : Reads (deepest - 1) (some (.object [])) (begun ++ cs) r) :
    Reads deepest none ('\x7b' :: begun ++ cs) r :=
  .opened (d := deepest - 1) rfl rfl h

lemma readPrefix_begun : readPrefix ('\x7b' :: begun) = .error .longNumber := by
  have hvalue : Reads (deepest - 1) none (skipSpace (ones ++ [])) (.error .longNumber) :=
    readScalar_begun ▸ .scalar rfl
  have hread := reads_begun (.failed (k := .object []) rfl hvalue)
  rw [List.append_nil] at hread
  exact (reads_iff _ _).mp hread

lemma reads_of_toOption {d : Nat} {cs : List Char} {found : Json × List Char}
    (h : (run (2 * cs.length + 1) d none cs).toOption = some found) :
    Reads d none cs (.ok found) := by
  rw [← eq_ok_of_toOption h]
  exact reads_run _ _ none _ (Nat.le_refl _)

lemma front?_object {members : List (Text × Json)} {cs rest : List Char} {name : Text}
    (h : name? cs = some (name, rest)) : (Opened.object members).front? cs =
      some (fun value => .object (Table.insert name value members), rest) := by
  rw [Opened.front?, h]
  rfl

lemma reads_laterMembers (x : Json) :
    Reads (deepest - 1) (some (.object [("n", x)])) laterMembers (.ok (completed x, [])) := by
  have hpointer : name? laterMembers = some (Text.ofString "pointer", laterMembers.drop 10) := by
    decide +kernel
  have hword : Reads (deepest - 1) none (skipSpace (laterMembers.drop 10))
      (.ok (StateRecord.wordDocument 1, laterMembers.drop 56)) :=
    reads_of_toOption (by decide +kernel)
  have hseen : name? (laterMembers.drop 57) =
      some (Text.ofString "lastSeenAt", laterMembers.drop 70) := by
    decide +kernel
  have hheight : Reads (deepest - 1) none (skipSpace (laterMembers.drop 70))
      (.ok (.int 3, ['\x7d'])) :=
    reads_of_toOption (by decide +kernel)
  have hcomma : behind ',' (laterMembers.drop 56) = some (laterMembers.drop 57) := by decide +kernel
  exact .next (front?_object hpointer) hword hcomma
    (.last (k := .object _) (front?_object hseen) hheight rfl rfl)

lemma ofJson_completed (x : Json) : StateRecord.ofJson (completed x) = .ok ⟨1, 0, 3⟩ := by
  rw [completed, StateRecord.ofJson_eq rfl rfl, wordOf_one]
  rfl

lemma exists_parse_completed : ∃ x, parse ('\x7b' :: begun ++ goingOn) = .ok (completed x) := by
  obtain ⟨x, hx⟩ := exists_readScalar_fraction
  have hvalue : Reads (deepest - 1) none (skipSpace (ones ++ goingOn))
      (.ok (.real x, ',' :: laterMembers)) := hx ▸ .scalar rfl
  have hread := reads_begun (.next (k := .object []) rfl hvalue rfl (reads_laterMembers _))
  exact ⟨_, parse_eq_ok_iff.mpr ⟨[], hread, rfl⟩⟩

/-- One record, in an array and on a line of its own. -/
def cutArray : List Char := '[' :: '\x7b' :: begun ++ (goingOn ++ [']'])

def uncutLine : List Char := '\x7b' :: begun ++ goingOn

lemma plain_uncutLine : ∀ c ∈ uncutLine, 0x20 ≤ c.toNat ∧ c.toNat < 0x80 := by
  have hgoingOn : goingOn.all (fun c => 0x20 ≤ c.toNat ∧ c.toNat < 0x80) = true := by decide +kernel
  intro c hc
  rw [uncutLine, List.mem_append] at hc
  rcases hc with hc | hc
  · rw [begun, ← List.cons_append, List.mem_append] at hc
    rcases hc with hc | hc
    · simp only [List.mem_cons, List.not_mem_nil, or_false] at hc
      rcases hc with rfl | rfl | rfl | rfl | rfl <;> decide
    · rw [List.eq_of_mem_replicate hc]
      decide
  · exact of_decide_eq_true (List.all_eq_true.mp hgoingOn c hc)

theorem array_breaks_off_in_number : ∃ document,
    Objects [document] ∧ InArray (Utf8.asciiBytes cutArray) [uncutLine] [document] ∧
      OnLines (Utf8.asciiBytes uncutLine) [document] ∧
      readFrom (holding (Utf8.asciiBytes uncutLine)) (.ofText "feed") 4307 =
        ([⟨1, 0, 3⟩], none) ∧
      readFrom (holding (Utf8.asciiBytes cutArray)) (.ofText "feed") 4307 =
        ([], some .wrongValue) := by
  have hplain : ∀ c ∈ cutArray, 0x20 ≤ c.toNat ∧ c.toNat < 0x80 := by
    intro c hc
    have hcut : cutArray = '[' :: (uncutLine ++ [']']) := by simp [cutArray, uncutLine]
    rw [hcut, List.mem_cons, List.mem_append, List.mem_singleton] at hc
    rcases hc with rfl | hc | rfl
    · decide
    · exact plain_uncutLine c hc
    · decide
  have hcutArray := Disk.textOf_asciiBytes hplain
  have huncutLine := Disk.textOf_asciiBytes plain_uncutLine
  obtain ⟨x, hparse⟩ := exists_parse_completed
  have hobjects : Objects [completed x] := by simp [Objects, completed]
  have hlines : OnLines (Utf8.asciiBytes uncutLine) [completed x] := by
    refine ⟨[uncutLine], by rw [List.intercalate_singleton, huncutLine], ?_, ?_⟩
    · intro line hline hnewline
      rw [List.mem_singleton.mp hline] at hnewline
      exact absurd (plain_uncutLine _ hnewline).1 (by decide)
    · have hbrace : isBlank '\x7b' = false := by decide
      have hsolid : uncutLine.all isBlank = false := by
        rw [uncutLine, List.cons_append, List.all_cons, hbrace, Bool.false_and]
      rw [List.filter_cons_of_pos (by rw [hsolid]; rfl), List.filter_nil]
      exact .cons hparse .nil
  have harray : InArray (Utf8.asciiBytes cutArray) [uncutLine] [completed x] := by
    refine ⟨[], [], [], ?_, by simp, .cons hparse .nil⟩
    rw [hcutArray]
    simp [cutArray, uncutLine]
  have hlength : ((begun.length : Int) + 2) = 4307 := by
    rw [begun, List.length_append, ones, List.length_replicate]
    rfl
  refine ⟨completed x, hobjects, harray, hlines, ?_, ?_⟩
  · rw [readFrom, Disk.readOr_of_ok (read_holding _)]
    dsimp only
    rw [hlines.read_eq hobjects, Outcome.ofDocuments, ofJson_completed]
    rfl
  · rw [readFrom, Disk.readOr_of_ok (read_holding _), ← hlength]
    exact read_of_cut readPrefix_begun hcutArray (.ofText "feed")

end ChainReplay.Feed
