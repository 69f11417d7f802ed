import ChainReplay.Proofs.Disk
import ChainReplay.Proofs.Feed.Record
import ChainReplay.Proofs.Feed.Stream

/-! Reading a feed as a sequence of moves. Every move leaves less to be read, so the reading of every
feed comes to an end, and a failure at the end is explained by what stands in the feed. -/

namespace ChainReplay.Feed

open Json

inductive Move (π : Type) where
  | stop (failure : Option Failure)
  | go (p : π)
  | emit (r : StateRecord) (p : π)

section Runs

variable {π : Type} {move : π → Move π} {p q : π} {o : Outcome} {f : Failure}

def Move.outcome (rest : π → Outcome) : Move π → Outcome
  | .stop failure => ([], failure)
  | .go p => rest p
  | .emit r p => .cons r (rest p)

def Move.next? : Move π → Option π
  | .stop _ => none
  | .go p => some p
  | .emit _ p => some p

def Move.failure? : Move π → Option Failure
  | .stop failure => failure
  | _ => none

/-- The moves from a place come to an end, with the outcome. -/
inductive Runs (move : π → Move π) : π → Outcome → Prop
  | stop {p : π} {failure : Option Failure} (h : move p = .stop failure) :
    Runs move p ([], failure)
  | go {p q : π} {o : Outcome} (h : move p = .go q) (hrest : Runs move q o) : Runs move p o
  | emit {p q : π} {r : StateRecord} {o : Outcome} (h : move p = .emit r q)
    (hrest : Runs move q o) : Runs move p (.cons r o)

lemma Runs.of_outcome {rest : π → Outcome}
    (h : ∀ q, (move p).next? = some q → Runs move q (rest q)) :
    Runs move p ((move p).outcome rest) := by
  cases hmove : move p with
  | stop failure => exact .stop hmove
  | go q => exact .go hmove (h q (by rw [hmove]; rfl))
  | emit r q => exact .emit hmove (h q (by rw [hmove]; rfl))

lemma Runs.unique {o' : Outcome} (h : Runs move p o) (h' : Runs move p o') : o = o' := by
  induction h generalizing o' with
  | stop h =>
    cases h' with
    | stop h' =>
      cases h.symm.trans h'
      rfl
    | go h' | emit h' => cases h.symm.trans h'
  | go h _ ih =>
    cases h' with
    | go h' hrest' =>
      cases h.symm.trans h'
      exact ih hrest'
    | stop h' | emit h' => cases h.symm.trans h'
  | emit h _ ih =>
    cases h' with
    | emit h' hrest' =>
      cases h.symm.trans h'
      rw [ih hrest']
    | stop h' | go h' => cases h.symm.trans h'

/-- What explains a failure at a place explains it at the places before. -/
lemma Runs.failure {P : π → Failure → Prop} (hstop : ∀ p f, (move p).failure? = some f → P p f)
    (hnext : ∀ p q f, (move p).next? = some q → P q f → P p f) (h : Runs move p o)
    (ho : o.2 = some f) : P p f := by
  induction h with
  | stop h => exact hstop _ f (by rw [h]; exact ho)
  | go h _ ih => exact hnext _ _ f (by rw [h]; rfl) (ih ho)
  | emit h _ ih => exact hnext _ _ f (by rw [h]; rfl) (ih ho)

end Runs

/-- Why the reading of a text fails, by the pieces it has and whether it has faulty bytes. -/
inductive Explains (has : List Char → Prop) (faulty : Prop) : Failure → Prop
  | format (reason : FormatError) : Explains has faulty (.format reason)
  | undecodable (h : faulty) : Explains has faulty .undecodable
  | overrun {piece : List Char} {j : Json} (hpiece : has piece) (hj : parse piece = .ok j)
    (h : StateRecord.Overruns j) : Explains has faulty .overflow
  | limit {piece : List Char} {e : ReadError} (hpiece : has piece) (he : parse piece = .error e)
    (h : e ≠ .malformed) : Explains has faulty (e.failure .wrongValue)

lemma Explains.imp {has has' : List Char → Prop} {faulty faulty' : Prop} {f : Failure}
    (h : Explains has faulty f) (hhas : ∀ piece, has piece → has' piece)
    (hfaulty : faulty → faulty') : Explains has' faulty' f := by
  cases h with
  | format reason => exact .format reason
  | undecodable h => exact .undecodable (hfaulty h)
  | overrun hpiece hj h => exact .overrun (hhas _ hpiece) hj h
  | limit hpiece he h => exact .limit (hhas _ hpiece) he h

def deliver {π : Type} (j : Json) (next : π) : Move π :=
  match StateRecord.ofJson j with
  | .error f => .stop (some f)
  | .ok r => .emit r next

lemma next_deliver {π : Type} {j : Json} {next q : π} (h : (deliver j next).next? = some q) :
    q = next := by
  rw [deliver] at h
  cases hread : StateRecord.ofJson j with
  | error f =>
    rw [hread] at h
    cases h
  | ok r =>
    rw [hread] at h
    cases h
    rfl

lemma explains_deliver {π : Type} {j : Json} {next : π} {f : Failure} {piece : List Char}
    {has : List Char → Prop} {faulty : Prop} (hpiece : has piece) (hj : parse piece = .ok j)
    (h : (deliver j next).failure? = some f) : Explains has faulty f := by
  rw [deliver] at h
  cases hread : StateRecord.ofJson j with
  | ok r =>
    rw [hread] at h
    cases h
  | error f' =>
    rw [hread] at h
    cases h
    obtain hformat | rfl := StateRecord.fails_ofJson _ hread
    · cases f with
      | format reason => exact .format reason
      | _ => cases hformat
    · exact .overrun hpiece hj (StateRecord.ofJson_eq_overflow_iff.mp hread)

section Lines

inductive LinePlace where
  | line (number : Nat) (cs : List Char)
  | done

variable {feed : Path} {broken : Bool} {n number : Nat} {cs : List Char} {p q : LinePlace}
  {f : Failure}

namespace LinePlace

def text : LinePlace → List Char
  | line _ cs => cs
  | done => []

def takeLine (feed : Path) (number : Nat) (line : List Char) (next : LinePlace) : Move LinePlace :=
  if (Text.ofChars line).all Text.isBlank then .go next
  else match parse line with
    | .error e => .stop (some (e.failure (.format (.badLine feed number))))
    | .ok document => deliver document next

def move (feed : Path) (broken : Bool) : LinePlace → Move LinePlace
  | line number cs =>
    match splitLine cs with
    | (first, some rest) => takeLine feed number first (line (number + 1) rest)
    | (last, none) =>
      if broken then .stop (some .undecodable) else takeLine feed number last done
  | done => .stop none

def resume (feed : Path) (broken : Bool) (n : Nat) : LinePlace → Outcome
  | line number cs => readLines feed broken n number cs
  | done => ([], none)

end LinePlace

open LinePlace

lemma append_splitLine (cs : List Char) :
    (∃ first rest, splitLine cs = (first, some rest) ∧ cs = first ++ '\n' :: rest) ∨
      splitLine cs = (cs, none) := by
  rw [splitLine]
  have happend := List.takeWhile_append_dropWhile (p := (· != '\n')) (l := cs)
  generalize hfirst : cs.takeWhile (· != '\n') = first at happend
  have hdrop : cs.drop first.length = cs.dropWhile (· != '\n') := by
    conv_lhs => rw [← happend, List.drop_left]
  rw [hdrop]
  cases hrest : cs.dropWhile (· != '\n') with
  | nil =>
    rw [hrest, List.append_nil] at happend
    exact .inr (by rw [happend])
  | cons c rest =>
    have hc : c = '\n' := by
      have hhead := List.head_dropWhile_not (· != '\n') (l := cs) (by simp [hrest])
      simpa [hrest] using hhead
    subst hc
    rw [hrest] at happend
    exact .inl ⟨first, rest, rfl, happend.symm⟩

lemma outcome_takeLine (feed : Path) (number : Nat) (line : List Char) (next : LinePlace)
    (following : LinePlace → Outcome) :
    (takeLine feed number line next).outcome following =
      if (Text.ofChars line).all Text.isBlank then following next
      else match parse line with
        | .error e => stopped (e.failure (.format (.badLine feed number)))
        | .ok document =>
          match StateRecord.ofJson document with
          | .error f => stopped f
          | .ok r => .cons r (following next) := by
  rw [takeLine]
  split
  · rfl
  · cases parse line with
    | error e => rfl
    | ok document =>
      dsimp only
      rw [deliver]
      cases StateRecord.ofJson document <;> rfl

lemma readLines_succ (feed : Path) (broken : Bool) (n number : Nat) (cs : List Char) :
    readLines feed broken (n + 1) number cs =
      ((line number cs).move feed broken).outcome (resume feed broken n) := by
  rw [readLines, LinePlace.move]
  rcases splitLine cs with ⟨line, _ | rest⟩
  · dsimp only
    split
    · rfl
    · rw [outcome_takeLine]
      rfl
  · dsimp only
    rw [outcome_takeLine]
    rfl

lemma next_takeLine {line : List Char} {next : LinePlace}
    (h : (takeLine feed number line next).next? = some q) : q = next := by
  rw [takeLine] at h
  split at h
  · exact (Option.some.inj h).symm
  · cases hj : parse line with
    | error e =>
      rw [hj] at h
      cases h
    | ok document =>
      rw [hj] at h
      exact next_deliver h

lemma explains_takeLine {has : List Char → Prop} {faulty : Prop} {line : List Char}
    {next : LinePlace} (hline : has line)
    (h : (takeLine feed number line next).failure? = some f) : Explains has faulty f := by
  rw [takeLine] at h
  split at h
  · cases h
  · cases hj : parse line with
    | error e =>
      rw [hj] at h
      cases h
      cases e with
      | malformed => exact .format _
      | longNumber => exact .limit hline hj nofun
      | tooDeep => exact .limit hline hj nofun
    | ok document =>
      rw [hj] at h
      exact explains_deliver hline hj h

lemma next_line (h : ((line number cs).move feed broken).next? = some q) :
    q = done ∨ ∃ front rest, cs = front ++ '\n' :: rest ∧ q = line (number + 1) rest := by
  rw [LinePlace.move] at h
  obtain ⟨front, rest, hsplit, hcs⟩ | hsplit := append_splitLine cs
  · rw [hsplit] at h
    exact .inr ⟨front, rest, hcs, next_takeLine h⟩
  · rw [hsplit] at h
    dsimp only at h
    split at h
    · cases h
    · exact .inl (next_takeLine h)

lemma runs_readLines (hn : cs.length < n) :
    Runs (LinePlace.move feed broken) (line number cs) (readLines feed broken n number cs) := by
  induction n generalizing number cs with
  | zero => omega
  | succ n ih =>
    rw [readLines_succ]
    refine .of_outcome fun q hq => ?_
    obtain rfl | ⟨front, rest, rfl, rfl⟩ := next_line hq
    · exact .stop rfl
    · refine ih ?_
      simp only [List.length_append, List.length_cons] at hn
      omega

lemma explains_lines {o : Outcome} (h : Runs (LinePlace.move feed broken) p o)
    (ho : o.2 = some f) : Explains (· <:+: p.text) (broken = true) f := by
  refine h.failure (P := fun p f => Explains (· <:+: p.text) (broken = true) f)
    (fun p f hp => ?_) (fun p q f hpq hq => hq.imp (fun piece hpiece => ?_) id) ho
  · cases p with
    | done => cases hp
    | line number cs =>
      rw [LinePlace.move] at hp
      obtain ⟨front, rest, hsplit, hcs⟩ | hsplit := append_splitLine cs
      · rw [hsplit] at hp
        exact explains_takeLine ⟨[], _, hcs.symm⟩ hp
      · rw [hsplit] at hp
        dsimp only at hp
        split at hp
        case isTrue hbroken =>
          cases hp
          exact .undecodable hbroken
        case isFalse => exact explains_takeLine (List.infix_refl cs) hp
  · cases p with
    | done => cases hpq
    | line number cs =>
      obtain rfl | ⟨front, rest, rfl, rfl⟩ := next_line hpq
      · rw [List.infix_nil.mp hpiece]
        exact List.nil_infix
      · exact hpiece.trans (List.suffix_append_of_suffix (List.suffix_cons '\n' rest)).isInfix

end Lines

section Array

/-- A window on the array, or what follows its last bracket. -/
inductive ArrayPlace where
  | window (phase : Phase) (w : Window)
  | behind (rest : List Char) (source : Source)

variable {feed : Path} {size : Int} {n : Nat} {phase : Phase} {w v : Window} {p q : ArrayPlace}
  {f : Failure}

namespace ArrayPlace

def text : ArrayPlace → List Char
  | window _ w => w.text
  | behind rest source => rest ++ source.chars

def broken : ArrayPlace → Bool
  | window _ w => w.source.broken
  | behind _ source => source.broken

def left : ArrayPlace → Nat
  | window _ w => w.left
  | behind _ source => source.chars.length

def takeMore (feed : Path) (size : Int) (phase : Phase) (w : Window) (reason : ArrayFault) :
    Move ArrayPlace :=
  if w.ended then .stop (some (.format (.badArray feed reason)))
  else match w.refill size with
    | .error f => .stop (some f)
    | .ok w => .go (window phase w)

def takeElement (feed : Path) (size : Int) (phase : Phase) (w : Window) : Move ArrayPlace :=
  match readPrefix w.buffer with
  | .error .malformed => takeMore feed size phase w .badValue
  | .error e => .stop (some (e.failure .wrongValue))
  | .ok (document, after) =>
    if after.isEmpty && !w.ended then takeMore feed size phase w .badValue
    else deliver document (window .separator { w with buffer := after })

def move (feed : Path) (size : Int) : ArrayPlace → Move ArrayPlace
  | window phase w =>
    let fault (f : ArrayFault) : Move ArrayPlace := .stop (some (.format (.badArray feed f)))
    match skipSpace w.buffer with
    | [] => takeMore feed size phase { w with buffer := [] } .endOfArray
    | c :: rest =>
      if phase = .opening then
        if c = '[' then .go (window .first { w with buffer := rest }) else fault (.noBracket c)
      else if c = ']' && phase ≠ .element then .go (behind rest w.source)
      else if phase = .separator then
        if c = ',' then .go (window .element { w with buffer := rest }) else fault (.noSeparator c)
      else takeElement feed size phase { w with buffer := c :: rest }
  | behind rest source =>
    if !(skipSpace rest).isEmpty then .stop (some (.format (.badArray feed .extraData)))
    else match source.next size with
      | .error f => .stop (some f)
      | .ok ([], _) => .stop none
      | .ok (piece, source) => .go (behind piece source)

def resume (feed : Path) (size : Int) (n : Nat) : ArrayPlace → Outcome
  | window phase w => readArray feed size n phase w
  | behind rest source => closeArray feed size (source.chars.length + 2) rest source

end ArrayPlace

open ArrayPlace

lemma outcome_takeMore (reason : ArrayFault) :
    (takeMore feed size phase w reason).outcome (resume feed size n) =
      readOn feed size n phase w reason := by
  rw [takeMore, readOn]
  split
  · rfl
  · cases w.refill size <;> rfl

lemma outcome_takeElement {c : Char} {rest : List Char} (hbuffer : skipSpace w.buffer = c :: rest)
    (hphase : Awaits phase w.buffer) :
    (takeElement feed size phase { w with buffer := c :: rest }).outcome (resume feed size n) =
      readArray feed size (n + 1) phase w := by
  rw [readArray_element hbuffer hphase, takeElement]
  cases readPrefix (c :: rest) with
  | error e =>
    cases e with
    | malformed => exact outcome_takeMore _
    | longNumber | tooDeep => rfl
  | ok found =>
    obtain ⟨document, after⟩ := found
    dsimp only
    split
    · exact outcome_takeMore _
    · rw [deliver]
      cases StateRecord.ofJson document <;> rfl

lemma readArray_succ (feed : Path) (size : Int) (n : Nat) (phase : Phase) (w : Window) :
    readArray feed size (n + 1) phase w =
      ((window phase w).move feed size).outcome (resume feed size n) := by
  rw [ArrayPlace.move]
  cases hbuffer : skipSpace w.buffer with
  | nil =>
    rw [readArray_blank hbuffer]
    exact (outcome_takeMore _).symm
  | cons c rest =>
    cases phase with
    | opening =>
      rw [readArray_opening hbuffer]
      by_cases hc : c = '['
      · simp only [hc, if_true]
        rfl
      · simp only [if_neg hc, if_true]
        rfl
    | first =>
      by_cases hc : c = ']'
      · subst hc
        rw [readArray_closing hbuffer (.inl rfl)]
        rfl
      · have hopen : Json.behind ']' w.buffer = none := by
          rw [behind_eq_none_iff, hbuffer]
          rintro after ⟨⟩
          exact hc rfl
        rw [← outcome_takeElement hbuffer (.inr ⟨rfl, hopen⟩)]
        simp [hc]
    | element =>
      rw [← outcome_takeElement hbuffer (.inl rfl)]
      simp
    | separator =>
      by_cases hc : c = ']'
      · subst hc
        rw [readArray_closing hbuffer (.inr rfl)]
        rfl
      · rw [readArray_separator hbuffer hc]
        by_cases hcomma : c = ','
        · simp only [hcomma, if_true]
          rfl
        · simp only [if_neg hcomma, hc]
          rfl

/-- A place further on, where less remains to be read. -/
structure Precedes (p q : ArrayPlace) : Prop where
  text : q.text <:+ p.text
  broken : q.broken = p.broken
  left : q.left < p.left

lemma Source.next_eq_ok {s t : Source} {piece : List Char} (h : s.next size = .ok (piece, t)) :
    s.chars = piece ++ t.chars ∧ t.broken = s.broken := by
  simp only [Source.next] at h
  generalize (if size < 0 then s.chars.length else size.toNat) = count at h
  split at h
  · cases h
  · cases h
    exact ⟨(List.take_append_drop ..).symm, rfl⟩

lemma Source.next_eq_error {s : Source} (h : s.next size = .error f) :
    f = .undecodable ∧ s.broken = true := by
  simp only [Source.next] at h
  generalize (if size < 0 then s.chars.length else size.toNat) = count at h
  split at h
  case isTrue hbroken =>
    cases h
    exact ⟨rfl, (Bool.and_eq_true_iff.mp hbroken).1⟩
  case isFalse => cases h

lemma precedes_refill (hended : w.ended = false) (h : w.refill size = .ok v) :
    Precedes (window phase w) (window phase v) := by
  rw [Window.refill] at h
  cases hnext : w.source.next size with
  | error f =>
    rw [hnext] at h
    cases h
  | ok found =>
    obtain ⟨piece, source⟩ := found
    rw [hnext] at h
    cases h
    obtain ⟨hchars, hbroken⟩ := Source.next_eq_ok hnext
    refine ⟨?_, hbroken, ?_⟩
    · simp only [ArrayPlace.text, Window.text, hchars, List.append_assoc, List.suffix_refl]
    · simp only [ArrayPlace.left, Window.left, hended, hchars, List.length_append]
      cases piece with
      | nil => simp
      | cons c piece => simp; omega

lemma Precedes.of_buffer {buffer : List Char} (hbuffer : buffer <:+ w.buffer)
    (h : Precedes (window phase { w with buffer }) q) : Precedes (window phase w) q := by
  have hlength := hbuffer.length_le
  obtain ⟨front, hfront⟩ := hbuffer
  refine ⟨h.text.trans ⟨front, ?_⟩, h.broken, Nat.lt_of_lt_of_le h.left ?_⟩
  · simp only [ArrayPlace.text, Window.text, ← hfront, List.append_assoc]
  · simp only [ArrayPlace.left, Window.left]
    omega

lemma precedes_window {phase' : Phase} {front rest : List Char} (hbuffer : w.buffer = front ++ rest)
    (hfront : front ≠ []) :
    Precedes (window phase w) (window phase' { w with buffer := rest }) := by
  have hpositive := List.length_pos_iff.mpr hfront
  refine ⟨⟨front, ?_⟩, rfl, ?_⟩
  · simp only [ArrayPlace.text, Window.text, hbuffer, List.append_assoc]
  · simp only [ArrayPlace.left, Window.left, hbuffer, List.length_append]
    omega

lemma precedes_takeMore {reason : ArrayFault}
    (h : (takeMore feed size phase w reason).next? = some q) : Precedes (window phase w) q := by
  rw [takeMore] at h
  split at h
  case isTrue => cases h
  case isFalse hended =>
    cases hrefill : w.refill size with
    | error f =>
      rw [hrefill] at h
      cases h
    | ok v =>
      rw [hrefill] at h
      cases h
      exact precedes_refill (Bool.not_eq_true _ ▸ hended) hrefill

lemma explains_takeMore {reason : ArrayFault} {has : List Char → Prop} {faulty : Prop}
    (h : (takeMore feed size phase w reason).failure? = some f)
    (hfaulty : w.source.broken = true → faulty) : Explains has faulty f := by
  rw [takeMore] at h
  split at h
  case isTrue =>
    cases h
    exact .format _
  case isFalse =>
    cases hrefill : w.refill size with
    | ok v =>
      rw [hrefill] at h
      cases h
    | error f' =>
      rw [hrefill] at h
      cases h
      rw [Window.refill] at hrefill
      cases hnext : w.source.next size with
      | ok found =>
        rw [hnext] at hrefill
        cases hrefill
      | error f' =>
        rw [hnext] at hrefill
        cases hrefill
        obtain ⟨rfl, hbroken⟩ := Source.next_eq_error hnext
        exact .undecodable (hfaulty hbroken)

lemma exists_parse {cs after : List Char} {j : Json}
    (h : readPrefix (skipSpace cs) = .ok (j, after)) :
    ∃ front, front ≠ [] ∧ cs = front ++ after ∧ parse front = .ok j := by
  obtain ⟨used, hused, hspells⟩ := ((reads_iff _ _).mpr h).spells
  obtain ⟨front, hfront, hblank⟩ := hspells.behind_blanks hused
  have hskip := hblank []
  rw [List.append_nil] at hskip
  refine ⟨front, ?_, hfront, parse_eq_ok_iff.mpr ⟨[], hskip ▸ ?_, rfl⟩⟩
  · rintro rfl
    exact hspells.ne_nil (List.append_eq_nil_iff.mp hskip.symm).1
  · exact hspells deepest (Nat.le_refl _) [] fun _ _ => by simp [Ends]

lemma infix_text {front after : List Char} (h : w.buffer = front ++ after) :
    front <:+: w.text := by
  refine ⟨[], after ++ w.source.chars, ?_⟩
  rw [Window.text, h, List.nil_append, List.append_assoc]

lemma precedes_takeElement
    (h : (takeElement feed size phase { w with buffer := skipSpace w.buffer }).next? = some q) :
    Precedes (window phase w) q := by
  have hblanks : skipSpace w.buffer <:+ w.buffer := List.dropWhile_suffix _
  rw [takeElement] at h
  cases hread : readPrefix (skipSpace w.buffer) with
  | error e =>
    simp only [hread] at h
    cases e with
    | malformed => exact .of_buffer hblanks (precedes_takeMore h)
    | longNumber | tooDeep => cases h
  | ok found =>
    obtain ⟨document, after⟩ := found
    simp only [hread] at h
    split at h
    · exact .of_buffer hblanks (precedes_takeMore h)
    · obtain ⟨front, hne, hfront, -⟩ := exists_parse hread
      rw [next_deliver h]
      exact precedes_window hfront hne

lemma explains_takeElement
    (h : (takeElement feed size phase { w with buffer := skipSpace w.buffer }).failure? = some f) :
    Explains (· <:+: w.text) (w.source.broken = true) f := by
  rw [takeElement] at h
  cases hread : readPrefix (skipSpace w.buffer) with
  | error e =>
    have hparse : parse w.buffer = .error e := parse_eq_error ((reads_iff _ _).mpr hread)
    have hpiece : w.buffer <:+: w.text := infix_text (List.append_nil _).symm
    simp only [hread] at h
    cases e with
    | malformed => exact explains_takeMore h id
    | longNumber | tooDeep =>
      cases h
      exact .limit hpiece hparse nofun
  | ok found =>
    obtain ⟨document, after⟩ := found
    simp only [hread] at h
    split at h
    · exact explains_takeMore h id
    · -- The record need not fill the buffer, but the piece that it takes up is a document.
      obtain ⟨front, -, hfront, hparse⟩ := exists_parse hread
      exact explains_deliver (infix_text hfront) hparse h

/-- What can become of a window on the array. -/
inductive WindowMove (feed : Path) (size : Int) (phase : Phase) (w : Window) : Move ArrayPlace → Prop
  | more (reason : ArrayFault) :
    WindowMove feed size phase w (takeMore feed size phase { w with buffer := [] } reason)
  | shift {phase' : Phase} {front rest : List Char} (hbuffer : w.buffer = front ++ rest)
    (hfront : front ≠ []) :
    WindowMove feed size phase w (.go (window phase' { w with buffer := rest }))
  | close {front rest : List Char} (hbuffer : w.buffer = front ++ rest) (hfront : front ≠ []) :
    WindowMove feed size phase w (.go (behind rest w.source))
  | fault (reason : FormatError) : WindowMove feed size phase w (.stop (some (.format reason)))
  | element :
    WindowMove feed size phase w (takeElement feed size phase { w with buffer := skipSpace w.buffer })

lemma windowMove (feed : Path) (size : Int) (phase : Phase) (w : Window) :
    WindowMove feed size phase w ((window phase w).move feed size) := by
  rw [ArrayPlace.move]
  obtain ⟨blanks, hblanks, -⟩ := exists_skipSpace w.buffer
  cases hbuffer : skipSpace w.buffer with
  | nil => exact .more .endOfArray
  | cons c rest =>
    have hfront : w.buffer = (blanks ++ [c]) ++ rest := by
      rw [List.append_assoc, List.singleton_append, ← hbuffer]
      exact hblanks
    have hne : blanks ++ [c] ≠ [] := by simp
    dsimp only
    split
    case isTrue =>
      split
      · exact .shift hfront hne
      · exact .fault _
    case isFalse =>
      split
      case isTrue => exact .close hfront hne
      case isFalse =>
        split
        case isTrue =>
          split
          · exact .shift hfront hne
          · exact .fault _
        case isFalse =>
          rw [← hbuffer]
          exact .element

inductive BehindMove (source : Source) : Move ArrayPlace → Prop
  | fault (reason : FormatError) : BehindMove source (.stop (some (.format reason)))
  | broken (h : source.broken = true) : BehindMove source (.stop (some .undecodable))
  | finish : BehindMove source (.stop none)
  | shift {piece : List Char} {following : Source} (hchars : source.chars = piece ++ following.chars)
    (hbroken : following.broken = source.broken) (hpiece : piece ≠ []) :
    BehindMove source (.go (behind piece following))

lemma behindMove (feed : Path) (size : Int) (rest : List Char) (source : Source) :
    BehindMove source ((ArrayPlace.behind rest source).move feed size) := by
  rw [ArrayPlace.move]
  split
  case isTrue => exact .fault _
  case isFalse =>
    cases hnext : source.next size with
    | error f =>
      obtain ⟨rfl, hbroken⟩ := Source.next_eq_error hnext
      exact .broken hbroken
    | ok found =>
      obtain ⟨piece, following⟩ := found
      obtain ⟨hchars, hbroken⟩ := Source.next_eq_ok hnext
      cases piece with
      | nil => exact .finish
      | cons c piece => exact .shift hchars hbroken (List.cons_ne_nil c piece)

/-- Every move of the array leads to a place with less to be read. -/
lemma precedes_next (h : (p.move feed size).next? = some q) : Precedes p q := by
  cases p with
  | behind rest source =>
    generalize hmove : (ArrayPlace.behind rest source).move feed size = m at h
    cases hmove ▸ behindMove feed size rest source with
    | fault | broken | finish => cases h
    | shift hchars hbroken hpiece =>
      cases h
      have hpositive := List.length_pos_iff.mpr hpiece
      refine ⟨?_, hbroken, ?_⟩
      · simp only [ArrayPlace.text, hchars]
        exact List.suffix_append rest _
      · simp only [ArrayPlace.left, hchars, List.length_append]
        omega
  | window phase w =>
    generalize hmove : (window phase w).move feed size = m at h
    cases hmove ▸ windowMove feed size phase w with
    | more => exact .of_buffer List.nil_suffix (precedes_takeMore h)
    | shift hbuffer hfront =>
      cases h
      exact precedes_window hbuffer hfront
    | close hbuffer hfront =>
      cases h
      have hrest : Precedes (window phase w) (window phase _) := precedes_window hbuffer hfront
      refine ⟨hrest.text, hrest.broken, Nat.lt_of_le_of_lt ?_ hrest.left⟩
      simp only [ArrayPlace.left, Window.left]
      omega
    | fault => cases h
    | element => exact precedes_takeElement h

lemma explains_stop (h : (p.move feed size).failure? = some f) :
    Explains (· <:+: p.text) (p.broken = true) f := by
  cases p with
  | behind rest source =>
    generalize hmove : (ArrayPlace.behind rest source).move feed size = m at h
    cases hmove ▸ behindMove feed size rest source with
    | fault =>
      cases h
      exact .format _
    | broken hbroken =>
      cases h
      exact .undecodable hbroken
    | finish | shift => cases h
  | window phase w =>
    generalize hmove : (window phase w).move feed size = m at h
    cases hmove ▸ windowMove feed size phase w with
    | more => exact explains_takeMore h id
    | shift | close => cases h
    | fault =>
      cases h
      exact .format _
    | element => exact explains_takeElement h

lemma closeArray_succ (feed : Path) (size : Int) (n : Nat) (rest : List Char) (source : Source) :
    closeArray feed size (n + 1) rest source =
      match (ArrayPlace.behind rest source).move feed size with
      | .go (.behind piece following) => closeArray feed size n piece following
      | .stop failure => ([], failure)
      | _ => ([], none) := by
  rw [closeArray, ArrayPlace.move]
  split
  · rfl
  · rcases source.next size with f | ⟨_ | ⟨c, piece⟩, following⟩ <;> rfl

lemma runs_closeArray {rest : List Char} {source : Source} (hn : source.chars.length < n) :
    Runs (ArrayPlace.move feed size) (.behind rest source) (closeArray feed size n rest source) := by
  induction n generalizing rest source with
  | zero => omega
  | succ n ih =>
    rw [closeArray_succ]
    generalize hmove : (ArrayPlace.behind rest source).move feed size = m
    cases hmove ▸ behindMove feed size rest source with
    | fault | broken | finish => exact .stop hmove
    | shift hchars _ hpiece =>
      have hpositive := List.length_pos_iff.mpr hpiece
      rw [hchars, List.length_append] at hn
      exact .go hmove (ih (by omega))

lemma runs_readArray (hn : w.left < n) :
    Runs (ArrayPlace.move feed size) (window phase w) (readArray feed size n phase w) := by
  induction n generalizing phase w with
  | zero => omega
  | succ n ih =>
    rw [readArray_succ]
    refine .of_outcome fun q hq => ?_
    have hless := (precedes_next hq).left
    cases q with
    | window phase' v =>
      refine ih ?_
      simp only [ArrayPlace.left] at hless
      omega
    | behind rest source =>
      -- What follows the last bracket is read with a count of its own.
      exact runs_closeArray (by omega)

lemma explains_array {o : Outcome} (h : Runs (ArrayPlace.move feed size) p o)
    (ho : o.2 = some f) : Explains (· <:+: p.text) (p.broken = true) f := by
  refine h.failure (P := fun p f => Explains (· <:+: p.text) (p.broken = true) f)
    (fun p f hp => explains_stop hp) (fun p q f hpq hq => ?_) ho
  have hless := precedes_next hpq
  exact hq.imp (fun piece hpiece => hpiece.trans hless.text.isInfix) (hless.broken ▸ ·)

end Array

variable {feed : Path} {content : Bytes} {size : Int} {cs : List Char} {o : Outcome}

/-- How the feed is iterated to its end: the first character that is not blank tells how its records
are read, and then they are. -/
inductive Iterates (feed : Path) (content : Bytes) (size : Int) : Outcome → Prop
  | blank (h : (Source.ofBytes content).chars.dropWhile isBlank = [])
    (hwhole : (Source.ofBytes content).broken = false) : Iterates feed content size ([], none)
  | faulty (h : (Source.ofBytes content).chars.dropWhile isBlank = [])
    (hbroken : (Source.ofBytes content).broken = true) :
    Iterates feed content size ([], some .undecodable)
  | array {rest : List Char} {o : Outcome}
    (h : (Source.ofBytes content).chars.dropWhile isBlank = '[' :: rest)
    (hruns : Runs (ArrayPlace.move feed size)
      (.window .opening ⟨[], .inPieces content size, false⟩) o) : Iterates feed content size o
  | lines {c : Char} {rest : List Char} {o : Outcome}
    (h : (Source.ofBytes content).chars.dropWhile isBlank = c :: rest) (hc : c ≠ '[')
    (hruns : Runs (LinePlace.move feed (Source.ofBytes content).broken)
      (.line 1 (Source.ofBytes content).chars) o) : Iterates feed content size o

lemma iterates_read (feed : Path) (content : Bytes) (size : Int) :
    Iterates feed content size (read feed content size) := by
  rw [read]
  cases h : (Source.ofBytes content).chars.dropWhile isBlank with
  | nil =>
    cases hbroken : (Source.ofBytes content).broken with
    | false => exact .blank h hbroken
    | true => exact .faulty h hbroken
  | cons c rest =>
    dsimp only
    split
    case isTrue hc =>
      subst hc
      exact .array h (runs_readArray (by simp [Window.left]))
    case isFalse hc => exact .lines h hc (runs_readLines (Nat.lt_succ_self _))

lemma Iterates.unique {o' : Outcome} (h : Iterates feed content size o)
    (h' : Iterates feed content size o') : o = o' := by
  cases h with
  | blank h hwhole =>
    cases h' with
    | blank => rfl
    | faulty _ hbroken => cases hwhole.symm.trans hbroken
    | array h' | lines h' => cases h.symm.trans h'
  | faulty h hbroken =>
    cases h' with
    | blank _ hwhole => cases hwhole.symm.trans hbroken
    | faulty => rfl
    | array h' | lines h' => cases h.symm.trans h'
  | array h hruns =>
    cases h' with
    | blank h' | faulty h' => cases h.symm.trans h'
    | array _ hruns' => exact hruns.unique hruns'
    | lines h' hc =>
      cases h.symm.trans h'
      exact absurd rfl hc
  | lines h hc hruns =>
    cases h' with
    | blank h' | faulty h' => cases h.symm.trans h'
    | array h' =>
      cases h.symm.trans h'
      exact absurd rfl hc
    | lines _ _ hruns' => exact hruns.unique hruns'

lemma source_of_text (h : Utf8.encode (Text.ofChars cs) = .ok content) (size : Int) :
    Source.ofBytes content = ⟨Disk.plainLines cs, false⟩ ∧
      Source.inPieces content size = ⟨Disk.plainLines cs, false⟩ := by
  have hdecode := (Utf8.decode_eq_ok_iff content _).mpr h
  have hwhole : Source.whole (Text.ofChars cs) = ⟨Disk.plainLines cs, false⟩ := by
    rw [Source.whole, Text.chars?_ofChars, Option.getD_some]
  refine ⟨?_, ?_⟩
  · rw [Source.ofBytes, hdecode]
    exact hwhole
  · rw [Source.inPieces, hdecode]
    exact hwhole

/-- Characters that stand together in what can be read of the feed. -/
def PieceOf (content : Bytes) (size : Int) (piece : List Char) : Prop :=
  piece <:+: (Source.ofBytes content).chars ∨ piece <:+: (Source.inPieces content size).chars

def NoText (content : Bytes) : Prop := ∀ cs, Utf8.encode (Text.ofChars cs) ≠ .ok content

lemma pieceOf_iff (h : Utf8.encode (Text.ofChars cs) = .ok content) {piece : List Char} :
    PieceOf content size piece ↔ piece <:+: Disk.plainLines cs := by
  obtain ⟨hlines, hpieces⟩ := source_of_text h size
  rw [PieceOf, hlines, hpieces, or_self]

lemma noText_of_ofBytes (h : (Source.ofBytes content).broken = true) : NoText content := by
  intro cs hcs
  rw [(source_of_text hcs 1).1] at h
  cases h

lemma noText_of_inPieces (h : (Source.inPieces content size).broken = true) : NoText content := by
  intro cs hcs
  rw [(source_of_text hcs size).2] at h
  cases h

lemma Iterates.explains {f : Failure} (h : Iterates feed content size o) (ho : o.2 = some f) :
    Explains (PieceOf content size) (NoText content) f := by
  cases h with
  | blank => cases ho
  | faulty _ hbroken =>
    cases ho
    exact .undecodable (noText_of_ofBytes hbroken)
  | array _ hruns =>
    exact (explains_array hruns ho).imp (fun piece hpiece => .inr hpiece) noText_of_inPieces
  | lines _ _ hruns =>
    exact (explains_lines hruns ho).imp (fun piece hpiece => .inl hpiece) noText_of_ofBytes

/-- The iteration of a feed comes to an end. Where it fails, the feed is not well-formed, or holds
bytes that are no text, or a record with an infinite height, or what the reader of documents has no
room for. -/
theorem iteration_ends {d : Disk} (hread : d.read feed = .ok content) (size : Int) :
    (∀ o, readFrom d feed size = o ↔ Iterates feed content size o) ∧
      (∀ f, (readFrom d feed size).2 = some f →
        Explains (PieceOf content size) (NoText content) f) ∧
      ∀ cs, Utf8.encode (Text.ofChars cs) = .ok content →
        ∀ piece, PieceOf content size piece ↔ piece <:+: Disk.plainLines cs := by
  have heq : readFrom d feed size = read feed content size := by
    rw [readFrom, Disk.readOr_of_ok hread]
  rw [heq]
  refine ⟨fun o => ⟨?_, (iterates_read feed content size).unique⟩, fun f hf => ?_, fun cs hcs piece =>
    pieceOf_iff hcs⟩
  · rintro rfl
    exact iterates_read feed content size
  · exact (iterates_read feed content size).explains hf

def holding (content : Bytes) : Disk := ⟨[([Text.ofString "feed"], content)], []⟩

lemma read_holding (content : Bytes) : (holding content).read (.ofText "feed") = .ok content := rfl

theorem iteration_of_spaced_ends : ∃ content records,
    (holding content).read (.ofText "feed") = .ok content ∧ records.length = 2 ∧
      readFrom (holding content) (.ofText "feed") 3 = (records, none) ∧
      Iterates (.ofText "feed") content 3 (records, none) := by
  have hends : (readFrom (holding ((Utf8.encode? spaced).getD [])) (.ofText "feed") 3).2 = none ∧
      (readFrom (holding ((Utf8.encode? spaced).getD [])) (.ofText "feed") 3).1.length = 2 := by
    decide +kernel
  generalize (Utf8.encode? spaced).getD [] = content at hends
  rcases hpair : readFrom (holding content) (.ofText "feed") 3 with ⟨records, failure⟩
  rw [hpair] at hends
  obtain ⟨rfl, hlength⟩ := hends
  have hread := read_holding content
  exact ⟨content, records, hread, hlength, hpair, ((iteration_ends hread 3).1 _).mp hpair⟩

def endless : Bytes := Utf8.asciiBytes
  ("\x7b\"pointer\":\"AAAAAAAAAAAAAAAAAAAAAAAAAAAAAAAAAAAAAAAAAAE=\"," ++
    "\"lastSeenAt\":Infinity\x7d").toList

/-- An array with half a character behind it. -/
def severed : Bytes := [0x5B, 0x5D, 0xC3]

theorem faults_have_other_names :
    (readFrom (holding endless) (.ofText "feed") 65536).2 = some .overflow ∧
      (readFrom (holding severed) (.ofText "feed") 65536).2 = some .undecodable ∧
      ∀ f, f = .overflow ∨ f = .undecodable →
        ¬ f.IsFormat ∧ ∀ e : ReadError, f ≠ e.failure .wrongValue := by
  refine ⟨by decide +kernel, by decide +kernel, ?_⟩
  rintro f (rfl | rfl) <;> exact ⟨id, fun e => by cases e <;> exact nofun⟩

end ChainReplay.Feed
