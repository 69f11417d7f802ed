import ChainReplay.Proofs.Json.Scalar

/-! The runs of the reader as a relation, without a count of steps, and what a run on one text says
about others: the same text with something else behind it, and another limit on nesting. -/

namespace ChainReplay.Json

/-- At `none` a value is read, at `some k` the rest of what is open. -/
inductive Reads : Nat → Option Opened → List Char → Except ReadError (Json × List Char) → Prop
  | scalar {d : Nat} {cs : List Char} (hopening : opening cs = none) :
    Reads d none cs (readScalar cs)
  | tooDeep {k : Opened} {cs rest : List Char} (hopening : opening cs = some (k, rest)) :
    Reads 0 none cs (.error .tooDeep)
  | empty {d : Nat} {k : Opened} {cs rest after : List Char}
    (hopening : opening cs = some (k, rest)) (hclosing : behind k.closing rest = some after) :
    Reads (d + 1) none cs (.ok (k.value, after))
  | opened {d : Nat} {k : Opened} {cs rest : List Char} {r : Except ReadError (Json × List Char)}
    (hopening : opening cs = some (k, rest)) (hclosing : behind k.closing rest = none)
    (hrest : Reads d (some k) rest r) : Reads (d + 1) none cs r
  | noEntry {d : Nat} {k : Opened} {cs : List Char} (hfront : k.front? cs = none) :
    Reads d (some k) cs (.error .malformed)
  | failed {d : Nat} {k : Opened} {cs rest : List Char} {add : Json → Opened} {e : ReadError}
    (hfront : k.front? cs = some (add, rest)) (hvalue : Reads d none (skipSpace rest) (.error e)) :
    Reads d (some k) cs (.error e)
  | next {d : Nat} {k : Opened} {cs rest after following : List Char} {add : Json → Opened}
    {v : Json} {r : Except ReadError (Json × List Char)} (hfront : k.front? cs = some (add, rest))
    (hvalue : Reads d none (skipSpace rest) (.ok (v, after)))
    (hcomma : behind ',' after = some following) (hrest : Reads d (some (add v)) following r) :
    Reads d (some k) cs r
  | last {d : Nat} {k : Opened} {cs rest after following : List Char} {add : Json → Opened}
    {v : Json} (hfront : k.front? cs = some (add, rest))
    (hvalue : Reads d none (skipSpace rest) (.ok (v, after))) (hcomma : behind ',' after = none)
    (hclosing : behind k.closing after = some following) :
    Reads d (some k) cs (.ok ((add v).value, following))
  | stuck {d : Nat} {k : Opened} {cs rest after : List Char} {add : Json → Opened} {v : Json}
    (hfront : k.front? cs = some (add, rest))
    (hvalue : Reads d none (skipSpace rest) (.ok (v, after))) (hcomma : behind ',' after = none)
    (hclosing : behind k.closing after = none) : Reads d (some k) cs (.error .malformed)

lemma opening_local {k : Opened} {cs rest : List Char} (h : opening cs = some (k, rest)) :
    ∃ c, cs = c :: rest ∧ ∀ r, opening (c :: r) = some (k, r) := by
  rw [opening.eq_def] at h
  split at h
  case h_1 =>
    cases h
    exact ⟨'[', rfl, fun r => rfl⟩
  case h_2 =>
    cases h
    exact ⟨'\x7b', rfl, fun r => rfl⟩
  case h_3 => cases h

lemma opening_cons_none {c : Char} {cs : List Char} (h : opening (c :: cs) = none) (ds : List Char) :
    opening (c :: ds) = none := by
  apply opening_eq_none
  · rintro rest ⟨⟩
    cases h
  · rintro rest ⟨⟩
    cases h

lemma behind_append_none {c : Char} {cs ds : List Char} (h : behind c (cs ++ ds) = none)
    (hcs : skipSpace cs ≠ []) (es : List Char) : behind c (cs ++ es) = none := by
  obtain ⟨d, front, hfront⟩ := List.exists_cons_of_ne_nil hcs
  rw [behind_eq_none_iff, skipSpace_append hcs, hfront] at h ⊢
  rintro rest ⟨⟩
  exact h (front ++ ds) rfl

lemma behind_comma_none {k : Opened} {cs rest : List Char} (h : behind k.closing cs = some rest) :
    behind ',' cs = none := by
  rw [behind_eq_some_iff] at h
  rw [behind_eq_none_iff, h]
  rintro after heq
  cases k <;> cases heq

/-- What may follow an entry does not continue a number. -/
lemma ends_of_delimiter {d : Char} {k : Opened} (hd : isSpace d = true ∨ d = ',' ∨ d = k.closing)
    (cs : List Char) : Ends isNumeric (d :: cs) := by
  have hnumeric : isNumeric d = false := by
    rcases hd with hspace | rfl | rfl
    · simp only [isSpace, Bool.or_eq_true, decide_eq_true_eq] at hspace
      rcases hspace with ((rfl | rfl) | rfl) | rfl <;> decide
    · decide
    · cases k <;> rfl
  rintro c ⟨⟩
  exact hnumeric

namespace Opened

/-- The value that an array or an object may become once more entries have been read. -/
def Extended : Opened → Json → Prop
  | array items, j => ∃ more, j = .array (items.reverse ++ more)
  | object _, j => ∃ members, j = .object members

lemma Extended.refl (k : Opened) : k.Extended k.value := by
  cases k with
  | array items => exact ⟨[], by rw [List.append_nil, value]⟩
  | object members => exact ⟨members, rfl⟩

lemma Extended.of_add {k : Opened} {cs rest : List Char} {add : Json → Opened}
    (hfront : k.front? cs = some (add, rest)) {v j : Json} (h : (add v).Extended j) :
    k.Extended j := by
  cases k with
  | array items =>
    cases hfront
    obtain ⟨more, rfl⟩ := h
    exact ⟨v :: more, by simp⟩
  | object members =>
    obtain ⟨entry, -, heq⟩ := Option.map_eq_some_iff.mp hfront
    cases heq
    exact h

end Opened

namespace Reads

variable {d : Nat} {k : Option Opened} {cs : List Char} {r : Except ReadError (Json × List Char)}

lemma of_nil (h : Reads d none [] r) : r = .error .malformed := by
  cases h with
  | scalar => rfl
  | tooDeep hopening | empty hopening | opened hopening => cases hopening

/-- Where an entry is due, there is one unless the text is malformed. -/
lemma solid {k : Opened} (h : Reads d (some k) cs r) (hr : r ≠ .error .malformed) :
    skipSpace cs ≠ [] := by
  intro hblank
  cases h with
  | noEntry | stuck => exact hr rfl
  | failed hfront hvalue =>
    obtain ⟨used, rfl, -⟩ := Opened.front?_local hfront
    rw [skipSpace_eq_nil hblank used rfl] at hvalue
    exact hr (of_nil hvalue)
  | next hfront hvalue | last hfront hvalue =>
    obtain ⟨used, rfl, -⟩ := Opened.front?_local hfront
    rw [skipSpace_eq_nil hblank used rfl] at hvalue
    cases of_nil hvalue

/-- The characters spell the value, which is then read whatever follows and however deep. -/
def Spells (d : Nat) (k : Option Opened) (used : List Char) (j : Json) : Prop :=
  ∀ e ≥ d, ∀ rest, (k = none → IsNumber j → Ends isNumeric rest) →
    Reads e k (used ++ rest) (.ok (j, rest))

lemma Spells.ne_nil {used : List Char} {j : Json} (h : Spells d none used j) : used ≠ [] := by
  rintro rfl
  have hread := h d (Nat.le_refl d) [] fun _ _ => by simp [Ends]
  cases of_nil hread

lemma Spells.solid {k : Opened} {used : List Char} {j : Json} (h : Spells d (some k) used j) :
    skipSpace used ≠ [] := by
  have hread := h d (Nat.le_refl d) [] nofun
  rw [List.append_nil] at hread
  exact Reads.solid hread (by simp)

lemma Spells.behind_blanks {rest used : List Char} {j : Json} {after : List Char}
    (h : Spells d none used j) (hrest : skipSpace rest = used ++ after) :
    ∃ front, rest = front ++ after ∧
      ∀ ds, skipSpace (front ++ ds) = used ++ ds := by
  obtain ⟨blanks, hcs, hblanks⟩ := exists_skipSpace rest
  obtain ⟨c, cs, hused⟩ := List.exists_cons_of_ne_nil h.ne_nil
  have hc : Ends isSpace (c :: cs) := by
    have hends := ends_dropWhile isSpace rest
    rw [← skipSpace, hrest, hused] at hends
    exact hends
  refine ⟨blanks ++ used, by rw [hcs, hrest, List.append_assoc], fun ds => ?_⟩
  rw [List.append_assoc, hused]
  exact skipSpace_blanks hblanks hc

theorem spells {j : Json} {rest : List Char} (h : Reads d k cs (.ok (j, rest))) :
    ∃ used, cs = used ++ rest ∧ Spells d k used j := by
  -- Each part ends in front of a mark, and no number goes on with one.
  generalize hr : Except.ok (j, rest) = r at h
  induction h generalizing j rest with
  | @scalar d cs hopening =>
    obtain ⟨c, used, rfl, hread⟩ := readScalar_local hr.symm
    refine ⟨c :: used, rfl, fun e _ after hafter => ?_⟩
    rw [← hread after (hafter rfl)]
    exact .scalar (opening_cons_none hopening _)
  | tooDeep | noEntry | failed | stuck => cases hr
  | @empty d k cs inside after hopening hclosing =>
    cases hr
    obtain ⟨c, rfl, hopen⟩ := opening_local hopening
    obtain ⟨b, used, rfl, -, hclose⟩ := behind_local hclosing
    refine ⟨c :: b :: used, rfl, fun e he after _ => ?_⟩
    obtain ⟨e, rfl⟩ := Nat.exists_eq_add_of_lt he
    exact .empty (hopen _) (hclose after)
  | @opened d k cs inside r hopening hclosing hrest ih =>
    obtain ⟨c, rfl, hopen⟩ := opening_local hopening
    obtain ⟨used, rfl, hspells⟩ := ih hr
    refine ⟨c :: used, rfl, fun e he after _ => ?_⟩
    obtain ⟨e, rfl⟩ := Nat.exists_eq_add_of_lt he
    exact .opened (hopen _) (behind_append_none hclosing hspells.solid after)
      (hspells (d + e) (Nat.le_add_right d e) after nofun)
  | @next d k cs front after following add v r hfront hvalue hcomma hrest ihvalue ihrest =>
    obtain ⟨usedFront, rfl, hreadFront⟩ := Opened.front?_local hfront
    obtain ⟨usedValue, hskip, hspellsValue⟩ := ihvalue rfl
    obtain ⟨usedBlank, rfl, hreadBlank⟩ := hspellsValue.behind_blanks hskip
    obtain ⟨c, usedComma, rfl, hc, hreadComma⟩ := behind_local hcomma
    obtain ⟨usedRest, rfl, hspellsRest⟩ := ihrest hr
    refine ⟨usedFront ++ (usedBlank ++ (c :: usedComma ++ usedRest)), by simp, fun e he ds _ => ?_⟩
    simp only [List.append_assoc]
    refine .next (hreadFront _) ?_ (hreadComma _) (hspellsRest e he ds nofun)
    rw [hreadBlank]
    exact hspellsValue e he _ fun _ _ => ends_of_delimiter (k := k) (hc.imp_right Or.inl) _
  | @last d k cs front after following add v hfront hvalue hcomma hclosing ih =>
    cases hr
    obtain ⟨usedFront, rfl, hreadFront⟩ := Opened.front?_local hfront
    obtain ⟨usedValue, hskip, hspellsValue⟩ := ih rfl
    obtain ⟨usedBlank, rfl, hreadBlank⟩ := hspellsValue.behind_blanks hskip
    obtain ⟨c, usedClosing, rfl, hc, hreadClosing⟩ := behind_local hclosing
    refine ⟨usedFront ++ (usedBlank ++ (c :: usedClosing)), by simp, fun e he ds _ => ?_⟩
    simp only [List.append_assoc]
    refine .last (hreadFront _) ?_ (behind_comma_none (hreadClosing ds)) (hreadClosing ds)
    rw [hreadBlank]
    exact hspellsValue e he _ fun _ _ => ends_of_delimiter (hc.imp_right Or.inr) _

/-- With one level less, the outcome is the same unless that level is needed. -/
theorem shallower (h : Reads (d + 1) k cs r) : Reads d k cs r ∨ Reads d k cs (.error .tooDeep) := by
  generalize he : d + 1 = e at h
  induction h generalizing d with
  | scalar hopening => exact .inl (.scalar hopening)
  | tooDeep => cases he
  | @empty e k cs inside after hopening hclosing =>
    obtain rfl : d = e := Nat.succ.inj he
    cases d with
    | zero => exact .inr (.tooDeep hopening)
    | succ d => exact .inl (.empty hopening hclosing)
  | @opened e k cs inside r hopening hclosing hrest ih =>
    obtain rfl : d = e := Nat.succ.inj he
    cases d with
    | zero => exact .inr (.tooDeep hopening)
    | succ d => exact (ih rfl).imp (.opened hopening hclosing) (.opened hopening hclosing)
  | noEntry hfront => exact .inl (.noEntry hfront)
  | failed hfront hvalue ih => exact (ih he).imp (.failed hfront) (.failed hfront)
  | next hfront hvalue hcomma hrest ihvalue ihrest =>
    rcases ihvalue he with hvalue | hvalue
    · exact (ihrest he).imp (.next hfront hvalue hcomma) (.next hfront hvalue hcomma)
    · exact .inr (.failed hfront hvalue)
  | last hfront hvalue hcomma hclosing ih =>
    exact (ih he).imp (.last hfront · hcomma hclosing) (.failed hfront)
  | stuck hfront hvalue hcomma hclosing ih =>
    exact (ih he).imp (.stuck hfront · hcomma hclosing) (.failed hfront)

/-- Where a beginning of the text is nested too deep, so is the text. -/
theorem tooDeep_append (h : Reads d k cs (.error .tooDeep)) (ds : List Char) :
    Reads d k (cs ++ ds) (.error .tooDeep) := by
  have hskip {d : Nat} {rest : List Char}
      (hvalue : Reads d none (skipSpace rest) (.error .tooDeep)) :
      skipSpace (rest ++ ds) = skipSpace rest ++ ds := by
    refine skipSpace_append (fun hnil => ?_) ds
    rw [hnil] at hvalue
    cases of_nil hvalue
  generalize hr : (.error .tooDeep : Except ReadError (Json × List Char)) = r at h
  induction h with
  | scalar hopening => exact absurd hr.symm readScalar_ne_tooDeep
  | empty | last | noEntry | stuck => cases hr
  | tooDeep hopening =>
    obtain ⟨c, rfl, hopen⟩ := opening_local hopening
    exact .tooDeep (hopen _)
  | @opened d k cs inside r hopening hclosing hrest ih =>
    obtain ⟨c, rfl, hopen⟩ := opening_local hopening
    have hsolid := hrest.solid (by rw [← hr]; exact nofun)
    rw [← List.append_nil inside] at hclosing
    exact .opened (hopen _) (behind_append_none hclosing hsolid ds) (ih hr)
  | failed hfront hvalue ih =>
    cases hr
    obtain ⟨used, rfl, hreadFront⟩ := Opened.front?_local hfront
    rw [List.append_assoc]
    exact .failed (hreadFront _) (hskip hvalue ▸ ih rfl)
  | next hfront hvalue hcomma hrest ihvalue ihrest =>
    obtain ⟨usedFront, rfl, hreadFront⟩ := Opened.front?_local hfront
    obtain ⟨usedValue, hused, hspells⟩ := hvalue.spells
    obtain ⟨usedBlank, rfl, hreadBlank⟩ := hspells.behind_blanks hused
    obtain ⟨c, usedComma, rfl, hc, hreadComma⟩ := behind_local hcomma
    simp only [List.append_assoc]
    refine .next (hreadFront _) ?_ (hreadComma _) (ihrest hr)
    rw [hreadBlank]
    exact hspells _ (Nat.le_refl _) _ fun _ _ =>
      ends_of_delimiter (k := .array []) (hc.imp_right Or.inl) _

/-- Entries are added to what is open until it is closed. -/
theorem extended {k : Opened} {j : Json} {rest : List Char}
    (h : Reads d (some k) cs (.ok (j, rest))) : k.Extended j := by
  generalize hr : Except.ok (j, rest) = r at h
  generalize ho : some k = o at h
  induction h generalizing k j rest with
  | scalar | tooDeep | empty | opened => cases ho
  | noEntry | failed | stuck => cases hr
  | next hfront hvalue hcomma hrest ihvalue ihrest =>
    cases ho
    exact (ihrest hr rfl).of_add hfront
  | @last _ k _ _ _ _ add v hfront =>
    cases ho
    cases hr
    exact (Opened.Extended.refl (add v)).of_add hfront

lemma extended_of_opening {k : Opened} {inside : List Char} (hopening : opening cs = some (k, inside))
    {j : Json} {rest : List Char} (h : Reads d none cs (.ok (j, rest))) : k.Extended j := by
  generalize hr : Except.ok (j, rest) = r at h
  cases h with
  | scalar hnone =>
    rw [hopening] at hnone
    cases hnone
  | tooDeep => cases hr
  | empty hopened =>
    rw [hopening] at hopened
    cases hopened
    cases hr
    exact .refl k
  | opened hopened hclosing hrest =>
    rw [hopening] at hopened
    cases hopened
    subst hr
    exact hrest.extended

end Reads

/-- Reading with a count of steps. -/
def run (n depth : Nat) : Option Opened → List Char → Except ReadError (Json × List Char)
  | none, cs => readValue n depth cs
  | some k, cs => readRest n depth k cs

/-- So many steps are enough. -/
def steps : Option Opened → List Char → Nat
  | none, cs => 2 * cs.length + 1
  | some _, cs => 2 * cs.length + 2

lemma length_skipSpace (cs : List Char) : (skipSpace cs).length ≤ cs.length :=
  (List.dropWhile_sublist isSpace).length_le

lemma length_of_opening {k : Opened} {cs rest : List Char} (h : opening cs = some (k, rest)) :
    rest.length + 1 = cs.length := by
  obtain ⟨c, rfl, -⟩ := opening_local h
  rfl

lemma length_of_behind {c : Char} {cs rest : List Char} (h : behind c cs = some rest) :
    rest.length + 1 ≤ cs.length := by
  obtain ⟨d, used, rfl, -⟩ := behind_local h
  simp only [List.length_append, List.length_cons]
  omega

lemma length_of_front? {k : Opened} {cs rest : List Char} {add : Json → Opened}
    (h : k.front? cs = some (add, rest)) : rest.length ≤ cs.length := by
  obtain ⟨used, rfl, -⟩ := Opened.front?_local h
  simp

lemma Reads.length {d : Nat} {cs rest : List Char} {j : Json}
    (h : Reads d none cs (.ok (j, rest))) : rest.length + 1 ≤ cs.length := by
  obtain ⟨used, rfl, hspells⟩ := spells h
  have hused := List.length_pos_iff.mpr hspells.ne_nil
  rw [List.length_append]
  omega

lemma reads_run (n d : Nat) (k : Option Opened) (cs : List Char) (hn : steps k cs ≤ n) :
    Reads d k cs (run n d k cs) := by
  -- Values and the rests of what is open are read within each other, so the induction is on steps.
  induction n generalizing d k cs with
  | zero => cases k <;> cases hn
  | succ n ih =>
    cases k with
    | none =>
      rw [run, readValue_succ]
      cases hopening : opening cs with
      | none => exact .scalar hopening
      | some p =>
        obtain ⟨k, rest⟩ := p
        have hlength := length_of_opening hopening
        cases d with
        | zero => exact .tooDeep hopening
        | succ d =>
          dsimp only
          cases hclosing : behind k.closing rest with
          | some after => exact .empty hopening hclosing
          | none =>
            have hrest := ih d (some k) rest (by simp only [steps] at hn ⊢; omega)
            exact .opened hopening hclosing hrest
    | some k =>
      rw [run, readRest_succ]
      cases hfront : k.front? cs with
      | none => exact .noEntry hfront
      | some p =>
        obtain ⟨add, rest⟩ := p
        have hlength := Nat.le_trans (length_skipSpace rest) (length_of_front? hfront)
        have hvalue := ih d none (skipSpace rest) (by simp only [steps] at hn ⊢; omega)
        rw [run] at hvalue
        dsimp only
        cases hv : readValue n d (skipSpace rest) with
        | error e =>
          rw [hv] at hvalue
          exact .failed hfront hvalue
        | ok p =>
          obtain ⟨v, after⟩ := p
          rw [hv] at hvalue
          have hafter := hvalue.length
          dsimp only
          cases hcomma : behind ',' after with
          | some following =>
            have hfollowing := length_of_behind hcomma
            have hrest := ih d (some (add v)) following (by simp only [steps] at hn ⊢; omega)
            exact .next hfront hvalue hcomma hrest
          | none =>
            cases hclosing : behind k.closing after with
            | some following => exact .last hfront hvalue hcomma hclosing
            | none => exact .stuck hfront hvalue hcomma hclosing

lemma exists_succ_of_steps {k : Option Opened} {cs : List Char} {n : Nat} (hn : steps k cs ≤ n) :
    ∃ m, n = m + 1 := by
  cases n with
  | zero => cases k <;> cases hn
  | succ n => exact ⟨n, rfl⟩

theorem Reads.run_eq {d : Nat} {k : Option Opened} {cs : List Char}
    {r : Except ReadError (Json × List Char)} (h : Reads d k cs r) (n : Nat)
    (hn : steps k cs ≤ n) : run n d k cs = r := by
  -- Each rule takes one step and leaves the others enough, since they read shorter texts.
  induction h generalizing n with
  | scalar hopening =>
    obtain ⟨n, rfl⟩ := exists_succ_of_steps hn
    simp only [run, readValue_succ, hopening]
  | tooDeep hopening =>
    obtain ⟨n, rfl⟩ := exists_succ_of_steps hn
    simp only [run, readValue_succ, hopening]
  | empty hopening hclosing =>
    obtain ⟨n, rfl⟩ := exists_succ_of_steps hn
    simp only [run, readValue_succ, hopening, hclosing]
  | opened hopening hclosing hrest ih =>
    obtain ⟨n, rfl⟩ := exists_succ_of_steps hn
    have hlength := length_of_opening hopening
    have hread := ih n (by simp only [steps] at hn ⊢; omega)
    rw [run] at hread
    simp only [run, readValue_succ, hopening, hclosing, hread]
  | noEntry hfront =>
    obtain ⟨n, rfl⟩ := exists_succ_of_steps hn
    simp only [run, readRest_succ, hfront]
  | @failed d k cs rest add e hfront hvalue ih =>
    obtain ⟨n, rfl⟩ := exists_succ_of_steps hn
    have hlength := Nat.le_trans (length_skipSpace rest) (length_of_front? hfront)
    have hread := ih n (by simp only [steps] at hn ⊢; omega)
    rw [run] at hread
    simp only [run, readRest_succ, hfront, hread]
  | @next d k cs rest after following add v r hfront hvalue hcomma hrest ihvalue ihrest =>
    obtain ⟨n, rfl⟩ := exists_succ_of_steps hn
    have hlength := Nat.le_trans (length_skipSpace rest) (length_of_front? hfront)
    have hafter := hvalue.length
    have hfollowing := length_of_behind hcomma
    have hread := ihvalue n (by simp only [steps] at hn ⊢; omega)
    have hreadRest := ihrest n (by simp only [steps] at hn ⊢; omega)
    simp only [run] at hread hreadRest
    simp only [run, readRest_succ, hfront, hread, hcomma, hreadRest]
  | @last d k cs rest after following add v hfront hvalue hcomma hclosing ih =>
    obtain ⟨n, rfl⟩ := exists_succ_of_steps hn
    have hlength := Nat.le_trans (length_skipSpace rest) (length_of_front? hfront)
    have hread := ih n (by simp only [steps] at hn ⊢; omega)
    rw [run] at hread
    simp only [run, readRest_succ, hfront, hread, hcomma, hclosing]
  | @stuck d k cs rest after add v hfront hvalue hcomma hclosing ih =>
    obtain ⟨n, rfl⟩ := exists_succ_of_steps hn
    have hlength := Nat.le_trans (length_skipSpace rest) (length_of_front? hfront)
    have hread := ih n (by simp only [steps] at hn ⊢; omega)
    rw [run] at hread
    simp only [run, readRest_succ, hfront, hread, hcomma, hclosing]

/-- The reader takes as many steps as its runs need. -/
theorem reads_iff (cs : List Char) (r : Except ReadError (Json × List Char)) :
    Reads deepest none cs r ↔ readPrefix cs = r := by
  constructor
  · intro h
    exact h.run_eq _ (Nat.le_refl _)
  · rintro rfl
    exact reads_run _ deepest none cs (Nat.le_refl _)

lemma Reads.unique {d : Nat} {k : Option Opened} {cs : List Char}
    {r s : Except ReadError (Json × List Char)} (hr : Reads d k cs r) (hs : Reads d k cs s) :
    r = s :=
  (hr.run_eq _ (Nat.le_refl _)).symm.trans (hs.run_eq _ (Nat.le_refl _))

lemma Reads.isNumber_iff {d : Nat} {c : Char} {cs rest : List Char} {j : Json}
    (h : Reads d none (c :: cs) (.ok (j, rest))) : IsNumber j ↔ beginsNumber c = true := by
  cases hopening : opening (c :: cs) with
  | none => exact isNumber_of_readScalar ((Reads.scalar hopening).unique h)
  | some opened =>
    obtain ⟨k, inside⟩ := opened
    have hextended := h.extended_of_opening hopening
    rw [opening.eq_def] at hopening
    split at hopening
    case h_1 heq =>
      cases hopening
      cases heq
      obtain ⟨more, rfl⟩ := hextended
      exact iff_of_false id (by decide)
    case h_2 heq =>
      cases hopening
      cases heq
      obtain ⟨members, rfl⟩ := hextended
      exact iff_of_false id (by decide)
    case h_3 => cases hopening

/-- More text behind it changes a value only if it is a number. -/
theorem Reads.append_inj {d : Nat} {cs ds rest after : List Char} {j v : Json}
    (h : Reads d none cs (.ok (j, rest))) (happend : Reads d none (cs ++ ds) (.ok (v, after)))
    (hv : ¬IsNumber v) : v = j ∧ after = rest ++ ds := by
  obtain ⟨used, rfl, hspells⟩ := h.spells
  obtain ⟨c, front, rfl⟩ := List.exists_cons_of_ne_nil hspells.ne_nil
  have hj : ¬IsNumber j := fun hj => hv (happend.isNumber_iff.mpr (h.isNumber_iff.mp hj))
  rw [List.append_assoc] at happend
  have hread := hspells d (Nat.le_refl d) (rest ++ ds) fun _ h => absurd h hj
  cases happend.unique hread
  exact ⟨rfl, rfl⟩

theorem parse_eq_ok_iff {cs : List Char} {j : Json} :
    parse cs = .ok j ↔
      ∃ rest, Reads deepest none (skipSpace cs) (.ok (j, rest)) ∧ skipSpace rest = [] := by
  simp only [reads_iff, parse, bind, Except.bind]
  cases readPrefix (skipSpace cs) with
  | error e => simp
  | ok p =>
    obtain ⟨v, after⟩ := p
    simp only [List.isEmpty_iff, Except.ok.injEq, Prod.mk.injEq]
    split
    case isTrue hblank =>
      constructor
      · intro h
        exact ⟨after, ⟨Except.ok.inj h, rfl⟩, hblank⟩
      · rintro ⟨rest, ⟨rfl, -⟩, -⟩
        rfl
    case isFalse hblank =>
      constructor
      · exact nofun
      · rintro ⟨rest, ⟨-, rfl⟩, hrest⟩
        exact absurd hrest hblank

lemma parse_eq_error {cs : List Char} {e : ReadError}
    (h : Reads deepest none (skipSpace cs) (.error e)) : parse cs = .error e := by
  rw [reads_iff] at h
  simp only [parse, bind, Except.bind, h]

end ChainReplay.Json
