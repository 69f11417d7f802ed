import ChainReplay.Ledger.Override
import ChainReplay.Proofs.Execution.Counterpart

/-! What is done to the contracts of counterparts between runs: they are registered, resolved and
overridden alike. -/

namespace ChainReplay.Ledger

variable {o : Offset} {l m l' m' l'' m'' : Ledger}

/-- A step has led from two ledgers to counterparts, and left their surfaces as they were. -/
structure Moved (o : Offset) (l m l' m' : Ledger) : Prop where
  counterpart : l'.Counterpart o m'
  first : l'.surface = l.surface
  second : m'.surface = m.surface
  included : l.codes.Included l'.codes

lemma Counterpart.stay (h : l.Counterpart o m) : Moved o l m l m := ⟨h, rfl, rfl, .refl _⟩

lemma Moved.trans (h : Moved o l m l' m') (h' : Moved o l' m' l'' m'') : Moved o l m l'' m'' where
  counterpart := h'.counterpart
  first := h'.first.trans h.first
  second := h'.second.trans h.second
  included := h.included.trans h'.included

lemma resolveCode_of_known {c : Contract} {code : Bytes} (h : l.codes.find? c.address = some code) :
    l.resolveCode c = (l, .ok { c with code := some code }) := by
  have hset (own : Bytes) : l.setCode c.address own = l := by
    rw [setCode, Table.insertNew, Table.contains, h]
    rfl
  have hfound : l.code? c.address = .ok code := by simp only [Ledger.code?, h]
  rw [resolveCode]
  cases c.ownCode with
  | none => simp only [hfound]
  | some own => simp only [hset, hfound]

lemma Counterpart.found (h : l.Counterpart o m) (a : Address) :
    (l.contracts.find? a = none ∧ m.contracts.find? a = none) ∨
      ∃ c d, l.contracts.find? a = some c ∧ m.contracts.find? a = some d ∧ c.Counterpart o d := by
  have hfind := h.contracts.find? a
  revert hfind
  generalize l.contracts.find? a = x
  generalize m.contracts.find? a = y
  rintro (hcd | _)
  · exact .inr ⟨_, _, rfl, rfl, hcd⟩
  · exact .inl ⟨rfl, rfl⟩

lemma Counterpart.register_of_new (h : l.Counterpart o m) {c d : Contract}
    (hcd : c.Counterpart o d) (hc : c.Known l.codes) (hnew : ¬l.hasContract c.address = true) :
    ∃ l' m', l.register c = .ok l' ∧ m.register d = .ok m' ∧ Moved o l m l' m' := by
  have haddress : d.address = c.address := by
    obtain ⟨-, -, -⟩ := hcd
    rfl
  have hregistered : { l with contracts := l.contracts ++ [(c.address, c)] }.Counterpart o
      { m with contracts := m.contracts ++ [(c.address, d)] } := by
    refine ⟨h.contracts.concat c.address hcd, fun entry hmem => ?_, h.codes, h.handles⟩
    rcases List.mem_append.mp hmem with hmem | hmem
    · exact h.known entry hmem
    · rw [List.mem_singleton.mp hmem]
      exact hc
  rw [Ledger.register, Ledger.register, haddress, ← h.hasContract c.address, if_neg hnew,
    if_neg hnew]
  exact ⟨_, _, rfl, rfl, hregistered.note _ _ _ _, rfl, rfl, .refl _⟩

lemma Counterpart.register (h : l.Counterpart o m) {c d : Contract} (hcd : c.Counterpart o d)
    (hc : c.Known l.codes) :
    Agree (Moved o l m) (l.register c) (m.register d) := by
  by_cases hnew : l.hasContract c.address = true
  case neg =>
    obtain ⟨l', m', hl, hm, hmoved⟩ := h.register_of_new hcd hc hnew
    rw [hl, hm]
    exact .ok hmoved
  case pos =>
    have haddress : d.address = c.address := by
      obtain ⟨-, -, -⟩ := hcd
      rfl
    rw [Ledger.register, Ledger.register, haddress, ← h.hasContract c.address, if_pos hnew,
      if_pos hnew]
    exact .error _

lemma Counterpart.registerChildren (h : l.Counterpart o m) {parent parent' : Contract}
    (hparent : parent.Counterpart o parent') (children : List (Address × Bytes))
    (hknown : ∀ entry ∈ children, l.codes.contains entry.1 = true) :
    ∃ l' m' created, l.registerChildren parent children = (l', .ok created) ∧
      m.registerChildren parent' children = (m', .ok created) ∧ Moved o l m l' m' := by
  obtain ⟨hs, ht, hh⟩ := hparent
  induction children generalizing l m with
  | nil => exact ⟨l, m, [], rfl, rfl, h.stay⟩
  | cons entry rest ih =>
    obtain ⟨a, own⟩ := entry
    have hrest (e : Address × Bytes) (he : e ∈ rest) := hknown e (List.mem_cons_of_mem _ he)
    rw [Ledger.registerChildren, Ledger.registerChildren, ← h.hasContract a]
    split
    case isTrue => exact ih h hrest
    case isFalse hnew =>
      obtain ⟨code, hcode⟩ := Option.isSome_iff_exists.mp (hknown _ List.mem_cons_self)
      let child := Contract.create a parent.address parent.gasLimit (some own) []
      have hchild : Contract.Counterpart o { child with code := some code }
          { child with code := some code } := .intro (.refl _) (.refl _) .none
      have hchildKnown : Contract.Known l.codes { child with code := some code } := by
        constructor
        · rintro _ ⟨⟩
          exact hcode
        · rintro _ ⟨⟩
      have hfirst := resolveCode_of_known (c := child) hcode
      have hsecond := resolveCode_of_known (l := m) (c := child) (h.code hcode)
      simp only [child] at hfirst hsecond hchild hchildKnown
      simp only [hfirst, hsecond]
      obtain ⟨l₁, m₁, hl₁, hm₁, hmoved⟩ := h.register_of_new hchild hchildKnown hnew
      obtain ⟨l', m', created, hl', hm', hmoved'⟩ := ih hmoved.counterpart
        fun e he => hmoved.included.contains (hrest e he)
      simp only [hl₁, hm₁, hl', hm']
      exact ⟨l', m', a :: created, rfl, rfl, hmoved.trans hmoved'⟩

lemma Counterpart.registerTouched (h : l.Counterpart o m) (addresses : List Address) :
    ∃ l' m' created, l.registerTouched addresses = (l', .ok created) ∧
      m.registerTouched addresses = (m', .ok created) ∧ Moved o l m l' m' := by
  induction addresses generalizing l m with
  | nil => exact ⟨l, m, [], rfl, rfl, h.stay⟩
  | cons a rest ih =>
    rw [Ledger.registerTouched, Ledger.registerTouched]
    obtain ⟨hc, hd⟩ | ⟨c, d, hc, hd, hcd⟩ := h.found a
    · rw [hc, hd]
      exact ih h
    · have hchildren : d.children = c.children := by
        obtain ⟨-, -, -⟩ := hcd
        rfl
      have hknown := h.known _ (Table.mem_of_find? hc)
      obtain ⟨l₁, m₁, created, hl₁, hm₁, hmoved⟩ := h.registerChildren hcd c.children
        fun e he => hknown.children e.1
          ((Table.contains_iff _ _).mpr (List.mem_map.mpr ⟨e, he, rfl⟩))
      obtain ⟨l', m', more, hl', hm', hmoved'⟩ := ih hmoved.counterpart
      rw [hc, hd]
      simp only [registerDeployments, hchildren, hl₁, hm₁, hl', hm']
      exact ⟨l', m', created ++ more, rfl, rfl, hmoved.trans hmoved'⟩

lemma Counterpart.dispose (h : l.Counterpart o m) : l.dispose.Counterpart o m.dispose where
  contracts := h.contracts.map fun _ _ hcd => hcd.dispose
  known := by
    intro entry hmem
    obtain ⟨⟨a, c⟩, hc, rfl⟩ := List.mem_map.mp hmem
    exact (h.known _ hc).dispose
  codes := h.codes
  handles := h.handles

lemma Counterpart.resolveAll (h : l.Counterpart o m)
    (hsupplied : ∀ entry ∈ l.contracts, l.codes.contains entry.2.address = true)
    (addresses : List Address) :
    ∃ l' m', l.resolveAll addresses = (l', .ok ⟨⟩) ∧ m.resolveAll addresses = (m', .ok ⟨⟩) ∧
      Moved o l m l' m' := by
  induction addresses generalizing l m with
  | nil => exact ⟨l, m, rfl, rfl, h.stay⟩
  | cons a rest ih =>
    rw [Ledger.resolveAll, Ledger.resolveAll]
    obtain ⟨hc, hd⟩ | ⟨c, d, hc, hd, hcd⟩ := h.found a
    · rw [hc, hd]
      exact ih h hsupplied
    · have hmem := Table.mem_of_find? hc
      obtain ⟨code, hcode⟩ := Option.isSome_iff_exists.mp (hsupplied _ hmem)
      have haddress : d.address = c.address := by
        obtain ⟨-, -, -⟩ := hcd
        rfl
      have hcode' : m.codes.find? d.address = some code := by
        rw [haddress]
        exact h.code hcode
      have hresolved : Contract.Counterpart o { c with code := some code }
          { d with code := some code } := by
        obtain ⟨hs, ht, hh⟩ := hcd
        exact .intro hs ht hh
      have hknown : Contract.Known l.codes { c with code := some code } :=
        ⟨by rintro _ ⟨⟩; exact hcode, (h.known _ hmem).children⟩
      have hmodified := h.modifyContract a (fun _ _ _ => hresolved) fun _ _ => hknown
      have hsupplied' (entry : Address × Contract)
          (he : entry ∈ l.contracts.modify a fun _ => { c with code := some code }) :
          l.codes.contains entry.2.address = true := by
        rcases Table.mem_modify he with he | ⟨-, _, -, heq⟩
        · exact hsupplied entry he
        · rw [heq]
          exact Table.contains_of_find? hcode
      obtain ⟨l', m', hl, hm, hmoved⟩ := ih hmodified hsupplied'
      rw [hc, hd]
      simp only [resolveCode_of_known hcode, resolveCode_of_known hcode']
      exact ⟨l', m', hl, hm, Moved.trans ⟨hmodified, rfl, rfl, .refl _⟩ hmoved⟩

lemma Counterpart.init (h : l.Counterpart o m)
    (hsupplied : ∀ entry ∈ l.contracts, l.codes.contains entry.2.address = true) :
    ∃ l' m', l.init = (l', .ok ⟨⟩) ∧ m.init = (m', .ok ⟨⟩) ∧ Moved o l m l' m' := by
  have hdisposed : ∀ entry ∈ l.dispose.contracts, l.codes.contains entry.2.address = true := by
    intro entry hmem
    obtain ⟨⟨a, c⟩, hc, rfl⟩ := List.mem_map.mp hmem
    rw [Alike.tending_dispose.address c]
    exact hsupplied _ hc
  obtain ⟨l', m', hl, hm, hmoved⟩ := h.dispose.resolveAll hdisposed l.contracts.keys
  refine ⟨l', m', hl, ?_, Moved.trans ⟨h.dispose, rfl, rfl, .refl _⟩ hmoved⟩
  rw [Ledger.init, ← h.contracts.keys]
  exact hm

lemma Counterpart.contract? (h : l.Counterpart o m) (a : Address) :
    Agree (Contract.Counterpart o) (l.contract? a) (m.contract? a) := by
  rw [Ledger.contract?, Ledger.contract?]
  obtain ⟨hc, hd⟩ | ⟨c, d, hc, hd, hcd⟩ := h.found a
  · rw [hc, hd]
    exact .error _
  · rw [hc, hd]
    exact .ok hcd

lemma Counterpart.overrideStates (h : l.Counterpart o m) (first second : Overrides) (a : Address)
    {states states' : Storage} (hstates : states.Similar states') :
    Agree (fun p q => Moved o l m p.2 q.2) (first.overrideStates l a states)
      (second.overrideStates m a states') := by
  have hcontract := h.contract? a
  rw [Overrides.overrideStates, Overrides.overrideStates]
  revert hcontract
  generalize l.contract? a = x
  generalize m.contract? a = y
  rintro (⟨-⟩ | e)
  · refine .ok ⟨Counterpart.note (h.modifyContract a ?_ fun c hc => ?_) _ _ _ _, rfl, rfl, .refl _⟩
    · rintro c _ ⟨-, ht, hh⟩
      exact .intro hstates ht hh
    · exact ⟨hc.code, hc.children⟩
  · exact .error e

lemma Counterpart.overrideDeployment (h : l.Counterpart o m) (first second : Overrides)
    (a : Address) :
    Agree (fun p q => Moved o l m p.2 q.2) (first.overrideDeployment l a)
      (second.overrideDeployment m a) := by
  have hcontract := h.contract? a
  rw [Overrides.overrideDeployment, Overrides.overrideDeployment]
  revert hcontract
  generalize l.contract? a = x
  generalize m.contract? a = y
  rintro (⟨-⟩ | e)
  · refine .ok ⟨h.modifyContract a ?_ fun c hc => ?_, rfl, rfl, .refl _⟩
    · rintro c _ ⟨hs, ht, hh⟩
      exact .intro hs ht hh
    · exact ⟨hc.code, hc.children⟩
  · exact .error e

end ChainReplay.Ledger
