import ChainReplay.Proofs.Custody.Run
import ChainReplay.Proofs.Replay.Staging

/-! Handles in what is done to a ledger as a whole: none is given out, and contracts only lose theirs. -/

namespace ChainReplay

namespace Ledger

lemma number_modifyAll (l : Ledger) (k : Contract → Contract)
    (hk : ∀ c, (k c).number? = c.number?) (a : Address) : (l.modifyAll k).number a = l.number a := by
  simp only [number, Seat.contract, find?_modifyAll]
  cases l.contracts.find? a with
  | none => rfl
  | some c => exact hk c

def Vacant (l : Ledger) : Prop := ∀ c ∈ l.contracts.values, c.number? = none

lemma Vacant.number {l : Ledger} (h : l.Vacant) (a : Address) : l.number a = none := by
  rw [Ledger.number, Seat.contract]
  cases hc : l.contracts.find? a with
  | none => rfl
  | some c => exact h c (List.mem_map.mpr ⟨_, Table.mem_of_find? hc, rfl⟩)

lemma Vacant.numbers {l : Ledger} (h : l.Vacant) : ChainReplay.numbers l.contracts.values = [] :=
  List.filterMap_eq_nil_iff.mpr h

lemma vacant_modifyAll (l : Ledger) {k : Contract → Contract} (hk : ∀ c, (k c).number? = none) :
    (l.modifyAll k).Vacant := by
  intro c hc
  rw [values_modifyAll] at hc
  obtain ⟨d, -, rfl⟩ := List.mem_map.mp hc
  exact hk d

structure Takes (l m : Ledger) (c : Contract) : Prop where
  journal : m.journal = l.journal
  engine : m.engine = l.engine
  handles : m.handles = l.handles
  retired : m.retired = l.retired
  keys : l.contracts.keys.Nodup → m.contracts.keys.Nodup
  held : m.held.Perm (c.number?.toList ++ l.held)
  contract : ∀ a, Seat.contract m (.registered a) =
    if a = c.address then c else Seat.contract l (.registered a)

lemma takes_of_register {l m : Ledger} {c : Contract} (h : l.register c = .ok m) : l.Takes m c := by
  rw [Ledger.register] at h
  split at h
  · cases h
  case isFalse hnew =>
  cases h
  have hvalues : Table.values (l.contracts ++ [(c.address, c)]) = l.contracts.values ++ [c] :=
    Table.values_append _ _
  have hkeys : Table.keys (l.contracts ++ [(c.address, c)]) = l.contracts.keys ++ [c.address] :=
    List.map_append
  refine ⟨rfl, rfl, rfl, rfl, fun h => ?_, ?_, fun a => ?_⟩
  · change (Table.keys (l.contracts ++ [(c.address, c)])).Nodup
    rw [hkeys]
    refine List.nodup_append.mpr ⟨h, by simp, ?_⟩
    rintro a ha b hb rfl
    cases List.mem_singleton.mp hb
    exact hnew ((Table.contains_iff _ _).mpr ha)
  · apply List.perm_iff_count.mpr
    intro n
    simp only [held, Ledger.note, hvalues, numbers_append, numbers_cons, List.count_append]
    simp only [ChainReplay.numbers, List.filterMap_nil, List.count_nil]
    omega
  · simp only [Seat.contract, Ledger.note, Table.find?_append, Table.find?_cons]
    have hnone : l.contracts.find? c.address = none := Option.not_isSome_iff_eq_none.mp hnew
    split
    case isTrue ha =>
      rw [← ha, hnone, if_pos rfl]
      rfl
    case isFalse ha =>
      rw [if_neg (Ne.symm ha), Table.find?_nil, Option.or_none]

/-- Between the ledgers the account of handles is kept. -/
structure Accounts (l m : Ledger) : Prop where
  turnover : l.Turnover m l.held m.held
  keys : l.contracts.keys.Nodup → m.contracts.keys.Nodup
  retired : ∀ c ∈ m.retired, c ∈ l.retired ∨ c.number? = none

lemma Accounts.trans {l m n : Ledger} (h : l.Accounts m) (h' : m.Accounts n) : l.Accounts n where
  turnover := h.turnover.trans h'.turnover
  keys := h'.keys ∘ h.keys
  retired := fun c hc => (h'.retired c hc).elim (h.retired c) .inr

/-- Nor has a contract come by a handle. -/
structure Rests (l m : Ledger) : Prop extends l.Accounts m where
  numbers : ∀ a, m.number a = none ∨ m.number a = l.number a

namespace Rests

variable {l m n : Ledger}

instance : IsPreorder Ledger Rests where
  refl := fun l => ⟨⟨.refl l l.held, id, fun _ h => .inl h⟩, fun _ => .inr rfl⟩
  trans := by
    intro l m n h h'
    refine ⟨h.toAccounts.trans h'.toAccounts, fun a => ?_⟩
    rcases h'.numbers a with hnone | hsame
    · exact .inl hnone
    · rw [hsame]
      exact h.numbers a

lemma of_contracts (hcontracts : m.contracts = l.contracts) (hretired : m.retired = l.retired)
    (hjournal : m.journal = l.journal) (hengine : m.engine = l.engine)
    (hhandles : m.handles = l.handles) : l.Rests m where
  turnover := by
    apply Turnover.of_journal hjournal hengine hhandles
    rw [held, held, hcontracts, hretired]
  keys := fun h => hcontracts ▸ h
  numbers := fun a => .inr (by simp only [number, Seat.contract, hcontracts])
  retired := fun c hc => .inl (hretired ▸ hc)

lemma note (l : Ledger) (level : Level) (text : Text) : l.Rests (l.note level text) :=
  of_contracts rfl rfl rfl rfl rfl

lemma setCode (l : Ledger) (a : Address) (code : Bytes) : l.Rests (l.setCode a code) :=
  of_contracts rfl rfl rfl rfl rfl

lemma modifyContract (l : Ledger) (a : Address) {k : Contract → Contract}
    (hk : ∀ c, (k c).number? = c.number?) : l.Rests (l.modifyContract a k) where
  turnover := by
    refine .of_journal (m := l.modifyContract a k) rfl rfl rfl ?_
    rw [l.held_modifyContract hk]
  keys := fun h => (Table.keys_modify l.contracts a k).symm ▸ h
  numbers := fun b => .inr (l.number_modifyContract hk a b)
  retired := fun _ h => .inl h

lemma register {c : Contract} (hc : c.number? = none) (h : l.register c = .ok m) : l.Rests m := by
  have htakes := takes_of_register h
  refine ⟨⟨.of_journal htakes.journal htakes.engine htakes.handles ?_, htakes.keys, fun d hd => ?_⟩,
    fun a => ?_⟩
  · have hheld := htakes.held
    rw [hc] at hheld
    exact hheld.symm
  · rw [htakes.retired] at hd
    exact .inl hd
  · rw [number, htakes.contract]
    split
    · exact .inl hc
    · exact .inr rfl

lemma enlists : Enlists Rests where
  note := note
  code := setCode
  register := fun _ _ _ hc _ h => register ((Contract.number?_eq_none_iff _).mpr hc) h

lemma modifyAll (l : Ledger) {k : Contract → Contract} (hk : ∀ c, (k c).number? = c.number?) :
    l.Rests (l.modifyAll k) where
  turnover := by
    have hnumbers : ChainReplay.numbers (l.contracts.values.map k) =
        ChainReplay.numbers l.contracts.values := by
      simp [ChainReplay.numbers, List.filterMap_map, hk]
    refine .of_journal (m := l.modifyAll k) rfl rfl rfl ?_
    simp only [held, numbers_append, values_modifyAll, hnumbers]
    exact .refl _
  keys := fun h => (keys_modifyAll l k).symm ▸ h
  numbers := fun a => .inr (number_modifyAll l k hk a)
  retired := fun _ h => .inl h

lemma disposal (l : Ledger) {k : Contract → Contract} (hk : ∀ c, (k c).number? = none) :
    l.Rests ((l.enter (l.contracts.values.flatMap Contract.disposal)).modifyAll k) where
  turnover := by
    have hvacant := vacant_modifyAll (l.enter (l.contracts.values.flatMap Contract.disposal)) hk
    have hreturned := Turnover.disposals l l.contracts.values (ChainReplay.numbers l.retired)
    rw [held, numbers_append, held, numbers_append, hvacant.numbers]
    exact hreturned.trans (.of_journal rfl rfl rfl (.refl _))
  keys := fun h => (keys_modifyAll (l.enter _) k).symm ▸ h
  numbers := fun a => .inl ((vacant_modifyAll _ hk).number a)
  retired := fun _ h => .inl h

lemma dispose (l : Ledger) : l.Rests l.dispose := disposal l number?_dispose

lemma clearContracts (h : l.Vacant) : l.Rests l.clearContracts where
  turnover := by
    refine .of_journal (m := l.clearContracts) rfl rfl rfl ?_
    simp only [held, Ledger.clearContracts, numbers_append, h.numbers]
    simp [Table.values, ChainReplay.numbers]
  keys := fun _ => List.nodup_nil
  numbers := fun _ => .inl rfl
  retired := fun c hc => (List.mem_append.mp hc).imp_right (h c)

lemma cleanup (l : Ledger) : l.Rests l.cleanup := by
  have hdelete (c : Contract) : c.delete.number? = none := number?_dispose c
  exact trans_of Rests (disposal l hdelete) (clearContracts (vacant_modifyAll _ hdelete))

lemma replace (h : l.Vacant) (a : Address) {c : Contract} (hc : c.number? = none) :
    l.Rests (l.modifyContract a fun _ => c) ∧ (l.modifyContract a fun _ => c).Vacant := by
  have hvacant : (l.modifyContract a fun _ => c).Vacant := by
    intro d hd
    obtain ⟨entry, hmem, rfl⟩ := List.mem_map.mp hd
    rcases Table.mem_modify (t := l.contracts) (f := fun _ => c) hmem with hold | ⟨-, d, -, hnew⟩
    · exact h _ (List.mem_map.mpr ⟨entry, hold, rfl⟩)
    · rw [hnew]
      exact hc
  have hkeys : (l.modifyContract a fun _ => c).contracts.keys = l.contracts.keys :=
    Table.keys_modify l.contracts a fun _ => c
  refine ⟨⟨⟨.of_journal rfl rfl rfl ?_, fun h => hkeys ▸ h, fun _ h => .inl h⟩,
    fun b => .inl (hvacant.number b)⟩, hvacant⟩
  rw [held, numbers_append, held, numbers_append, h.numbers, hvacant.numbers]
  exact .refl _

lemma resolveAll (h : l.Vacant) (addresses : List Address) :
    l.Rests (l.resolveAll addresses).1 := by
  induction addresses generalizing l with
  | nil => exact refl l
  | cons a rest ih =>
    rw [Ledger.resolveAll]
    cases hc : l.contracts.find? a with
    | none => exact ih h
    | some c =>
      have hresolve := enlists.resolveCode l c
      have hcontracts := l.contracts_resolveCode c
      cases hresolved : l.resolveCode c with | mk m r =>
      rw [hresolved] at hresolve hcontracts
      simp only [hresolved]
      cases r with
      | error f => exact hresolve
      | ok d =>
        obtain ⟨code, rfl⟩ := resolveCode_eq_ok hresolved
        have hd : ({ c with code := some code } : Contract).number? = none :=
          h c (List.mem_map.mpr ⟨_, Table.mem_of_find? hc, rfl⟩)
        have hm : m.Vacant := by
          intro e he
          rw [hcontracts] at he
          exact h e he
        obtain ⟨hreplace, hvacant⟩ := replace hm a hd
        exact trans_of Rests hresolve (trans_of Rests hreplace (ih hvacant))

lemma init (l : Ledger) : l.Rests l.init.1 :=
  trans_of Rests (dispose l) (resolveAll (vacant_modifyAll _ number?_dispose) _)

lemma stages : Stages Rests where
  toEnlists := enlists
  notices := fun _ _ => of_contracts rfl rfl rfl rfl rfl
  actors := fun _ _ _ => of_contracts rfl rfl rfl rfl rfl
  change := fun l a _ hk => modifyContract l a fun c => congrArg (Option.map Handle.number) (hk c)
  init := init
  clean := fun l => trans_of Rests (dispose l) (cleanup l.dispose)

end Rests

end Ledger

end ChainReplay
