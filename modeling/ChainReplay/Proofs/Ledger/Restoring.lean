import ChainReplay.Proofs.Execution.Ageing
import ChainReplay.Proofs.Execution.Reentrancy
import ChainReplay.Proofs.Execution.Requests

/-! Setting a ledger back to its backup. Only storage is set back: what a contract has come to be
otherwise stays, and a call goes on as it would have gone at the backup as long as it does not meet with
what has stayed. -/

namespace ChainReplay

/-- A contract that has been set back is the one that was backed up, but for what is not set back. -/
lemma Contract.Ages.restoreStates {c d : Contract} (h : c.backupStates.Ages d) :
    d.restoreStates =
      { c with
        gasUsed := d.gasUsed, deploymentStates := d.deploymentStates, children := d.children
        deployed := d.deployed, events := d.events, callStack := d.callStack, backup := c.states
        handle := d.handle } := by
  have hessence := h.essence
  simp only [Contract.essence, Contract.backupStates, Contract.mk.injEq] at hessence
  obtain ⟨haddress, hdeployer, hlimit, -, -, -, -, -, -, -, hbackup, hown, hcode, hcalldata, -⟩ :=
    hessence
  simp only [Contract.restoreStates, haddress, hdeployer, hlimit, hbackup, hown, hcode, hcalldata]

namespace Ledger

/-- What sets the code and the handles of a later ledger apart. -/
def offset (l m : Ledger) : Offset where
  extra := fun a => if l.codes.contains a then none else m.codes.find? a
  first := l.handles
  second := m.handles

/-- Only one of the two ledgers has this copy on record. -/
def differ (l m : Ledger) (owner child : Address) : Bool :=
  (l.records owner).contains child != (m.records owner).contains child

/-- The constructor of this contract was yet to be run, and the contract has been deployed since. -/
def stale (l m : Ledger) (a : Address) : Bool :=
  match l.contracts.find? a, m.contracts.find? a with
  | some c, some d => c.isNew && d.deployed
  | _, _ => false

def residue (l m : Ledger) : Residue where
  offset := l.offset m
  differ := l.differ m
  stale := l.stale m
  keys := l.contracts.keys

variable {l m : Ledger}

section Resolved

lemma resolved_create (settings : Settings) (engine : Option Engine) :
    (create settings engine).Resolved := by
  intro a c hc
  rw [create, Table.find?_nil] at hc
  cases hc

lemma Resolved.register (h : l.Resolved) {c : Contract}
    (hc : ∀ code, c.code = some code → l.codes.find? c.address = some code)
    (hreg : l.register c = .ok m) : m.Resolved := by
  rw [Ledger.register] at hreg
  split at hreg
  case isTrue => cases hreg
  case isFalse =>
    cases hreg
    intro a d hd code hcode
    rw [note, Table.find?_append, Option.or_eq_some_iff, Table.find?_cons] at hd
    obtain hd | ⟨-, hd⟩ := hd
    · exact h a d hd code hcode
    · split at hd
      case isTrue ha =>
        cases hd
        exact ha ▸ hc code hcode
      case isFalse => cases hd

lemma resolveCode_known {c d : Contract} (h : l.resolveCode c = (m, .ok d)) {code : Bytes}
    (hcode : d.code = some code) : m.codes.find? c.address = some code := by
  rw [resolveCode] at h
  split at h
  case h_1 known hknown =>
    cases h
    cases hcode
    rw [code?] at hknown
    split at hknown
    case h_1 found hfound =>
      cases hknown
      exact hfound
    case h_2 => cases hknown
  case h_2 => cases h

/-- Runs leave contracts the code that they run. -/
lemma Resolved.ages (h : l.Resolved) (hlm : l.Ages m) : m.Resolved := by
  intro a d hd code hcode
  obtain ⟨c, hc, hcd⟩ := hlm.origin hd
  exact hlm.codes a code (h a c hc code (hcd.code.symm.trans hcode))

lemma ages_resolveCode (l : Ledger) (c : Contract) :
    l.Ages (l.resolveCode c).1 ∧ (l.resolveCode c).1.contracts = l.contracts := by
  rcases l.resolveCode_fst c with hsame | ⟨code, hcode⟩
  · rw [hsame]
    exact ⟨.refl l, rfl⟩
  · rw [hcode]
    exact ⟨.setCode l _ code, rfl⟩

/-- A contract that is resolved runs the code that is known under its address. -/
lemma Resolved.resolve (hfiled : l.Filed) (h : l.Resolved) {a : Address} {c d : Contract}
    (hc : l.contracts.find? a = some c) (hresolve : l.resolveCode c = (m, .ok d)) :
    (m.modifyContract a fun _ => d).Filed ∧ (m.modifyContract a fun _ => d).Resolved := by
  obtain ⟨hages, hcontracts⟩ := l.ages_resolveCode c
  rw [hresolve] at hages hcontracts
  have hchanged (b : Address) (e : Contract)
      (he : (m.modifyContract a fun _ => d).contracts.find? b = some e) :
      b = a ∧ e = d ∨ l.contracts.find? b = some e := by
    rw [modifyContract, hcontracts, Table.find?_modify] at he
    split at he
    case isTrue hb =>
      obtain ⟨_, -, rfl⟩ := Option.map_eq_some_iff.mp he
      exact .inl ⟨hb, rfl⟩
    case isFalse => exact .inr he
  refine ⟨fun b e he => ?_, fun b e he code hcode => ?_⟩
  · obtain ⟨rfl, rfl⟩ | he := hchanged b e he
    · obtain ⟨code, rfl⟩ := resolveCode_eq_ok hresolve
      exact hfiled b c hc
    · exact hfiled b e he
  · obtain ⟨rfl, rfl⟩ | he := hchanged b e he
    · have hknown := resolveCode_known hresolve hcode
      rwa [hfiled b c hc] at hknown
    · exact hages.codes b code (h b e he code hcode)

lemma Resolved.resolveAll (hfiled : l.Filed) (h : l.Resolved) (addresses : List Address) :
    (l.resolveAll addresses).1.Resolved := by
  induction addresses generalizing l with
  | nil => exact h
  | cons a rest ih =>
    rw [Ledger.resolveAll]
    cases hc : l.contracts.find? a with
    | none => exact ih hfiled h
    | some c =>
      have hages := (l.ages_resolveCode c).1
      simp only
      cases hresolve : l.resolveCode c with | mk m r =>
      rw [hresolve] at hages
      cases r with
      | error f => exact h.ages hages
      | ok d =>
        obtain ⟨hfiled', h'⟩ := h.resolve hfiled hc hresolve
        exact ih hfiled' h'

theorem Resolved.init (hfiled : l.Filed) (h : l.Resolved) : l.init.1.Resolved := by
  have hdispose : l.Ages l.dispose := by
    refine ⟨rfl, .refl _, fun a => ?_⟩
    rw [dispose, find?_modifyAll]
    change Option.Rel _ (l.contracts.find? a) ((l.contracts.find? a).map _)
    cases l.contracts.find? a with
    | none => exact .none
    | some c => exact .some (.dispose c)
  exact (h.ages hdispose).resolveAll (hdispose.filed hfiled) _

end Resolved

lemma extends_offset (h : l.codes.Included m.codes) : (l.offset m).Extends l.codes m.codes := by
  intro a
  simp only [offset]
  split
  case isTrue hknown =>
    obtain ⟨code, hcode⟩ := Option.isSome_iff_exists.mp hknown
    rw [hcode, Option.some_or, h a code hcode]
  case isFalse hknown =>
    have hnone := (Table.contains_eq_false_iff _ _).mp (Bool.eq_false_iff.mpr hknown)
    rw [hnone, Option.none_or]

lemma within_offset (l m : Ledger) : (l.offset m).Within [m.codes] := by
  refine ⟨m.codes, List.mem_singleton.mpr rfl, fun a => ?_⟩
  simp only [offset]
  split
  · exact .inl rfl
  · exact .inr rfl

lemma Ages.found_backup (h : l.backup.Ages m) (a : Address) :
    (l.contracts.find? a = none ∧ m.contracts.find? a = none) ∨
      ∃ c d, l.contracts.find? a = some c ∧ m.contracts.find? a = some d ∧ c.backupStates.Ages d := by
  have hcontracts := h.contracts a
  rw [backup, find?_modifyAll] at hcontracts
  cases hc : l.contracts.find? a with
  | none =>
    rw [hc] at hcontracts
    cases hd : m.contracts.find? a with
    | none => exact .inl ⟨rfl, rfl⟩
    | some d =>
      rw [hd] at hcontracts
      cases hcontracts
  | some c =>
    have hbacked : l.backup.contracts.find? a = some c.backupStates := by
      rw [backup, find?_modifyAll, hc, Option.map_some]
    obtain ⟨d, hd, hages⟩ := h.found hbacked
    exact .inr ⟨c, d, rfl, hd, hages⟩

/-- Every registered contract has the storage again that it had at the backup. -/
lemma Ages.storage?_restore (h : l.backup.Ages m) (a : Address) :
    m.restore.storage? a = l.storage? a := by
  rw [storage?, storage?, restore, find?_modifyAll]
  obtain ⟨hc, hd⟩ | ⟨c, d, hc, hd, hages⟩ := h.found_backup a
  · rw [hc, hd]
    rfl
  · rw [hc, hd, Option.map_some, Option.map_some, Option.map_some, hages.restoreStates]

/-- A contract that has been set back is in accord on nothing at first. -/
lemma revived_restoreStates {a : Address} {c d : Contract}
    (hc : l.contracts.find? a = some c) (hd : m.contracts.find? a = some d) (ha : c.address = a)
    (h : c.backupStates.Ages d) : c.Revived (l.residue m) False False d.restoreStates := by
  rw [h.restoreStates]
  refine .intro (fun child hsame => ?_) ?_ False.elim
  · have hrecords : ¬(c.children.contains child != d.children.contains child) = true := by
      simpa only [residue, differ, ha, records_of_find? hc, records_of_find? hd] using hsame
    rw [bne_iff_ne, not_not] at hrecords
    exact hrecords.symm
  · have hstale : l.stale m a = (c.isNew && d.deployed) := by
      simp only [stale, hc, hd]
    cases hcd : c.deployed with
    | true => exact .inl ⟨h.deployed hcd, by simp⟩
    | false =>
      cases hdd : d.deployed with
      | false => exact .inl ⟨rfl, fun _ => h.pending hdd⟩
      | true =>
        refine .inr ⟨not_false, rfl, rfl, fun hnew => ?_⟩
        simp only [residue, ha, hstale, hnew, hdd, Bool.and_self]

lemma Ages.revived_restore (hfiled : l.Filed) (hresolved : l.Resolved) (h : l.backup.Ages m) :
    l.Revived (l.residue m) ⟨fun _ => False, fun _ => False⟩ m.restore where
  surface := h.surface.symm
  keys := rfl
  contracts := by
    intro a
    rw [restore, find?_modifyAll]
    obtain ⟨hc, hd⟩ | ⟨c, d, hc, hd, hages⟩ := h.found_backup a
    · rw [hc, hd]
      exact .none
    · rw [hc, hd]
      exact .some (revived_restoreStates hc hd (hfiled a c hc) hages)
  filed := hfiled
  resolved := hresolved
  codes := extends_offset h.codes
  handles := Nat.add_comm _ _

/-- The contract is not stale, and its call, made on this ledger, has an outcome although it may not ask
anew for what the later ledger has come to. -/
structure Spared (l m : Ledger) (fuel : Nat) (a : Address) (calldata : Bytes)
    (sender origin : Option Address) : Prop where
  fresh : l.stale m a = false
  discreet : ((Run.executeOn (Run.barredHost (Run.asksAnew [m.codes] (l.differ m) (l.stale m)) fuel)
    calldata sender origin).outcome ⟨l, .registered a, []⟩).isSome = true

lemma storage?_of_revived {w : Residue} {s : Accord} (h : l.Revived w s m) (a : Address) :
    m.storage? a = l.storage? a := by
  rw [storage?, storage?]
  obtain ⟨hc, hd⟩ | ⟨c, d, hc, hd, ⟨-, -, -⟩⟩ := h.found a
  · rw [hc, hd]
  · rw [hc, hd]
    rfl

/-- After the ledger has been set back, every contract has the storage that it had at the backup, and a
call that is spared goes as it would have gone at the backup. -/
theorem restore_resumes (hkeyed : l.Keyed) (hresolved : l.Resolved)
    (hruns : Relation.ReflTransGen Performs l.backup m) {a : Address} (ha : l.hasContract a = true)
    {fuel : Nat} {calldata : Bytes} {sender origin : Option Address}
    (hspared : l.Spared m fuel a calldata sender origin) :
    (∀ b, m.restore.storage? b = l.storage? b) ∧
      ∃ response l' m',
        l.perform (.registered a) (Run.execute (Run.call fuel) calldata sender origin) =
          some (.ok response, l', .registered a) ∧
        m.restore.perform (.registered a) (Run.execute (Run.call fuel) calldata sender origin) =
          some (.ok response, m', .registered a) ∧
        ∀ b, m'.storage? b = l'.storage? b := by
  have hages := ages_of_performs hruns
  -- set back, the two are in accord on no contract yet; the call finds the first one
  have hrevived : Frame.Revived (l.residue m) ⟨fun _ => False, fun _ => False⟩ (.registered a)
      ⟨l, .registered a, []⟩ ⟨m.restore, .registered a, []⟩ :=
    ⟨hages.revived_restore hkeyed.filed hresolved, .registered ((Table.contains_iff _ _).mp ha),
      fun _ _ _ => .rfl⟩
  -- the barred run is the run on the first ledger, and goes the same way on the second
  obtain ⟨⟨q, f⟩, hbarred⟩ := Option.isSome_iff_exists.mp hspared.discreet
  obtain ⟨f', hrun, rfl⟩ := (Run.executeOn_congr (Run.barredHost_simulates _ fuel) calldata sender
    origin).outcome rfl hbarred
  obtain ⟨g, hrun', hfg⟩ := (Resumes.executeOn (Resumes.barredHost (within_offset l m) fuel)
    (.inr hspared.fresh) calldata sender origin).outcome hrevived hbarred
  rw [← Run.execute_eq_executeOn] at hrun hrun'
  obtain ⟨response, rfl⟩ := Run.Returns.execute _ _ _ _ _ _ _ hrun
  obtain ⟨l', seat, deployments⟩ := f
  obtain ⟨m', seat', deployments'⟩ := g
  obtain ⟨hledger, hseat, -⟩ := hfg
  cases hseat
  refine ⟨hages.storage?_restore, response, l', m', ?_, ?_, storage?_of_revived hledger⟩
  · rw [Run.perform_eq, hrun]
    rfl
  · rw [Run.perform_eq, hrun']
    rfl

section Keeping

open Run

/-- A constructor stores a value, and a call with data another one; a call without data loads it. The
entrance passes the data on to the chamber. -/
def keeping : Engine where
  instantiate parameters := .ok
    { refusal := none
      construct := fun _ _ => storing 1 7 (.done [])
      execute := fun _ calldata =>
        if calldata = [] then .ask .load (Bytes.ofNat 32 1) fun
          | .ok value => .done value
          | .error e => .fail e
        else storing 1 9
          (if parameters.address = entrance then calling chamber calldata (.done []) else .done []) }

/-- The entrance is deployed and has stored a value; the constructor of the chamber is yet to be run. -/
def kept : Ledger :=
  { create Settings.default (some keeping) with
    codes := [(entrance, []), (chamber, [])]
    contracts :=
      [(entrance, { Contract.create entrance entrance (.amount 0) none [] with
        states := [(1, 5)], deployed := true, code := some [] }),
      (chamber, { Contract.create chamber chamber (.amount 0) none [] with code := some [] })] }

lemma keyed_kept : kept.Keyed := by
  intro entry hmem
  simp only [kept, List.mem_cons, List.not_mem_nil, or_false] at hmem
  obtain rfl | rfl := hmem <;> rfl

lemma resolved_kept : kept.Resolved := by
  have hdifferent : entrance ≠ chamber := by decide
  intro a c hc code hcode
  have hmem := Table.mem_of_find? hc
  simp only [kept, List.mem_cons, List.not_mem_nil, or_false, Prod.mk.injEq] at hmem
  simp only [kept, Table.find?_cons]
  obtain ⟨rfl, rfl⟩ | ⟨rfl, rfl⟩ := hmem
  · rwa [if_pos rfl]
  · rwa [if_neg hdifferent, if_pos rfl]

/-- The entrance has been called with data since the backup, and has called the chamber. -/
def disturbed : Ledger :=
  ((kept.backup.perform (.registered entrance)
    (execute (Run.call 1) [1] none none)).map fun o => o.2.1).getD kept

lemma replies_kept :
    replied (kept.backup.perform (.registered entrance)
        (execute (Run.call 1) [1] none none)) = some [] ∧
      replied (kept.perform (.registered chamber)
        (execute (Run.call 1) [] none none)) = some (Bytes.ofNat 32 7) ∧
      replied (disturbed.restore.perform (.registered chamber)
        (execute (Run.call 1) [] none none)) = some (Bytes.ofNat 32 0) := by decide +kernel

lemma performs_disturbed : Performs kept.backup disturbed := by
  obtain ⟨response, l', seat, hrun, -⟩ := exists_response _ _ replies_kept.1
  have hlater : disturbed = l' := by
    rw [disturbed, hrun]
    rfl
  rw [hlater]
  exact ⟨_, _, _, _, _, .execute 1 [1] none none, hrun⟩

/-- The entrance, to which nothing has happened but a call, loads what it had stored at the backup. -/
theorem restore_resumes_disturbed :
    (∀ b, disturbed.restore.storage? b = kept.storage? b) ∧
      ∃ response l' m',
        kept.perform (.registered entrance) (execute (Run.call 1) [] none none) =
          some (.ok response, l', .registered entrance) ∧
        disturbed.restore.perform (.registered entrance) (execute (Run.call 1) [] none none) =
          some (.ok response, m', .registered entrance) ∧
        ∀ b, m'.storage? b = l'.storage? b := by
  obtain ⟨hfresh, hdiscreet⟩ : kept.stale disturbed entrance = false ∧
      ((executeOn (barredHost (asksAnew [disturbed.codes] (kept.differ disturbed)
        (kept.stale disturbed)) 1) [] none none).outcome
          ⟨kept, .registered entrance, []⟩).isSome = true := by decide +kernel
  exact restore_resumes keyed_kept resolved_kept (.single performs_disturbed) rfl
    ⟨hfresh, hdiscreet⟩

/-- The chamber has been deployed in between. It is not set back to where its constructor was yet to be
run, but has lost what the constructor stores. -/
theorem restore_forgets_construction :
    ¬ ∀ (l m : Ledger) (a : Address) (fuel : Nat) (calldata : Bytes) (sender origin : Option Address)
      (response response' : CallResponse) (l' m' : Ledger) (seat seat' : Seat),
      l.Keyed → l.Resolved → Relation.ReflTransGen Performs l.backup m → l.hasContract a = true →
      l.perform (.registered a) (execute (Run.call fuel) calldata sender origin) =
        some (.ok response, l', seat) →
      m.restore.perform (.registered a) (execute (Run.call fuel) calldata sender origin) =
        some (.ok response', m', seat') →
      response'.result = response.result := by
  intro h
  obtain ⟨response, l', seat, hrun, hresult⟩ := exists_response _ _ replies_kept.2.1
  obtain ⟨response', m', seat', hrun', hresult'⟩ := exists_response _ _ replies_kept.2.2
  have hsame := h kept disturbed chamber 1 [] none none response response' l' m' seat seat' keyed_kept
    resolved_kept (.single performs_disturbed) rfl hrun hrun'
  rw [hresult, hresult'] at hsame
  exact absurd (Except.ok.inj hsame) (by decide)

end Keeping

end Ledger

end ChainReplay
