import ChainReplay.Proofs.Transaction.Orderly
import ChainReplay.Replay.Block

/-! Loading a block from its file: it is ready to be replayed, it has failed, or the attempt is given
up. -/

namespace ChainReplay

open Decoding

lemma Failure.IsFormat.exists_eq {f : Failure} (h : f.IsFormat) : ∃ error, f = .format error := by
  cases f with
  | format error => exact ⟨error, rfl⟩
  | _ => exact h.elim

namespace Disk

/-- The failures of a path that is none, rather than of what it leads to. -/
def IsMisnamed (f : Failure) : Prop := f = .wrongValue ∨ ∃ part, f = .unencodable part

lemma fails_follow (d : Disk) (key parts : List Text) :
    Fails (fun f => ∃ e, f = .access e) (d.follow key parts) := by
  induction parts generalizing key with
  | nil => exact .ok _
  | cons part parts ih =>
    rw [follow]
    split
    · exact .error ⟨_, rfl⟩
    · split
      · exact ih _
      · split
        · exact .error ⟨_, rfl⟩
        · exact ih _

lemma fails_read (d : Disk) (p : Path) :
    Fails (fun f => (∃ e, f = .access e) ∨ IsMisnamed f) (d.read p) := by
  have hcheck : Fails (fun f => (∃ e, f = .access e) ∨ IsMisnamed f) (check p.text) := by
    rw [check]
    split
    case h_2 => exact .error (.inr (.inr ⟨_, rfl⟩))
    case h_1 =>
      dsimp only
      split
      · exact .error (.inr (.inl rfl))
      · split
        · exact .error (.inl ⟨_, rfl⟩)
        · exact .ok _
  refine .bind (.bind hcheck fun _ _ => (fails_follow d _ _).imp fun _ => .inl) fun key _ => ?_
  split
  · exact .ok _
  · exact .error (.inl ⟨_, rfl⟩)

end Disk

namespace Block

/-- The file holds an array of these records. -/
def Holds (d : Disk) (path : Path) (records : List Json) : Prop :=
  ∃ content cs, d.read path = .ok content ∧ Disk.textOf content = .ok cs ∧
    Json.parse cs = .ok (.array records)

/-- Why loading a block is given up: its path is none, the file holds no text, or one that goes
beyond a limit of the reader, or the first record that cannot be read fails in a way that does not
say what is wrong with it. -/
inductive Escapes (d : Disk) (path : Path) : Failure → Prop
  | path {f : Failure} (hread : d.read path = .error f) (hf : Disk.IsMisnamed f) : Escapes d path f
  | bytes {content : Bytes} {f : Failure} (hread : d.read path = .ok content)
    (htext : Disk.textOf content = .error f) : Escapes d path f
  | limit {content : Bytes} {cs : List Char} {e : Json.ReadError} (hread : d.read path = .ok content)
    (htext : Disk.textOf content = .ok cs) (hparse : Json.parse cs = .error e)
    (he : e ≠ .malformed) : Escapes d path (e.failure .wrongValue)
  | record {before after : List Json} {record : Json} {transactions : List Transaction} {f : Failure}
    (hholds : Holds d path (before ++ record :: after))
    (hbefore : before.mapM Transaction.ofJson = .ok transactions)
    (hrecord : Transaction.ofJson record = .error f) (hf : ¬f.IsFormat) : Escapes d path f

variable {l : Ledger} {d : Disk} {directory : Path} {height : Int} {ignoreUnknown allowReverts : Bool}

lemma loadTransactions_of_holds {records : List Json}
    (h : Holds d (pathOf directory height) records) :
    loadTransactions d directory height = records.mapM Transaction.ofJson := by
  obtain ⟨content, cs, hread, htext, hparse⟩ := h
  simp only [loadTransactions, Disk.document, Disk.readOr, hread, htext, hparse, Except.mapError,
    bind, Except.bind]

lemma not_isFormat_of_escapes {path : Path} {f : Failure} (h : Escapes d path f) : ¬f.IsFormat := by
  cases h with
  | path hread hf =>
    rcases hf with rfl | ⟨part, rfl⟩ <;> exact id
  | bytes hread htext =>
    rw [Disk.textOf] at htext
    split at htext <;> cases htext
    exact id
  | @limit _ _ e hread htext hparse he => cases e <;> first | exact absurd rfl he | exact id
  | record _ _ _ hf => exact hf

lemma loadTransactions_of_escapes {f : Failure} (h : Escapes d (pathOf directory height) f) :
    loadTransactions d directory height = .error f := by
  cases h with
  | path hread hf =>
    have hkept : d.readOr (pathOf directory height)
        (.format (.unreadableBlock height (pathOf directory height))) = .error f := by
      rw [Disk.readOr, hread]
      rcases hf with rfl | ⟨part, rfl⟩ <;> rfl
    simp only [loadTransactions, Disk.document, hkept, bind, Except.bind]
  | bytes hread htext =>
    simp only [loadTransactions, Disk.document, Disk.readOr, hread, htext, Except.mapError, bind,
      Except.bind]
  | @limit _ _ e hread htext hparse he =>
    simp only [loadTransactions, Disk.document, Disk.readOr, hread, htext, hparse, Except.mapError,
      bind, Except.bind]
    cases e <;> first | exact absurd rfl he | rfl
  | record hholds hbefore hrecord hf =>
    rw [loadTransactions_of_holds hholds, mapM_eq_error_iff]
    exact ⟨_, _, _, _, rfl, hbefore, hrecord⟩

lemma loadTransactions_cases (d : Disk) (directory : Path) (height : Int) :
    (∃ records transactions, Holds d (pathOf directory height) records ∧
      records.mapM Transaction.ofJson = .ok transactions ∧
      loadTransactions d directory height = .ok transactions) ∨
    (∃ error, loadTransactions d directory height = .error (.format error)) ∨
    ∃ f, Escapes d (pathOf directory height) f := by
  cases hread : d.read (pathOf directory height) with
  | error f =>
    rcases d.fails_read _ f hread with ⟨e, rfl⟩ | hf
    · refine .inr (.inl ⟨.unreadableBlock height (pathOf directory height), ?_⟩)
      simp only [loadTransactions, Disk.document, Disk.readOr, hread, Except.mapError, bind,
        Except.bind]
    · exact .inr (.inr ⟨f, .path hread hf⟩)
  | ok content =>
    cases htext : Disk.textOf content with
    | error f => exact .inr (.inr ⟨f, .bytes hread htext⟩)
    | ok cs =>
      cases hparse : Json.parse cs with
      | error e =>
        by_cases he : e = .malformed
        · refine .inr (.inl ⟨.unreadableBlock height (pathOf directory height), ?_⟩)
          simp only [loadTransactions, Disk.document, Disk.readOr, hread, htext, hparse, he,
            Except.mapError, bind, Except.bind]
          rfl
        · exact .inr (.inr ⟨_, .limit hread htext hparse he⟩)
      | ok j =>
        cases j with
        | array records =>
          have hholds : Holds d (pathOf directory height) records := ⟨content, cs, hread, htext, hparse⟩
          have hload := loadTransactions_of_holds hholds
          cases hrecords : records.mapM Transaction.ofJson with
          | ok transactions =>
            exact .inl ⟨records, transactions, hholds, hrecords, hload.trans hrecords⟩
          | error f =>
            by_cases hf : f.IsFormat
            · obtain ⟨error, rfl⟩ := hf.exists_eq
              exact .inr (.inl ⟨error, hload.trans hrecords⟩)
            · obtain ⟨before, record, after, transactions, rfl, hbefore, hrecord⟩ :=
                mapM_eq_error_iff.mp hrecords
              exact .inr (.inr ⟨f, .record hholds hbefore hrecord hf⟩)
        | _ =>
          refine .inr (.inl ⟨.blockNotArray (pathOf directory height), ?_⟩)
          simp only [loadTransactions, Disk.document, Disk.readOr, hread, htext, hparse,
            Except.mapError, bind, Except.bind]
          rfl

lemma Holds.inj {path : Path} {xs ys : List Json} (hx : Holds d path xs) (hy : Holds d path ys) :
    xs = ys := by
  obtain ⟨_, _, hread, htext, hparse⟩ := hx
  obtain ⟨_, _, hread', htext', hparse'⟩ := hy
  cases hread.symm.trans hread'
  cases htext.symm.trans htext'
  cases hparse.symm.trans hparse'
  rfl

lemma load_of_ok {transactions : List Transaction}
    (h : loadTransactions d directory height = .ok transactions) :
    load l d directory height ignoreUnknown allowReverts =
      .ok (create height transactions ignoreUnknown allowReverts, l) := by
  rw [load, h]

lemma load_of_isFormat {f : Failure} (h : loadTransactions d directory height = .error f)
    (hf : f.IsFormat) :
    load l d directory height ignoreUnknown allowReverts =
      .ok ((create height [] ignoreUnknown allowReverts).fail ⟨-1, f.message, none, none⟩,
        l.note .error f.message) := by
  obtain ⟨error, rfl⟩ := hf.exists_eq
  rw [load, h]
  rfl

lemma load_of_escapes {f : Failure} (h : Escapes d (pathOf directory height) f) :
    load l d directory height ignoreUnknown allowReverts = .error f := by
  have hf := not_isFormat_of_escapes h
  rw [load, loadTransactions_of_escapes h]
  cases f <;> first | exact absurd trivial hf | rfl

/-- Loading a block is given up exactly for these reasons. Otherwise it is loaded with a transaction
for each of the records in its file, or has failed before its first transaction. A file of orderly
records never makes it give up, and there is no other file that is loaded. -/
theorem load_outcome (l : Ledger) (d : Disk) (directory : Path) (height : Int)
    (ignoreUnknown allowReverts : Bool) :
    (∀ f, load l d directory height ignoreUnknown allowReverts = .error f ↔
      Escapes d (pathOf directory height) f) ∧
    (∀ b l', load l d directory height ignoreUnknown allowReverts = .ok (b, l') →
      (b.status = .loaded ∧ b.failure = none ∧ ∃ records, Holds d (pathOf directory height) records ∧
        List.Forall₂ (fun record tx => Transaction.ofJson record = .ok tx) records b.transactions ∧
        ∀ record ∈ records, Transaction.Orderly record) ∨
      (b.status = .failed ∧ b.transactions = [] ∧
        ∃ failure, b.failure = some failure ∧ failure.index = -1)) ∧
    ∀ records, Holds d (pathOf directory height) records →
      (∀ record ∈ records, Transaction.Orderly record) →
        ∃ b l', load l d directory height ignoreUnknown allowReverts = .ok (b, l') := by
  refine ⟨fun f => ⟨fun h => ?_, load_of_escapes⟩, fun b l' h => ?_, fun records hholds horderly => ?_⟩
  · rcases loadTransactions_cases d directory height with
      ⟨_, _, -, -, hload⟩ | ⟨error, hload⟩ | ⟨f', hf'⟩
    · cases h.symm.trans (load_of_ok hload)
    · cases h.symm.trans (load_of_isFormat hload trivial)
    · cases h.symm.trans (load_of_escapes hf')
      exact hf'
  · rcases loadTransactions_cases d directory height with
      ⟨records, transactions, hholds, hrecords, hload⟩ | ⟨error, hload⟩ | ⟨f, hf⟩
    · cases h.symm.trans (load_of_ok hload)
      refine .inl ⟨rfl, rfl, records, hholds, mapM_eq_ok_iff.mp hrecords, fun record hmem => ?_⟩
      obtain ⟨tx, htx⟩ := ok_of_mapM hrecords record hmem
      exact Transaction.orderly_of_ofJson htx
    · cases h.symm.trans (load_of_isFormat hload trivial)
      exact .inr ⟨rfl, rfl, _, rfl, rfl⟩
    · cases h.symm.trans (load_of_escapes hf)
  · have hload := loadTransactions_of_holds hholds
    cases hrecords : records.mapM Transaction.ofJson with
    | ok transactions => exact ⟨_, _, load_of_ok (hload.trans hrecords)⟩
    | error f =>
      have hf : f.IsFormat :=
        Fails.mapM (fun record hmem => Transaction.fails_ofJson (horderly record hmem)) f hrecords
      exact ⟨_, _, load_of_isFormat (hload.trans hrecords) hf⟩

section Inputs

def blockDirectory : Path := ⟨.relative, ["block"]⟩

/-- A disk with one file, for the block of height 100. -/
def diskOf (content : Bytes) : Disk := ⟨[(["block", "100.json"], content)], [["block"]]⟩

lemma read_diskOf (content : Bytes) :
    (diskOf content).read (pathOf blockDirectory 100) = .ok content := by
  have hkey : (diskOf content).key (pathOf blockDirectory 100) = .ok ["block", "100.json"] := by
    have hempty : (diskOf []).key (pathOf blockDirectory 100) = .ok ["block", "100.json"] :=
      eq_ok_of_toOption (by decide +kernel)
    exact hempty
  simp only [Disk.read, hkey, bind, Except.bind]
  rfl

/-- A byte with which no character begins. -/
theorem load_gives_up_on_bytes :
    ¬ ∀ (l : Ledger) (content : Bytes) (ignoreUnknown allowReverts : Bool), ∃ b l',
      load l (diskOf content) blockDirectory 100 ignoreUnknown allowReverts = .ok (b, l') := by
  intro h
  have htext : Disk.textOf [0xff] = .error .undecodable := rfl
  have hescapes : Escapes (diskOf [0xff]) (pathOf blockDirectory 100) .undecodable :=
    .bytes (read_diskOf [0xff]) htext
  obtain ⟨b, l', hload⟩ := h (.create .default none) [0xff] false false
  cases hload.symm.trans (load_of_escapes hescapes)

end Inputs

end Block

end ChainReplay
