import ChainReplay.CommandLine.Run
import ChainReplay.Proofs.CommandLine.Options
import ChainReplay.Proofs.Disk
import ChainReplay.Proofs.Report
import ChainReplay.Proofs.Table

/-! How the exit of a replay goes with the report that it has saved. Behind the report come lines for
the screen, which are read as markup; where one of them cannot be shown, this is what decides. -/

namespace ChainReplay

namespace Task

variable {α β : Type} {t : Terminal}

def outcome (x : Task α) (t : Terminal) : Except Failure α × Terminal := (ExceptT.run x).run t

lemma outcome_bind (x : Task α) (k : α → Task β) (t : Terminal) :
    (x >>= k).outcome t =
      match x.outcome t with
      | (.ok a, u) => (k a).outcome u
      | (.error e, u) => (.error e, u) := by
  simp only [outcome, ExceptT.run_bind, StateT.run_bind]
  rcases (ExceptT.run x).run t with ⟨_ | a, u⟩ <;> rfl

lemma outcome_bind_of_ok {x : Task α} {k : α → Task β} {a : α} {u : Terminal}
    (h : x.outcome t = (.ok a, u)) : (x >>= k).outcome t = (k a).outcome u := by
  rw [outcome_bind, h]

lemma outcome_tryCatch (x : Task α) (h : Failure → Task α) (t : Terminal) :
    (tryCatch x h).outcome t =
      match x.outcome t with
      | (.ok a, u) => (.ok a, u)
      | (.error e, u) => (h e).outcome u := by
  simp only [outcome, ExceptT.run, StateT.run]
  simp only [tryCatch, tryCatchThe, MonadExceptOf.tryCatch, ExceptT.tryCatch, ExceptT.mk, bind,
    StateT.bind]
  obtain ⟨e | a, u⟩ := x t <;> rfl

lemma outcome_liftM (q : Except Failure α) (t : Terminal) : (liftM q : Task α).outcome t = (q, t) := by
  cases q <;> rfl

/-- The line is well-formed markup, for text that has a byte form. -/
def Shows (line : Text) : Prop :=
  ∃ text bytes, Markup.render line = .ok text ∧ Utf8.encode text = .ok bytes

lemma shows_iff {line : Text} :
    Shows line ↔ ((Markup.render line).toOption.any fun text =>
      (Utf8.encode text).toOption.isSome) = true := by
  rw [Shows]
  cases Markup.render line with
  | error e => exact ⟨nofun, nofun⟩
  | ok text =>
    cases hencode : Utf8.encode text with
    | error part =>
      refine ⟨?_, ?_⟩
      · rintro ⟨_, _, ⟨⟩, hbytes⟩
        cases hencode.symm.trans hbytes
      · intro h
        simp [Except.toOption, hencode] at h
    | ok bytes =>
      exact ⟨fun _ => by simp [Except.toOption, hencode], fun _ => ⟨text, bytes, rfl, hencode⟩⟩

instance (line : Text) : Decidable (Shows line) := decidable_of_iff' _ shows_iff

/-- What comes of a printout leaves the disk as it is, and fails exactly if not all can be shown. -/
structure Printed (shows : Prop) (t : Terminal) (o : Except Failure PUnit × Terminal) : Prop where
  disk : o.2.disk = t.disk
  ok_iff : o.1 = .ok ⟨⟩ ↔ shows

lemma Printed.bind {first second : Prop} {x : Task PUnit} {k : PUnit → Task PUnit}
    (hx : Printed first t (x.outcome t)) (hk : ∀ u, Printed second u ((k ⟨⟩).outcome u)) :
    Printed (first ∧ second) t ((x >>= k).outcome t) := by
  rw [outcome_bind]
  obtain ⟨hdisk, hok⟩ := hx
  generalize x.outcome t = o at hdisk hok
  obtain ⟨_ | ⟨⟩, u⟩ := o
  · exact ⟨hdisk, nofun, fun hboth => nomatch hok.mpr hboth.1⟩
  · refine ⟨(hk u).disk.trans hdisk, (hk u).ok_iff.trans ⟨fun h => ⟨hok.mp rfl, h⟩, And.right⟩⟩

lemma outcome_file (act : Filing α) (t : Terminal) :
    (file act).outcome t =
      ((Filing.outcome act t.disk).1, { t with disk := (Filing.outcome act t.disk).2 }) := by
  rw [file, outcome_bind]
  change outcome (modify (fun t => { t with disk := (Filing.outcome act t.disk).2 }) >>= fun _ =>
    liftM (Filing.outcome act t.disk).1) t = _
  cases (Filing.outcome act t.disk).1 <;> rfl

lemma read_of_save {path : Path} {content : Text} {u : Terminal}
    (h : (save path content).outcome t = (.ok ⟨⟩, u)) :
    ∃ bytes, Utf8.encode content = .ok bytes ∧ u.disk.read path = .ok bytes := by
  rw [save] at h
  cases hencode : Utf8.encode content with
  | error part =>
    rw [hencode] at h
    simp only at h
    rw [outcome_bind] at h
    split at h
    · cases h
    · cases h
  | ok bytes =>
    rw [hencode] at h
    simp only at h
    rw [outcome_file, Filing.outcome_write] at h
    cases hkey : t.disk.key path with
    | error e =>
      rw [hkey] at h
      cases h
    | ok key =>
      rw [hkey] at h
      simp only at h
      split at h
      · cases h
      · cases h
        refine ⟨bytes, rfl, ?_⟩
        have hsame : t.disk.directories ⊆
            Disk.directories ⟨Table.insert key bytes t.disk.files, t.disk.directories⟩ :=
          List.Subset.refl _
        refine Disk.read_of_key (Disk.key_eq_ok_mono hsame hkey) ?_
        rw [Table.find?_insert, if_pos rfl]

end Task

namespace Command

open ChainReplay.Task ReplayResult

variable {s : Surroundings} {arguments : List Text} {r : ReplayRequest} {place : Text}
  {rs : List ReplayResult} {t u : Terminal}

def reportOf (s : Surroundings) (r : ReplayRequest) (rs : List ReplayResult) : Report :=
  Report.create r.plan.stem s.time rs

section Exits

end Exits

end Command

end ChainReplay
