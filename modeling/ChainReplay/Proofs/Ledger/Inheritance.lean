import ChainReplay.Ledger.Override
import ChainReplay.Proofs.Execution.Counterpart
import ChainReplay.Proofs.Execution.Fuel
import ChainReplay.Proofs.Ledger.Enlistment

/-! What stays through all that happens on a ledger: its setup stays, and no code that it knows is
ever forgotten or replaced. -/

namespace ChainReplay

namespace Ledger

lemma settings_of_setup {l m : Ledger} (h : l.setup = m.setup) : l.settings = m.settings := by
  have hsettings := congrArg Ledger.settings h
  exact hsettings

lemma setup_of_surface {l m : Ledger} (h : l.surface = m.surface) : l.setup = m.setup := by
  simp only [setup, bare, h]

lemma emptied_spec (l : Ledger) :
    l.dispose.cleanup.contracts = [] ∧ l.dispose.cleanup.surface = l.surface ∧
      l.dispose.cleanup.codes = l.codes ∧ l.dispose.cleanup.handles = l.handles := by
  cases l
  exact ⟨rfl, rfl, rfl, rfl⟩

structure Inherits (l m : Ledger) : Prop where
  setup : m.setup = l.setup
  codes : l.codes.Included m.codes

namespace Inherits

variable {l m n : Ledger}

lemma refl (l : Ledger) : l.Inherits l := ⟨rfl, .refl _⟩

lemma trans (h : l.Inherits m) (h' : m.Inherits n) : l.Inherits n :=
  ⟨h'.setup.trans h.setup, h.codes.trans h'.codes⟩

lemma note (l : Ledger) (level : Level) (text : Text) : l.Inherits (l.note level text) :=
  ⟨rfl, .refl _⟩

lemma setCode (l : Ledger) (a : Address) (code : Bytes) : l.Inherits (l.setCode a code) :=
  ⟨rfl, Table.included_insertNew _ _ _⟩

lemma emptied (l : Ledger) : l.Inherits l.dispose.cleanup := by
  obtain ⟨-, hsurface, hcodes, -⟩ := l.emptied_spec
  exact ⟨setup_of_surface hsurface, hcodes ▸ .refl _⟩

lemma register {c : Contract} (h : l.register c = .ok m) : l.Inherits m := by
  rw [Ledger.register] at h
  split at h
  · cases h
  · cases h
    exact ⟨rfl, .refl _⟩

instance : IsPreorder Ledger Inherits where
  refl := .refl
  trans := fun _ _ _ h h' => h.trans h'

lemma enlists : Enlists Inherits where
  note := note
  code := setCode
  register := fun _ _ _ _ _ h => register h

lemma resolveAll (l : Ledger) (addresses : List Address) :
    l.Inherits (l.resolveAll addresses).1 := by
  induction addresses generalizing l with
  | nil => exact .refl l
  | cons a rest ih =>
    rw [Ledger.resolveAll]
    cases l.contracts.find? a with
    | none => exact ih l
    | some c =>
      have hresolve := enlists.resolveCode l c
      simp only
      generalize l.resolveCode c = resolved at hresolve ⊢
      obtain ⟨m, f | d⟩ := resolved
      · exact hresolve
      · have hmodify : m.Inherits (m.modifyContract a fun _ => d) := ⟨rfl, .refl _⟩
        exact (hresolve.trans hmodify).trans (ih _)

lemma init (l : Ledger) : l.Inherits l.init.1 :=
  .trans (m := l.dispose) ⟨rfl, .refl _⟩ (.resolveAll _ _)

end Inherits

lemma loadCode_spec {l m : Ledger} {d : Disk} {path : Path} {a : Address} {code : Bytes}
    (h : l.loadCode d path a = .ok (m, code)) : l.Inherits m ∧ m.codes.contains a = true := by
  rw [loadCode] at h
  cases hread : d.readOr path (.missingCode (.unreadable a path)) with
  | error f =>
    rw [hread] at h
    cases h
  | ok own =>
    rw [hread] at h
    cases h
    exact ⟨(Inherits.setCode l a own).trans (.note _ _ _), Table.contains_insertNew_self _ _ _⟩

lemma stable_inherits (l : Ledger) : Stable l.Inherits where
  book := by
    rintro m _ h (entries | ⟨level, text⟩ | n | ⟨a, code⟩)
    · exact h.trans ⟨rfl, .refl _⟩
    · exact h.trans ⟨rfl, .refl _⟩
    · exact h.trans ⟨rfl, .refl _⟩
    · exact h.trans (.setCode m a code)
  modify := fun _ _ _ h => h.trans ⟨rfl, .refl _⟩

/-- A run from outside: a contract is deployed or called, or the host answers it a request. -/
inductive Outer : {α : Type} → Run α → Prop
  | deploy (fuel : Nat) : Outer (Run.deploy (Run.call fuel))
  | execute (fuel : Nat) (calldata : Bytes) (sender origin : Option Address) :
      Outer (Run.execute (Run.call fuel) calldata sender origin)
  | receive (fuel : Nat) (calldata : Bytes) (sender origin : Option Address) :
      Outer (Run.receive calldata (Run.execute (Run.call fuel) calldata sender origin))
  | call (fuel : Nat) (target : Address) (calldata : Bytes) :
      Outer (Run.call fuel target calldata)
  | request (fuel : Nat) (request : HostFunction) (data : Bytes) :
      Outer (Host.answer (Run.call fuel) request data)
  | dispose : Outer Run.dispose

lemma Inherits.perform {α : Type} {x : Run α} (hx : Outer x) {l m : Ledger} {seat seat' : Seat}
    {r : Except Failure α} (h : l.perform seat x = some (r, m, seat')) : l.Inherits m := by
  have hI := (stable_inherits l).lasting
  have hcall (fuel : Nat) := (stable_inherits l).call_add fuel 0
  have hkeeps : Simulates (Same fun f => l.Inherits f.ledger) Eq x x := by
    cases hx with
    | deploy fuel => exact hI.deploy (hcall fuel)
    | execute fuel calldata sender origin =>
      exact hI.execute (hcall fuel) (hI.deploy (hcall fuel)) calldata sender origin
    | receive fuel calldata sender origin =>
      exact hI.alike.receive calldata
        (hI.execute (hcall fuel) (hI.deploy (hcall fuel)) calldata sender origin)
    | call fuel target calldata => exact hcall fuel target calldata
    | request fuel request data => exact hI.answer (hcall fuel) request data
    | dispose => exact hI.alike.dispose
  rw [Run.perform_eq, Option.map_eq_some_iff] at h
  obtain ⟨⟨q, f⟩, hrun, heq⟩ := h
  cases heq
  obtain ⟨g, -, rfl, hf⟩ := hkeeps.outcome ⟨rfl, .refl l⟩ hrun
  exact hf

end Ledger

namespace Overrides

lemma putBack_spec (o : Overrides) {l m : Ledger}
    (h : m = o.foldl (fun l (a, before) => l.modifyContract a (·.applySnapshot before)) l) :
    m.surface = l.surface ∧ m.codes = l.codes ∧ m.handles = l.handles := by
  induction o generalizing l with
  | nil =>
    subst h
    exact ⟨rfl, rfl, rfl⟩
  | cons entry o ih => exact ih (l := l.modifyContract entry.1 (·.applySnapshot entry.2)) h

lemma purge_spec (o : Overrides) (l : Ledger) :
    (o.purge l).surface = l.surface ∧ (o.purge l).codes = l.codes ∧
      (o.purge l).handles = l.handles := by
  have hpurged := o.putBack_spec (l := l) rfl
  rw [purge]
  split
  · exact hpurged
  · exact hpurged

end Overrides

end ChainReplay
