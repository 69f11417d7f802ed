import Mathlib.Order.Defs.Unbundled
import Mathlib.Tactic.Lemma
import ChainReplay.Failure.Basic

/-! Work on a state that may fail or be cut off, and how the state that it leaves is related to the
one that it has found. -/

namespace ChainReplay

section Leads

variable {σ α β : Type} {P : σ → σ → Prop} {s t : σ}

/-- Whatever comes of the work from this state, the state that it leaves is in relation to it. -/
def Leads (P : σ → σ → Prop) (s : σ) (x : ExceptT Failure (StateT σ Option) α) : Prop :=
  ∀ r t, (ExceptT.run x).run s = some (r, t) → P s t

namespace Leads

lemma modify {g : σ → σ} (h : P s (g s)) :
    Leads P s (modify g : ExceptT Failure (StateT σ Option) PUnit) := by
  rintro r t ⟨⟩
  exact h

lemma set (h : P s t) : Leads P s (set t : ExceptT Failure (StateT σ Option) PUnit) := by
  rintro r _ ⟨⟩
  exact h

lemma bind_get {k : σ → ExceptT Failure (StateT σ Option) β} (hk : Leads P s (k s)) :
    Leads P s (get >>= k) := hk

lemma ite {p : Prop} [Decidable p] {x y : ExceptT Failure (StateT σ Option) α}
    (hx : Leads P s x) (hy : Leads P s y) : Leads P s (if p then x else y) := by
  split
  · exact hx
  · exact hy

variable [IsPreorder σ P]

lemma pure (a : α) : Leads P s (pure a) := by
  rintro r t ⟨⟩
  exact refl s

lemma throw (e : Failure) : Leads P s (throw e : ExceptT Failure (StateT σ Option) α) := by
  rintro r t ⟨⟩
  exact refl s

lemma lift (q : Except Failure α) : Leads P s (liftM q) := by
  cases q with
  | ok a => exact pure a
  | error e => exact throw e

lemma bind {x : ExceptT Failure (StateT σ Option) α}
    {k : α → ExceptT Failure (StateT σ Option) β} (hx : Leads P s x)
    (hk : ∀ a t, Leads P t (k a)) : Leads P s (x >>= k) := by
  intro r t h
  change Option.bind ((ExceptT.run x).run s) _ = _ at h
  obtain ⟨⟨q, u⟩, hu, h⟩ := Option.bind_eq_some_iff.mp h
  cases q with
  | error e =>
    cases h
    exact hx _ _ hu
  | ok a => exact Trans.trans (hx _ _ hu) (hk a u r t h)

lemma bind_lift {q : Except Failure α} {k : α → ExceptT Failure (StateT σ Option) β}
    (hk : ∀ a, q = .ok a → Leads P s (k a)) : Leads P s (liftM q >>= k) := by
  cases q with
  | error e => exact throw e
  | ok a => exact hk a rfl

lemma forIn {xs : List α} {body : α → ExceptT Failure (StateT σ Option) PUnit}
    (h : ∀ a t, Leads P t (body a)) :
    Leads P s (forIn xs PUnit.unit fun a _ => do
      body a
      Pure.pure (ForInStep.yield PUnit.unit)) := by
  induction xs generalizing s with
  | nil => exact pure _
  | cons a xs ih =>
    simp only [List.forIn_cons, bind_assoc, pure_bind]
    exact (h a s).bind fun _ t => ih

end Leads

end Leads

end ChainReplay
