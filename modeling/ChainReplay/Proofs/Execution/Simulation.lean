import ChainReplay.Proofs.Execution.Outcome

/-! Every outcome of one run is matched by an outcome of another: the results agree, and the frames
that are left behind are related again. -/

namespace ChainReplay

inductive Agree {α β : Type} (R : α → β → Prop) : Except Failure α → Except Failure β → Prop
  | ok {a : α} {b : β} (h : R a b) : Agree R (.ok a) (.ok b)
  | error (e : Failure) : Agree R (.error e) (.error e)

lemma Agree.eq {α : Type} {q r : Except Failure α} (h : Agree Eq q r) : q = r := by
  cases h with
  | ok h => rw [h]
  | error e => rfl

lemma Agree.refl {α : Type} (r : Except Failure α) : Agree Eq r r := by
  cases r with
  | ok a => exact .ok rfl
  | error e => exact .error e

def Simulates {α β : Type} (S : Frame → Frame → Prop) (R : α → β → Prop) (x : Run α)
    (y : Run β) : Prop :=
  ∀ f g, S f g → ∀ q f', x.outcome f = some (q, f') →
    ∃ r g', y.outcome g = some (r, g') ∧ Agree R q r ∧ S f' g'

namespace Simulates

open Run

variable {α β γ δ : Type} {S : Frame → Frame → Prop} {R : α → β → Prop} {Q : γ → δ → Prop}

lemma outcome {x y : Run α} (h : Simulates S Eq x y) {f g f' : Frame} {q : Except Failure α}
    (hfg : S f g) (hx : x.outcome f = some (q, f')) :
    ∃ g', y.outcome g = some (q, g') ∧ S f' g' := by
  obtain ⟨r, g', hy, hr, hS⟩ := h f g hfg q f' hx
  cases hr.eq
  exact ⟨g', hy, hS⟩

lemma pure {a : α} {b : β} (h : R a b) : Simulates S R (pure a) (pure b) := by
  intro f g hS q f' hx
  cases hx
  exact ⟨_, _, rfl, .ok h, hS⟩

lemma throw (e : Failure) : Simulates S R (throw e) (throw e) := by
  intro f g hS q f' hx
  cases hx
  exact ⟨_, _, rfl, .error e, hS⟩

lemma outOfFuel (y : Run β) : Simulates S R outOfFuel y := by
  intro f g _ q f' hx
  cases hx

lemma bind {x : Run α} {y : Run β} {k : α → Run γ} {m : β → Run δ} (h : Simulates S R x y)
    (hk : ∀ a b, R a b → Simulates S Q (k a) (m b)) : Simulates S Q (x >>= k) (y >>= m) := by
  intro f g hS q f' hx
  rw [outcome_bind] at hx
  obtain ⟨p, f₁, hx₁, hx₂⟩ := Outcome.andThen_eq_some hx
  obtain ⟨r, g₁, hy₁, hr, hS₁⟩ := h f g hS p f₁ hx₁
  simp only [outcome_bind, hy₁, Outcome.some_andThen]
  cases hr with
  | ok hr => exact hk _ _ hr f₁ g₁ hS₁ q f' hx₂
  | error e =>
    cases hx₂
    exact ⟨_, _, rfl, .error e, hS₁⟩

lemma attempt {x : Run α} {y : Run β} (h : Simulates S R x y) :
    Simulates S (Agree R) (attempt x) (attempt y) := by
  intro f g hS q f' hx
  rw [outcome_attempt] at hx
  obtain ⟨p, f₁, hx₁, hx₂⟩ := Outcome.andThen_eq_some hx
  obtain ⟨r, g₁, hy₁, hr, hS₁⟩ := h f g hS p f₁ hx₁
  cases hx₂
  exact ⟨.ok r, g₁, by rw [outcome_attempt, hy₁, Outcome.some_andThen], .ok hr, hS₁⟩

lemma lift {r : Except Failure α} {s : Except Failure β} (h : Agree R r s) :
    Simulates S R (lift r) (lift s) := by
  intro f g hS q f' hx
  rw [outcome_lift] at hx
  cases hx
  exact ⟨s, g, outcome_lift s g, h, hS⟩

lemma ite {x x' : Run α} {y y' : Run β} (p : Prop) [Decidable p] (h : Simulates S R x y)
    (h' : Simulates S R x' y') :
    Simulates S R (if p then x else x') (if p then y else y') := by
  split
  · exact h
  · exact h'

lemma step {x : Run α} {y : Run β} {a : Frame → α} {b : Frame → β} {k m : Frame → Frame}
    (hx : ∀ f, x.outcome f = some (.ok (a f), k f)) (hy : ∀ g, y.outcome g = some (.ok (b g), m g))
    (hR : ∀ f g, S f g → R (a f) (b g)) (hS : ∀ f g, S f g → S (k f) (m g)) :
    Simulates S R x y := by
  intro f g h q f' hf
  rw [hx] at hf
  cases hf
  exact ⟨_, _, hy g, .ok (hR f g h), hS f g h⟩

end Simulates

section Passes

open Run

variable {α β γ δ : Type} {S T T' U U' V : Frame → Frame → Prop} {R : α → β → Prop}
  {Q : γ → δ → Prop}

/-- The outcomes agree. They have left frames in the one relation if they are results, and in the other
if they are failures. -/
inductive Ends (T U : Frame → Frame → Prop) (R : α → β → Prop) :
    Except Failure α → Frame → Except Failure β → Frame → Prop
  | ok {a : α} {b : β} {f g : Frame} (h : R a b) (hT : T f g) : Ends T U R (.ok a) f (.ok b) g
  | error (e : Failure) {f g : Frame} (hU : U f g) : Ends T U R (.error e) f (.error e) g

/-- Runs that lead from frames in one relation to frames in others. -/
def Passes (S T U : Frame → Frame → Prop) (R : α → β → Prop) (x : Run α) (y : Run β) : Prop :=
  ∀ f g, S f g → ∀ q f', x.outcome f = some (q, f') →
    ∃ r g', y.outcome g = some (r, g') ∧ Ends T U R q f' r g'

namespace Passes

lemma of_simulates {x : Run α} {y : Run β} (h : Simulates S R x y) (hU : ∀ f g, S f g → U f g) :
    Passes S S U R x y := by
  intro f g hfg q f' hx
  obtain ⟨r, g', hy, hr, hS⟩ := h f g hfg q f' hx
  refine ⟨r, g', hy, ?_⟩
  cases hr with
  | ok hr => exact .ok hr hS
  | error e => exact .error e (hU _ _ hS)

lemma simulates {x : Run α} {y : Run β} (h : Passes S S S R x y) : Simulates S R x y := by
  intro f g hfg q f' hx
  obtain ⟨r, g', hy, hend⟩ := h f g hfg q f' hx
  cases hend with
  | ok hr hS => exact ⟨_, g', hy, .ok hr, hS⟩
  | error e hS => exact ⟨_, g', hy, .error e, hS⟩

lemma mono {x : Run α} {y : Run β} (h : Passes S T U R x y) (hT : ∀ f g, T f g → T' f g)
    (hU : ∀ f g, U f g → U' f g) : Passes S T' U' R x y := by
  intro f g hfg q f' hx
  obtain ⟨r, g', hy, hend⟩ := h f g hfg q f' hx
  refine ⟨r, g', hy, ?_⟩
  cases hend with
  | ok hr hend => exact .ok hr (hT _ _ hend)
  | error e hend => exact .error e (hU _ _ hend)

lemma bind {x : Run α} {y : Run β} {k : α → Run γ} {m : β → Run δ} (h : Passes S T U R x y)
    (hk : ∀ a b, R a b → Passes T V U Q (k a) (m b)) : Passes S V U Q (x >>= k) (y >>= m) := by
  intro f g hfg q f' hx
  rw [outcome_bind] at hx
  obtain ⟨p, f₁, hx₁, hx₂⟩ := Outcome.andThen_eq_some hx
  obtain ⟨r, g₁, hy₁, hend⟩ := h f g hfg p f₁ hx₁
  simp only [outcome_bind, hy₁, Outcome.some_andThen]
  cases hend with
  | ok hr hT => exact hk _ _ hr f₁ g₁ hT q f' hx₂
  | error e hU =>
    cases hx₂
    exact ⟨_, _, rfl, .error e hU⟩

lemma throw (e : Failure) (hU : ∀ f g, S f g → U f g) :
    Passes S T U R (throw e) (throw e) := by
  intro f g hfg q f' hx
  cases hx
  exact ⟨_, _, rfl, .error e (hU f g hfg)⟩

lemma optional {x y : Run PUnit} {k : Run α} {m : Run β} {p : Prop} [Decidable p]
    (h : Simulates S Eq x y) (hU : ∀ f g, S f g → U f g) (hk : Passes S T U R k m) :
    Passes S T U R (if p then x >>= fun _ => k else k) (if p then y >>= fun _ => m else m) := by
  split
  · exact (of_simulates h hU).bind fun _ _ _ => hk
  · exact hk

lemma ite {x x' : Run α} {y y' : Run β} (p : Prop) [Decidable p] (h : Passes S T U R x y)
    (h' : Passes S T U R x' y') :
    Passes S T U R (if p then x else x') (if p then y else y') := by
  split
  · exact h
  · exact h'

lemma attempt {x : Run α} {y : Run β} (h : Passes S T T R x y) :
    Passes S T U (Agree R) (Run.attempt x) (Run.attempt y) := by
  intro f g hfg q f' hx
  rw [outcome_attempt] at hx
  obtain ⟨p, f₁, hx₁, hx₂⟩ := Outcome.andThen_eq_some hx
  obtain ⟨r, g₁, hy₁, hend⟩ := h f g hfg p f₁ hx₁
  cases hx₂
  refine ⟨.ok r, g₁, by rw [outcome_attempt, hy₁, Outcome.some_andThen], ?_⟩
  cases hend with
  | ok hr hT => exact .ok (.ok hr) hT
  | error e hT => exact .ok (.error e) hT

end Passes

end Passes

end ChainReplay
