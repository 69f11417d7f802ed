import Mathlib.Tactic.Lemma
import ChainReplay.Wire.Format

/-! Which bytes a reader takes for which value. A reader is described by the relation between values
and the bytes they are read from; whatever follows is left alone. -/

namespace ChainReplay

namespace Emission

lemma andThen_eq_written_iff (a b : Emission) (bs : Bytes) :
    a.andThen b = written bs ↔ ∃ xs ys, bs = xs ++ ys ∧ a = written xs ∧ b = written ys := by
  obtain ⟨xs, failure⟩ := a
  obtain ⟨ys, failure'⟩ := b
  cases failure with
  | none =>
    simp only [andThen, written, mk.injEq, and_true]
    constructor
    · rintro ⟨rfl, rfl⟩
      exact ⟨xs, ys, rfl, rfl, rfl, rfl⟩
    · rintro ⟨_, _, rfl, rfl, rfl, rfl⟩
      exact ⟨rfl, rfl⟩
  | some f => simp [andThen, written]

lemma result_eq_ok_iff_written (e : Emission) (bs : Bytes) :
    e.result = .ok bs ↔ e = written bs := by
  obtain ⟨xs, failure⟩ := e
  cases failure <;> simp [result, written]

lemma failed_ne_written (f : Failure) (bs : Bytes) : failed f ≠ written bs := by
  simp [failed, written]

lemma written_inj {xs ys : Bytes} : written xs = written ys ↔ xs = ys := by
  simp [written]

end Emission

namespace Read

variable {α β : Type}

def outcome (read : Read α) (r : Reader) : Except Failure α × Reader := (ExceptT.run read).run r

lemma outcome_bind (x : Read α) (k : α → Read β) (r : Reader) :
    (x >>= k).outcome r =
      match x.outcome r with
      | (.ok a, r) => (k a).outcome r
      | (.error e, r) => (.error e, r) := by
  rcases h : x.outcome r with ⟨_ | a, r'⟩
  · simp only [outcome, ExceptT.run_bind, StateT.run_bind] at h ⊢
    rw [h]
    rfl
  · simp only [outcome, ExceptT.run_bind, StateT.run_bind] at h ⊢
    rw [h]
    rfl

lemma outcome_get (r : Reader) : (get : Read Reader).outcome r = (.ok r, r) := rfl

lemma outcome_bytes (length : Nat) (r : Reader) :
    (Reader.bytes length).outcome r =
      if r.rest.length < length then
        (.error (.codec (.endOfBuffer length r.offset r.rest.length)), r)
      else (.ok (r.rest.take length), ⟨r.offset + length, r.rest.drop length⟩) := by
  simp only [Reader.bytes, outcome_bind, outcome_get]
  split <;> rfl

/-- A value is read exactly where one of its written forms stands in front. -/
def Takes (read : Read α) (written : α → Bytes → Prop) : Prop :=
  ∀ offset s a r, read.outcome ⟨offset, s⟩ = (.ok a, r) ↔
    ∃ bs rest, s = bs ++ rest ∧ r = ⟨offset + bs.length, rest⟩ ∧ written a bs

namespace Takes

variable {read : Read α} {written written' : α → Bytes → Prop}

lemma congr (h : Takes read written) (heq : ∀ a bs, written a bs ↔ written' a bs) :
    Takes read written' := by
  intro offset s a r
  simp only [h offset s a r, heq]

lemma pure (a : α) : Takes (pure a) fun b bs => b = a ∧ bs = [] := by
  rintro offset s b ⟨n, rest⟩
  constructor
  · rintro ⟨⟩
    exact ⟨[], s, rfl, rfl, rfl, rfl⟩
  · rintro ⟨_, _, rfl, h, rfl, rfl⟩
    rw [h]
    rfl

lemma throw (f : Failure) : Takes (throw f : Read α) fun _ _ => False := by
  intro offset s b r
  constructor
  · rintro ⟨⟩
  · rintro ⟨_, _, _, _, ⟨⟩⟩

lemma bind {k : α → Read β} {next : α → β → Bytes → Prop} (h : Takes read written)
    (hk : ∀ a, Takes (k a) (next a)) :
    Takes (read >>= k) fun b bs => ∃ a xs ys, bs = xs ++ ys ∧ written a xs ∧ next a b ys := by
  intro offset s b r
  rw [outcome_bind]
  constructor
  · intro hrun
    rcases hread : read.outcome ⟨offset, s⟩ with ⟨_ | a, r'⟩
    · rw [hread] at hrun
      cases hrun
    · rw [hread] at hrun
      obtain ⟨xs, s', rfl, rfl, hxs⟩ := (h offset s a r').mp hread
      obtain ⟨ys, rest, rfl, rfl, hys⟩ := (hk a _ s' b r).mp hrun
      refine ⟨xs ++ ys, rest, by rw [List.append_assoc], ?_, a, xs, ys, rfl, hxs, hys⟩
      rw [List.length_append, Nat.add_assoc]
  · rintro ⟨_, rest, rfl, rfl, a, xs, ys, rfl, hxs, hys⟩
    have hread := (h offset (xs ++ (ys ++ rest)) a _).mpr ⟨xs, _, rfl, rfl, hxs⟩
    rw [List.append_assoc, hread, List.length_append, ← Nat.add_assoc]
    exact (hk a _ _ b _).mpr ⟨ys, rest, rfl, rfl, hys⟩

lemma map (h : Takes read written) (g : α → β) :
    Takes (g <$> read) fun b bs => ∃ a, b = g a ∧ written a bs := by
  refine (h.bind fun a => pure (g a)).congr fun b bs => ?_
  constructor
  · rintro ⟨a, xs, ys, rfl, hxs, rfl, rfl⟩
    exact ⟨a, rfl, by rwa [List.append_nil]⟩
  · rintro ⟨a, rfl, hbs⟩
    exact ⟨a, bs, [], (List.append_nil bs).symm, hbs, rfl, rfl⟩

lemma bytes (length : Nat) :
    Takes (Reader.bytes length) fun bs cs => cs = bs ∧ bs.length = length := by
  intro offset s bs r
  rw [outcome_bytes]
  constructor
  · intro hrun
    split at hrun
    case isTrue => cases hrun
    case isFalse h =>
      cases hrun
      have hlength : (s.take length).length = length := List.length_take_of_le (Nat.not_lt.mp h)
      exact ⟨s.take length, s.drop length, (List.take_append_drop length s).symm,
        by rw [hlength], rfl, hlength⟩
  · rintro ⟨_, rest, rfl, rfl, rfl, rfl⟩
    rw [if_neg (by simp)]
    simp

lemma unsigned (width : Nat) :
    Takes (Reader.unsigned width) fun n bs => bs.length = width ∧ n = Bytes.toNat bs := by
  refine ((bytes width).map Bytes.toNat).congr fun n bs => ?_
  constructor
  · rintro ⟨_, rfl, rfl, h⟩
    exact ⟨h, rfl⟩
  · rintro ⟨h, rfl⟩
    exact ⟨bs, rfl, rfl, h⟩

end Takes

end Read

end ChainReplay
