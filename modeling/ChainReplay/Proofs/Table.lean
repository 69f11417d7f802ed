import Mathlib.Tactic.Lemma
import ChainReplay.Table

/-! Laws of tables: what is found after a change, and which entries a change leaves. -/

namespace ChainReplay.Table

variable {κ α : Type} [DecidableEq κ]

@[simp] lemma find?_nil (k : κ) : find? ([] : Table κ α) k = none := rfl

lemma find?_cons (entry : κ × α) (t : Table κ α) (k : κ) :
    find? (entry :: t) k = if entry.1 = k then some entry.2 else find? t k := by
  by_cases h : entry.1 = k <;> simp [find?, h]

lemma mem_of_find? {t : Table κ α} {k : κ} {a : α} (h : find? t k = some a) : (k, a) ∈ t := by
  induction t with
  | nil => cases h
  | cons entry t ih =>
    rw [find?_cons] at h
    split at h
    case isTrue hk =>
      cases h
      exact hk ▸ List.mem_cons_self
    case isFalse => exact List.mem_cons_of_mem _ (ih h)

@[simp] lemma modify_nil (k : κ) (f : α → α) : modify ([] : Table κ α) k f = [] := rfl

lemma modify_cons (entry : κ × α) (t : Table κ α) (k : κ) (f : α → α) :
    modify (entry :: t) k f =
      (if entry.1 = k then (k, f entry.2) else entry) :: modify t k f := rfl

lemma find?_modify (t : Table κ α) (k : κ) (f : α → α) (a : κ) :
    find? (modify t k f) a = if a = k then (find? t a).map f else find? t a := by
  induction t with
  | nil => simp
  | cons entry t ih =>
    rw [modify_cons, find?_cons, find?_cons, ih]
    by_cases he : entry.1 = k <;> by_cases ha : a = k <;> by_cases hea : entry.1 = a <;> simp_all

lemma mem_modify {t : Table κ α} {k : κ} {f : α → α} {entry : κ × α} (h : entry ∈ modify t k f) :
    entry ∈ t ∨ entry.1 = k ∧ ∃ a, (k, a) ∈ t ∧ entry.2 = f a := by
  obtain ⟨⟨k', a⟩, hmem, rfl⟩ := List.mem_map.mp h
  by_cases hk : k' = k
  · subst hk
    exact .inr ⟨by simp, a, hmem, by simp⟩
  · simp only [if_neg hk]
    exact .inl hmem

@[simp] lemma keys_modify (t : Table κ α) (k : κ) (f : α → α) : keys (modify t k f) = keys t := by
  induction t with
  | nil => rfl
  | cons entry t ih =>
    have hkey : (if entry.1 = k then (k, f entry.2) else entry).1 = entry.1 := by
      split
      case isTrue h => exact h.symm
      case isFalse => rfl
    change (if entry.1 = k then (k, f entry.2) else entry).1 :: keys (modify t k f) = _
    rw [hkey, ih]
    rfl

lemma modify_modify (t : Table κ α) (k : κ) (f g : α → α) :
    modify (modify t k f) k g = modify t k (g ∘ f) := by
  induction t with
  | nil => rfl
  | cons entry t ih =>
    rw [modify_cons, modify_cons, modify_cons, ih]
    by_cases h : entry.1 = k <;> simp [h]

lemma contains_iff (t : Table κ α) (k : κ) : contains t k = true ↔ k ∈ keys t := by
  simp [contains, find?, keys]

lemma contains_eq_false_iff (t : Table κ α) (k : κ) : t.contains k = false ↔ t.find? k = none := by
  rw [contains, Option.isSome_eq_false_iff, Option.isNone_iff_eq_none]

lemma contains_of_find? {t : Table κ α} {k : κ} {a : α} (h : t.find? k = some a) :
    t.contains k = true := by
  rw [contains, h]
  rfl

lemma insert_cons (k : κ) (a : α) (entry : κ × α) (t : Table κ α) :
    insert k a (entry :: t) = if entry.1 = k then (k, a) :: t else entry :: insert k a t := rfl

lemma find?_insert (k : κ) (a : α) (t : Table κ α) (j : κ) :
    find? (insert k a t) j = if k = j then some a else find? t j := by
  induction t with
  | nil => exact find?_cons (k, a) [] j
  | cons entry t ih =>
    rw [insert_cons]
    by_cases he : entry.1 = k
    · subst he
      rw [if_pos rfl, find?_cons, find?_cons]
      split <;> rfl
    · rw [if_neg he, find?_cons, find?_cons, ih]
      by_cases hj : entry.1 = j
      · rw [if_pos hj, if_pos hj, if_neg fun hk => he (hj.trans hk.symm)]
      · rw [if_neg hj, if_neg hj]

lemma mem_keys_insert {k : κ} {a : α} {t : Table κ α} {j : κ} (h : j ∈ keys (insert k a t)) :
    j = k ∨ j ∈ keys t := by
  rw [← contains_iff, contains, find?_insert] at h
  split at h
  case isTrue hk => exact .inl hk.symm
  case isFalse => exact .inr ((contains_iff t j).mp h)

lemma nodup_keys_insert {t : Table κ α} (h : (keys t).Nodup) (k : κ) (a : α) :
    (keys (insert k a t)).Nodup := by
  induction t with
  | nil => simp [insert, keys]
  | cons entry t ih =>
    obtain ⟨hmem, hrest⟩ := List.nodup_cons.mp h
    rw [insert_cons]
    by_cases he : entry.1 = k
    · rw [if_pos he]
      exact List.nodup_cons.mpr ⟨he ▸ hmem, hrest⟩
    · rw [if_neg he]
      refine List.nodup_cons.mpr ⟨fun hin => ?_, ih hrest⟩
      rcases mem_keys_insert hin with heq | hin
      · exact he heq
      · exact hmem hin

lemma mem_of_mem_insert {k : κ} {a : α} {t : Table κ α} {entry : κ × α}
    (h : entry ∈ insert k a t) : entry = (k, a) ∨ entry ∈ t := by
  induction t with
  | nil => exact .inl (List.mem_singleton.mp h)
  | cons first t ih =>
    rw [insert_cons] at h
    split at h
    case isTrue => exact (List.mem_cons.mp h).imp_right (List.mem_cons_of_mem first)
    case isFalse =>
      rcases List.mem_cons.mp h with rfl | h
      · exact .inr List.mem_cons_self
      · exact (ih h).imp_right (List.mem_cons_of_mem first)

lemma mem_of_mem_insertAll {t entries : Table κ α} {entry : κ × α}
    (h : entry ∈ insertAll t entries) : entry ∈ t ∨ entry ∈ entries := by
  induction entries generalizing t with
  | nil => exact .inl h
  | cons first entries ih =>
    rcases ih h with hin | hin
    · rcases mem_of_mem_insert hin with rfl | hin
      · exact .inr List.mem_cons_self
      · exact .inl hin
    · exact .inr (List.mem_cons_of_mem first hin)

lemma nodup_keys_insertAll {t : Table κ α} (h : (keys t).Nodup) (entries : Table κ α) :
    (keys (insertAll t entries)).Nodup := by
  induction entries generalizing t with
  | nil => exact h
  | cons entry entries ih => exact ih (nodup_keys_insert h _ _)

lemma insert_of_not_mem {t : Table κ α} {k : κ} (h : k ∉ keys t) (a : α) :
    insert k a t = t ++ [(k, a)] := by
  induction t with
  | nil => rfl
  | cons entry t ih =>
    rw [keys, List.map_cons, List.mem_cons, not_or] at h
    rw [insert_cons, if_neg (Ne.symm h.1), ih h.2]
    rfl

lemma find?_eq_some_iff {t : Table κ α} (h : (keys t).Nodup) {k : κ} {a : α} :
    find? t k = some a ↔ (k, a) ∈ t := by
  refine ⟨mem_of_find?, fun hmem => ?_⟩
  induction t with
  | nil => cases hmem
  | cons entry t ih =>
    obtain ⟨hkey, hrest⟩ := List.nodup_cons.mp h
    rw [find?_cons]
    rcases List.mem_cons.mp hmem with rfl | hmem
    · rw [if_pos rfl]
    · have hk : entry.1 ≠ k := by
        rintro rfl
        exact hkey (List.mem_map.mpr ⟨_, hmem, rfl⟩)
      rw [if_neg hk, ih hrest hmem]

lemma find?_perm {t u : Table κ α} (h : t.Perm u) (hu : (keys u).Nodup) : find? t = find? u := by
  have hkeys : (keys t).Perm (keys u) := h.map fun entry : κ × α => entry.1
  have ht : (keys t).Nodup := hkeys.nodup_iff.mpr hu
  funext k
  refine Option.ext fun a => ?_
  rw [find?_eq_some_iff ht, find?_eq_some_iff hu]
  exact h.mem_iff

end ChainReplay.Table
