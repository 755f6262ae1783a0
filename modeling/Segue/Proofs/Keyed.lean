import Mathlib
import Segue.Keyed

/-!
# Lookups in sorted tables

What a table holds for a key after an entry was set, and after another table was laid on top.
-/

namespace Segue.Keyed

variable {β : Type}

@[simp] theorem get?_insert (j k : String) (v : β) (t : Keyed β) :
    get? j (insert k v t) = if j = k then some v else get? j t := by
  induction t with
  | nil => rfl
  | cons e rest ih =>
      obtain ⟨k', v'⟩ := e
      rw [insert]
      by_cases hlt : k < k'
      · rw [if_pos hlt, get?]
      · rw [if_neg hlt]
        by_cases hk : k = k'
        · subst hk
          rw [if_pos rfl, get?, get?]
          split <;> rfl
        · rw [if_neg hk, get?, get?, ih]
          by_cases hj : j = k'
          · have hne : j ≠ k := fun h => hk (h.symm.trans hj)
            rw [if_pos hj, if_neg hne, if_pos hj]
          · rw [if_neg hj, if_neg hj]

theorem get?_eq_none {j : String} {t : Keyed β} (h : j ∉ t.keys) : get? j t = none := by
  induction t with
  | nil => rfl
  | cons e rest ih =>
      have hne : j ≠ e.1 := List.ne_of_not_mem_cons h
      rw [get?, if_neg hne, ih (List.not_mem_of_not_mem_cons h)]

theorem get?_of_mem {k : String} {v : β} {t : Keyed β} (hkeys : t.keys.Nodup) (h : (k, v) ∈ t) :
    get? k t = some v := by
  induction t with
  | nil => cases h
  | cons e rest ih =>
      obtain ⟨hnot, hrest⟩ := List.nodup_cons.mp hkeys
      rw [get?]
      rcases List.mem_cons.mp h with rfl | h
      · exact if_pos rfl
      · have hne : k ≠ e.1 := by
          rintro rfl
          exact hnot (List.mem_map.mpr ⟨_, h, rfl⟩)
        rw [if_neg hne, ih hrest h]

/-- Of the entries for a key the one on top counts, if a table has each key once. -/
theorem get?_merge (j : String) (base : Keyed β) {upper : Keyed β} (hkeys : upper.keys.Nodup) :
    get? j (merge base upper) = (get? j upper).or (get? j base) := by
  induction upper generalizing base with
  | nil => rfl
  | cons e rest ih =>
      obtain ⟨k, v⟩ := e
      obtain ⟨hnot, hrest⟩ := List.nodup_cons.mp hkeys
      have hmerge : merge base ((k, v) :: rest) = merge (insert k v base) rest := rfl
      rw [hmerge, ih (insert k v base) hrest, get?_insert, get?]
      by_cases hj : j = k
      · have hmissing : get? j rest = none := get?_eq_none (hj ▸ hnot)
        rw [if_pos hj, if_pos hj, hmissing]
        rfl
      · rw [if_neg hj, if_neg hj]

/-! ## Order -/

def Sorted (t : Keyed β) : Prop := t.Pairwise fun e e' => e.1 < e'.1

instance (t : Keyed β) : Decidable (Sorted t) :=
  inferInstanceAs (Decidable (t.Pairwise fun e e' => e.1 < e'.1))

/-- A key above all others is added at the end. -/
theorem insert_of_greatest {before after : Keyed β} {e : String × β}
    (h : Sorted (before ++ e :: after)) : insert e.1 e.2 before = before ++ [e] := by
  have hlt : ∀ e' ∈ before, e'.1 < e.1 := fun e' he' =>
    (List.pairwise_append.mp h).2.2 e' he' e List.mem_cons_self
  clear h
  induction before with
  | nil => rfl
  | cons e' before ih =>
      have hless : e'.1 < e.1 := hlt e' List.mem_cons_self
      have hne : e.1 ≠ e'.1 := fun heq => absurd (heq ▸ hless) (String.lt_irrefl _)
      rw [insert, if_neg (String.lt_asymm hless), if_neg hne,
        ih fun e'' he'' => hlt e'' (List.mem_cons_of_mem _ he'')]
      rfl

theorem eq_or_mem_of_mem_insert {k : String} {v : β} {t : Keyed β} {e : String × β}
    (h : e ∈ insert k v t) : e = (k, v) ∨ e ∈ t := by
  induction t with
  | nil => exact Or.inl (List.mem_singleton.mp h)
  | cons e' rest ih =>
      obtain ⟨k', v'⟩ := e'
      rw [insert] at h
      split at h
      · exact List.mem_cons.mp h
      · split at h
        · exact (List.mem_cons.mp h).imp_right (List.mem_cons_of_mem _)
        · rcases List.mem_cons.mp h with rfl | h
          · exact Or.inr List.mem_cons_self
          · exact (ih h).imp_right (List.mem_cons_of_mem _)

@[simp] theorem mem_keys_insert {j k : String} {v : β} {t : Keyed β} :
    j ∈ (insert k v t).keys ↔ j = k ∨ j ∈ t.keys := by
  induction t with
  | nil => simp [insert, keys]
  | cons e' rest ih =>
      obtain ⟨k', v'⟩ := e'
      rw [insert]
      split
      · simp [keys]
      · split
        · rename_i hk
          simp [keys, hk]
        · simp only [keys, List.map_cons, List.mem_cons] at ih ⊢
          rw [ih]
          exact or_left_comm

theorem sorted_insert {k : String} {v : β} {t : Keyed β} (h : Sorted t) :
    Sorted (insert k v t) := by
  induction t with
  | nil => exact List.pairwise_singleton _ _
  | cons e' rest ih =>
      obtain ⟨k', v'⟩ := e'
      obtain ⟨hhead, hrest⟩ := List.pairwise_cons.mp h
      rw [insert]
      split
      · rename_i hlt
        refine List.pairwise_cons.mpr ⟨fun e he => ?_, h⟩
        rcases List.mem_cons.mp he with rfl | he
        · exact hlt
        · exact String.lt_trans hlt (hhead e he)
      · rename_i hnot
        split
        · rename_i hk
          exact List.pairwise_cons.mpr ⟨fun e he => hk ▸ hhead e he, hrest⟩
        · rename_i hne
          refine List.pairwise_cons.mpr ⟨fun e he => ?_, ih hrest⟩
          rcases eq_or_mem_of_mem_insert he with rfl | he
          · exact lt_of_le_of_ne (le_of_not_gt hnot) (Ne.symm hne)
          · exact hhead e he

theorem Sorted.nodup_keys {t : Keyed β} (h : Sorted t) : t.keys.Nodup :=
  List.pairwise_map.mpr (h.imp ne_of_lt)

@[simp] theorem mem_keys_merge {j : String} {base upper : Keyed β} :
    j ∈ (merge base upper).keys ↔ j ∈ upper.keys ∨ j ∈ base.keys := by
  induction upper generalizing base with
  | nil => simp [merge, keys]
  | cons e rest ih =>
      have hmerge : merge base (e :: rest) = merge (insert e.1 e.2 base) rest := rfl
      have hkeys : keys (e :: rest) = e.1 :: keys rest := rfl
      rw [hmerge, ih, mem_keys_insert, hkeys, List.mem_cons, or_assoc, or_left_comm]

theorem sorted_merge {base : Keyed β} (h : Sorted base) (upper : Keyed β) :
    Sorted (merge base upper) := by
  induction upper generalizing base with
  | nil => exact h
  | cons e rest ih => exact ih (sorted_insert h)

/-- Entries with different keys make up a table with just these keys. -/
theorem keys_ofList_perm {entries : List (String × β)} (h : (entries.map (·.1)).Nodup) :
    (ofList entries).keys.Perm (entries.map (·.1)) := by
  have hsorted : Sorted (ofList entries) := sorted_merge List.Pairwise.nil entries
  refine (List.perm_ext_iff_of_nodup hsorted.nodup_keys h).mpr fun j => ?_
  exact mem_keys_merge.trans (or_iff_left List.not_mem_nil)

section FilterMap

variable {γ : Type} (f : String → β → Option γ)

theorem sorted_filterMap {t : Keyed β} (h : Sorted t) :
    Sorted (t.filterMap fun e => (f e.1 e.2).map fun v => (e.1, v)) := by
  refine h.filterMap _ fun e e' hlt e₁ he₁ e₂ he₂ => ?_
  obtain ⟨v, -, rfl⟩ := Option.map_eq_some_iff.mp he₁
  obtain ⟨v', -, rfl⟩ := Option.map_eq_some_iff.mp he₂
  exact hlt

/-- An entry that is dropped does not uncover another one, if a table has each key once. -/
theorem get?_filterMap (k : String) {t : Keyed β} (hkeys : t.keys.Nodup) :
    get? k (t.filterMap fun e => (f e.1 e.2).map fun v => (e.1, v)) =
      (get? k t).bind (f k) := by
  induction t with
  | nil => rfl
  | cons e rest ih =>
      obtain ⟨k', w⟩ := e
      obtain ⟨hnot, hrest⟩ := List.nodup_cons.mp hkeys
      have ih := ih hrest
      rw [get?]
      by_cases hk : k = k'
      · subst hk
        rw [get?_eq_none hnot] at ih
        rw [if_pos rfl, Option.bind_some]
        cases hf : f k w with
        | none => rw [List.filterMap_cons_none (by simp [hf]), ih, Option.bind_none]
        | some v => rw [List.filterMap_cons_some (b := (k, v)) (by simp [hf]), get?, if_pos rfl]
      · rw [if_neg hk, ← ih]
        cases hf : f k' w with
        | none => rw [List.filterMap_cons_none (by simp [hf])]
        | some v =>
            rw [List.filterMap_cons_some (b := (k', v)) (by simp [hf]), get?, if_neg hk]

end FilterMap

end Segue.Keyed
