import Mathlib

/-!
# Lists and steps that may fail

A list after one entry was replaced or one more was added, lists of results that were kept in
numbered slots, and sequences of steps that go on with the value of the first one.
-/

namespace Segue

variable {β γ : Type}

/-- The entries after one of them was replaced. -/
theorem getElem?_set_eq_some {xs : List β} {k j : Nat} {old new x : β} (hk : xs[k]? = some old) :
    (xs.set k new)[j]? = some x ↔ (j = k ∧ x = new) ∨ (j ≠ k ∧ xs[j]? = some x) := by
  have hlt : k < xs.length := (List.getElem?_eq_some_iff.mp hk).1
  rw [List.getElem?_set]
  by_cases hj : k = j
  · subst hj
    simp [hlt, eq_comm]
  · have hj' : j ≠ k := fun h => hj h.symm
    simp [hj, hj']

/-- The entries after one more was added. -/
theorem getElem?_append_eq_some {xs : List β} {j : Nat} {new x : β} :
    (xs ++ [new])[j]? = some x ↔ (j = xs.length ∧ x = new) ∨ (j ≠ xs.length ∧ xs[j]? = some x) := by
  by_cases hj : j = xs.length
  · subst hj
    simp [eq_comm]
  · rcases Nat.lt_or_gt_of_ne hj with hlt | hgt
    · simp [List.getElem?_append_left hlt, hj]
    · have hout : xs.length + 1 ≤ j := hgt
      simp [hj, List.getElem?_eq_none, hout, Nat.le_of_lt hgt]

/-- Slots are read off in the order of the things that were put into them. -/
theorem filterMap_range_slots {slot : Nat → Option γ} {index : β → Nat} {value : β → Option γ}
    {n : Nat} {xs : List β} (hsorted : (xs.map index).Pairwise (· < ·))
    (hlt : ∀ x ∈ xs, index x < n) (hhit : ∀ x ∈ xs, slot (index x) = value x)
    (hmiss : ∀ i < n, (∀ x ∈ xs, index x ≠ i) → slot i = none) :
    (List.range n).filterMap slot = xs.filterMap value := by
  have hused : (List.range n).filter (fun i => decide (i ∈ xs.map index)) = xs.map index := by
    have hrange : ((List.range n).filter (fun i => decide (i ∈ xs.map index))).Pairwise (· < ·) :=
      List.Pairwise.filter _ List.pairwise_lt_range
    refine hrange.eq_of_mem_iff hsorted ?_
    intro i
    simp only [List.mem_filter, List.mem_range, decide_eq_true_eq, and_iff_right_iff_imp]
    intro hi
    obtain ⟨x, hx, rfl⟩ := List.mem_map.mp hi
    exact hlt x hx
  calc (List.range n).filterMap slot
      = ((List.range n).filter (fun i => decide (i ∈ xs.map index))).filterMap slot := by
        rw [List.filterMap_filter]
        refine List.filterMap_congr ?_
        intro i hi
        by_cases hmem : i ∈ xs.map index
        · simp only [hmem, decide_true, if_true]
        · have hnone := hmiss i (List.mem_range.mp hi) fun x hx hxi =>
            hmem (hxi ▸ List.mem_map_of_mem hx)
          simp only [hmem, decide_false, Bool.false_eq_true, if_false, hnone]
    _ = (xs.map index).filterMap slot := by rw [hused]
    _ = xs.filterMap value := by
        rw [List.filterMap_map]
        exact List.filterMap_congr hhit

/-- Things with different numbers can be put in the order of the numbers. -/
theorem exists_perm_sorted {index : β → Nat} {xs : List β} (hnodup : (xs.map index).Nodup) :
    ∃ ys : List β, ys.Perm xs ∧ (ys.map index).Pairwise (· < ·) := by
  have htrans : ∀ x y z : β, decide (index x ≤ index y) = true → decide (index y ≤ index z) = true →
      decide (index x ≤ index z) = true := by
    intro x y z hxy hyz
    simp only [decide_eq_true_eq] at hxy hyz ⊢
    exact hxy.trans hyz
  have htotal : ∀ x y : β, (decide (index x ≤ index y) || decide (index y ≤ index x)) = true := by
    intro x y
    simp only [Bool.or_eq_true, decide_eq_true_eq]
    exact Nat.le_total _ _
  have hperm := List.mergeSort_perm xs fun x y => decide (index x ≤ index y)
  have hsorted := List.pairwise_mergeSort htrans htotal xs
  refine ⟨_, hperm, ?_⟩
  have hle : ((xs.mergeSort fun x y => decide (index x ≤ index y)).map index).Pairwise (· ≤ ·) := by
    rw [List.pairwise_map]
    exact hsorted.imp fun hxy => of_decide_eq_true hxy
  have hne : ((xs.mergeSort fun x y => decide (index x ≤ index y)).map index).Nodup :=
    (hperm.map index).nodup_iff.mpr hnodup
  exact (hle.and hne).imp fun h => Nat.lt_of_le_of_ne h.1 h.2

@[simp] theorem filterMap_range_getElem? (xs : List (Option β)) :
    (List.range xs.length).filterMap (fun i => xs[i]?.join) = xs.filterMap id := by
  induction xs with
  | nil => rfl
  | cons x xs ih =>
      rw [List.length_cons, List.range_succ_eq_map, List.filterMap_cons, List.filterMap_map]
      simp only [Function.comp_def, List.getElem?_cons_succ, List.getElem?_cons_zero, ih]
      cases x <;> rfl

/-! ## Steps that may fail -/

variable {ε σ τ : Type}

@[simp] theorem ok_bind (a : σ) (f : σ → Except ε τ) : (Except.ok a >>= f) = f a := rfl

@[simp] theorem error_bind (e : ε) (f : σ → Except ε τ) : (Except.error e >>= f) = .error e := rfl

theorem bind_eq_ok {x : Except ε σ} {f : σ → Except ε τ} {y : τ} :
    (x >>= f) = .ok y ↔ ∃ a, x = .ok a ∧ f a = .ok y := by
  cases x with
  | error e => simp [bind, Except.bind]
  | ok a => simp [bind, Except.bind]

end Segue
