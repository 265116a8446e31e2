import Mathlib.Data.List.Basic
import Mathlib.Tactic

/-!
# LibAdb.Lib.Tasks — a list of tasks over a shared state

Facts about a list of which one entry is replaced or to which one is appended, in the form an invariant over all
tasks needs: `Each P l` says `P i t` of every task `t` with its number `i`.
-/

namespace Tasks

variable {τ : Type*} {P Q : ℕ → τ → Prop} {l : List τ}

/-- Every task satisfies `P`, which may depend on its number. -/
def Each (P : ℕ → τ → Prop) (l : List τ) : Prop := ∀ i t, l[i]? = some t → P i t

theorem Each.mono (h : Each P l) (hPQ : ∀ i t, l[i]? = some t → P i t → Q i t) : Each Q l :=
  fun i t ht => hPQ i t ht (h i t ht)

/-- One task moves; the others keep what they had, as seen from the new state. -/
theorem Each.set {i : ℕ} {t' : τ} (h : Each P l) (hown : Q i t')
    (hother : ∀ j t, j ≠ i → l[j]? = some t → P j t → Q j t) : Each Q (l.set i t') := by
  intro j t ht
  by_cases hj : j = i
  · subst hj
    rw [List.getElem?_set_self'] at ht
    cases hl : l[j]? with
    | none => rw [hl] at ht; cases ht
    | some u =>
      rw [hl] at ht
      cases ht
      exact hown
  · rw [List.getElem?_set_ne (Ne.symm hj)] at ht
    exact hother j t hj ht (h j t ht)

/-- One task joins. -/
theorem Each.append {t' : τ} (h : Each P l) (hnew : P l.length t') : Each P (l ++ [t']) := by
  intro j t ht
  rw [List.getElem?_append] at ht
  split_ifs at ht with hj
  · exact h j t ht
  · obtain ⟨hj', rfl⟩ : j - l.length = 0 ∧ t' = t := by
      rw [List.getElem?_singleton] at ht
      split_ifs at ht with h0
      exact ⟨h0, Option.some.inj ht⟩
    rwa [show j = l.length by omega]

/-! ## Sums over tasks -/

/-- The sum of a quantity over all tasks. -/
def total (f : τ → ℕ) (l : List τ) : ℕ := (l.map f).sum

theorem total_append (f : τ → ℕ) (l : List τ) (t : τ) : total f (l ++ [t]) = total f l + f t := by
  simp [total]

theorem total_set (f : τ → ℕ) {i : ℕ} {t : τ} (t' : τ) (h : l[i]? = some t) :
    total f (l.set i t') + f t = total f l + f t' := by
  induction l generalizing i with
  | nil => cases h
  | cons a l ih =>
    cases i with
    | zero =>
      cases h
      simp only [total, List.set_cons_zero, List.map_cons, List.sum_cons]
      omega
    | succ i =>
      have := ih (i := i) (by simpa using h)
      simp only [total, List.set_cons_succ, List.map_cons, List.sum_cons] at this ⊢
      omega

theorem le_total (f : τ → ℕ) {i : ℕ} {t : τ} (h : l[i]? = some t) : f t ≤ total f l := by
  exact List.single_le_sum (fun _ _ => Nat.zero_le _) _ (List.mem_map_of_mem (List.mem_of_getElem? h))

end Tasks
