import Mathlib.Tactic

/-!
# LibAdb.Lib.Slices — stretches of a fixed-length buffer, and overwriting them

`slice l a b` is the stretch from `a` up to `b`; `splice l p d` overwrites the stretch of `d`'s length at `p`.  What a
buffer's cursors delimit is a slice, and both a read into the free space and a `copy_within` are splices
(`copyWithin`).  A splice leaves the slices before and behind it alone (`slice_splice_before`, `slice_splice_after`)
and shows up as its data (`slice_splice_self`).
-/

namespace Slices

variable {α : Type*}

/-- `l[a..b]` -/
def slice (l : List α) (a b : ℕ) : List α := (l.take b).drop a

/-- `l[p..p + d.len()].copy_from_slice(d)` -/
def splice (l : List α) (p : ℕ) (d : List α) : List α := l.take p ++ d ++ l.drop (p + d.length)

/-- `l.copy_within(a..b, p)` -/
def copyWithin (l : List α) (a b p : ℕ) : List α := splice l p (slice l a b)

variable {l d : List α} {a b c p i : ℕ}

theorem getElem?_slice : (slice l a b)[i]? = if a + i < b then l[a + i]? else none := by
  rw [slice, List.getElem?_drop, List.getElem?_take]

theorem getElem?_splice (hp : p ≤ l.length) :
    (splice l p d)[i]? = if i < p then l[i]? else if i < p + d.length then d[i - p]? else l[i]? := by
  have hlen : (l.take p).length = p := by
    rw [List.length_take]
    omega
  unfold splice
  rw [List.append_assoc, List.getElem?_append, hlen]
  split_ifs with h1 h2
  · rw [List.getElem?_take, if_pos h1]
  · rw [List.getElem?_append_left (by omega)]
  · rw [List.getElem?_append_right (by omega), List.getElem?_drop]
    congr 1
    omega

theorem length_slice (h : b ≤ l.length) : (slice l a b).length = b - a := by
  simp [slice, h]

@[simp] theorem slice_self (l : List α) (a : ℕ) : slice l a a = [] := by
  simp [slice]

/-- Two stretches that meet. -/
theorem slice_append_slice (hab : a ≤ b) (hbc : b ≤ c) (hb : b ≤ l.length) :
    slice l a b ++ slice l b c = slice l a c := by
  apply List.ext_getElem?
  intro i
  rw [List.getElem?_append, length_slice hb, getElem?_slice, getElem?_slice, getElem?_slice]
  split_ifs <;> first | rfl | omega | (congr 1; omega)

theorem take_slice (h : a + c ≤ b) : (slice l a b).take c = slice l a (a + c) := by
  apply List.ext_getElem?
  intro i
  rw [List.getElem?_take, getElem?_slice, getElem?_slice]
  split_ifs <;> first | rfl | omega

theorem drop_slice : (slice l a b).drop c = slice l (a + c) b := by
  unfold slice
  rw [List.drop_drop]

theorem length_splice (h : p + d.length ≤ l.length) : (splice l p d).length = l.length := by
  simp only [splice, List.length_append, List.length_take, List.length_drop]
  omega

theorem slice_splice_before (hb : b ≤ p) (hp : p ≤ l.length) : slice (splice l p d) a b = slice l a b := by
  apply List.ext_getElem?
  intro i
  rw [getElem?_slice, getElem?_slice, getElem?_splice hp]
  split_ifs <;> first | rfl | omega

theorem slice_splice_self (hp : p ≤ l.length) : slice (splice l p d) p (p + d.length) = d := by
  apply List.ext_getElem?
  intro i
  rw [getElem?_slice, getElem?_splice hp]
  split_ifs with h1 h2
  · omega
  · congr 1
    omega
  · exact (List.getElem?_eq_none (by omega)).symm

theorem slice_splice_after (ha : p + d.length ≤ a) (hp : p ≤ l.length) :
    slice (splice l p d) a b = slice l a b := by
  apply List.ext_getElem?
  intro i
  rw [getElem?_slice, getElem?_slice, getElem?_splice hp]
  split_ifs <;> first | rfl | omega

/-- Two stretches written one behind the other are one. -/
theorem splice_splice {e : List α} (hp : p ≤ l.length) : splice (splice l p d) (p + d.length) e = splice l p (d ++ e) := by
  have hlen : (l.take p ++ d).length = p + d.length := by
    rw [List.length_append, List.length_take]
    omega
  have hfront : (splice l p d).take (p + d.length) = l.take p ++ d := by
    rw [splice, ← hlen, List.take_left]
  have hback : (splice l p d).drop (p + d.length + e.length) = l.drop (p + (d ++ e).length) := by
    rw [splice, ← List.drop_drop, ← hlen, List.drop_left, hlen, List.drop_drop, List.length_append, Nat.add_assoc]
  rw [splice, hfront, hback, splice, List.append_assoc (l.take p)]

/-! ## A buffer with two cursors -/

/-- The unread bytes of a buffer lie between `head` and `tail`, its free space behind `tail`. -/
structure Within (l : List α) (head tail : ℕ) : Prop where
  head_le : head ≤ tail
  tail_le : tail ≤ l.length

variable {head tail : ℕ}

/-- A read into the free space. -/
theorem Within.put (h : Within l head tail) (hd : d.length ≤ l.length - tail) :
    Within (splice l tail d) head (tail + d.length) ∧
      slice (splice l tail d) head (tail + d.length) = slice l head tail ++ d ∧
      (splice l tail d).length = l.length := by
  have h1 := h.head_le
  have h2 := h.tail_le
  have hlen : (splice l tail d).length = l.length := length_splice (by omega)
  refine ⟨⟨by omega, by omega⟩, ?_, hlen⟩
  rw [← slice_append_slice h1 (Nat.le_add_right _ _) (by omega), slice_splice_before le_rfl h2, slice_splice_self h2]

/-- The unread bytes moved to the front. -/
theorem Within.compact (h : Within l head tail) :
    Within (copyWithin l head tail 0) 0 (tail - head) ∧
      slice (copyWithin l head tail 0) 0 (tail - head) = slice l head tail ∧
      (copyWithin l head tail 0).length = l.length := by
  have h1 := h.head_le
  have h2 := h.tail_le
  have hn : (slice l head tail).length = tail - head := length_slice h2
  have hlen : (copyWithin l head tail 0).length = l.length := length_splice (by omega)
  refine ⟨⟨Nat.zero_le _, by omega⟩, ?_, hlen⟩
  have := slice_splice_self (d := slice l head tail) (Nat.zero_le l.length)
  rwa [Nat.zero_add, hn] at this

end Slices
