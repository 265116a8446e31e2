import Mathlib.Data.List.Basic
import Mathlib.Tactic

/-!
# LibAdb.Lib.Incremental — decoding a stream that arrives in pieces

A decoder is a function `next` from a list of symbols to the item at its front and what is left, or to `none` when
more symbols are needed.  `decodeN next n s` is the reference: up to `n` items of the whole stream `s`.

A reader that sees the stream through a buffer agrees with the reference whenever `next` is `Stable`: what it says
about a buffer it also says about every longer one.  `Stable.snoc` is the step of that argument.
-/

namespace Incremental

variable {α ι : Type*}

/-- Up to `n` items from the front of a stream, and what is left of it. -/
def decodeN (next : List α → Option (ι × List α)) : ℕ → List α → List ι × List α
  | 0, s => ([], s)
  | n + 1, s =>
    match next s with
    | none => ([], s)
    | some (i, left) => (i :: (decodeN next n left).1, (decodeN next n left).2)

/-- An answer does not change when more symbols follow. -/
def Stable (next : List α → Option (ι × List α)) : Prop :=
  ∀ buf rest i left, next buf = some (i, left) → next (buf ++ rest) = some (i, left ++ rest)

variable {next : List α → Option (ι × List α)}

/-- After `n` items, the next one is what `next` says about what is left. -/
theorem decodeN_snoc {items : List ι} {stream left left' : List α} {i : ι}
    (h : decodeN next items.length stream = (items, left)) (hi : next left = some (i, left')) :
    decodeN next (items ++ [i]).length stream = (items ++ [i], left') := by
  induction items generalizing stream with
  | nil =>
    cases h
    simp [decodeN, hi]
  | cons j items ih =>
    rw [List.length_cons, decodeN] at h
    rw [List.cons_append, List.length_cons, decodeN]
    cases hn : next stream with
    | none => rw [hn] at h; cases h
    | some p =>
      rw [hn] at h
      simp only [Prod.mk.injEq, List.cons.injEq] at h
      obtain ⟨⟨rfl, htail⟩, hleft⟩ := h
      have := ih (Prod.ext htail hleft)
      simp only [this]

/-- **The buffered reader's step**: an item found in the buffer is the reference's next one. -/
theorem Stable.snoc (hstable : Stable next) {items : List ι} {stream buf rest left : List α} {i : ι}
    (h : decodeN next items.length stream = (items, buf ++ rest)) (hi : next buf = some (i, left)) :
    decodeN next (items ++ [i]).length stream = (items ++ [i], left ++ rest) :=
  decodeN_snoc h (hstable buf rest i left hi)

end Incremental
