import Mathlib.Tactic

/-!
# LibAdb.Lib.Stops — calls that return or stop, and what they leave

A piece of a call takes a state, returns a value or stops, and leaves a state in either case: `StopM`.  `Ends m s Q K`
says that whatever `m` does from `s` satisfies `Q` if it returns and `K` if it stops; the rules below are one for each
way of building a call.
-/

namespace Stops

/-- A piece of a call. -/
def StopM (σ κ α : Type) : Type := σ → Except κ α × σ

variable {σ κ α β : Type}

instance : Monad (StopM σ κ) where
  pure a := fun s => (.ok a, s)
  bind m f := fun s =>
    match m s with
    | (.ok a, s) => f a s
    | (.error k, s) => (.error k, s)

/-- The call stops. -/
def stop (k : κ) : StopM σ κ α := fun s => (.error k, s)

/-- The state, to look at. -/
def look : StopM σ κ σ := fun s => (.ok s, s)

/-- A result that is there already. -/
def ofExcept (f : β → κ) : Except β α → StopM σ κ α
  | .ok a => pure a
  | .error e => stop (f e)

variable {m : StopM σ κ α} {f : α → StopM σ κ β} {s s' : σ} {a : α} {k : κ}

theorem bind_of_ok (h : m s = (.ok a, s')) : (m >>= f) s = f a s' := by
  simp only [Bind.bind, h]

theorem bind_of_error (h : m s = (.error k, s')) : (m >>= f) s = (.error k, s') := by
  simp only [Bind.bind, h]

/-- Two sequences with the same beginning. -/
theorem bind_congr {g : α → StopM σ κ β} (h : ∀ a s', m s = (.ok a, s') → f a s' = g a s') :
    (m >>= f) s = (m >>= g) s := by
  rcases hrun : m s with ⟨k | a, t⟩
  · rw [bind_of_error hrun, bind_of_error hrun]
  · rw [bind_of_ok hrun, bind_of_ok hrun, h a t hrun]

/-! ## What every end satisfies -/

/-- Whatever the piece does from `s`: `Q` if it returns, `K` if it stops. -/
structure Ends (m : StopM σ κ α) (s : σ) (Q : α → σ → Prop) (K : κ → σ → Prop) : Prop where
  returned : ∀ a s', m s = (.ok a, s') → Q a s'
  stopped : ∀ k s', m s = (.error k, s') → K k s'

variable {Q : α → σ → Prop} {Q' : β → σ → Prop} {K K' : κ → σ → Prop}

/-- The piece is known to return. -/
theorem Ends.of_ok (h : m s = (.ok a, s')) (hQ : Q a s') : Ends m s Q K := by
  refine ⟨fun b t hb => ?_, fun k t hk => ?_⟩
  · cases h.symm.trans hb
    exact hQ
  · cases h.symm.trans hk

/-- The piece is known to stop. -/
theorem Ends.of_error (h : m s = (.error k, s')) (hK : K k s') : Ends m s Q K := by
  refine ⟨fun b t hb => ?_, fun j t hj => ?_⟩
  · cases h.symm.trans hb
  · cases h.symm.trans hj
    exact hK

theorem Ends.pure (h : Q a s) : Ends (pure a : StopM σ κ α) s Q K := .of_ok rfl h

theorem Ends.stop (h : K k s) : Ends (stop k : StopM σ κ α) s Q K := .of_error rfl h

/-- **The rule of sequence.** -/
theorem Ends.bind (hm : Ends m s Q K) (hf : ∀ a t, Q a t → Ends (f a) t Q' K') (hk : ∀ k t, K k t → K' k t) :
    Ends (m >>= f) s Q' K' := by
  rcases hrun : m s with ⟨k | a, t⟩
  · have hstop : (m >>= f) s = (.error k, t) := bind_of_error hrun
    refine ⟨fun b u hb => ?_, fun j u hj => ?_⟩
    · cases hstop.symm.trans hb
    · cases hstop.symm.trans hj
      exact hk k t (hm.stopped k t hrun)
  · have hnext := hf a t (hm.returned a t hrun)
    have hbind : (m >>= f) s = f a t := bind_of_ok hrun
    exact ⟨fun b u hb => hnext.returned b u (hbind.symm.trans hb),
      fun j u hj => hnext.stopped j u (hbind.symm.trans hj)⟩

theorem Ends.look_bind {g : σ → StopM σ κ β} (h : Ends (g s) s Q' K) : Ends (look >>= g) s Q' K :=
  ⟨h.returned, h.stopped⟩

theorem Ends.ofExcept {ε : Type} {g : ε → κ} {r : Except ε α} (hok : ∀ a, r = .ok a → Q a s)
    (herr : ∀ e, r = .error e → K (g e) s) : Ends (ofExcept g r) s Q K := by
  cases r with
  | ok a => exact .pure (hok a rfl)
  | error e => exact .stop (herr e rfl)

theorem Ends.ofExcept_bind {ε : Type} {g : ε → κ} {r : Except ε α} (hok : ∀ a, r = .ok a → Ends (f a) s Q' K')
    (herr : ∀ e, r = .error e → K' (g e) s) : Ends (Stops.ofExcept g r >>= f) s Q' K' := by
  cases r with
  | ok a => exact ⟨(hok a rfl).returned, (hok a rfl).stopped⟩
  | error e => exact .of_error rfl (herr e rfl)

/-! ## Calls that return -/

theorem ofExcept_ok {ε : Type} (g : ε → κ) (s : σ) (a : α) : ofExcept g (.ok a) s = (.ok a, s) := rfl

end Stops
