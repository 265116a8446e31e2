import Mathlib.Tactic

/-!
# LibAdb.Lib.Runs — runs of a system given by a step function

A system is a partial step function `step : σ → ε → Option σ`: `step s e = some t` says that event `e` can happen in
`s` and leads to `t`.  `Run step P s es t` is a finite run from `s` to `t` over the events `es` in which every step
was taken from a state and with an event that satisfy `P`; a result about every run is one about
`Run step (fun _ _ => True)`, a result about the runs that avoid some step is one with that step excluded by `P`.

`Run.invariant` is the induction every safety proof uses: what one step preserves, a whole run preserves.
-/

namespace Runs

variable {σ ε : Type*}

/-- Runs whose steps all satisfy `P`; the last event is at the end of the list. -/
inductive Run (step : σ → ε → Option σ) (P : σ → ε → Prop) : σ → List ε → σ → Prop
  | nil (s : σ) : Run step P s [] s
  | snoc {s t u : σ} {es : List ε} {e : ε} (hrun : Run step P s es t) (hP : P t e)
      (hstep : step t e = some u) : Run step P s (es ++ [e]) u

/-- Every event is allowed. -/
def Any (_ : σ) (_ : ε) : Prop := True

variable {step : σ → ε → Option σ} {P Q : σ → ε → Prop}

/-- **Invariant rule.** -/
theorem Run.invariant {I : σ → Prop} {s t : σ} {es : List ε} (hrun : Run step P s es t) (h0 : I s)
    (hstep : ∀ a e b, I a → P a e → step a e = some b → I b) : I t := by
  induction hrun with
  | nil => exact h0
  | snoc _ hP hs ih => exact hstep _ _ _ ih hP hs

theorem Run.append {s t u : σ} {es fs : List ε} (h1 : Run step P s es t) (h2 : Run step P t fs u) :
    Run step P s (es ++ fs) u := by
  induction h2 with
  | nil => simpa using h1
  | snoc _ hP hs ih =>
    rw [← List.append_assoc]
    exact .snoc ih hP hs

/-- Execute a list of events. -/
def exec (step : σ → ε → Option σ) (s : σ) (es : List ε) : Option σ := es.foldlM step s

@[simp] theorem exec_cons (s : σ) (e : ε) (es : List ε) :
    exec step s (e :: es) = (step s e).bind fun t => exec step t es := rfl

theorem exec_append (s : σ) (es fs : List ε) :
    exec step s (es ++ fs) = (exec step s es).bind fun t => exec step t fs := by
  induction es generalizing s with
  | nil => rfl
  | cons e es ih =>
    rw [List.cons_append, exec_cons, exec_cons, Option.bind_assoc]
    exact Option.bind_congr fun t _ => ih t

/-- An execution is a run. -/
theorem Run.of_exec {s t : σ} {es : List ε} (h : exec step s es = some t) : Run step Any s es t := by
  induction es generalizing s with
  | nil =>
    cases h
    exact .nil _
  | cons e es ih =>
    rw [exec_cons, Option.bind_eq_some_iff] at h
    obtain ⟨u, hu, h⟩ := h
    exact (Run.snoc (.nil s) trivial hu).append (ih h)

/-- The system that takes only the steps `p` allows. -/
def guarded (step : σ → ε → Option σ) (p : σ → ε → Bool) (s : σ) (e : ε) : Option σ := if p s e then step s e else none

/-- An execution with every step checked is a run of the steps that pass. -/
theorem Run.of_guarded {p : σ → ε → Bool} (hp : ∀ s e, p s e = true → P s e) {s t : σ} {es : List ε}
    (h : exec (guarded step p) s es = some t) : Run step P s es t := by
  have hrun := Run.of_exec h
  clear h
  induction hrun with
  | nil => exact .nil _
  | snoc _ _ hs ih =>
    unfold guarded at hs
    split_ifs at hs with hpass
    exact .snoc ih (hp _ _ hpass) hs

end Runs
