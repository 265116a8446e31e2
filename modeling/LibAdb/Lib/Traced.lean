import Mathlib.Tactic

/-!
# LibAdb.Lib.Traced — calls that log what they do

A call acts on an environment of any kind through operations that may fail, and every operation is logged.  It returns a
value or an error, or it does not return (`none`): it was dropped, or it panicked.

`Logs step m P` says that what `m` logs is what led from the environment before it to the one after, by `step`, and is
related by `P` to what it returns; `Logs.bind` is the rule for a sequence.
`Agree m m'` says that where both return they return the same.
-/

namespace Traced

/-- The environment, and the operations so far. -/
structure Logged (σ ω : Type) where
  env : σ
  log : List ω

def Comp (σ ω ε α : Type) : Type := Logged σ ω → Option (Except ε α × Logged σ ω)

namespace Comp

variable {σ ω ε α β : Type}

instance : Monad (Comp σ ω ε) where
  pure a := fun w => some (.ok a, w)
  bind m f := fun w =>
    match m w with
    | none => none
    | some (.error e, w) => some (.error e, w)
    | some (.ok a, w) => f a w

/-- Dropped, or panicked. -/
def stopped : Comp σ ω ε α := fun _ => none

def lift (r : Except ε α) : Comp σ ω ε α := fun w => some (r, w)

def fail (e : ε) : Comp σ ω ε α := lift (.error e)

/-- What a call returns, with its error in hand. -/
def attempt (m : Comp σ ω ε α) : Comp σ ω ε (Except ε α) := fun w => (m w).map fun r => (.ok r.1, r.2)

/-- One operation, logged with what it returned. -/
def perform (act : σ → Option (Except ε α × σ)) (op : Except ε α → ω) : Comp σ ω ε α := fun w =>
  (act w.env).map fun r => (r.1, ⟨r.2, w.log ++ [op r.1]⟩)

/-- Look at the environment. -/
def look (f : σ → α) : Comp σ ω ε α := fun w => some (.ok (f w.env), w)

section Bind

variable {m : Comp σ ω ε α} {f : α → Comp σ ω ε β} {w w1 : Logged σ ω}

end Bind

/-- What a sequence that returned did first. -/
theorem bind_returns {m : Comp σ ω ε α} {f : α → Comp σ ω ε β} {w w' : Logged σ ω} {r : Except ε β}
    (h : (m >>= f) w = some (r, w')) :
    (∃ e, m w = some (.error e, w') ∧ r = .error e) ∨ ∃ a w1, m w = some (.ok a, w1) ∧ f a w1 = some (r, w') := by
  simp only [Bind.bind] at h
  rcases hm : m w with _ | ⟨_ | a, w1⟩
  · simp [hm] at h
  · simp only [hm, Option.some.injEq, Prod.mk.injEq] at h
    obtain ⟨rfl, rfl⟩ := h
    exact .inl ⟨_, rfl, rfl⟩
  · simp only [hm] at h
    exact .inr ⟨a, w1, rfl, h⟩

theorem attempt_returns {m : Comp σ ω ε α} {w w' : Logged σ ω} {r : Except ε (Except ε α)}
    (h : attempt m w = some (r, w')) : ∃ a, r = .ok a ∧ m w = some (a, w') := by
  rcases hm : m w with _ | ⟨a, w1⟩
  · simp [attempt, hm] at h
  · simp only [attempt, hm, Option.map_some, Option.some.injEq, Prod.mk.injEq] at h
    obtain ⟨rfl, rfl⟩ := h
    exact ⟨a, rfl, rfl⟩

theorem perform_returns {act : σ → Option (Except ε α × σ)} {op : Except ε α → ω} {w w' : Logged σ ω} {r : Except ε α}
    (h : perform act op w = some (r, w')) : act w.env = some (r, w'.env) ∧ w'.log = w.log ++ [op r] := by
  rcases hact : act w.env with _ | ⟨a, s⟩
  · simp [perform, hact] at h
  · simp only [perform, hact, Option.map_some, Option.some.injEq, Prod.mk.injEq] at h
    obtain ⟨rfl, rfl⟩ := h
    exact ⟨rfl, rfl⟩

/-! ## What a call logs -/

/-- The operations of a log, one after the other, led from an environment to another. -/
inductive Leads (step : ω → σ → σ → Prop) : σ → List ω → σ → Prop
  | nil (s : σ) : Leads step s [] s
  | cons {op : ω} {ops : List ω} {s s1 s' : σ} (h : step op s s1) (rest : Leads step s1 ops s') :
      Leads step s (op :: ops) s'

theorem Leads.append {step : ω → σ → σ → Prop} {s s1 s' : σ} {ops ops' : List ω} (h : Leads step s ops s1)
    (h' : Leads step s1 ops' s') : Leads step s (ops ++ ops') s' := by
  induction h with
  | nil => exact h'
  | cons hstep _ ih => exact .cons hstep (ih h')

def Logs (step : ω → σ → σ → Prop) (m : Comp σ ω ε α) (P : Except ε α → List ω → Prop) : Prop :=
  ∀ w r w', m w = some (r, w') → ∃ ops, w'.log = w.log ++ ops ∧ Leads step w.env ops w'.env ∧ P r ops

namespace Logs

variable {step : ω → σ → σ → Prop} {m : Comp σ ω ε α} {f : α → Comp σ ω ε β} {P P' : Except ε α → List ω → Prop}

theorem mono (h : Logs step m P) (hP : ∀ r ops, P r ops → P' r ops) : Logs step m P' := by
  intro w r w' hm
  obtain ⟨ops, hlog, hleads, hops⟩ := h w r w' hm
  exact ⟨ops, hlog, hleads, hP r ops hops⟩

/-- **Sequence rule.** -/
theorem bind {Q : α → Except ε β → List ω → Prop} {R : Except ε β → List ω → Prop} (hm : Logs step m P)
    (hf : ∀ a, Logs step (f a) (Q a)) (herr : ∀ e ops, P (.error e) ops → R (.error e) ops)
    (hok : ∀ a r ops ops', P (.ok a) ops → Q a r ops' → R r (ops ++ ops')) : Logs step (m >>= f) R := by
  intro w r w' h
  rcases bind_returns h with ⟨e, hrun, rfl⟩ | ⟨a, w1, hrun, hrest⟩
  · obtain ⟨ops, hlog, hleads, hops⟩ := hm _ _ _ hrun
    exact ⟨ops, hlog, hleads, herr e ops hops⟩
  · obtain ⟨ops, hlog, hleads, hops⟩ := hm _ _ _ hrun
    obtain ⟨ops', hlog', hleads', hops'⟩ := hf a _ _ _ hrest
    exact ⟨ops ++ ops', by rw [hlog', hlog, List.append_assoc], hleads.append hleads', hok a r ops ops' hops hops'⟩

theorem stopped : Logs step (stopped : Comp σ ω ε α) P := by
  intro w r w' h
  cases h

theorem lift {r : Except ε α} (h : P r []) : Logs step (lift r : Comp σ ω ε α) P := by
  intro w r' w' hrun
  cases hrun
  exact ⟨[], (List.append_nil _).symm, .nil _, h⟩

theorem pure {a : α} (h : P (.ok a) []) : Logs step (pure a : Comp σ ω ε α) P := Logs.lift h

/-- A value is made of what was returned. -/
theorem bind_lift {R : List ω → Prop} (hm : Logs step m fun _ => R) (g : α → Except ε β) :
    Logs step (m >>= fun a => Comp.lift (g a)) fun _ => R := by
  have hlift : ∀ a, Logs step (Comp.lift (g a) : Comp σ ω ε β) fun _ ops => ops = [] := fun a => Logs.lift rfl
  refine hm.bind hlift (fun _ _ h => h) ?_
  rintro a r ops ops' hops rfl
  rw [List.append_nil]
  exact hops

theorem look {g : σ → α} (h : ∀ a, P (.ok a) []) : Logs step (look g : Comp σ ω ε α) P := by
  intro w r w' hrun
  cases hrun
  exact ⟨[], (List.append_nil _).symm, .nil _, h _⟩

theorem attempt {P : Except ε (Except ε α) → List ω → Prop} (h : Logs step m fun r => P (.ok r)) :
    Logs step (attempt m) P := by
  intro w r w' hrun
  obtain ⟨a, rfl, hm⟩ := attempt_returns hrun
  exact h _ _ _ hm

theorem perform {act : σ → Option (Except ε α × σ)} {op : Except ε α → ω}
    (hstep : ∀ r s s', act s = some (r, s') → step (op r) s s') (h : ∀ r, P r [op r]) :
    Logs step (perform act op) P := by
  intro w r w' hrun
  obtain ⟨hact, hlog⟩ := perform_returns hrun
  exact ⟨[op r], hlog, .cons (hstep _ _ _ hact) (.nil _), h r⟩

end Logs

/-! ## Two calls that return the same -/

def Agree (m m' : Comp σ ω ε α) : Prop := ∀ w r w1 r' w2, m w = some (r, w1) → m' w = some (r', w2) → r = r'

namespace Agree

theorem refl (m : Comp σ ω ε α) : Agree m m := by
  intro w r w1 r' w2 h h'
  rw [h] at h'
  cases h'
  rfl

/-- The two calls begin alike. -/
theorem bind {m : Comp σ ω ε α} {f f' : α → Comp σ ω ε β} (h : ∀ a, Agree (f a) (f' a)) :
    Agree (m >>= f) (m >>= f') := by
  intro w r w1 r' w2 hm hm'
  rcases bind_returns hm with ⟨e, hrun, rfl⟩ | ⟨a, w3, hrun, hrest⟩ <;>
    rcases bind_returns hm' with ⟨e', hrun', rfl⟩ | ⟨a', w3', hrun', hrest'⟩ <;>
    rw [hrun] at hrun' <;> cases hrun'
  · rfl
  · exact h a _ _ _ _ _ hrest hrest'

theorem bind_lift {m m' : Comp σ ω ε α} (h : Agree m m') (g : α → Except ε β) :
    Agree (m >>= fun a => lift (g a)) (m' >>= fun a => lift (g a)) := by
  intro w r w1 r' w2 hm hm'
  rcases bind_returns hm with ⟨e, hrun, rfl⟩ | ⟨a, w3, hrun, hrest⟩ <;>
    rcases bind_returns hm' with ⟨e', hrun', rfl⟩ | ⟨a', w3', hrun', hrest'⟩
  · exact congrArg _ (Except.error.inj (h _ _ _ _ _ hrun hrun'))
  · cases h _ _ _ _ _ hrun hrun'
  · cases h _ _ _ _ _ hrun hrun'
  · cases h _ _ _ _ _ hrun hrun'
    cases hrest
    cases hrest'
    rfl

end Agree

end Comp

end Traced
