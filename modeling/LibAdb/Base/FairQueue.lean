import LibAdb.Base.SendQueue
import LibAdb.Lib.Runs

/-!
# LibAdb.Base.FairQueue — writers are served in the order they came

The queue of `base/send_queue.rs` with those who stand in it.  `Waits q p` says that place `p` is still waiting: it lies
between `head` and `tail` and is not in `gone`.  Each operation changes that set by one place (`enqueue_waits`,
`advance_waits`, `leave_waits`) and keeps `Sound`.

A `Line` is a queue and its history: whoever joins is given a number, in order, beside the place.  Numbers are never
given twice, places are, after a leave.
-/

namespace LibAdb

namespace SendQueue

variable {q : SendQueue} {place : ℕ}

/-- A place that was issued and has neither been served nor left. -/
def Waits (q : SendQueue) (place : ℕ) : Prop := q.head ≤ place ∧ place < q.tail ∧ place ∉ q.gone

/-- The marks lie strictly between the ends. -/
structure Sound (q : SendQueue) : Prop where
  order : q.head ≤ q.tail
  gone : ∀ g ∈ q.gone, q.head < g ∧ g < q.tail

theorem Sound.empty : Sound empty := ⟨le_rfl, fun g hg => absurd hg (Finset.notMem_empty g)⟩

/-- The marks that stand in a row from `head` on are skipped. -/
theorem skipGone_spec {fuel head : ℕ} {gone : Finset ℕ} (hfuel : gone.card ≤ fuel) :
    head ≤ (skipGone fuel head gone).1 ∧ (∀ x, head ≤ x → x < (skipGone fuel head gone).1 → x ∈ gone) ∧
      (∀ x, x ∈ (skipGone fuel head gone).2 ↔ x ∈ gone ∧ ¬ (head ≤ x ∧ x < (skipGone fuel head gone).1)) ∧
      (skipGone fuel head gone).1 ∉ gone := by
  induction fuel generalizing head gone with
  | zero =>
    obtain rfl : gone = ∅ := Finset.card_eq_zero.mp (Nat.le_zero.mp hfuel)
    refine ⟨le_rfl, fun x h1 h2 => absurd h2 (not_lt.mpr h1), fun x => ?_, Finset.notMem_empty _⟩
    exact ⟨fun h => absurd h (Finset.notMem_empty x), fun h => h.1⟩
  | succ fuel ih =>
    rw [skipGone]
    split_ifs with hmem
    · have hcard : (gone.erase head).card ≤ fuel := by
        rw [Finset.card_erase_of_mem hmem]
        omega
      obtain ⟨hle, hrow, hrest, hout⟩ := @ih (head + 1) (gone.erase head) hcard
      refine ⟨by omega, fun x h1 h2 => ?_, fun x => ?_, fun h => hout (Finset.mem_erase.mpr ⟨by omega, h⟩)⟩
      · by_cases hx : x = head
        · exact hx ▸ hmem
        · exact Finset.mem_of_mem_erase (hrow x (by omega) h2)
      · rw [hrest, Finset.mem_erase]
        constructor
        · rintro ⟨⟨hne, hx⟩, hnot⟩
          exact ⟨hx, by omega⟩
        · rintro ⟨hx, hnot⟩
          exact ⟨⟨by omega, hx⟩, by omega⟩
    · exact ⟨le_rfl, fun x h1 h2 => absurd h2 (not_lt.mpr h1), fun x => ⟨fun h => ⟨h, by omega⟩, fun h => h.1⟩, hmem⟩

/-- The marks that stand in a row below `tail` are dropped. -/
theorem dropGone_spec {head tail : ℕ} {gone : Finset ℕ} :
    (dropGone head tail gone).1 ≤ tail ∧ (∀ x, (dropGone head tail gone).1 ≤ x → x < tail → x ∈ gone) ∧
      ∀ x, x ∈ (dropGone head tail gone).2 ↔ x ∈ gone ∧ ¬ ((dropGone head tail gone).1 ≤ x ∧ x < tail) := by
  induction tail generalizing gone with
  | zero => exact ⟨le_rfl, fun x _ h => absurd h (Nat.not_lt_zero x), fun x => ⟨fun h => ⟨h, by omega⟩, fun h => h.1⟩⟩
  | succ tail ih =>
    rw [dropGone]
    split_ifs with hmem
    · obtain ⟨hle, hrow, hrest⟩ := @ih (gone.erase tail)
      refine ⟨by omega, fun x h1 h2 => ?_, fun x => ?_⟩
      · by_cases hx : x = tail
        · exact hx ▸ hmem.2
        · exact Finset.mem_of_mem_erase (hrow x h1 (by omega))
      · rw [hrest, Finset.mem_erase]
        constructor
        · rintro ⟨⟨hne, hx⟩, hnot⟩
          exact ⟨hx, by omega⟩
        · rintro ⟨hx, hnot⟩
          exact ⟨⟨by omega, hx⟩, by omega⟩
    · exact ⟨le_rfl, fun x h1 h2 => absurd h1 (not_le.mpr h2), fun x => ⟨fun h => ⟨h, by omega⟩, fun h => h.1⟩⟩

/-- **Joining adds the last place.** -/
theorem Sound.enqueue (h : q.Sound) :
    q.enqueue.2.Sound ∧ ∀ p, q.enqueue.2.Waits p ↔ q.Waits p ∨ p = q.enqueue.1 := by
  have horder := h.order
  refine ⟨⟨horder.trans (Nat.le_succ _), fun g hg => ?_⟩, fun p => ?_⟩
  · obtain ⟨h1, h2⟩ := h.gone g hg
    exact ⟨h1, h2.trans (Nat.lt_succ_self _)⟩
  · have hnew : q.tail ∉ q.gone := fun hg => absurd (h.gone _ hg).2 (lt_irrefl _)
    simp only [Waits, SendQueue.enqueue]
    constructor
    · rintro ⟨h1, h2, h3⟩
      by_cases hp : p = q.tail
      · exact Or.inr hp
      · exact Or.inl ⟨h1, by omega, h3⟩
    · rintro (⟨h1, h2, h3⟩ | rfl)
      · exact ⟨h1, by omega, h3⟩
      · exact ⟨horder, Nat.lt_succ_self _, hnew⟩

/-- **The head goes on to the next that waits.** -/
theorem Sound.advance (h : q.Sound) (hne : q.head < q.tail) :
    q.advance.Sound ∧ ∀ p, q.advance.Waits p ↔ q.Waits p ∧ p ≠ q.head := by
  obtain ⟨hle, hrow, hrest, hout⟩ := @skipGone_spec q.gone.card (q.head + 1) q.gone le_rfl
  have hend : (skipGone q.gone.card (q.head + 1) q.gone).1 ≤ q.tail := by
    by_contra hpast
    have hmem := hrow q.tail (by omega) (by omega)
    exact absurd (h.gone _ hmem).2 (lt_irrefl _)
  have hhead : q.advance.head = (skipGone q.gone.card (q.head + 1) q.gone).1 := rfl
  have hgone : q.advance.gone = (skipGone q.gone.card (q.head + 1) q.gone).2 := rfl
  have htail : q.advance.tail = q.tail := rfl
  refine ⟨⟨by rw [hhead, htail]; exact hend, fun g hg => ?_⟩, fun p => ?_⟩
  · rw [hgone, hrest] at hg
    obtain ⟨h1, h2⟩ := h.gone g hg.1
    have hnot : g ≠ (skipGone q.gone.card (q.head + 1) q.gone).1 := fun heq => hout (heq ▸ hg.1)
    rw [hhead, htail]
    exact ⟨by omega, h2⟩
  · rw [Waits, Waits, hhead, hgone, htail, hrest]
    constructor
    · rintro ⟨h1, h2, h3⟩
      exact ⟨⟨by omega, h2, fun hg => h3 ⟨hg, by omega⟩⟩, by omega⟩
    · rintro ⟨⟨h1, h2, h3⟩, h4⟩
      refine ⟨?_, h2, fun hg => h3 hg.1⟩
      by_contra hlow
      exact h3 (hrow p (by omega) (by omega))

/-- **Leaving takes out one place**, wherever it stands. -/
theorem Sound.leave (h : q.Sound) (hw : q.Waits place) :
    (q.leave place).2.Sound ∧ ∀ p, (q.leave place).2.Waits p ↔ q.Waits p ∧ p ≠ place := by
  obtain ⟨hlow, hhigh, hnot⟩ := hw
  unfold SendQueue.leave
  by_cases hhead : place = q.head
  · rw [if_pos hhead]
    subst hhead
    exact h.advance hhigh
  rw [if_neg hhead]
  by_cases htail : place + 1 = q.tail
  · -- the last place: the marks below it go with it, down to one that waits
    rw [if_pos htail]
    obtain ⟨hle, hrow, hrest⟩ := @dropGone_spec q.head place q.gone
    have hstop : q.head < (dropGone q.head place q.gone).1 := by
      by_contra hpast
      have hmem := hrow q.head (by omega) (by omega)
      exact absurd (h.gone _ hmem).1 (lt_irrefl _)
    dsimp only
    refine ⟨⟨hstop.le, fun g hg => ?_⟩, fun p => ?_⟩
    · rw [hrest] at hg
      obtain ⟨h1, h2⟩ := h.gone g hg.1
      have hne : g ≠ place := fun heq => hnot (heq ▸ hg.1)
      exact ⟨h1, by dsimp only; omega⟩
    · simp only [Waits, hrest]
      constructor
      · rintro ⟨h1, h2, h3⟩
        exact ⟨⟨h1, by omega, fun hg => h3 ⟨hg, by omega⟩⟩, by omega⟩
      · rintro ⟨⟨h1, h2, h3⟩, h4⟩
        refine ⟨h1, ?_, fun hg => h3 hg.1⟩
        by_contra hpast
        exact h3 (hrow p (by omega) (by omega))
  · -- from between: a mark
    rw [if_neg htail, if_pos (lt_of_le_of_ne hlow (Ne.symm hhead))]
    refine ⟨⟨h.order, fun g hg => ?_⟩, fun p => ?_⟩
    · rcases Finset.mem_insert.mp hg with rfl | hg
      · exact ⟨by dsimp only; omega, hhigh⟩
      · exact h.gone g hg
    · simp only [Waits, Finset.mem_insert, not_or]
      constructor
      · rintro ⟨h1, h2, h3, h4⟩
        exact ⟨⟨h1, h2, h4⟩, h3⟩
      · rintro ⟨⟨h1, h2, h3⟩, h4⟩
        exact ⟨h1, h2, h4, h3⟩

theorem Sound.serve (h : q.Sound) (hne : q.head < q.tail) :
    q.serve.Sound ∧ ∀ p, q.serve.Waits p ↔ q.Waits p ∧ p ≠ q.head :=
  @Sound.advance { q with sending := q.sending + 1 } ⟨h.order, h.gone⟩ hne

theorem Sound.finish (h : q.Sound) : q.finish.Sound := ⟨h.order, h.gone⟩

/-- The place whose turn it is waits, if any does. -/
theorem Sound.waits_turn (h : q.Sound) (hw : q.Waits place) : q.Waits q.turn :=
  ⟨le_rfl, hw.1.trans_lt hw.2.1, fun hg => absurd (h.gone _ hg).1 (lt_irrefl _)⟩

theorem Sound.isEmpty_iff (h : q.Sound) : q.isEmpty = true ↔ ∀ p, ¬ q.Waits p := by
  rw [isEmpty, beq_iff_eq]
  constructor
  · rintro heq p ⟨h1, h2, -⟩
    omega
  · intro hnone
    by_contra hne
    have horder := h.order
    exact hnone q.head ⟨le_rfl, by omega, fun hg => absurd (h.gone _ hg).1 (lt_irrefl _)⟩

@[simp] theorem sending_serve : q.serve.sending = q.sending + 1 := rfl

@[simp] theorem sending_leave : (q.leave place).2.sending = q.sending := by
  unfold SendQueue.leave
  split_ifs <;> rfl

/-- Leaving hands out no new number. -/
theorem tail_leave_le (h : place < q.tail) : (q.leave place).2.tail ≤ q.tail := by
  unfold SendQueue.leave
  split_ifs
  · exact le_rfl
  · exact dropGone_spec.1.trans h.le
  · exact le_rfl
  · exact le_rfl

/-! ## Who holds which place -/

/-- Places and reservations by holder: the places that wait are those held, each by one holder, and `inFlight` were
served and have not finished. -/
structure Held (q : SendQueue) (place : ℕ → Option ℕ) (inFlight : ℕ) : Prop where
  sound : q.Sound
  waits : ∀ p, q.Waits p ↔ ∃ i, place i = some p
  apart : ∀ i j p, place i = some p → place j = some p → i = j
  sending : q.sending = inFlight

/-- What a holder does with its place; the second component says whether it was served and has not finished. -/
inductive Turn (q : SendQueue) : Option ℕ × Bool → Option ℕ × Bool → SendQueue → Prop
  | stays (x : Option ℕ × Bool) : Turn q x x q
  | joins (b : Bool) : Turn q (none, b) (some q.enqueue.1, b) q.enqueue.2
  | served : Turn q (some q.turn, false) (none, true) q.serve
  | leaves (p : ℕ) (b : Bool) : Turn q (some p, b) (none, b) (q.leave p).2
  | finishes : Turn q (none, true) (none, false) q.finish

section Held

variable {place : ℕ → Option ℕ} {inFlight : ℕ} {i p : ℕ} {q' : SendQueue}

theorem Held.empty {place : ℕ → Option ℕ} (hnone : ∀ i, place i = none) : Held empty place 0 where
  sound := .empty
  waits p := ⟨fun h => absurd h.2.1 (Nat.not_lt_zero p), fun ⟨i, h⟩ => by rw [hnone i] at h; cases h⟩
  apart i _ p h := by
    rw [hnone i] at h
    cases h
  sending := rfl

/-- A holder comes in with the last place. -/
theorem Held.joins (h : Held q place inFlight) (hi : place i = none) :
    Held q.enqueue.2 (Function.update place i (some q.enqueue.1)) inFlight := by
  obtain ⟨hsound, hwaits⟩ := h.sound.enqueue
  -- nobody holds the place that is handed out
  have hnew : ∀ j, place j ≠ some q.enqueue.1 := fun j hj => absurd ((h.waits _).mpr ⟨j, hj⟩).2.1 (lt_irrefl _)
  refine ⟨hsound, fun p => ?_, fun j k p hj hk => ?_, h.sending⟩
  · rw [hwaits, h.waits]
    constructor
    · rintro (⟨j, hj⟩ | rfl)
      · refine ⟨j, ?_⟩
        rw [Function.update_of_ne (fun heq => ?_), hj]
        rw [heq, hi] at hj
        cases hj
      · exact ⟨i, Function.update_self ..⟩
    · rintro ⟨j, hj⟩
      by_cases hji : j = i
      · rw [hji, Function.update_self] at hj
        exact Or.inr (Option.some.inj hj).symm
      · rw [Function.update_of_ne hji] at hj
        exact Or.inl ⟨j, hj⟩
  · by_cases hji : j = i <;> by_cases hki : k = i
    · rw [hji, hki]
    · rw [hji, Function.update_self] at hj
      rw [Function.update_of_ne hki, ← hj] at hk
      exact absurd hk (hnew k)
    · rw [hki, Function.update_self] at hk
      rw [Function.update_of_ne hji, ← hk] at hj
      exact absurd hj (hnew j)
    · rw [Function.update_of_ne hji] at hj
      rw [Function.update_of_ne hki] at hk
      exact h.apart j k p hj hk

/-- A holder goes out with its place. -/
theorem Held.goes {inFlight' : ℕ} (h : Held q place inFlight) (hi : place i = some p)
    (hgo : q'.Sound ∧ ∀ x, q'.Waits x ↔ q.Waits x ∧ x ≠ p) (hsending : q'.sending = inFlight') :
    Held q' (Function.update place i none) inFlight' := by
  have hkeep : ∀ j x, Function.update place i none j = some x → place j = some x ∧ j ≠ i := by
    intro j x hj
    by_cases hji : j = i
    · rw [hji, Function.update_self] at hj
      cases hj
    · exact ⟨by rwa [Function.update_of_ne hji] at hj, hji⟩
  refine ⟨hgo.1, fun x => ?_, fun j k x hj hk => ?_, hsending⟩
  · rw [hgo.2, h.waits]
    constructor
    · rintro ⟨⟨j, hj⟩, hne⟩
      refine ⟨j, ?_⟩
      rw [Function.update_of_ne (fun heq => hne ?_), hj]
      rw [heq, hi] at hj
      exact (Option.some.inj hj).symm
    · rintro ⟨j, hj⟩
      obtain ⟨hj, hji⟩ := hkeep j x hj
      exact ⟨⟨j, hj⟩, fun heq => hji (h.apart j i x hj (heq ▸ hi))⟩
  · exact h.apart j k x (hkeep j x hj).1 (hkeep k x hk).1

/-- **A holder's turn keeps the books.** -/
theorem Held.turn {x x' : Option ℕ × Bool} {inFlight' : ℕ} (h : Held q place inFlight) (hx : place i = x.1)
    (hturn : Turn q x x' q') (hcount : inFlight' + x.2.toNat = inFlight + x'.2.toNat) :
    Held q' (Function.update place i x'.1) inFlight' := by
  have hsending := h.sending
  cases hturn with
  | stays =>
    rw [← hx, Function.update_eq_self]
    exact { h with sending := by omega }
  | joins b =>
    obtain rfl : inFlight' = inFlight := by simpa using hcount
    exact h.joins hx
  | served =>
    have hw := (h.waits _).mpr ⟨i, hx⟩
    refine h.goes hx (h.sound.serve (hw.1.trans_lt hw.2.1)) ?_
    rw [sending_serve]
    simp only [Bool.toNat_false, Bool.toNat_true] at hcount
    omega
  | leaves p b =>
    refine h.goes hx (h.sound.leave ((h.waits _).mpr ⟨i, hx⟩)) ?_
    rw [sending_leave]
    dsimp only at hcount
    omega
  | finishes =>
    rw [show (none, false).1 = place i from hx.symm, Function.update_eq_self]
    refine ⟨h.sound.finish, h.waits, h.apart, ?_⟩
    simp only [Bool.toNat_false, Bool.toNat_true] at hcount
    show q.sending - 1 = inFlight'
    omega

end Held

end SendQueue

/-! ## A line -/

/-- A queue and its history. -/
structure Line where
  queue : SendQueue
  /-- Who waits, in the order they came: the number and the place. -/
  waiting : List (ℕ × ℕ)
  /-- How many have come. -/
  issued : ℕ
  /-- The numbers of those who were served, in that order. -/
  served : List ℕ
  /-- How many of them have not finished. -/
  unfinished : ℕ

namespace Line

inductive Op where
  | enqueue
  | serve (who : ℕ)
  | leave (who : ℕ)
  | finish
  deriving DecidableEq, Repr

def start : Line := ⟨.empty, [], 0, [], 0⟩

/-- What is done with a place: it is served once, in its turn, or leaves once, and what was served finishes once. -/
def step (l : Line) : Op → Option Line
  | .enqueue =>
    let (place, queue) := l.queue.enqueue
    some { l with queue, waiting := l.waiting ++ [(l.issued, place)], issued := l.issued + 1 }
  | .serve who =>
    match l.waiting.find? fun w => w.1 = who with
    | none => none
    | some w =>
      if w.2 = l.queue.turn then
        some { l with
          queue := l.queue.serve
          waiting := l.waiting.filter fun w => w.1 ≠ who
          served := l.served ++ [who]
          unfinished := l.unfinished + 1 }
      else none
  | .leave who =>
    match l.waiting.find? fun w => w.1 = who with
    | none => none
    | some w => some { l with queue := (l.queue.leave w.2).2, waiting := l.waiting.filter fun w => w.1 ≠ who }
  | .finish =>
    if l.unfinished = 0 then none
    else some { l with queue := l.queue.finish, unfinished := l.unfinished - 1 }

/-- What the queue knows of those who wait. -/
structure Inv (l : Line) : Prop where
  sound : l.queue.Sound
  /-- The places that wait are those of the line. -/
  places : ∀ p, l.queue.Waits p ↔ ∃ who, (who, p) ∈ l.waiting
  /-- Whoever came later has a higher number and stands further back. -/
  order : l.waiting.Pairwise fun a b => a.1 < b.1 ∧ a.2 < b.2
  numbers : ∀ w ∈ l.waiting, w.1 < l.issued
  /-- Nobody is served before one who came earlier. -/
  fair : l.served.Pairwise (· < ·)
  before : ∀ n ∈ l.served, ∀ w ∈ l.waiting, n < w.1
  past : ∀ n ∈ l.served, n < l.issued
  sending : l.queue.sending = l.unfinished
  /-- No place has a number that was not reached. -/
  fits : l.queue.tail ≤ l.issued

variable {l l' : Line}

theorem Inv.start : Inv start where
  sound := .empty
  places p := ⟨fun h => absurd h.2.1 (Nat.not_lt_zero p), fun ⟨_, h⟩ => absurd h List.not_mem_nil⟩
  order := .nil
  numbers _ hw := absurd hw List.not_mem_nil
  fair := .nil
  before _ hn := absurd hn List.not_mem_nil
  past _ hn := absurd hn List.not_mem_nil
  sending := rfl
  fits := le_rfl

/-- Of two who wait, one came earlier and stands further in front. -/
theorem Inv.apart (h : Inv l) {a b : ℕ × ℕ} (ha : a ∈ l.waiting) (hb : b ∈ l.waiting) (hne : a ≠ b) :
    (a.1 < b.1 ∧ a.2 < b.2) ∨ (b.1 < a.1 ∧ b.2 < a.2) := by
  have hpair : l.waiting.Pairwise fun a b => (a.1 < b.1 ∧ a.2 < b.2) ∨ (b.1 < a.1 ∧ b.2 < a.2) :=
    h.order.imp fun hlt => Or.inl hlt
  have : Std.Symm fun a b : ℕ × ℕ => (a.1 < b.1 ∧ a.2 < b.2) ∨ (b.1 < a.1 ∧ b.2 < a.2) := ⟨fun _ _ h => h.symm⟩
  exact hpair.forall ha hb hne

/-- A number or a place belongs to one of those who wait. -/
theorem Inv.unique (h : Inv l) {a b : ℕ × ℕ} (ha : a ∈ l.waiting) (hb : b ∈ l.waiting) (heq : a.1 = b.1 ∨ a.2 = b.2) :
    a = b := by
  by_contra hne
  have := h.apart ha hb hne
  omega

/-- Everything an operation can do. -/
theorem step_cases {op : Op} (h : l.step op = some l') :
    (op = .enqueue ∧ l' = { l with
        queue := l.queue.enqueue.2
        waiting := l.waiting ++ [(l.issued, l.queue.enqueue.1)]
        issued := l.issued + 1 }) ∨
      (∃ who, op = .serve who ∧ (who, l.queue.turn) ∈ l.waiting ∧ l' = { l with
        queue := l.queue.serve
        waiting := l.waiting.filter fun w => w.1 ≠ who
        served := l.served ++ [who]
        unfinished := l.unfinished + 1 }) ∨
      (∃ who place, op = .leave who ∧ (who, place) ∈ l.waiting ∧ l' = { l with
        queue := (l.queue.leave place).2
        waiting := l.waiting.filter fun w => w.1 ≠ who }) ∨
      (op = .finish ∧ l.unfinished ≠ 0 ∧
        l' = { l with queue := l.queue.finish, unfinished := l.unfinished - 1 }) := by
  cases op with
  | enqueue => exact Or.inl ⟨rfl, (Option.some.inj h).symm⟩
  | serve who =>
    simp only [step] at h
    split at h
    · cases h
    · rename_i w hfind
      have hmem := List.mem_of_find?_eq_some hfind
      have hwho : w.1 = who := by simpa using List.find?_some hfind
      split_ifs at h with hturn
      refine Or.inr (Or.inl ⟨who, rfl, ?_, (Option.some.inj h).symm⟩)
      rw [← hwho, ← hturn]
      exact hmem
  | leave who =>
    simp only [step] at h
    split at h
    · cases h
    · rename_i w hfind
      have hmem := List.mem_of_find?_eq_some hfind
      have hwho : w.1 = who := by simpa using List.find?_some hfind
      refine Or.inr (Or.inr (Or.inl ⟨who, w.2, rfl, ?_, (Option.some.inj h).symm⟩))
      rw [← hwho]
      exact hmem
  | finish =>
    simp only [step] at h
    split_ifs at h with hzero
    exact Or.inr (Or.inr (Or.inr ⟨rfl, hzero, (Option.some.inj h).symm⟩))

/-- One who waits goes out of the line with their place. -/
theorem Inv.without (h : Inv l) {who place : ℕ} (hmem : (who, place) ∈ l.waiting) (p : ℕ) :
    l.queue.Waits p ∧ p ≠ place ↔ ∃ w, (w, p) ∈ l.waiting.filter fun w => w.1 ≠ who := by
  rw [h.places]
  constructor
  · rintro ⟨⟨w, hw⟩, hne⟩
    refine ⟨w, List.mem_filter.mpr ⟨hw, decide_eq_true fun heq => hne ?_⟩⟩
    exact congrArg Prod.snd (h.unique hw hmem (Or.inl heq))
  · rintro ⟨w, hw⟩
    obtain ⟨hw, hne⟩ := List.mem_filter.mp hw
    refine ⟨⟨w, hw⟩, fun heq => of_decide_eq_true hne ?_⟩
    exact congrArg Prod.fst (h.unique hw hmem (Or.inr heq))

theorem Inv.step {op : Op} (h : Inv l) (hs : l.step op = some l') : Inv l' := by
  have hplace : ∀ w ∈ l.waiting, l.queue.Waits w.2 := fun w hw => (h.places _).mpr ⟨w.1, hw⟩
  obtain ⟨-, rfl⟩ | ⟨who, -, hmem, rfl⟩ | ⟨who, place, -, hmem, rfl⟩ | ⟨-, hsome, rfl⟩ := step_cases hs
  · obtain ⟨hsound, hwaits⟩ := h.sound.enqueue
    refine { h with
      sound := hsound, places := fun p => ?_, order := ?_, numbers := ?_, before := ?_, past := ?_
      fits := Nat.succ_le_succ h.fits }
    · rw [hwaits, h.places]
      simp only [List.mem_append, List.mem_singleton, Prod.mk.injEq, exists_or, exists_eq_left]
    · refine List.pairwise_append.mpr ⟨h.order, List.pairwise_singleton _ _, fun a ha b hb => ?_⟩
      rw [List.mem_singleton.mp hb]
      exact ⟨h.numbers a ha, (hplace a ha).2.1⟩
    · intro w hw
      rcases List.mem_append.mp hw with hw | hw
      · exact (h.numbers w hw).trans (Nat.lt_succ_self _)
      · rw [List.mem_singleton.mp hw]
        exact Nat.lt_succ_self _
    · intro n hn w hw
      rcases List.mem_append.mp hw with hw | hw
      · exact h.before n hn w hw
      · rw [List.mem_singleton.mp hw]
        exact h.past n hn
    · exact fun n hn => (h.past n hn).trans (Nat.lt_succ_self _)
  · have hturn := hplace _ hmem
    obtain ⟨hsound, hwaits⟩ := h.sound.serve (hturn.1.trans_lt hturn.2.1)
    have hearlier : ∀ n ∈ l.served, n < who := fun n hn => h.before n hn _ hmem
    exact {
      sound := hsound
      places := fun p => (hwaits p).trans (h.without hmem p)
      order := h.order.filter _
      numbers := fun w hw => h.numbers w (List.mem_of_mem_filter hw)
      fair := List.pairwise_append.mpr ⟨h.fair, List.pairwise_singleton _ _, fun a ha b hb => by
        rw [List.mem_singleton.mp hb]
        exact hearlier a ha⟩
      before := by
        intro n hn w hw
        obtain ⟨hw, hne⟩ := List.mem_filter.mp hw
        rcases List.mem_append.mp hn with hn | hn
        · exact h.before n hn w hw
        · -- whose turn it is came before all who wait
          rw [List.mem_singleton.mp hn]
          have hfront : l.queue.turn ≤ w.2 := (hplace w hw).1
          rcases h.apart hmem hw fun heq => of_decide_eq_true hne (congrArg Prod.fst heq).symm with hlt | hlt
          · exact hlt.1
          · exact absurd hlt.2 (not_lt.mpr hfront)
      past := fun n hn => by
        rcases List.mem_append.mp hn with hn | hn
        · exact h.past n hn
        · rw [List.mem_singleton.mp hn]
          exact h.numbers _ hmem
      sending := congrArg (· + 1) h.sending
      fits := h.fits }
  · obtain ⟨hsound, hwaits⟩ := h.sound.leave (hplace _ hmem)
    exact { h with
      sound := hsound
      places := fun p => (hwaits p).trans (h.without hmem p)
      order := h.order.filter _
      numbers := fun w hw => h.numbers w (List.mem_of_mem_filter hw)
      before := fun n hn w hw => h.before n hn w (List.mem_of_mem_filter hw)
      sending := SendQueue.sending_leave.trans h.sending
      fits := (SendQueue.tail_leave_le (hplace _ hmem).2.1).trans h.fits }
  · exact { h with
      sound := h.sound.finish
      sending := congrArg (· - 1) h.sending }

/-- It is the turn of the one who came first. -/
theorem Inv.turn (h : Inv l) {w : ℕ × ℕ} {rest : List (ℕ × ℕ)} (hw : l.waiting = w :: rest) :
    l.queue.turn = w.2 ∧ ∀ w' ∈ rest, w.1 < w'.1 := by
  have horder := h.order
  rw [hw, List.pairwise_cons] at horder
  refine ⟨?_, fun w' hw' => (horder.1 w' hw').1⟩
  have hplace : l.queue.Waits w.2 := (h.places _).mpr ⟨w.1, hw ▸ List.mem_cons_self⟩
  obtain ⟨who, hwho⟩ := (h.places _).mp (h.sound.waits_turn hplace)
  rw [hw] at hwho
  rcases List.mem_cons.mp hwho with heq | hmem
  · exact congrArg Prod.snd heq
  · exact absurd (horder.1 _ hmem).2 (not_lt.mpr hplace.1)

theorem Inv.isEmpty (h : Inv l) : l.queue.isEmpty = true ↔ l.waiting = [] := by
  rw [h.sound.isEmpty_iff, List.eq_nil_iff_forall_not_mem]
  constructor
  · exact fun hnone w hw => hnone w.2 ((h.places _).mpr ⟨w.1, hw⟩)
  · intro hnone p hp
    obtain ⟨who, hwho⟩ := (h.places p).mp hp
    exact hnone _ hwho

theorem Inv.nodup (h : Inv l) : (l.waiting.map Prod.snd).Nodup :=
  List.pairwise_map.mpr (h.order.imp fun hlt => hlt.2.ne)

theorem Inv.isSending (h : Inv l) : l.queue.isSending = true ↔ 0 < l.unfinished := by
  rw [SendQueue.isSending, decide_eq_true_iff, h.sending]

/-- The numbers stay those of a `u64`, and what finishes was served. -/
theorem Inv.no_overflow (h : Inv l) (hissued : l.issued < 2 ^ 64) :
    l.queue.head < 2 ^ 64 ∧ l.queue.tail < 2 ^ 64 ∧ l.queue.sending = l.unfinished := by
  have htail := h.fits.trans_lt hissued
  exact ⟨h.sound.order.trans_lt htail, htail, h.sending⟩

/-- **Whole runs keep the books.** -/
theorem Inv.run {ops : List Op} (hr : Runs.exec Line.step Line.start ops = some l) : Inv l :=
  (Runs.Run.of_exec hr).invariant Inv.start fun _ _ _ h _ hs => h.step hs

end Line

end LibAdb
