import LibAdb.Split.Quiet
import LibAdb.Lib.Tasks

/-!
# LibAdb.Split.WriteHalf — a run seen from the write half

At most one task holds the write half, and it is the one the mutex names (`Exclusive`).  Seen from there the system is
a small machine: nobody holds it or one task does, at some point of its use; a move takes it, goes on with it, lets go
of it, or drops it in the middle of a packet.  Every event of the system is at most one such move and a quiet change
(`State.Moves.half`), so that what moves and quiet changes preserve holds of every run (`run_half`).
-/

namespace LibAdb.Split

open Tasks

variable [Usize] (ng : Negotiated)

/-! ## One holder -/

/-- A task's use of the write half is proper, and past the wait exactly when the mutex names the task. -/
def Task.Holds (sh : Shared) (i : ℕ) (t : Task) : Prop :=
  ∀ u, t.use = some u → u.job.Proper ∧ (u.pc ≠ .waiting ↔ sh.writeHalf = some i)

structure Exclusive (s : State) : Prop where
  each : Each (Task.Holds s.sh) s.tasks
  named : ∀ i, s.sh.writeHalf = some i → ∃ t u, s.tasks[i]? = some t ∧ t.use = some u

/-- The use the write half is in. -/
def State.holder (s : State) : Option Use := s.sh.writeHalf.bind fun i => (s.tasks[i]?).bind Task.use

/-- The system seen from the write half. -/
abbrev Half := Option Use × Shared

def State.half (s : State) : Half := (s.holder, s.sh)

/-- What can happen there. -/
inductive HalfMove (v : Half) : Half → Prop
  | acquire (i : ℕ) (job : Job) (hjob : job.Proper) (hfree : v.1 = none) :
      HalfMove v (some ⟨job, Use.first job⟩, { v.2 with writeHalf := some i }.note (.locked i))
  | more (i : ℕ) (u : Use) (a : Act) (u' : Use) (sh' : Shared) (hu : v.1 = some u) (hpc : u.pc ≠ .waiting)
      (h : u.Moves ng i v.2 a (.more u') sh') : HalfMove v (some u', sh')
  | ended (i : ℕ) (u : Use) (a : Act) (r : Option Error) (sh' : Shared) (hu : v.1 = some u)
      (h : u.Moves ng i v.2 a (.ended r) sh') : HalfMove v (none, sh')
  | drop (u : Use) (sh' : Shared) (hu : v.1 = some u) (hpc : u.pc ≠ .waiting) (h : u.drop v.2 = some sh') :
      HalfMove v (none, sh')

/-- A move or none, and a quiet change after it. -/
def HalfStep (v v' : Half) : Prop := ∃ v1, Relation.ReflGen (HalfMove ng) v v1 ∧ v1.1 = v'.1 ∧ Quiet v1.2 v'.2

/-! ## What a use does to the mutex -/

section Mutex

variable {ng} {i : ℕ} {u u' : Use} {a : Act} {sh sh' : Shared} {r : Option Error}

/-- A use that goes on keeps its job.  At the wait it takes the mutex, past it it keeps it. -/
theorem Use.Moves.more_inv (h : u.Moves ng i sh a (.more u') sh') :
    u'.job = u.job ∧ u'.pc ≠ .waiting ∧
      ((u.pc = .waiting ∧ sh.writeHalf = none ∧ u' = ⟨u.job, Use.first u.job⟩ ∧
          sh' = { sh with writeHalf := some i }.note (.locked i)) ∨
        (u.pc ≠ .waiting ∧ sh'.writeHalf = sh.writeHalf)) := by
  cases h with
  | acquire hpc hfree =>
    refine ⟨rfl, ?_, Or.inl ⟨hpc, hfree, rfl, rfl⟩⟩
    unfold Use.first
    split <;> nofun
  | own _ _ hpc hown =>
    cases hown with
    | begun pkt hjob hok => exact ⟨rfl, nofun, Or.inr ⟨by simp [hpc], rfl⟩⟩
    | okay ch want ack sh1 hjob h1 hok =>
      obtain ⟨channels, rfl⟩ := Use.settled_inv h1
      exact ⟨rfl, nofun, Or.inr ⟨by simp [hpc], rfl⟩⟩
  | _ =>
    rename_i hpc
    refine ⟨rfl, nofun, Or.inr ⟨?_, rfl⟩⟩
    simp_all

/-- A use ends past the wait, and lets go of the mutex. -/
theorem Use.Moves.ended_inv (h : u.Moves ng i sh a (.ended r) sh') : u.pc ≠ .waiting ∧ sh'.writeHalf = none := by
  cases h with
  | own _ _ hpc hown =>
    refine ⟨by simp [hpc], ?_⟩
    cases hown <;> exact Shared.release_writeHalf _
  | debtRefused _ _ _ hpc | debtFailed _ _ _ hpc | flushed _ hpc | failed _ _ _ hpc =>
    exact ⟨by simp [hpc], Shared.release_writeHalf _⟩

omit [Usize] in
/-- A use dropped at the wait changes nothing; one dropped later lets go of the mutex. -/
theorem Use.drop_inv (h : u.drop sh = some sh') :
    (u.pc = .waiting ∧ sh' = sh) ∨ (u.pc ≠ .waiting ∧ sh'.writeHalf = none) := by
  unfold Use.drop at h
  split at h
  · rename_i hpc
    cases h
    exact Or.inl ⟨hpc, rfl⟩
  · rename_i hpc
    cases h
    exact Or.inr ⟨by simp [hpc], Shared.release_writeHalf _⟩
  · rename_i hpc
    cases h
    exact Or.inr ⟨by simp [hpc], Shared.release_writeHalf _⟩
  · cases h

end Mutex

/-! ## One task moves -/

section Moves

variable {ng} {s s' : State} {i : ℕ} {t t' : Task} {u' : Use} {sh' : Shared}

section

omit [Usize]

/-- A task without a use is not the one the mutex names. -/
theorem Exclusive.not_named (hx : Exclusive s) (ht : s.tasks[i]? = some t) (hu : t.use = none) :
    s.sh.writeHalf ≠ some i := by
  intro hi
  obtain ⟨t1, u, ht1, hu1⟩ := hx.named i hi
  rw [ht] at ht1
  cases ht1
  rw [hu] at hu1
  cases hu1

/-- A task the mutex does not name moves quietly, and is at most about to wait. -/
theorem Exclusive.set_quiet (t' : Task) (hx : Exclusive s) (hi : s.sh.writeHalf ≠ some i) (hq : Quiet s.sh sh')
    (ht' : ∀ u, t'.use = some u → ∃ job, u = .start job ∧ job.Proper) :
    Exclusive (s.set i t' sh') ∧ (s.set i t' sh').half = (s.holder, sh') := by
  have hkeep : ∀ j, sh'.writeHalf = some j → s.sh.writeHalf = some j ∧ i ≠ j := by
    intro j hj
    rw [hq.writeHalf] at hj
    exact ⟨hj, fun hij => hi (hij ▸ hj)⟩
  refine ⟨⟨hx.each.set ?_ ?_, ?_⟩, ?_⟩
  · intro u hu
    obtain ⟨job, rfl, hjob⟩ := ht' u hu
    refine ⟨hjob, fun h => absurd rfl h, fun h => ?_⟩
    exact absurd (hkeep i h).1 hi
  · intro j t1 hj _ hP u hu
    obtain ⟨hjob, hiff⟩ := hP u hu
    exact ⟨hjob, by rw [hiff, State.set_sh, hq.writeHalf]⟩
  · intro j hj
    obtain ⟨hold, hne⟩ := hkeep j hj
    obtain ⟨t1, u, ht1, hu1⟩ := hx.named j hold
    exact ⟨t1, u, by simpa [State.set, List.getElem?_set_ne hne] using ht1, hu1⟩
  · unfold State.half State.holder State.set
    dsimp only
    rw [hq.writeHalf]
    cases hj : s.sh.writeHalf with
    | none => rfl
    | some j =>
      have hne : i ≠ j := fun hij => hi (hij ▸ hj)
      simp only [Option.bind_some, List.getElem?_set_ne hne]

/-- The task the mutex names lets go of it. -/
theorem Exclusive.set_release (t' : Task) (hx : Exclusive s) (hi : s.sh.writeHalf = some i)
    (hsh : sh'.writeHalf = none) (hu' : t'.use = none) : Exclusive (s.set i t' sh') ∧ (s.set i t' sh').half = (none, sh') := by
  refine ⟨⟨hx.each.set ?_ ?_, ?_⟩, ?_⟩
  · intro u hu
    rw [hu'] at hu
    cases hu
  · intro j t1 hj _ hP u hu
    obtain ⟨hjob, hiff⟩ := hP u hu
    refine ⟨hjob, fun h => ?_, fun h => ?_⟩
    · have := hiff.mp h
      rw [hi] at this
      cases this
      exact absurd rfl hj
    · rw [State.set_sh, hsh] at h
      cases h
  · intro j hj
    rw [State.set_sh, hsh] at hj
    cases hj
  · simp only [State.half, State.holder, State.set, hsh, Option.bind_none]

/-- A task takes the mutex, or goes on with it. -/
theorem Exclusive.set_hold (t' : Task) (sh' : Shared) (hx : Exclusive s) (ht : s.tasks[i]? = some t)
    (hi : s.sh.writeHalf = none ∨ s.sh.writeHalf = some i) (hsh : sh'.writeHalf = some i) (hu' : t'.use = some u')
    (hjob' : u'.job.Proper) (hpc' : u'.pc ≠ .waiting) :
    Exclusive (s.set i t' sh') ∧ (s.set i t' sh').half = (some u', sh') := by
  have hself : (s.tasks.set i t')[i]? = some t' := by simp [List.getElem?_set_self', ht]
  refine ⟨⟨hx.each.set ?_ ?_, ?_⟩, ?_⟩
  · intro u hu
    rw [hu'] at hu
    cases hu
    exact ⟨hjob', fun _ => hsh, fun _ => hpc'⟩
  · intro j t1 hj _ hP u hu
    obtain ⟨hjob, hiff⟩ := hP u hu
    refine ⟨hjob, fun h => ?_, fun h => ?_⟩
    · have hold := hiff.mp h
      rcases hi with hi | hi <;> rw [hi] at hold <;> cases hold
      exact absurd rfl hj
    · rw [State.set_sh, hsh] at h
      cases h
      exact absurd rfl hj
  · intro j hj
    rw [State.set_sh, hsh] at hj
    cases hj
    exact ⟨t', u', hself, hu'⟩
  · simp only [State.half, State.holder, State.set, hsh, Option.bind_some, hself, hu']

/-- A task that has no use yet joins. -/
theorem Exclusive.append (t' : Task) (hx : Exclusive s) (hu' : t'.use = none) :
    Exclusive ⟨s.sh, s.tasks ++ [t']⟩ ∧ (State.mk s.sh (s.tasks ++ [t'])).half = s.half := by
  have hold : ∀ (j : ℕ) (t1 : Task), s.tasks[j]? = some t1 → (s.tasks ++ [t'])[j]? = some t1 := by
    intro j t1 hj
    have hlt : j < s.tasks.length := (List.getElem?_eq_some_iff.mp hj).1
    rw [List.getElem?_append_left hlt, hj]
  refine ⟨⟨hx.each.append ?_, ?_⟩, ?_⟩
  · intro u hu
    rw [hu'] at hu
    cases hu
  · intro j hj
    obtain ⟨t1, u, ht1, hu1⟩ := hx.named j hj
    exact ⟨t1, u, hold j t1 ht1, hu1⟩
  · unfold State.half State.holder
    dsimp only
    cases hj : s.sh.writeHalf with
    | none => rfl
    | some j =>
      obtain ⟨t1, u, ht1, hu1⟩ := hx.named j hj
      simp only [Option.bind_some, hold j t1 ht1, ht1]

end

/-! ## The simulation -/

/-- A step of one task, seen from the write half. -/
theorem Task.Moves.half {e : Event} (hx : Exclusive s) (ht : s.tasks[i]? = some t)
    (h : t.Moves ng i s.sh e t' sh') :
    Exclusive (s.set i t' sh') ∧ HalfStep ng s.half (s.set i t' sh').half := by
  -- a use past the wait is the one the mutex names
  have hholds : ∀ u, t.use = some u → u.pc ≠ .waiting → s.sh.writeHalf = some i ∧ s.half = (some u, s.sh) := by
    intro u hu hpc
    have hi := ((hx.each i t ht) u hu).2.mp hpc
    exact ⟨hi, by simp only [State.half, State.holder, hi, Option.bind_some, ht, hu]⟩
  have hquiet : ∀ {t1 sh1}, s.sh.writeHalf ≠ some i → Quiet s.sh sh1 →
      (∀ u, Task.use t1 = some u → ∃ job, u = .start job ∧ job.Proper) →
      Exclusive (s.set i t1 sh1) ∧ HalfStep ng s.half (s.set i t1 sh1).half := by
    intro t1 sh1 hi hq hu
    obtain ⟨hx', hhalf⟩ := hx.set_quiet t1 hi hq hu
    exact ⟨hx', hhalf ▸ ⟨s.half, .refl, rfl, hq⟩⟩
  have hdrop : ∀ u ctl' sh1, t.use = some u → u.drop s.sh = some sh1 →
      Exclusive (s.set i ⟨ctl', none⟩ sh1) ∧ HalfStep ng s.half (s.set i ⟨ctl', none⟩ sh1).half := by
    intro u ctl' sh1 hu hd
    rcases Use.drop_inv hd with ⟨hpc, rfl⟩ | ⟨hpc, hfree⟩
    · refine hquiet (fun hi => ?_) (.refl _) fun _ hu => (by cases hu)
      exact ((hx.each i t ht) u hu).2.mpr hi hpc
    · obtain ⟨hi, hh⟩ := hholds u hu hpc
      obtain ⟨hx', hhalf⟩ := hx.set_release ⟨ctl', none⟩ hi hfree rfl
      exact ⟨hx', hhalf ▸ ⟨_, .single (.drop u _ (by rw [hh]) hpc hd), rfl, .refl _⟩⟩
  cases h with
  | ctl a ctl' use' sh' hu hc =>
    have hcon := hc.controls
    exact hquiet (hx.not_named ht hu) hcon.quiet hcon.begins
  | more u a u' sh' hu hm =>
    have hjob := ((hx.each i t ht) u hu).1
    obtain ⟨hjob', hpc', ⟨hpc, hfree, rfl, rfl⟩ | ⟨hpc, hkeep⟩⟩ := hm.more_inv
    · obtain ⟨hx', hhalf⟩ := hx.set_hold ⟨t.ctl, some ⟨u.job, Use.first u.job⟩⟩
        ({ s.sh with writeHalf := some i }.note (.locked i)) ht (Or.inl hfree) rfl rfl hjob hpc'
      refine ⟨hx', hhalf ▸ ⟨_, .single (.acquire i u.job hjob ?_), rfl, .refl _⟩⟩
      simp only [State.half, State.holder, hfree, Option.bind_none]
    · obtain ⟨hi, hh⟩ := hholds u hu hpc
      obtain ⟨hx', hhalf⟩ := hx.set_hold ⟨t.ctl, some u'⟩ _ ht (Or.inr hi) (hkeep.trans hi) rfl
        (hjob' ▸ hjob) hpc'
      exact ⟨hx', hhalf ▸ ⟨_, .single (.more i u a u' _ (by rw [hh]) hpc hm), rfl, .refl _⟩⟩
  | ended u a r sh1 hu hm =>
    obtain ⟨hpc, hfree⟩ := hm.ended_inv
    obtain ⟨hi, hh⟩ := hholds u hu hpc
    have hq := t.ctl.resume_quiet r sh1
    obtain ⟨hx', hhalf⟩ := hx.set_release ⟨(t.ctl.resume r sh1).1, none⟩ hi (hq.writeHalf.trans hfree) rfl
    exact ⟨hx', hhalf ▸ ⟨_, .single (.ended i u a r sh1 (by rw [hh]) hm), rfl, hq⟩⟩
  | cancel u ctl' sh' hu _ hd => exact hdrop u ctl' _ hu hd
  | drop u ctl' sh' hu _ hd => exact hdrop u ctl' _ hu hd
  | dropIdle ctl' hu _ | begin c call c' hu _ _ | decide c accept hu _ _ | dropReader c hu _ _ =>
    exact hquiet (hx.not_named ht hu) (.refl _) fun _ hu => (by cases hu)

/-- **Every event is at most one move of the write half and a quiet change.** -/
theorem State.Moves.half {e : Event} (hx : Exclusive s) (h : s.Moves ng e s') :
    Exclusive s' ∧ HalfStep ng s.half s'.half := by
  cases h with
  | task i e t t' sh' ht hm => exact hm.half hx ht
  | call c =>
    obtain ⟨hx', hhalf⟩ := hx.append ⟨c.start, none⟩ rfl
    exact ⟨hx', s.half, .refl, by rw [hhalf], .refl _⟩
  | handOver i t h ctl' ht hu hh =>
    obtain ⟨hx1, hhalf1⟩ := hx.set_quiet ⟨ctl', none⟩ (hx.not_named ht hu) (.refl _) fun _ hu => (by cases hu)
    obtain ⟨hx', hhalf⟩ := hx1.append ⟨.holder ⟨h, .held⟩, none⟩ rfl
    exact ⟨hx', s.half, .refl, (congrArg Prod.fst (hhalf.trans hhalf1)).symm, .refl _⟩
  | listeners e n _ => exact ⟨⟨hx.each, hx.named⟩, ⟨s.half, .refl, rfl, .of_eq rfl rfl rfl rfl rfl⟩⟩

omit [Usize] in
theorem Exclusive.start (table : ChannelTable) (incoming : IncomingQueue) (desync : Bool) :
    Exclusive (State.start table incoming desync) := by
  refine ⟨fun i t ht u hu => ?_, nofun⟩
  have hnone : t.use = none := by
    rcases i with _ | i
    · cases ht; rfl
    · cases ht
  rw [hnone] at hu
  cases hu

theorem HalfStep.keeps {I : Half → Prop} (hmove : ∀ v v', I v → HalfMove ng v v' → I v')
    (hquiet : ∀ v sh', I v → Quiet v.2 sh' → I (v.1, sh')) {v v' : Half} (h : HalfStep ng v v') (hI : I v) : I v' := by
  obtain ⟨v1, hv1, heq, hq⟩ := h
  have h1 : I v1 := by
    cases hv1 with
    | refl => exact hI
    | single hm => exact hmove v v1 hI hm
  have h2 := hquiet v1 v'.2 h1 hq
  rwa [heq] at h2

/-- **What moves and quiet changes preserve, a run of the system preserves.** -/
theorem run_half {I : Half → Prop} (hmove : ∀ v v', I v → HalfMove ng v v' → I v')
    (hquiet : ∀ v sh', I v → Quiet v.2 sh' → I (v.1, sh')) {es : List Event} (hx : Exclusive s)
    (hrun : Runs.Run (State.step ng) Runs.Any s es s') (h0 : I s.half) : Exclusive s' ∧ I s'.half := by
  refine hrun.invariant (I := fun s => Exclusive s ∧ I s.half) ⟨hx, h0⟩ ?_
  rintro a e b ⟨hxa, hIa⟩ _ hstep
  obtain ⟨hxb, hhalf⟩ := (State.step_moves hstep).half hxa
  exact ⟨hxb, hhalf.keeps hmove hquiet hIa⟩

end Moves

end LibAdb.Split
