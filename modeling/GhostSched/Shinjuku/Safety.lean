import GhostSched.Shinjuku.Pass

/-!
# The places of the tasks of the Shinjuku scheduler

What holds along every run if no work class is repeating.

* `structural_invariant`: the state of a task says where it is, and the unschedule levels
  are used between `UpdateSchedParams` and the end of the pass only.
* `no_task_with_work_lost`: after a pass, a task that is not blocked is paused if and only
  if it has no work.

The messages are arbitrary, so the results are about the states that are reached without
a fault. The checks of `SchedParamsCallback` that involve `paused()` never fail.
-/

namespace Shinjuku

open Central Checked Transition

variable {G C P T : Type} {cfg : Config G C T} {s s₀ s' : State G C P T}

/-! ## Runs -/

section Run

variable [DecidableEq G] [DecidableEq C] [DecidableEq P] [DecidableEq T]

variable {a : Action G C P T} {x y : Agent G C P T}

/-- The agent was running before a step. -/
theorem step_cases (h : step cfg x a = some y) :
    ∃ s, x = .running s ∧ ((∃ s', y = .running s' ∧ act cfg s a = some (.ok s')) ∨
      ∃ f, y = .stopped f ∧ act cfg s a = some (.error f)) := by
  cases x with
  | stopped f => cases h
  | running s =>
    refine ⟨s, rfl, ?_⟩
    simp only [step] at h
    split at h
    · rename_i s' hact
      exact .inl ⟨s', (Option.some.inj h).symm, hact⟩
    · rename_i f hact
      exact .inr ⟨f, (Option.some.inj h).symm, hact⟩
    · cases h

/-- The invariant of the runs without repeatables. -/
def Plain (cfg : Config G C T) : Agent G C P T → Prop
  | .running s => Inv cfg s ∧ s.pausedRepeatables = []
  | .stopped f => f ≠ .paused

theorem Evolves.repeatables (h : Evolves cfg s a s')
    (hplain : ∀ tgid wcid, cfg.repeating tgid wcid = false) (hnil : s.pausedRepeatables = []) :
    s'.pausedRepeatables = [] := by
  cases h with
  | dispatched _ h =>
    cases h with
    | handled _ _ h =>
      cases h with
      | stays _ hmoves | freed _ hmoves =>
        have hrest := State.rest_eq hmoves.rest
        exact hrest.2.2.1.trans hnil
    | created _ _ h => exact h.repeatables.trans hnil
    | ignored => exact hnil
  | discovered _ _ h | passes h => exact h.repeatables.trans hnil
  | refreshed _ _ _ h =>
    cases h with
    | ignored => exact hnil
    | updated _ _ _ _ h =>
      rcases h.repeatables with hsame | ⟨-, -, -, -, hrepeating⟩
      · exact hsame.trans hnil
      · simp [hplain] at hrepeating
  | rearmed _ hp => simp [hnil] at hp

theorem Plain.step (hplain : ∀ tgid wcid, cfg.repeating tgid wcid = false) (h : Plain cfg x)
    (hstep : step cfg x a = some y) :
    Plain cfg y := by
  rcases step_cases hstep with ⟨s, rfl, hend⟩
  rcases h with ⟨hinv, hnil⟩
  have hrearm : Rearmable s := fun i p t _ hp => by simp [hnil] at hp
  rcases hend with ⟨s', rfl, hact⟩ | ⟨f, rfl, hact⟩
  · have hs' := (hinv.act hrearm hact).of_ok rfl
    exact ⟨hs'.1, hs'.2.repeatables hplain hnil⟩
  · exact (hinv.act hrearm hact).of_error rfl

theorem Plain.of_run (hplain : ∀ tgid wcid, cfg.repeating tgid wcid = false) (h₀ : Init s₀)
    (h : Steps (Shinjuku.step cfg) (.running s₀) x) : Plain cfg x :=
  h.invariant (fun _ _ _ hx hstep => hx.step hplain hstep) ⟨h₀.inv, h₀.pausedRepeatables⟩

end Run

/-! ## Places -/

/-- No handler and no pass is in progress. -/
def Mode.Idle : Mode C → Prop
  | .discover | .scrape | .drain | .update => True
  | _ => False

/-- The state of a task says where it is. -/
structure Structured (s : State G C P T) : Prop where
  queued : ∀ p, p ∈ s.runQueue.tasks ↔ ∃ t, s.heap p = some t ∧ t.runState = .queued
  queued_once : s.runQueue.tasks.Nodup
  onCpu : ∀ p c, s.current c = some p ↔
    ∃ t, s.heap p = some t ∧ t.runState = .onCpu ∧ t.cpu = some c
  yielding : ∀ p, p ∈ s.yieldingTasks ↔ ∃ t, s.heap p = some t ∧ t.runState = .yielding
  yielding_once : s.yieldingTasks.Nodup
  next : ∀ c, s.next c = none
  level : ∀ p t, s.heap p = some t → t.unscheduleLevel ≠ .no →
    t.runState = .onCpu ∧ s.mode = .update

/-- No cpu has a picked task between passes. -/
theorem Inv.next_none (h : Inv cfg s) (hidle : s.mode.Idle) (c : C) : s.next c = none := by
  have hinv := h.mode
  unfold ModeInv at hinv
  split at hinv <;> rename_i hm <;> simp only [hm, Mode.Idle] at hidle
  · exact hinv.2.1 c
  · exact hinv.2.1 c
  · exact hinv.2 c
  · exact hinv c

variable {t : ShinjukuTask G C T} {p : P}

/-- Tasks are marked between `UpdateSchedParams` and the pass only. -/
theorem Inv.marked (h : Inv cfg s) (hidle : s.mode.Idle) (ht : s.heap p = some t)
    (hlevel : t.unscheduleLevel ≠ .no) :
    t.runState = .onCpu ∧ s.mode = .update := by
  have hr : t.runState = .onCpu := by
    by_contra hr
    exact hlevel (h.good.level_of_offCpu ht hr)
  rcases h.good.current_of_onCpu ht hr with ⟨c, -, hc⟩
  refine ⟨hr, ?_⟩
  have hinv := h.mode
  unfold ModeInv at hinv
  split at hinv <;> rename_i hm <;> simp only [hm, Mode.Idle] at hidle
  · cases (hinv.1 c).symm.trans hc
  · cases (hinv.1 c).symm.trans hc
  · exact absurd (hinv.1 c p t hc ht) hlevel
  · exact hm

theorem Inv.structured (h : Inv cfg s) (hidle : s.mode.Idle) : Structured s := by
  have hnext := h.next_none hidle
  rcases h.good with ⟨place, hb, hfits⟩
  have hpicked : ∀ p c, place p ≠ .picked c := by
    intro p c hp
    cases (hnext c).symm.trans ((hb.next c p).mpr hp)
  refine ⟨fun p => ?_, hb.queue_nodup, fun p c => ?_, fun p => ?_, hb.yielding_nodup, hnext,
    fun p t => h.marked hidle⟩
  · have hfit := hfits p
    have hnot := hpicked p
    rw [hb.mem_queue]
    generalize place p = q at hfit hnot
    generalize s.heap p = o at hfit
    cases hfit <;> simp_all
  · have hfit := hfits p
    rw [hb.current]
    generalize place p = q at hfit
    generalize s.heap p = o at hfit
    cases hfit <;> simp_all
  · have hfit := hfits p
    rw [hb.mem_yielding]
    generalize place p = q at hfit
    generalize s.heap p = o at hfit
    cases hfit <;> simp_all

/-- At the end of a pass no task is marked and none skips a pass. -/
theorem Inv.place_of_work (h : Inv cfg s) {i : ℕ} (hm : s.mode = .rearm i)
    (ht : s.heap p = some t) (hblocked : t.runState ≠ .blocked) :
    (t.runState = .paused ↔ t.hasWork = false) ∧
      (t.hasWork = true → p ∈ s.runQueue.tasks ∨ ∃ c, s.current c = some p) := by
  have hinv := h.mode
  rw [ModeInv, hm] at hinv
  rcases hinv with ⟨hlevels, hnext, hyielding⟩
  have hlevel := hlevels.all_no h.good ht
  rcases h.good with ⟨place, hb, hfits⟩
  have hfit := hfits p
  rw [ht] at hfit
  generalize hplace : place p = q at hfit
  cases hfit with
  | blocked hr => exact absurd hr hblocked
  | paused hr hw => simp [hr, hw]
  | queued hr hw =>
    have hmem := (hb.mem_queue p).mpr hplace
    simp [hr, hw, hmem]
  | picked => cases (hnext _).symm.trans ((hb.next _ p).mpr hplace)
  | yielding =>
    have hmem := (hb.mem_yielding p).mpr hplace
    simp [hyielding] at hmem
  | onCpu hr _ hw =>
    have hwork := hw.mpr (by simp [hlevel])
    simp only [hr, hwork, reduceCtorEq, iff_self, true_and]
    exact fun _ => .inr ⟨_, (hb.current _ p).mpr hplace⟩

section Results

variable [DecidableEq G] [DecidableEq C] [DecidableEq P] [DecidableEq T]

/-- In every state between handlers and passes, the state of a task says where it is, no cpu has a
picked task, and tasks are marked on cpus and until the end of the pass only. -/
theorem structural_invariant (hplain : ∀ tgid wcid, cfg.repeating tgid wcid = false)
    (h₀ : Init s₀) (h : Steps (step cfg) (.running s₀) (.running s)) (hidle : s.mode.Idle) :
    Structured s :=
  (Plain.of_run hplain h₀ h).1.structured hidle

/-- The checks that involve `paused()` never fail, and after each pass a task that is not blocked
is paused if it has no work, and on the run queue or on a cpu if it has. -/
theorem no_task_with_work_lost (hplain : ∀ tgid wcid, cfg.repeating tgid wcid = false)
    (h₀ : Init s₀) {x : Agent G C P T} (h : Steps (step cfg) (.running s₀) x) :
    x ≠ .stopped .paused ∧
      ∀ s', step cfg x .endPass = some (.running s') → ∀ p t, s'.heap p = some t →
        t.runState ≠ .blocked → (t.runState = .paused ↔ t.hasWork = false) ∧
          (t.hasWork = true → p ∈ s'.runQueue.tasks ∨ ∃ c, s'.current c = some p) := by
  have hx := Plain.of_run hplain h₀ h
  refine ⟨?_, fun s' hstep p t ht hblocked => ?_⟩
  · rintro rfl
    exact hx rfl
  · rcases step_cases hstep with ⟨s, rfl, ⟨s'', heq, hact⟩ | ⟨f, heq, -⟩⟩
    · cases heq
      simp only [act] at hact
      split at hact
      · rename_i i hm
        rcases Option.ite_none_right_eq_some.mp hact with ⟨-, hact⟩
        cases hact
        exact hx.1.place_of_work hm ht hblocked
      · cases hact
    · cases heq

end Results

/-! ## A preemption that fails -/

/-- One cpu and one process with two sched items. -/
def oneCpu : Config Bool Unit Unit :=
  { cpus := [()], nodup := by decide, tgid := fun _ => (), numSchedItems := fun _ => 2
    repeating := fun _ _ => false, period := fun _ _ => 0, preemptionTimeSlice := 1 }

def noTasks : State Bool Unit Bool Unit :=
  { allocator := fun _ => none, heap := fun _ => none, current := fun _ => none
    next := fun _ => none, runQueue := [], pausedRepeatables := [], yieldingTasks := []
    numTasks := 0, orchs := fun _ => false, cachedsids := fun _ _ => ⟨none, 0, false, 0⟩
    mode := .discover, openCpus := [] }

theorem noTasks_init : Init noTasks :=
  ⟨fun _ => rfl, fun _ => rfl, fun _ => rfl, fun _ => rfl, rfl, rfl, rfl, rfl, fun _ => rfl,
    rfl, rfl⟩

/-- Both iterations of a pass. The cpu gets a task in the first one. -/
def passOverCpu : List (Action Bool Unit Bool Unit) :=
  [.globalSchedule, .pick true false 0, .endPick, .settleLevel, .openTransactions,
    .pick true false 0, .endPick, .settleLevel, .openTransactions]

/-- A thread gets the cpu, and then its item has no work any more. -/
def loseWorkOnCpu : List (Action Bool Unit Bool Unit) :=
  [.scrape, .discoveryComplete, .dispatch ⟨true, .new () true, 1, 0⟩ true ⟨false, true, none⟩,
    .dispatch ⟨false, .new () true, 1, 0⟩ false ⟨false, true, none⟩,
    .updateSchedParams, .refresh () 0 (.copied ⟨some true, 0, true, 0⟩) none 0,
    .refresh () 1 (.copied ⟨some false, 0, true, 0⟩) none 0] ++ passOverCpu ++
  [.commit true 0 0, .requeueYielding, .endPass,
    .updateSchedParams, .refresh () 0 (.copied ⟨some true, 0, false, 0⟩) none 0]

/-- The pass pairs it with the other thread, but the transaction fails. -/
def failedPairing : List (Action Bool Unit Bool Unit) :=
  loseWorkOnCpu ++ passOverCpu ++ [.commit false 0 0, .requeueYielding]

/-- The state after some actions. -/
def reached (as : List (Action Bool Unit Bool Unit)) : State Bool Unit Bool Unit :=
  match Transition.exec (step oneCpu) (.running noTasks) as with
  | some (.running s) => s
  | _ => noTasks

theorem loseWorkOnCpu_run :
    Steps (step oneCpu) (.running noTasks) (.running (reached loseWorkOnCpu)) :=
  .of_exec (show exec _ _ loseWorkOnCpu = _ from rfl)

theorem failedPairing_run :
    Steps (step oneCpu) (.running noTasks) (.running (reached failedPairing)) :=
  .of_exec (show exec _ _ failedPairing = _ from rfl)

theorem structural_invariant_marked : (reached loseWorkOnCpu).mode = .update ∧
      ((reached loseWorkOnCpu).heap true).map (·.unscheduleLevel) = some .must ∧
      Structured (reached loseWorkOnCpu) :=
  ⟨rfl, rfl, structural_invariant (fun _ _ => rfl) noTasks_init loseWorkOnCpu_run trivial⟩

theorem no_task_with_work_lost_failedPairing :
    ((reached failedPairing).heap true).map (·.runState) = some .paused ∧
      ((reached failedPairing).heap false).map (·.runState) = some .queued ∧
      ∃ s', step oneCpu (.running (reached failedPairing)) .endPass = some (.running s') ∧
        ∀ p t, s'.heap p = some t → t.runState ≠ .blocked →
          (t.runState = .paused ↔ t.hasWork = false) := by
  refine ⟨rfl, rfl, { reached failedPairing with mode := .drain }, rfl, fun p t ht hblocked => ?_⟩
  exact ((no_task_with_work_lost (fun _ _ => rfl) noTasks_init failedPairing_run).2 _ rfl p t ht
    hblocked).1

end Shinjuku
