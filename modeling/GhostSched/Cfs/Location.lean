import GhostSched.Cfs.Schedule
import Mathlib.Data.Fintype.Basic

/-!
# Tasks are where their state says, and no check fails

`Inv.step` puts the steps together: `Inv` holds in every run from the start, as
long as every step is `Allowed` and `InOrder`.

* `Allowed` is a guarantee of the kernel: the agent does not get its cpu back
  while a thread is latched there, which is preempted first.
* `InOrder`: the scheduler is not told about a thread that entered ghost again
  before it has freed the task that the thread had. The two messages can be on
  different channels, so nothing in the scheduler makes sure of it, and a
  `TASK_NEW` for a thread that has a task is ignored.

What follows is `task_location` and `no_check_fails`, and for each a run that is
not in order, where it is false.
-/

namespace Cfs

open Kernel Transition

variable {G C P : Type*}

/-! ## The condition -/

def Allowed (s : State G C P) : Action G C P → Prop
  | .wake c _ => ∀ g, (s.kernel g).phase ≠ .latched c
  | _ => True

/-- The thread that a message starts a new task for. -/
def Message.newTask : Message G C → Option G
  | .task g _ (.new _ _) => some g
  | _ => none

/-- The default channel has no new task for the thread. -/
def NoneNew (cfg : Config C) (s : State G C P) (g : G) : Prop :=
  ∀ m ∈ s.queue cfg.defaultCpu, m.newTask ≠ some g

def InOrder (cfg : Config C) (s : State G C P) : Action G C P → Prop
  | .dispatch c _ => ∀ m ∈ (s.queue c).head?, ∀ g ∈ m.newTask, s.alloc g = none
  | .migrate _ g _ ok => ok = true → NoneNew cfg s g
  | .detach _ sizes => ∀ q ∈ (s.cpus (findBusiestQueue cfg sizes.nrRunnable)).rq,
    sizes.ok q = true → NoneNew cfg s (s.heap q).gtid
  | .commit c ok => ok = true → ∀ p ∈ (s.agents c).task, NoneNew cfg s (s.heap p).gtid
  | _ => True

theorem Message.newTask_of_isNew {g : G} {i : ℕ} {msg : Msg C Unit} (h : IsNew msg) :
    (Message.task g i msg).newTask = some g := by
  cases msg with
  | new => rfl
  | _ => exact h.elim

theorem NoneNew.about [DecidableEq G] {cfg : Config C} {s : State G C P} {g : G}
    (h : NoneNew cfg s g) : ∀ x ∈ about g (s.queue cfg.defaultCpu), ¬ IsNew x.2 :=
  fun _ hx hnew => h _ (mem_about.mp hx) (Message.newTask_of_isNew hnew)

section Step

variable [DecidableEq G] [DecidableEq C] [LinearOrder P] {cfg : Config C} {s s₀ s' : State G C P}
  {a : Action G C P}

/-! ## The steps -/

theorem Init.inv (h : Init s) : Inv cfg s := by
  have hdead : ∀ p, s.mem p ≠ .live := by
    intro p hp
    rw [h.mem p] at hp
    cases hp
  have harr : Arranged s
      (⟨fun _ => none, fun _ => none, fun _ => [], fun _ => none⟩ : Layout C P) := by
    refine ⟨fun c place p => iff_of_false (fun hat => ?_) (by simp), fun c => ?_, fun c => ?_,
      fun c => ?_,
      fun c e he => ?_, fun c => List.nodup_nil⟩
    · cases place with
      | rq =>
        have hat : p ∈ (s.cpus c).rq := hat
        rw [h.cpus c] at hat
        cases hat
      | mq =>
        have hat : p ∈ (s.cpus c).mq.map Prod.snd := hat
        rw [h.cpus c] at hat
        cases hat
      | current | moving => cases hat
    · rw [h.cpus c]
    · rw [h.cpus c]
      exact List.Pairwise.nil
    · rw [h.cpus c]
      rfl
    · rw [h.cpus c] at he
      cases he
  refine ⟨⟨_, ⟨harr, fun g p => iff_of_false ?_ fun hlive => hdead p hlive.1,
    fun p hp => absurd hp (hdead p), fun p hp => absurd hp (hdead p), by simp⟩, rfl, fun c => ?_,
    by simp, by simp, fun c p hp => ?_⟩, ⟨fun g => ⟨[], [], ?_⟩, fun c hc => ?_, fun c hc => ?_⟩,
      h.crashed⟩
  · simp [h.alloc g]
  · rw [h.agents c]
    rfl
  · rw [h.agents c] at hp
    cases hp
  · have hknown : known s g = none := by
      rw [known, h.alloc g]
      rfl
    rw [hknown]
    refine ⟨fun c => ?_, by simp, by simp, fun _ => rfl, by simp, fun hne => absurd rfl hne, ?_⟩
    · rw [h.queue c]
      simp [about]
    · refine ⟨?_, Nat.zero_le _, fun hknown => hknown.elim⟩
      rw [h.absent g]
      exact .absent
  · rw [h.agents c] at hc
    exact hc.elim
  · rw [h.agents c] at hc
    exact hc.elim

/-- Every step that is in order. -/
theorem Inv.step (h : Inv cfg s) (hok : Allowed s a ∧ InOrder cfg s a)
    (hstep : step cfg s a = some s') : Good cfg a s s' := by
  rcases hok with ⟨hallowed, horder⟩
  have hact : act cfg s a = some s' := by
    simpa [Cfs.step, h.crashed] using hstep
  cases a with simp only [act] at hact
  | kernel g e => exact h.kernelStep hact
  | tick c => exact h.tick (Option.some.inj hact).symm
  | wake c runtime => exact h.wake hallowed hact
  | dispatch c input =>
    -- a `TASK_NEW` finds no old task
    refine h.dispatch (fun g i msg rest hqueue hnew => ?_) hact
    exact horder (.task g i msg) (by rw [hqueue]; rfl) g (Message.newTask_of_isNew hnew)
  | drained c =>
    split at hact <;> cases hact
    exact h.drained ‹_› ‹_›
  | migrate c g load ok =>
    -- no `TASK_NEW` about the task is waiting
    split at hact
    · rename_i hagent hfind
      rcases Option.ite_none_right_eq_some.mp hact with ⟨-, hs⟩
      cases hs
      exact h.migrate hagent hfind fun hok => (horder hok).about
    · cases hact
  | boosted c =>
    rcases Option.ite_none_right_eq_some.mp hact with ⟨hagent, hs⟩
    cases hs
    exact h.boosted hagent
  | pick c runtime =>
    rcases Option.ite_none_right_eq_some.mp hact with ⟨hagent, hs⟩
    cases hs
    exact h.pick hagent
  | detach c sizes =>
    -- the same, for each task that is moved
    rcases Option.ite_none_right_eq_some.mp hact with ⟨⟨hagent, -⟩, hs⟩
    cases hs
    exact h.detach hagent fun q hq hok => (horder q hq hok).about
  | attach c =>
    split at hact <;> cases hact
    exact h.attach ‹_›
  | repick c runtime =>
    rcases Option.ite_none_right_eq_some.mp hact with ⟨hagent, hs⟩
    cases hs
    exact h.repick hagent
  | commit c ok =>
    -- the same, for the task that gets on the cpu
    split at hact
    · rename_i p hagent
      exact h.commit hagent (fun hok => (horder hok p (by rw [hagent]; rfl)).about) hact
    · cases hact

/-- The invariant holds in every run that is in order. -/
theorem Inv.of_run (hinit : Init s₀)
    (hrun : StepsWhen (fun s a => Allowed s a ∧ InOrder cfg s a) (Cfs.step cfg) s₀ s) : Inv cfg s :=
  hrun.invariant (fun _ _ _ h hok hstep => (h.step hok hstep).inv) hinit.inv

/-! ## Where a task is -/

/-- A task is in one place, or in none. -/
def OnlyAt (s : State G C P) (p : P) (l : Option (C × Place)) : Prop :=
  ∀ c, (p ∈ (s.cpus c).rq ↔ l = some (c, .rq)) ∧
    (p ∈ (s.cpus c).mq.map Prod.snd ↔ l = some (c, .mq)) ∧
    ((s.cpus c).current = some p ↔ l = some (c, .current))

/-- The five situations that a task can be in. -/
def Located (s : State G C P) (p : P) : Prop :=
  let t := s.heap p
  t.state = .blocked ∧ OnlyAt s p none ∨
  t.state = .runnable ∧ t.onRq = .migrating ∧ OnlyAt s p (some (t.cpu, .mq)) ∨
  t.state = .runnable ∧ t.onRq = .queued ∧ OnlyAt s p (some (t.cpu, .rq)) ∨
  t.state = .running ∧ t.onRq = .dequeued ∧ OnlyAt s p (some (t.cpu, .current)) ∨
  t.state = .done ∧ OnlyAt s p (some (t.cpu, .current))

omit [DecidableEq G] [DecidableEq C] in
theorem Shape.onlyAt {L : Layout C P} {p : P} (h : Shape s L) : OnlyAt s p (L.loc p) := by
  intro c
  refine ⟨h.arranged.mem_rq, h.arranged.mem_mq, ?_⟩
  rw [h.arranged.actual, h.settled]
  exact h.arranged.current_iff

omit [DecidableEq G] [DecidableEq C] in
/-- A live task that is not in the list of an agent is in one of the five situations. -/
theorem Shape.located {L : Layout C P} {p : P} (h : Shape s L) (hp : s.mem p = .live)
    (hmoving : ∀ c, p ∉ (s.agents c).moving) : Located s p := by
  have hat : OnlyAt s p (s.heap p).home := by
    rw [← h.home p hp]
    exact h.onlyAt
  cases hstate : (s.heap p).state with
  | blocked =>
    rw [home_blocked hstate] at hat
    exact .inl ⟨hstate, hat⟩
  | runnable =>
    cases hon : (s.heap p).onRq with
    | dequeued =>
      -- it would be in the list of the agent of its cpu
      have hloc : L.loc p = some ((s.heap p).cpu, .moving) :=
        (h.home p hp).trans (home_moving hstate hon)
      refine absurd ?_ (hmoving (s.heap p).cpu)
      rw [← h.moving]
      exact h.arranged.mem_moving.mpr hloc
    | queued =>
      rw [home_queued hstate hon] at hat
      exact .inr (.inr (.inl ⟨hstate, hon, hat⟩))
    | migrating =>
      rw [home_migrating hstate hon] at hat
      exact .inr (.inl ⟨hstate, hon, hat⟩)
  | running =>
    rw [home_running hstate] at hat
    have hon := (h.valid p hp).dequeued (by rw [hstate]; exact nofun)
    exact .inr (.inr (.inr (.inl ⟨hstate, hon, hat⟩)))
  | done =>
    rw [home_done hstate] at hat
    exact .inr (.inr (.inr (.inr ⟨hstate, hat⟩)))

/-- In every run that is in order, every task that no agent is moving is where its state says,
the runqueues are in order, and the vruntime of a task does not change while it is queued. -/
theorem task_location (hinit : Init s₀)
    (hrun : StepsWhen (fun s a => Allowed s a ∧ InOrder cfg s a) (Cfs.step cfg) s₀ s) :
    (∀ g p, s.alloc g = some p → (∀ c, p ∉ (s.agents c).moving) → Located s p) ∧
    (∀ c, Ordered s.heap (s.cpus c).rq ∧ (s.cpus c).rqSize = (s.cpus c).rq.length) ∧
    ∀ a s', Allowed s a ∧ InOrder cfg s a → Cfs.step cfg s a = some s' →
      ∀ c, ∀ p ∈ (s.cpus c).rq, (s'.heap p).vruntime = (s.heap p).vruntime := by
  have hinv := Inv.of_run hinit hrun
  rcases hinv.shape with ⟨L, hshape⟩
  refine ⟨fun g p hg hmoving => ?_, fun c => ?_, fun a s' hok hstep => ?_⟩
  · exact hshape.located ((hshape.owned g p).mp hg).1 hmoving
  · exact ⟨hshape.arranged.ordered c, hshape.arranged.size c⟩
  · exact (hinv.step hok hstep).moves.vruntime

end Step

/-! ### Two cpus and one thread -/

section Instances

variable [DecidableEq G] [DecidableEq C] [Fintype G]

instance (cfg : Config C) (s : State G C P) (g : G) : Decidable (NoneNew cfg s g) :=
  inferInstanceAs (Decidable (∀ m ∈ s.queue cfg.defaultCpu, m.newTask ≠ some g))

instance (s : State G C P) (a : Action G C P) : Decidable (Allowed s a) := by
  unfold Allowed
  split <;> infer_instance

instance [DecidableEq P] (cfg : Config C) (s : State G C P) (a : Action G C P) :
    Decidable (InOrder cfg s a) := by
  unfold InOrder
  split <;> infer_instance

end Instances

/-- Cpu `false` has the default channel. -/
def twoCpus : Config Bool := ⟨[false, true], false, false, fun _ => [], 0, 0, false⟩

def noTasks : State Unit Bool ℕ where
  kernel _ := .absent _
  channel _ := false
  queue _ := []
  heap _ := ⟨(), 0, .blocked, .dequeued, false, fun _ => false, 0, 0, 0⟩
  mem _ := .unused
  alloc _ := none
  cpus _ := ⟨none, false, [], 0, 0, []⟩
  agents _ := .asleep
  crashed := false
  usedFreed := false

theorem noTasks_init : Init noTasks where
  absent _ := rfl
  queue _ := rfl
  mem _ := rfl
  alloc _ := rfl
  cpus _ := rfl
  agents _ := rfl
  crashed := rfl
  usedFreed := rfl

/-- The memory for a new task, and its affinity. -/
def newAt (memory : ℕ) (affinity : Bool → Bool) : Input Bool ℕ := ⟨memory, some affinity, 0, 0⟩

/-- A thread that may only run on cpu `true` enters ghost, and its task goes there. -/
def entered : List (Action Unit Bool ℕ) :=
  [.kernel () (.enter () 1 true), .wake false 0, .dispatch false (newAt 0 id), .drained false,
    .migrate false () (fun _ => 0) true, .pick false 0]

def settled : State Unit Bool ℕ := (exec (step twoCpus) noTasks entered).getD noTasks

theorem entered_inOrder :
    StepsWhen (fun s a => Allowed s a ∧ InOrder twoCpus s a) (step twoCpus) noTasks settled :=
  .of_execWhen (fun _ _ h => of_decide_eq_true h) entered rfl

theorem task_location_entered :
    settled.alloc () = some 0 ∧ (∀ c, 0 ∉ (settled.agents c).moving) ∧ Located settled 0 := by
  have hmoving : ∀ c, 0 ∉ (settled.agents c).moving := by decide
  exact ⟨rfl, hmoving, (task_location noTasks_init entered_inOrder).1 () 0 rfl hmoving⟩

/-- The thread leaves and enters again. The agent of the default channel is first, and ignores
that there is a new task. -/
def reentered : List (Action Unit Bool ℕ) :=
  entered ++ [.kernel () .depart, .kernel () (.enter () 1 false), .kernel () .wakeup,
    .wake false 0, .dispatch false (newAt 1 id), .dispatch false (newAt 1 id)]

def twice : State Unit Bool ℕ := (exec (step twoCpus) noTasks reentered).getD noTasks

/-- A wakeup of the new task is taken for one of the old task, which is on a runqueue: it is now
on a migration queue as well. -/
theorem task_in_two_places : Steps (step twoCpus) noTasks twice ∧ twice.crashed = false ∧
    twice.alloc () = some 0 ∧ (∀ c, 0 ∉ (twice.agents c).moving) ∧
    0 ∈ (twice.cpus true).rq ∧ 0 ∈ (twice.cpus true).mq.map Prod.snd ∧ ¬ Located twice 0 := by
  have hrun : exec (step twoCpus) noTasks reentered = some twice := rfl
  have hrq : 0 ∈ (twice.cpus true).rq := by decide
  have hmq : 0 ∈ (twice.cpus true).mq.map Prod.snd := by decide
  refine ⟨.of_exec hrun, rfl, rfl, by decide, hrq, hmq, ?_⟩
  have hnot : ∀ l, ¬ OnlyAt twice 0 l := by
    intro l hat
    have hl := (hat true).1.mp hrq
    rw [(hat true).2.1.mp hmq] at hl
    cases hl
  rintro (h | h | h | h | h)
  · exact hnot _ h.2
  · exact hnot _ h.2.2
  · exact hnot _ h.2.2
  · exact hnot _ h.2.2
  · exact hnot _ h.2

/-! ## No check fails -/

/-- In every run that is in order, no `CHECK` fails and every change of a task's state is one that
the `kTo*` maps permit. -/
theorem no_check_fails [DecidableEq G] [DecidableEq C] [LinearOrder P] {cfg : Config C}
    {s s₀ : State G C P} (hinit : Init s₀)
    (hrun : StepsWhen (fun s a => Allowed s a ∧ InOrder cfg s a) (step cfg) s₀ s) :
    s.crashed = false :=
  (Inv.of_run hinit hrun).crashed

theorem no_check_fails_entered : settled.crashed = false :=
  no_check_fails noTasks_init entered_inOrder

/-- A thread leaves ghost while it runs on cpu `false`, enters it again and leaves it. -/
def leftTwice : List (Action Unit Bool ℕ) :=
  [.kernel () (.enter () 1 true), .wake false 0, .dispatch false (newAt 0 fun _ => true),
    .drained false, .migrate false () (fun _ => 0) true, .pick false 0, .commit false true,
    .kernel () .getOnCpu, .kernel () .depart, .kernel () (.enter () 1 true), .kernel () .depart,
    .wake false 0, .dispatch false (newAt 1 fun _ => true), .dispatch false (newAt 1 fun _ => true),
    .dispatch false (newAt 1 fun _ => true)]

def doneTwice : State Unit Bool ℕ := (exec (step twoCpus) noTasks leftTwice).getD noTasks

/-- The task is still current when it departs for the second time, and it is set to `kDone` from
`kDone`. -/
theorem check_fails : Steps (step twoCpus) noTasks doneTwice ∧ doneTwice.crashed = true := by
  have hrun : exec (step twoCpus) noTasks leftTwice = some doneTwice := rfl
  exact ⟨.of_exec hrun, rfl⟩

end Cfs
