import GhostSched.Cfs.Location

/-!
# Freed tasks, affinities, and threads that come back

More results about runs that are in order, each with a run in which the scheduler
itself is at fault.

* `no_use_after_free`: no memory of a freed task is read, unless `PickNextTask`
  frees the current task. `UpdateMinVruntime` then reads it.
* `opened_in_affinity`: a transaction is opened on a cpu of the task's affinity,
  unless the current task of a cpu has lost that cpu when a pass starts. The task
  is kept or put back on the runqueue of the cpu.
* `no_incarnation_lost`: a thread in ghost has a task. This needs no more than that
  the run is in order, and it fails otherwise.
-/

namespace Cfs

open Kernel Transition

variable {G C P : Type*}

section Safety

variable [DecidableEq G] [DecidableEq C] [LinearOrder P] {cfg : Config C} {s s₀ s' : State G C P}
  {a : Action G C P}

/-! ## Freed tasks -/

omit [DecidableEq G] [DecidableEq C] [LinearOrder P] in
theorem Init.sound (h : Init s) : Sound s := by
  intro c
  rw [h.cpus c]
  exact ⟨nofun, nofun⟩

/-- In every run that is in order and in which `PickNextTask` finds no current task that is done,
no freed task is read or written. -/
theorem no_use_after_free (hinit : Init s₀)
    (hrun : StepsWhen (fun s a => (Allowed s a ∧ InOrder cfg s a) ∧ Spares s a) (step cfg) s₀ s) :
    s.usedFreed = false := by
  have hinv : Inv cfg s ∧ Sound s ∧ s.usedFreed = false := by
    apply hrun.invariant (P := fun s => Inv cfg s ∧ Sound s ∧ s.usedFreed = false)
    · rintro s a s' ⟨hinv, hsound, hused⟩ ⟨hok, hspares⟩ hstep
      have hgood := hinv.step hok hstep
      rcases hgood.clean hsound hspares with ⟨hsound', hused'⟩
      exact ⟨hgood.inv, hsound', hused'.trans hused⟩
    · exact ⟨hinit.inv, hinit.sound, hinit.usedFreed⟩
  exact hinv.2.2

end Safety

instance (s : State G C P) (a : Action G C P) : Decidable (Spares s a) :=
  match a with
  | .pick c _ => inferInstanceAs (Decidable (∀ p ∈ (s.cpus c).current, (s.heap p).state ≠ .done))
  | .kernel _ _ | .tick _ | .wake _ _ | .dispatch _ _ | .drained _ | .migrate _ _ _ _ | .boosted _
  | .detach _ _ | .attach _ | .repick _ _ | .commit _ _ => .isTrue trivial

theorem no_use_after_free_entered : settled.usedFreed = false := by
  have hrun : StepsWhen (fun s a => (Allowed s a ∧ InOrder twoCpus s a) ∧ Spares s a)
      (step twoCpus) noTasks settled :=
    .of_execWhen (fun _ _ h => of_decide_eq_true h) entered rfl
  exact no_use_after_free noTasks_init hrun

/-- A thread leaves ghost while it runs, and its agent has handled the message. -/
def leftRunning : List (Action Unit Bool ℕ) :=
  [.kernel () (.enter () 1 true), .wake false 0, .dispatch false (newAt 0 fun _ => true),
    .drained false, .migrate false () (fun _ => 0) true, .pick false 0, .commit false true,
    .kernel () .getOnCpu, .kernel () .depart, .wake false 0,
      .dispatch false (newAt 1 fun _ => true),
    .drained false]

def beforePick : State Unit Bool ℕ := (exec (step twoCpus) noTasks leftRunning).getD noTasks

/-- `PickNextTask` frees the task, and `UpdateMinVruntime` reads it. -/
theorem freed_task_read :
    StepsWhen (fun s a => Allowed s a ∧ InOrder twoCpus s a) (step twoCpus) noTasks beforePick ∧
    beforePick.usedFreed = false ∧
    (beforePick.cpus false).current = some 0 ∧ (beforePick.heap 0).state = .done ∧
    ∃ s', step twoCpus beforePick (.pick false 0) = some s' ∧ s'.mem 0 = .freed ∧
      s'.usedFreed = true ∧ s'.crashed = false := by
  have hrun : StepsWhen (fun s a => Allowed s a ∧ InOrder twoCpus s a) (step twoCpus) noTasks
      beforePick := .of_execWhen (fun _ _ h => of_decide_eq_true h) leftRunning rfl
  exact ⟨hrun, rfl, rfl, rfl, _, rfl, rfl, rfl, rfl⟩

/-! ## Affinities -/

/-- The affinity that a handler reads has a cpu of the enclave. -/
def Reads [DecidableEq C] (cfg : Config C) : Action G C P → Prop
  | .dispatch _ input => ∃ c ∈ cfg.cpus, readAffinity cfg input c = true
  | _ => True

/-- A pass does not start on a cpu that the current task may not use. -/
def Fits (s : State G C P) : Action G C P → Prop
  | .pick c _ => ∀ p ∈ (s.cpus c).current, (s.heap p).state = .running →
      (s.heap p).cpuAffinity c = true
  | .boosted c => ∀ p ∈ (s.cpus c).current, (s.heap p).state = .running →
      (s.heap p).cpuAffinity c = true
  | _ => True

theorem Fits.passes {s : State G C P} {a : Action G C P} {c : C} {p : P} (h : Fits s a)
    (hpasses : a.Passes c) (hcur : (s.cpus c).current = some p)
    (hstate : (s.heap p).state = .running) : (s.heap p).cpuAffinity c = true := by
  cases a with
  | boosted c' | pick c' runtime =>
    cases hpasses
    exact h p hcur hstate
  | _ => exact hpasses.elim

/-- A task has a cpu that it may use, and one that may be picked is on such a cpu. -/
def CfsTask.Placed (cfg : Config C) (t : CfsTask G C) : Prop :=
  (∃ c ∈ cfg.cpus, t.cpuAffinity c = true) ∧ (t.Queued → t.cpuAffinity t.cpu = true)

structure Placed (cfg : Config C) (s : State G C P) : Prop where
  task : ∀ p, s.mem p = .live → (s.heap p).Placed cfg
  opened : ∀ c p, s.agents c = .opened p → (s.heap p).cpuAffinity c = true

section Affinity

variable [DecidableEq G] [DecidableEq C] [LinearOrder P] {cfg : Config C} {s s₀ s' : State G C P}
  {a : Action G C P}

/-- The running task of a cpu, when a pass starts there. -/
theorem Inv.fits {p : P} (h : Inv cfg s) (hfits : Fits s a) (hp : s.mem p = .live)
    (hstate : (s.heap p).state = .running) (hpasses : a.Passes (s.heap p).cpu) :
    (s.heap p).cpuAffinity (s.heap p).cpu = true := by
  rcases h.shape with ⟨L, hshape⟩
  refine hfits.passes hpasses ?_ hstate
  rw [hshape.arranged.actual, hshape.settled, hshape.arranged.current_iff, hshape.home p hp]
  exact home_running hstate

/-- What a step does to the tasks keeps them on cpus that they may use. -/
theorem Placed.moves (h : Placed cfg s) (hinv : Inv cfg s) (hreads : Reads cfg a) (hfits : Fits s a)
    (hmoves : Moves cfg a s s') : Placed cfg s' := by
  have hread : ∀ {f : C → Bool}, (∃ c input, a = .dispatch c input ∧ f = readAffinity cfg input) →
      ∃ c ∈ cfg.cpus, f c = true := by
    rintro f ⟨c, input, rfl, rfl⟩
    exact hreads
  refine ⟨fun p hp => ?_, fun c p hagent => ?_⟩
  · by_cases hlive : s.mem p = .live
    · rcases hmoves.change p hp hlive with ⟨haff, hqueued⟩
      have hcpus : ∃ c ∈ cfg.cpus, (s'.heap p).cpuAffinity c = true := by
        rcases haff with heq | hnew
        · rw [heq]
          exact (h.task p hlive).1
        · exact hread hnew
      refine ⟨hcpus, fun hq => ?_⟩
      rcases hqueued hq with haff | hnone | ⟨hcpu, heq, hq | ⟨hstate, hpasses⟩⟩
      · exact haff
      · rcases hcpus with ⟨c, hc, haff⟩
        rw [hnone c hc] at haff
        cases haff
      · rw [hcpu, heq]
        exact (h.task p hlive).2 hq
      · rw [hcpu, heq]
        exact hinv.fits hfits hlive hstate hpasses
    · rcases hmoves.fresh p hp hlive with ⟨hnot, hnew⟩
      exact ⟨hread hnew, fun hq => absurd hq hnot⟩
  · rcases hmoves.opened c p hagent with ⟨hagent, heq⟩ | ⟨heq, hlive, rfl, hq | ⟨hstate, hpasses⟩⟩
    · rw [heq]
      exact h.opened c p hagent
    · rw [heq]
      exact (h.task p hlive).2 hq
    · rw [heq]
      exact hinv.fits hfits hlive hstate hpasses

/-- In every run that is in order, in which every affinity has a cpu of the enclave and no pass
starts on a cpu that the current task may not use, every transaction is for a task that may use
the cpu. -/
theorem opened_in_affinity (hinit : Init s₀)
    (hrun : StepsWhen (fun s a => (Allowed s a ∧ InOrder cfg s a) ∧ Reads cfg a ∧ Fits s a)
      (step cfg) s₀ s) (c : C) (p : P) (hagent : s.agents c = .opened p) :
    (s.heap p).cpuAffinity c = true := by
  have hinv : Inv cfg s ∧ Placed cfg s := by
    apply hrun.invariant (P := fun s => Inv cfg s ∧ Placed cfg s)
    · rintro s a s' ⟨hinv, hplaced⟩ ⟨hok, hreads, hfits⟩ hstep
      have hgood := hinv.step hok hstep
      exact ⟨hgood.inv, hplaced.moves hinv hreads hfits hgood.moves⟩
    · refine ⟨hinit.inv, fun p hp => ?_, fun c p hagent => ?_⟩
      · rw [hinit.mem p] at hp
        cases hp
      · rw [hinit.agents c] at hagent
        cases hagent
  exact hinv.2.opened c p hagent

end Affinity

instance [DecidableEq C] (cfg : Config C) (a : Action G C P) : Decidable (Reads cfg a) :=
  match a with
  | .dispatch _ input =>
    inferInstanceAs (Decidable (∃ c ∈ cfg.cpus, readAffinity cfg input c = true))
  | .kernel _ _ | .tick _ | .wake _ _ | .drained _ | .migrate _ _ _ _ | .boosted _ | .pick _ _
  | .detach _ _ | .attach _ | .repick _ _ | .commit _ _ => .isTrue trivial

instance (s : State G C P) (a : Action G C P) : Decidable (Fits s a) :=
  match a with
  | .pick c _ => inferInstanceAs (Decidable (∀ p ∈ (s.cpus c).current,
      (s.heap p).state = .running → (s.heap p).cpuAffinity c = true))
  | .boosted c => inferInstanceAs (Decidable (∀ p ∈ (s.cpus c).current,
      (s.heap p).state = .running → (s.heap p).cpuAffinity c = true))
  | .kernel _ _ | .tick _ | .wake _ _ | .dispatch _ _ | .drained _ | .migrate _ _ _ _
  | .detach _ _ | .attach _ | .repick _ _ | .commit _ _ => .isTrue trivial

/-- A thread that may run anywhere is picked on cpu `false`. -/
def pickedOnce : List (Action Unit Bool ℕ) :=
  [.kernel () (.enter () 1 true), .wake false 0, .dispatch false (newAt 0 fun _ => true),
    .drained false, .migrate false () (fun _ => 0) true, .pick false 0]

def firstOpened : State Unit Bool ℕ := (exec (step twoCpus) noTasks pickedOnce).getD noTasks

theorem opened_in_affinity_picked :
    firstOpened.agents false = .opened 0 ∧ (firstOpened.heap 0).cpuAffinity false = true := by
  have hrun : StepsWhen
      (fun s a => (Allowed s a ∧ InOrder twoCpus s a) ∧ Reads twoCpus a ∧ Fits s a)
      (step twoCpus) noTasks firstOpened :=
    .of_execWhen (fun _ _ h => of_decide_eq_true h) pickedOnce rfl
  exact ⟨rfl, opened_in_affinity noTasks_init hrun false 0 rfl⟩

/-- Its affinity changes before the commit, which fails. The agent handles the message, and the
task is current. -/
def pickedAgain : List (Action Unit Bool ℕ) :=
  pickedOnce ++ [.kernel () .changeAffinity, .commit false false, .dispatch false (newAt 1 id),
    .drained false, .pick false 0]

def secondOpened : State Unit Bool ℕ := (exec (step twoCpus) noTasks pickedAgain).getD noTasks

/-- The task keeps the cpu, which it may not use any more. -/
theorem opened_outside_affinity :
    StepsWhen (fun s a => (Allowed s a ∧ InOrder twoCpus s a) ∧ Reads twoCpus a) (step twoCpus)
      noTasks secondOpened ∧
    secondOpened.agents false = .opened 0 ∧ (secondOpened.heap 0).cpuAffinity false = false := by
  have hrun : StepsWhen (fun s a => (Allowed s a ∧ InOrder twoCpus s a) ∧ Reads twoCpus a)
      (step twoCpus) noTasks secondOpened :=
    .of_execWhen (fun _ _ h => of_decide_eq_true h) pickedAgain rfl
  exact ⟨hrun, rfl, rfl⟩

/-! ## Threads that come back -/

section Reenter

variable [DecidableEq G] [DecidableEq C] [LinearOrder P] {cfg : Config C}
  {s s₀ : State G C P} {g : G}

/-- A thread in ghost about which nothing is pending has a task that is up to date. -/
theorem Inv.known_of_quiet (h : Inv cfg s) (hqueue : ∀ c, about g (s.queue c) = [])
    (hphase : (s.kernel g).phase ≠ .absent) :
    ∃ p, s.alloc g = some p ∧ (s.heap p).seqnum = (s.kernel g).barrier ∧
      (s.heap p).view.Agrees (s.kernel g).phase := by
  rcases h.comm.mail g with ⟨old, new, hmail⟩
  have hold : old = [] := by
    have hhome := hmail.queue_eq (homeOf cfg (known s g))
    rw [hqueue, if_pos rfl] at hhome
    exact (List.append_eq_nil_iff.mp hhome.symm).1
  have hnew : new = [] := by
    have hdefault := hmail.queue_eq cfg.defaultCpu
    rw [hqueue, if_pos rfl] at hdefault
    exact (List.append_eq_nil_iff.mp hdefault.symm).2
  subst hold hnew
  rcases hmail.follows with ⟨hagrees, -, hseq⟩
  have hknown := hagrees.known hphase
  unfold known at hagrees hseq hknown
  cases halloc : s.alloc g with
  | none =>
    rw [halloc] at hknown
    exact hknown.elim
  | some p =>
    rw [halloc] at hagrees hseq hknown
    exact ⟨p, rfl, hseq hknown, hagrees⟩

/-- In every run that is in order, once everything about a thread in ghost has been handled and no
agent is moving its task, there is a task for it, with the sequence number of its last message; if
it is runnable, the task is on a runqueue or a migration queue, or it is current. -/
theorem no_incarnation_lost (hinit : Init s₀)
    (hrun : StepsWhen (fun s a => Allowed s a ∧ InOrder cfg s a) (step cfg) s₀ s)
    (hqueue : ∀ c, ∀ m ∈ s.queue c, ∀ i msg, m ≠ .task g i msg)
    (hmoving : ∀ c, ∀ p ∈ (s.agents c).moving, (s.heap p).gtid ≠ g)
    (hphase : (s.kernel g).phase ≠ .absent) :
    ∃ p, s.alloc g = some p ∧ s.mem p = .live ∧ (s.heap p).gtid = g ∧
      (s.heap p).seqnum = (s.kernel g).barrier ∧
      ((s.kernel g).phase = .runnable → ∃ c, p ∈ (s.cpus c).rq ∨ (g, p) ∈ (s.cpus c).mq ∨
        (s.cpus c).current = some p) := by
  have hinv := Inv.of_run hinit hrun
  rcases hinv.shape with ⟨L, hshape⟩
  have hnone : ∀ c, about g (s.queue c) = [] := by
    intro c
    refine List.eq_nil_iff_forall_not_mem.mpr fun x hx => ?_
    exact hqueue c _ (mem_about.mp hx) _ _ rfl
  rcases hinv.known_of_quiet hnone hphase with ⟨p, halloc, hseq, hagrees⟩
  rcases (hshape.owned g p).mp halloc with ⟨hp, hgtid⟩
  refine ⟨p, halloc, hp, hgtid, hseq, fun hrunnable => ?_⟩
  have hnot : ∀ c, p ∉ (s.agents c).moving := fun c hmem => hmoving c p hmem hgtid
  rw [hrunnable] at hagrees
  rcases hshape.located hp hnot with ⟨hstate, -⟩ | ⟨-, -, hat⟩ | ⟨-, -, hat⟩ | ⟨-, -, hat⟩
    | ⟨-, hat⟩
  · -- it would be known to be blocked
    have hview : (s.heap p).view = .blocked := by
      simp [CfsTask.view, hstate]
    rw [hview] at hagrees
    cases hagrees
  · have hmem := (hat (s.heap p).cpu).2.1.mpr rfl
    rcases List.mem_map.mp hmem with ⟨⟨g', q⟩, he, rfl⟩
    have hkey : g' = (s.heap q).gtid := hshape.arranged.keys _ _ he
    rw [hgtid] at hkey
    exact ⟨_, .inr (.inl (hkey ▸ he))⟩
  · exact ⟨_, .inl ((hat (s.heap p).cpu).1.mpr rfl)⟩
  · exact ⟨_, .inr (.inr ((hat (s.heap p).cpu).2.2.mpr rfl))⟩
  · exact ⟨_, .inr (.inr ((hat (s.heap p).cpu).2.2.mpr rfl))⟩

end Reenter

/-- The agent of cpu `true` frees the old task before the thread comes back. -/
def cameBack : List (Action Unit Bool ℕ) :=
  entered ++ [.kernel () .depart, .wake true 0, .dispatch true (newAt 1 id), .drained true,
    .pick true 0, .kernel () (.enter () 1 true), .wake false 0, .dispatch false (newAt 1 id),
    .drained false, .migrate false () (fun _ => 0) true, .pick false 0]

def back : State Unit Bool ℕ := (exec (step twoCpus) noTasks cameBack).getD noTasks

theorem no_incarnation_lost_cameBack : (back.kernel ()).phase = .runnable ∧
    ∃ p, back.alloc () = some p ∧ back.mem p = .live ∧ (back.heap p).gtid = () ∧
      (back.heap p).seqnum = (back.kernel ()).barrier ∧
      ((back.kernel ()).phase = .runnable → ∃ c, p ∈ (back.cpus c).rq ∨ ((), p) ∈ (back.cpus c).mq ∨
        (back.cpus c).current = some p) := by
  have hrun : StepsWhen (fun s a => Allowed s a ∧ InOrder twoCpus s a) (step twoCpus)
    noTasks back :=
    .of_execWhen (fun _ _ h => of_decide_eq_true h) cameBack rfl
  have hqueue : ∀ c, back.queue c = [] := fun c => by cases c <;> rfl
  have hmoving : ∀ c, (back.agents c).moving = [] := fun c => by cases c <;> rfl
  refine ⟨rfl, no_incarnation_lost noTasks_init hrun (fun c m hm => ?_) (fun c p hp => ?_) ?_⟩
  · rw [hqueue c] at hm
    cases hm
  · rw [hmoving c] at hp
    cases hp
  · exact nofun

/-- The agent of the default channel is first. Then the other agent frees the old task, and both
complete their passes. -/
def dropped : List (Action Unit Bool ℕ) :=
  entered ++ [.kernel () .depart, .kernel () (.enter () 1 true), .wake false 0,
    .dispatch false (newAt 1 id), .drained false, .pick false 0, .wake true 0,
    .dispatch true (newAt 1 id), .drained true, .pick true 0]

def lost : State Unit Bool ℕ := (exec (step twoCpus) noTasks dropped).getD noTasks

/-- Every message has been handled and every agent has completed its pass. The thread is runnable,
but it has no task. -/
theorem incarnation_lost : Steps (step twoCpus) noTasks lost ∧ lost.crashed = false ∧
    (∀ c, lost.queue c = [] ∧ lost.agents c = .asleep) ∧
    (lost.kernel ()).phase = .runnable ∧ lost.alloc () = none := by
  have hrun : exec (step twoCpus) noTasks dropped = some lost := rfl
  refine ⟨.of_exec hrun, rfl, fun c => ?_, rfl, rfl⟩
  cases c <;> exact ⟨rfl, rfl⟩

end Cfs
