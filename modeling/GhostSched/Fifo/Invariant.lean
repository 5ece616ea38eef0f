import GhostSched.Fifo.Handlers

/-!
# The invariant of the FIFO scheduler

* `Inv` holds in every state: no `CHECK` has failed, the tasks are counted, each
  is where its state says, and what the agent believes leads to what the kernel
  does. Where the agent is in the middle of a pass, the cpus that it has assigned
  have a picked task instead of a current one.
* `Inv.dispatch` is the step for a message.
-/

namespace Fifo

open Central Function

variable {G C : Type*}

/-! ## Invariant -/

/-- The cpus that a pass still deals with. -/
def Mode.cpus : Mode C → List C
  | .drain => []
  | .pick available assigned => available ++ assigned
  | .commit assigned => assigned

/-- The cpus with an open transaction. -/
def Mode.assigned : Mode C → List C
  | .drain => []
  | .pick _ assigned => assigned
  | .commit assigned => assigned

/-- The tasks that are current on cpus without an open transaction. -/
def runningOn [DecidableEq C] (assigned : List C) (current : C → Option G) (c : C) : Option G :=
  if c ∈ assigned then none else current c

/-- The tasks of the open transactions. -/
def pickedFor [DecidableEq C] (assigned : List C) (current : C → Option G) (c : C) : Option G :=
  if c ∈ assigned then current c else none

/-- The number of the last message that the agent has read about a task. -/
def seqnumOf (o : Option (FifoTask C)) : ℕ := (o.map FifoTask.seqnum).getD 0

/-- The agent has read every message about the task before it picked it. -/
def isStrict : Option (FifoTask C) → Bool
  | some t => t.runState = .runnable || t.runState = .onCpu
  | none => false

/-- The tasks are counted. -/
def Counts (tasks : G → Option (FifoTask C)) (n : ℤ) : Prop :=
  ∃ live : List G, live.Nodup ∧ (∀ g, g ∈ live ↔ tasks g ≠ none) ∧ n = live.length

/-- What the agent believes leads to what the kernel does. -/
def InTouch [DecidableEq G] (drain : Prop) (tasks : G → Option (FifoTask C))
    (world : World G C Unit) : Prop :=
  Comm (fun g => Allows drain (tasks g)) (fun g => seqnumOf (tasks g))
    (fun g => isStrict (tasks g)) world

/-- The invariant, with the tasks that are put aside. -/
structure InvWith [DecidableEq G] [DecidableEq C] (cfg : Config C) (s : State G C)
    (yielding : List G) : Prop where
  crashed : s.crashed = false
  counts : Counts s.tasks s.numTasks
  placed : Placed Fits s.tasks s.runQueue yielding (runningOn s.mode.assigned s.current)
    (pickedFor s.mode.assigned s.current)
  comm : InTouch (s.mode = .drain) s.tasks s.world
  nodup : s.mode.cpus.Nodup
  assigned : ∀ c ∈ s.mode.assigned, s.current c ≠ none
  not_global : cfg.globalCpu ∉ s.mode.cpus
  global : s.current cfg.globalCpu = none

def Inv [DecidableEq G] [DecidableEq C] (cfg : Config C) (s : State G C) : Prop :=
  InvWith cfg s s.yieldingTasks

/-! ## Counting -/

section Counts

variable [DecidableEq G] {tasks : G → Option (FifoTask C)} {n : ℤ} {g : G} {t t' : FifoTask C}

theorem Counts.add (h : Counts tasks n) (hg : tasks g = none) :
    Counts (update tasks g (some t)) (n + 1) := by
  rcases h with ⟨live, hnodup, hmem, rfl⟩
  refine ⟨g :: live, List.nodup_cons.mpr ⟨fun h => (hmem g).mp h hg, hnodup⟩, fun g' => ?_, by simp⟩
  by_cases hne : g' = g
  · simp [hne]
  · simp [hne, hmem]

theorem Counts.remove (h : Counts tasks n) (hg : tasks g = some t) :
    Counts (update tasks g none) (n + -1) := by
  rcases h with ⟨live, hnodup, hmem, rfl⟩
  have hg : g ∈ live := (hmem g).mpr (by simp [hg])
  refine ⟨live.erase g, hnodup.erase g, fun g' => ?_, ?_⟩
  · by_cases hne : g' = g
    · simp [hne, hnodup.mem_erase_iff]
    · rw [List.mem_erase_of_ne hne, update_of_ne hne]
      exact hmem g'
  · have hlen := List.length_erase_add_one hg
    omega

theorem Counts.change (h : Counts tasks n) (hg : tasks g = some t) :
    Counts (update tasks g (some t')) (n + 0) := by
  rcases h with ⟨live, hnodup, hmem, rfl⟩
  refine ⟨live, hnodup, fun g' => ?_, by simp⟩
  by_cases hne : g' = g
  · simp [hne, hmem, hg]
  · simp [hne, hmem]

end Counts

/-! ## Messages -/

section Dispatch

variable [DecidableEq G] [DecidableEq C] {cfg : Config C} {s s' : State G C}

/-- Between the passes no task is picked. -/
theorem InvWith.settled (h : Inv cfg s) (hd : s.mode = .drain) : Settled s := by
  have hplaced := h.placed
  rw [hd] at hplaced
  exact hplaced

variable {o : Option (FifoTask C)} {v : View C} {drain : Prop}

omit [DecidableEq C] in
theorem Allows.mono {drain' : Prop} (h : Allows drain o v) (himp : drain' → drain) :
    Allows drain' o v := by
  cases h with
  | absent => exact .absent
  | blocked hr => exact .blocked hr
  | resting hr => exact .resting hr
  | waiting hr => exact .waiting (hr.imp_right (Or.imp_right (And.imp_right (mt himp))))
  | placed hr hc => exact .placed hr hc

/-- What has to be known about a handler. -/
theorem Inv.handled {g : G} {w : World G C Unit} {n : ℤ} (h : Inv cfg s) (hd : s.mode = .drain)
    (hh : Handled { s with world := w } g o n s')
    (hcounts : Counts (update s.tasks g o) (s.numTasks + n))
    (hcomm : InTouch True (update s.tasks g o) w) : Inv cfg s' := by
  have hmode : s'.mode = .drain := hh.mode.trans hd
  refine ⟨hh.crashed.trans h.crashed, ?_, ?_, ?_, ?_, ?_, ?_, hh.current _ h.global⟩
  · rw [hh.tasks, hh.numTasks]
    exact hcounts
  · rw [hmode]
    exact hh.settled
  · rw [hh.tasks, hh.world, hmode]
    simpa using hcomm
  · rw [hmode]
    exact List.nodup_nil
  · rw [hmode]
    exact fun c hc => absurd hc List.not_mem_nil
  · rw [hmode]
    exact List.not_mem_nil

omit [DecidableEq G] [DecidableEq C] in
theorem Allows.of_blocked (h : Allows drain o .blocked) :
    ∃ t, o = some t ∧ t.runState = .blocked := by
  cases h with
  | blocked hr => exact ⟨_, rfl, hr⟩

omit [DecidableEq G] [DecidableEq C] in
theorem Allows.of_ne_absent (h : Allows drain o v) (hv : v ≠ .absent) : ∃ t, o = some t := by
  cases h with
  | absent => exact absurd rfl hv
  | _ => exact ⟨_, rfl⟩

omit [DecidableEq G] [DecidableEq C] in
/-- A message that the handlers ignore. -/
theorem Allows.advance {t : FifoTask C} (h : Allows drain (some t) v) (seqnum : ℕ) :
    Allows drain (some { t with seqnum := seqnum }) v := by
  cases h with
  | blocked hr => exact .blocked hr
  | resting hr => exact .resting hr
  | waiting hr => exact .waiting hr
  | placed hr hc => exact .placed hr hc

/-- The agent reads a message, whose number is greater than the last one. -/
theorem Inv.dispatch {e : Entry G C Unit} {rest : List (Entry G C Unit)} {deferrable : Bool}
    (h : Inv cfg s) (hd : s.mode = .drain) (hq : s.world.queue = e :: rest)
    (hs' : dispatchMessage { s with world := { s.world with queue := rest } } e deferrable = s') :
    Inv cfg s' ∧ (e.seqnum < 2 ^ 32 → s'.misordered = s.misordered) := by
  have hsettled : Settled { s with world := { s.world with queue := rest } } :=
    (InvWith.settled h hd : Settled s)
  subst hs'
  rcases Comm.read h.comm hq with ⟨v, v', hv, hseq, hnext, hread⟩
  rcases e with ⟨g, msg, n, r⟩
  replace hv : Allows True (s.tasks g) v := hv.mono fun _ => hd
  -- the new task has to allow the new belief
  have hcomm : ∀ o, Allows True o v' → (v' ≠ .absent → seqnumOf o = n) →
      (isStrict o = true → isStrict (s.tasks g) = true ∧ v' ≠ .absent) →
      InTouch True (update s.tasks g o) { s.world with queue := rest } := by
    intro o ho hn hs
    refine hread _ _ _ (fun g' hg' => ?_) (by simpa using ho) (by simpa using hn)
      (by simpa using hs)
    simp only [update_of_ne hg']
    exact ⟨fun u hu => hu.mono fun _ => hd, trivial, id⟩
  have hloose : ∀ t, Allows True (some t) v' → t.seqnum = n → isStrict (some t) = false →
      InTouch True (update s.tasks g (some t)) { s.world with queue := rest } :=
    fun t ho hn hs => hcomm _ ho (fun _ => hn) fun hs' => absurd (hs.symm.trans hs') (by simp)
  have hlt : ∀ t, s.tasks g = some t → v ≠ .absent → t.seqnum < n := by
    intro t ht hne
    have hn := hseq hne
    simp only [ht, seqnumOf, Option.map_some, Option.getD_some] at hn
    omega
  -- a handler that keeps the task is followed by `Advance`
  have hkeep : ∀ t t' s', s.tasks g = some t → v ≠ .absent →
      Handled { s with world := { s.world with queue := rest } } g (some t') 0 s' →
      t'.seqnum = t.seqnum → Allows True (some { t' with seqnum := n }) v' →
      (isStrict (some t') = true → isStrict (some t) = true ∧ v' ≠ .absent) →
      Inv cfg (advance s' g n) ∧ (n < 2 ^ 32 → (advance s' g n).misordered = s.misordered) := by
    intro t t' s' ht hne hh hs ho hstrict
    obtain ⟨b, hb, heq, hadvance⟩ := handled_advance hh.settled hh.task (hs ▸ hlt t ht hne)
    have hinv := h.handled hd (hh.trans hadvance) (h.counts.change ht)
      (hcomm _ ho (fun _ => rfl) (ht ▸ hstrict))
    rw [heq]
    exact ⟨⟨hinv.crashed, hinv.counts, hinv.placed, hinv.comm, hinv.nodup, hinv.assigned,
      hinv.not_global, hinv.global⟩, fun hn => (hb hn).trans hh.misordered⟩
  have hother : ∀ o k s', Handled { s with world := { s.world with queue := rest } } g o k s' →
      Counts (update s.tasks g o) (s.numTasks + k) →
      InTouch True (update s.tasks g o) { s.world with queue := rest } →
      Inv cfg s' ∧ (n < 2 ^ 32 → s'.misordered = s.misordered) :=
    fun o k s' hh hcounts hcomm => ⟨h.handled hd hh hcounts hcomm, fun _ => hh.misordered⟩
  cases hnext with
  | new info | newRunning info | newBlocked info =>
    have ht : s.tasks g = none := by
      generalize s.tasks g = o at hv
      cases hv
      rfl
    simp only [dispatchMessage, ht]
    refine hother _ _ _ (handled_taskNew hsettled ht) (h.counts.add ht) (hloose _ ?_ rfl rfl)
    first
      | exact .resting (.inl rfl)
      | exact .waiting (.inl rfl)
      | exact .blocked rfl
  | wakeup | wakeupLoose =>
    rcases hv.of_blocked with ⟨t, ht, hr⟩
    simp only [dispatchMessage, ht]
    refine hkeep t _ _ ht (by simp) (handled_taskRunnable hsettled ht hr)
      rfl ?_ (by simp [isStrict])
    first
      | exact .resting (.inl rfl)
      | exact .waiting (.inl rfl)
  | blocked _ c sw hrun =>
    rcases hv.of_ne_absent hrun.ne_absent with ⟨t, ht⟩
    simp only [dispatchMessage, ht]
    exact hkeep t _ _ ht hrun.ne_absent (handled_taskBlocked hsettled ht (ht ▸ hv) hrun) rfl
      (.blocked rfl) (by simp [isStrict])
  | preempt _ c sw hrun =>
    rcases hv.of_ne_absent hrun.ne_absent with ⟨t, ht⟩
    simp only [dispatchMessage, ht]
    exact hkeep t _ _ ht hrun.ne_absent (handled_taskPreempted hsettled ht (ht ▸ hv) hrun) rfl
      (.resting (.inl rfl)) (by simp [isStrict])
  | preemptLoose c sw =>
    rcases hv.of_ne_absent (by simp) with ⟨t, ht⟩
    simp only [dispatchMessage, ht]
    exact hkeep t _ _ ht (by simp) (handled_taskPreempted hsettled ht (ht ▸ hv) mayRun_waiting) rfl
      (.waiting (.inl rfl)) (by simp [isStrict])
  | yield _ c sw hrun =>
    rcases hv.of_ne_absent hrun.ne_absent with ⟨t, ht⟩
    simp only [dispatchMessage, ht]
    rcases handled_taskYield hsettled ht (ht ▸ hv) hrun with ⟨r, ⟨rfl, -⟩ | ⟨rfl, -⟩, hh⟩
    · exact hkeep t _ _ ht hrun.ne_absent hh rfl (.resting (.inl rfl)) (by simp [isStrict])
    · exact hkeep t _ _ ht hrun.ne_absent hh rfl (.resting (.inr (.inr rfl))) (by simp [isStrict])
  | yieldLoose c sw =>
    rcases hv.of_ne_absent (by simp) with ⟨t, ht⟩
    simp only [dispatchMessage, ht]
    rcases handled_taskYield hsettled ht (ht ▸ hv) mayRun_waiting with ⟨r, ⟨rfl, -⟩ | ⟨rfl, hr⟩, hh⟩
    · exact hkeep t _ _ ht (by simp) hh rfl (.waiting (.inl rfl)) (by simp [isStrict])
    · -- a current task is not one that may be on a cpu
      rw [ht] at hv
      cases hv with
      | waiting hr' => simp [hr] at hr'
  | dead =>
    rcases hv.of_blocked with ⟨t, ht, hr⟩
    simp only [dispatchMessage, ht]
    exact hother _ _ _ (handled_taskDead hsettled ht hr) (h.counts.remove ht)
      (hcomm _ .absent (fun hne => absurd rfl hne) (by simp [isStrict]))
  | departed _ current hne =>
    rcases hv.of_ne_absent hne with ⟨t, ht⟩
    simp only [dispatchMessage, ht]
    exact hother _ _ _ (handled_taskDeparted hsettled ht) (h.counts.remove ht)
      (hcomm _ .absent (fun hne => absurd rfl hne) (by simp [isStrict]))
  | onCpu _ c hne | affinityChanged _ hne | prioChanged _ hne =>
    rcases hv.of_ne_absent hne with ⟨t, ht⟩
    simp only [dispatchMessage, ht]
    exact hkeep t _ _ ht hne (handled_refl hsettled ht) rfl (Allows.advance (ht ▸ hv) n)
      fun hs => ⟨hs, hne⟩

end Dispatch

end Fifo
