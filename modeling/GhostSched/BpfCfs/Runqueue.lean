import GhostSched.BpfCfs.Model

/-!
# What the runqueue operations do

One lemma for each operation on a runqueue: which thread it puts on or takes off
which list, and what it leaves alone. Times do not matter for this, so the lemmas
say nothing about them.

* `Similar` relates states that differ in times only, as far as lists go.
* `enqueueTask_spec`, `removeTaskFromRq_spec`, `cfsPickNextTask_spec` are the lemmas.
-/

namespace BpfCfs

open Kernel TailQueue Function

variable {G C : Type*}

/-! ## Times -/

/-- Threads that differ in times only. -/
def SameThread (x y : Thread G) : Prop :=
  x.gtid = y.gtid ∧ x.taskBarrier = y.taskBarrier ∧ x.weight = y.weight

/-- Runqueues that differ in times only. -/
def SameRq (x y : Rq G) : Prop :=
  x.current = y.current ∧ x.weight = y.weight ∧ x.nrRunning = y.nrRunning ∧ x.rqRoot = y.rqRoot

theorem SameThread.refl (x : Thread G) : SameThread x x := ⟨rfl, rfl, rfl⟩

theorem SameThread.trans {x y z : Thread G} (h : SameThread x y) (h' : SameThread y z) :
    SameThread x z :=
  ⟨h.1.trans h'.1, h.2.1.trans h'.2.1, h.2.2.trans h'.2.2⟩

/-- Only the virtual runtime of the thread changes. -/
theorem renormalise_same (rq : Rq G) (x : Thread G) (renorm : Bool) :
    SameThread (renormalise rq x renorm) x := by
  unfold renormalise
  split <;> exact ⟨rfl, rfl, rfl⟩

theorem SameRq.refl (x : Rq G) : SameRq x x := ⟨rfl, rfl, rfl, rfl⟩

theorem updateMinVruntime_same (rq : Rq G) (curr : Thread G) (threads : ℕ → Thread G)
    (links : ℕ → Link ℕ) : SameRq (updateMinVruntime rq curr threads links) rq := by
  unfold updateMinVruntime
  split
  · exact ⟨rfl, rfl, rfl, rfl⟩
  · exact .refl rq

/-- Only times change, so neither counters nor lists do. -/
theorem updateCurr_same (now : UInt64) (rq : Rq G) (curr : Option ℕ) (threads : ℕ → Thread G)
    (links : ℕ → Link ℕ) :
    SameRq (updateCurr now rq curr threads links).1 rq ∧
      ∀ t, SameThread ((updateCurr now rq curr threads links).2 t) (threads t) := by
  unfold updateCurr
  split
  · exact ⟨.refl rq, fun t => .refl _⟩
  · dsimp only
    split
    · exact ⟨.refl rq, fun t => .refl _⟩
    · refine ⟨updateMinVruntime_same .., fun t => ?_⟩
      dsimp only
      rw [update_apply]
      split_ifs with ht
      · subst ht
        exact ⟨rfl, rfl, rfl⟩
      · exact .refl _

/-! ## Enqueue -/

/-- A thread is put on the runqueue of a cpu. -/
structure Enqueued (s s' : State G C) (g : G) (i : ℕ) (wakeup : Bool) (cpu : C) : Prop where
  tasks : s'.tasks = s.tasks
  swLookup : s'.swLookup = s.swLookup
  pnt : s'.pnt = s.pnt
  gtid : (s'.threads i).gtid = some g
  weight : (s'.threads i).weight =
    if (s.threads i).weight = 0 then nice0Load else (s.threads i).weight
  threads : ∀ t ≠ i, SameThread (s'.threads t) (s.threads t)
  queue : ((s'.rqs cpu).rqRoot, s'.links) = if wakeup then insertTail (s.rqs cpu).rqRoot s.links i
    else insertHead (s.rqs cpu).rqRoot s.links i
  nrRunning : (s'.rqs cpu).nrRunning = (s.rqs cpu).nrRunning + 1
  rqWeight : (s'.rqs cpu).weight = (s.rqs cpu).weight + (s'.threads i).weight
  rqs : ∀ c ≠ cpu, s'.rqs c = s.rqs c

variable {s s' : State G C} {g : G} {i n t : ℕ} {cpu : C} {now : UInt64}

section Enqueue

variable [DecidableEq G] [DecidableEq C]

/-- A task without a thread is not queued. -/
theorem enqueueTask_of_none {wakeup : Bool} (hi : gtidToThread s g = none) :
    enqueueTask s g n wakeup cpu now = s := by
  simp only [enqueueTask, hi]

theorem enqueueTask_spec {wakeup : Bool} (hi : gtidToThread s g = some i) :
    Enqueued s (enqueueTask s g n wakeup cpu now) g i wakeup cpu := by
  simp only [enqueueTask, hi]
  generalize hthread : renormalise (s.rqs cpu) _ _ = thread
  generalize hr : updateCurr now _ _ _ _ = r
  generalize hlast : renormalise r.1 (r.2 i) _ = last
  -- up to times, `thread` and `last` are the thread with its new barrier
  rcases hthread ▸ renormalise_same .. with ⟨hgtid, -, hweight⟩
  rcases hr ▸ updateCurr_same .. with ⟨⟨-, hrqWeight, hnr, hroot⟩, hthreads⟩
  have hlastSame : SameThread last thread := by
    have hi := hthreads i
    rw [update_self] at hi
    exact (hlast ▸ renormalise_same ..).trans hi
  have hplaced : ∀ rq : Rq G, SameThread (if wakeup then placeEntity rq last else last) last := by
    intro rq
    split <;> exact ⟨rfl, rfl, rfl⟩
  constructor <;> dsimp only
  case gtid =>
    rw [update_self, (hplaced _).1, hlastSame.1, hgtid]
  case weight =>
    rw [update_self, (hplaced _).2.2, hlastSame.2.2, hweight]
  case threads =>
    intro t ht
    have hother := hthreads t
    rw [update_of_ne ht] at hother
    rw [update_of_ne ht]
    exact hother
  case queue =>
    rw [update_self, ← hroot]
  case nrRunning =>
    rw [update_self, ← hnr]
  case rqWeight =>
    rw [update_self, update_self, (hplaced _).2.2, ← hrqWeight]
  case rqs =>
    intro c hc
    exact update_of_ne hc ..

end Enqueue

/-! ## The lists -/

/-- The runqueues are well-formed lists of these threads. -/
def Queues (s : State G C) (lists : C → List ℕ) : Prop :=
  AreQueues (fun c => (s.rqs c).rqRoot) s.links lists

variable {lists : C → List ℕ}

/-- Only the heads and the links matter. -/
theorem Queues.congr (hq : Queues s lists) (hlinks : s'.links = s.links)
    (hroot : ∀ c, (s'.rqs c).rqRoot = (s.rqs c).rqRoot) : Queues s' lists := by
  unfold Queues
  rw [hlinks, funext hroot]
  exact hq

/-- What is removed for a thread is on the list of the cpu that looks for it. -/
theorem Queues.mem_of_findInRq (hq : Queues s lists) (ht : findInRq s cpu i = some t) :
    t ∈ lists cpu := by
  rcases Option.ite_none_right_eq_some.mp ht with ⟨-, hforeach⟩
  exact (hq.queue cpu).mem_of_foreach hforeach

/-- The loop of a pick only looks at the list. -/
theorem Queues.mem_threadToSchedule {first : ℕ} (hq : Queues s lists)
    (hfirst : (s.rqs cpu).rqRoot.first = some first) : threadToSchedule s first ∈ lists cpu := by
  have hwalk : ∀ t ∈ walk s.links 100 (some first), t ∈ lists cpu := by
    rw [← hfirst, (hq.queue cpu).walk]
    exact fun t ht => List.mem_of_mem_take ht
  have hmem : first ∈ lists cpu :=
    List.mem_of_head? ((hq.queue cpu).first.symm.trans hfirst)
  -- the best thread so far is the first one or one that the loop has seen
  refine List.foldlRecOn _ _ hmem ?_
  intro best hbest t ht
  split
  · exact hwalk t ht
  · exact hbest

variable [DecidableEq C]

/-- The head of one runqueue changes. -/
theorem queues_update {root : Head ℕ} (hroot : (s'.rqs cpu).rqRoot = root)
    (hrqs : ∀ c ≠ cpu, (s'.rqs c).rqRoot = (s.rqs c).rqRoot)
    (hq : AreQueues (update (fun c => (s.rqs c).rqRoot) cpu root) s'.links lists) :
    Queues s' lists := by
  have hheads : (fun c => (s'.rqs c).rqRoot) = update (fun c => (s.rqs c).rqRoot) cpu root := by
    funext c
    rw [update_apply]
    split_ifs with hc
    · subst hc
      exact hroot
    · exact hrqs c hc
  unfold Queues
  rw [hheads]
  exact hq

/-- A runqueue changes, but not its head. -/
theorem rqRoot_update {rqs : C → Rq G} {rq : Rq G} (hroot : rq.rqRoot = (rqs cpu).rqRoot) (c : C) :
    (update rqs cpu rq c).rqRoot = (rqs c).rqRoot := by
  by_cases hc : c = cpu
  · subst hc
    rw [update_self]
    exact hroot
  · rw [update_of_ne hc]

theorem Queues.setCurrent {current : Option G} (hq : Queues s lists) :
    Queues (s.setCurrent cpu current) lists :=
  hq.congr rfl (rqRoot_update rfl)

theorem Queues.uncount (hq : Queues s lists) : Queues (uncount s cpu i) lists :=
  hq.congr rfl (rqRoot_update rfl)

theorem findInRq_setCurrent {c : C} {current : Option G} :
    findInRq (s.setCurrent c current) cpu i = findInRq s cpu i := by
  unfold findInRq State.setCurrent
  by_cases hc : cpu = c
  · subst hc
    simp only [update_self]
  · simp only [update_of_ne hc]

/-- The list of a cpu with a thread at the end where it is put. -/
def withThread (lists : C → List ℕ) (cpu : C) (wakeup : Bool) (t : ℕ) : C → List ℕ :=
  update lists cpu (if wakeup then lists cpu ++ [t] else t :: lists cpu)

/-- The list of a cpu without a thread. -/
def withoutThread (lists : C → List ℕ) (cpu : C) (t : ℕ) : C → List ℕ :=
  update lists cpu ((lists cpu).erase t)

theorem mem_withThread {wakeup : Bool} {c : C} {x : ℕ} :
    x ∈ withThread lists cpu wakeup t c ↔ x ∈ lists c ∨ (c = cpu ∧ x = t) := by
  unfold withThread
  by_cases hc : c = cpu
  · subst hc
    cases wakeup <;> simp [or_comm]
  · simp [hc]

theorem withThread_self {wakeup : Bool} :
    (withThread lists cpu wakeup t cpu).Perm (t :: lists cpu) := by
  unfold withThread
  rw [update_self]
  cases wakeup with
  | true => exact List.perm_append_singleton t (lists cpu)
  | false => exact .refl _

/-- The list of the cpu loses this thread and no other. -/
theorem withoutThread_self (ht : t ∈ lists cpu) :
    (t :: withoutThread lists cpu t cpu).Perm (lists cpu) := by
  unfold withoutThread
  rw [update_self]
  exact (List.perm_cons_erase ht).symm

theorem mem_withoutThread {c : C} {x : ℕ} (hq : Queues s lists) (ht : t ∈ lists cpu) :
    x ∈ withoutThread lists cpu t c ↔ x ∈ lists c ∧ x ≠ t := by
  unfold withoutThread
  rw [update_apply]
  split_ifs with hc
  · subst hc
    rw [(hq.queue c).nodup.mem_erase_iff, and_comm]
  · -- the thread is on no other list
    refine ⟨fun hx => ⟨hx, ?_⟩, And.left⟩
    rintro rfl
    exact hq.disjoint c cpu hc x hx ht

theorem Enqueued.queues {wakeup : Bool} (h : Enqueued s s' g i wakeup cpu) (hq : Queues s lists)
    (hi : ∀ c, i ∉ lists c) : Queues s' (withThread lists cpu wakeup i) := by
  have hrqs : ∀ c ≠ cpu, (s'.rqs c).rqRoot = (s.rqs c).rqRoot :=
    fun c hc => congrArg Rq.rqRoot (h.rqs c hc)
  cases wakeup with
  | true =>
    rcases Prod.mk.inj h.queue with ⟨hroot, hlinks⟩
    apply queues_update hroot hrqs
    rw [hlinks]
    exact AreQueues.insertTail hq hi
  | false =>
    rcases Prod.mk.inj h.queue with ⟨hroot, hlinks⟩
    apply queues_update hroot hrqs
    rw [hlinks]
    exact AreQueues.insertHead hq hi

/-- `arr_list_remove` on the list of the cpu. -/
theorem Queues.unlink (hq : Queues s lists) (ht : t ∈ lists cpu) :
    Queues (unlink s cpu t) (withoutThread lists cpu t) := by
  have hself : (BpfCfs.unlink s cpu t).rqs cpu =
      { s.rqs cpu with rqRoot := (remove (s.rqs cpu).rqRoot s.links t).1 } :=
    update_self ..
  have hother : ∀ c ≠ cpu, (BpfCfs.unlink s cpu t).rqs c = s.rqs c :=
    fun c hc => update_of_ne hc ..
  refine queues_update (congrArg Rq.rqRoot hself) ?_ (AreQueues.remove hq ht)
  intro c hc
  rw [hother c hc]

/-- PNT takes a thread off the list of its own cpu. -/
theorem cfsPickNextTask_spec {x : Thread G} (hq : Queues s lists)
    (hpick : cfsPickNextTask s cpu = some (s', x)) :
    ∃ t ∈ lists cpu, s' = BpfCfs.unlink s cpu t ∧ x = s.threads t := by
  unfold cfsPickNextTask at hpick
  split at hpick <;> cases hpick
  exact ⟨_, hq.mem_threadToSchedule ‹_›, rfl, rfl⟩

end BpfCfs
