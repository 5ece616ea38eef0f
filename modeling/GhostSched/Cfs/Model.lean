import GhostSched.Kernel
import GhostSched.Lib.Transition
import Mathlib.Algebra.Group.Nat.Defs
import Mathlib.Data.Int.Notation
import Mathlib.Data.List.Sort
import Mathlib.Order.Lattice

/-!
# The CFS scheduler in userspace

Every cpu of the enclave has an agent. An agent drains the messages of its
channel, migrates the tasks of its migration queue, and commits the next task of
its runqueue to its cpu. The agents share the tasks: an agent puts tasks on the
runqueues of other cpus, and an idle one takes tasks from them.

* `CfsTask` and `CpuState` are the data of the scheduler. A task is reached
  through a pointer `P`. The memory of a freed task keeps its contents, so that
  a read through a dangling pointer is a step like any other; `usedFreed`
  records that there was one.
* `crashed` records that a `CHECK` failed. A debug build also checks each change
  of a task's state against the `kTo*` maps.
* The functions of `CfsRq` are in `Rq`, those of `CfsMq` in `Mq`.
* `step` interleaves the kernel, as in `Kernel`, with the agents. An agent takes
  one step for each time it holds the lock of a runqueue, and for each message
  while it drains its channel; no other agent uses the runqueue meanwhile.

Sizes of runqueues that are read without the lock, and what the kernel answers,
are inputs of the steps.
-/

namespace Cfs

open Kernel Function

/-- `CfsTaskState::State`. -/
inductive RunState where
  | blocked
  | runnable
  | running
  | done
  deriving DecidableEq

/-- `CfsTaskState::OnRq`. -/
inductive OnRq where
  | dequeued
  | queued
  | migrating
  deriving DecidableEq

/-- The states from which a task may go to a state: `kToBlocked` to `kToDone`. -/
def RunState.from : RunState → List RunState
  | .blocked => [.running, .blocked]
  | .runnable => [.blocked, .running, .runnable]
  | .running => [.runnable, .running]
  | .done => [.runnable, .blocked, .running]

/-- `kToDequeued` to `kToMigrating`. -/
def OnRq.from : OnRq → List OnRq
  | .dequeued => [.queued]
  | .queued => [.dequeued, .migrating]
  | .migrating => [.dequeued, .queued]

def kMinNice : ℤ := -20

def kMaxNice : ℤ := 19

def kNiceToInverseWeight : List ℕ :=
  [48388, 59856, 76040, 92818, 118348, 147320, 184698, 229616, 287308, 360437,
    449829, 563644, 704093, 875809, 1099582,
    1376151, 1717300, 2157191, 2708050, 3363326,
    4194304, 5237765, 6557202, 8165337, 10153587,
    12820798, 15790321, 19976592, 24970740, 31350126,
    39045157, 49367440, 61356676, 76695844, 95443717,
    119304647, 148102320, 186737708, 238609294, 286331153]

/-- The inverse weight of a nice value. -/
def inverseWeightOf (nice : ℤ) : ℕ :=
  kNiceToInverseWeight.getD (nice - kMinNice).toNat 0

/-- `CfsTask`, with the state of its `task_state`. Times are in nanoseconds. The cpu
is set as soon as the task is allocated. -/
structure CfsTask (G C : Type*) where
  gtid : G
  seqnum : ℕ
  state : RunState
  onRq : OnRq
  cpu : C
  cpuAffinity : C → Bool
  inverseWeight : ℕ
  vruntime : ℕ
  runtimeAtFirstPick : UInt64

/-- `CpuState` with the contents of its `CfsRq` and `CfsMq`. -/
structure CpuState (G P : Type*) where
  current : Option P
  preemptCurr : Bool
  rq : List P
  rqSize : ℕ
  minVruntime : ℕ
  mq : List (G × P)

/-- Whether the allocator has given out a pointer. -/
inductive Mem where
  | unused
  | live
  | freed
  deriving DecidableEq

/-- A message in a channel. -/
inductive Message (G C : Type*) where
  | cpuTick
  | task (gtid : G) (seqnum : ℕ) (msg : Msg C Unit)

/-- Where the agent of a cpu is. -/
inductive Agent (G P : Type*) where
  /-- It waits in the kernel. -/
  | asleep
  /-- It waits in a `Commit` that put a task on the cpu. -/
  | committed (task : P)
  /-- It holds the lock of its runqueue and drains its channel. -/
  | drain
  /-- In `MigrateTasks`, with the tasks that are still to be tried; with none, at
  the start of `CfsSchedule`. -/
  | migrate (todo : List G)
  /-- `PickNextTask` found no task, and `NewIdleBalance` is next. -/
  | balance
  /-- Between `DetachTasks` and `AttachTasks`. -/
  | attach (tasks : List P)
  /-- Before the second `PickNextTask`. -/
  | repick
  /-- A transaction is open for the task. -/
  | opened (task : P)
  deriving DecidableEq

/-- The parameters of the scheduler and of the machine. -/
structure Config (C : Type*) where
  /-- The cpus of the enclave. -/
  cpus : List C
  /-- The cpu whose channel is the default channel. -/
  defaultCpu : C
  /-- The cpu with id 0. -/
  cpu0 : C
  l3Siblings : C → List C
  minGranularity : ℕ
  latency : ℕ
  idleLoadBalancing : Bool

structure State (G C P : Type*) where
  kernel : G → Kernel.Task C
  /-- The channel that a task is associated with. -/
  channel : G → C
  queue : C → List (Message G C)
  heap : P → CfsTask G C
  mem : P → Mem
  /-- The map of the allocator. -/
  alloc : G → Option P
  cpus : C → CpuState G P
  agents : C → Agent G P
  crashed : Bool
  usedFreed : Bool

variable {G C P : Type*}

namespace State

/-- A `CHECK`. -/
def check (s : State G C P) (b : Bool) : State G C P :=
  { s with crashed := s.crashed || !b }

/-- Reads through pointers. -/
def touch (s : State G C P) (ps : List P) : State G C P :=
  { s with usedFreed := s.usedFreed || ps.any fun p => s.mem p != .live }

def setCpu [DecidableEq C] (s : State G C P) (c : C) (cs : CpuState G P) : State G C P :=
  { s with cpus := update s.cpus c cs }

def setAgent [DecidableEq C] (s : State G C P) (c : C) (a : Agent G P) : State G C P :=
  { s with agents := update s.agents c a }

def setCurrent [DecidableEq C] (s : State G C P) (c : C) (p : Option P) : State G C P :=
  s.setCpu c { s.cpus c with current := p }

def setTask [DecidableEq P] (s : State G C P) (p : P) (t : CfsTask G C) : State G C P :=
  { s with heap := update s.heap p t }

/-- A write through a pointer. -/
def modify [DecidableEq P] (s : State G C P) (p : P) (f : CfsTask G C → CfsTask G C) :
    State G C P :=
  (s.touch [p]).setTask p (f (s.heap p))

/-- `SetState`, as in a debug build. -/
def setState [DecidableEq P] (s : State G C P) (p : P) (state : RunState) : State G C P :=
  (s.check (state.from.contains (s.heap p).state)).modify p fun t => { t with state := state }

/-- `SetOnRq`, as in a debug build. -/
def setOnRq [DecidableEq P] (s : State G C P) (p : P) (onRq : OnRq) : State G C P :=
  (s.check (onRq.from.contains (s.heap p).onRq)).modify p fun t => { t with onRq := onRq }

end State

/-! ## The allocator -/

section Allocator

variable [DecidableEq G] [DecidableEq P]

/-- `GetTask` for a thread that the allocator does not know. -/
def allocTask (s : State G C P) (g : G) (c : C) (p : P) : State G C P :=
  { s with
    heap := update s.heap p ⟨g, 0, .blocked, .dequeued, c, fun _ => false, 0, 0, 0⟩
    mem := update s.mem p .live
    alloc := update s.alloc g (some p) }

def freeTask (s : State G C P) (p : P) : State G C P :=
  { s.touch [p] with
    mem := update s.mem p .freed
    alloc := update s.alloc (s.heap p).gtid none }

end Allocator

/-! ## The migration queue -/

section Mq

variable [DecidableEq G] [DecidableEq C]

/-- The map `mq_` without the entry of a thread. -/
def Mq.erase (g : G) (mq : List (G × P)) : List (G × P) := mq.filter fun e => e.1 ≠ g

def Mq.enqueueTask (s : State G C P) (c : C) (p : P) : State G C P :=
  (s.touch [p]).setCpu c
    { s.cpus c with mq := ((s.heap p).gtid, p) :: Mq.erase (s.heap p).gtid (s.cpus c).mq }

def Mq.dequeueTask (s : State G C P) (c : C) (p : P) : State G C P :=
  (s.touch [p]).setCpu c { s.cpus c with mq := Mq.erase (s.heap p).gtid (s.cpus c).mq }

end Mq

/-! ## The runqueue -/

section Rq

variable [DecidableEq C] [LinearOrder P]

/-- `CfsTask::Less`. -/
def Less (heap : P → CfsTask G C) (a b : P) : Prop :=
  (heap a).vruntime < (heap b).vruntime ∨ (heap a).vruntime = (heap b).vruntime ∧ a < b

instance (heap : P → CfsTask G C) (a b : P) : Decidable (Less heap a b) :=
  inferInstanceAs (Decidable (_ ∨ _))

/-- `insert` of the set `rq_`. -/
def Rq.insert (heap : P → CfsTask G C) (p : P) (rq : List P) : List P :=
  if p ∈ rq then rq else rq.orderedInsert (Less heap) p

/-- The new `rq_` and its size are stored. -/
def Rq.store (s : State G C P) (c : C) (rq : List P) : State G C P :=
  s.setCpu c { s.cpus c with rq := rq, rqSize := rq.length }

/-- The vruntime of the leftmost task. -/
def Rq.leftmost (s : State G C P) (c : C) : Option ℕ :=
  (s.cpus c).rq.head?.map fun p => (s.heap p).vruntime

def Rq.setMinVruntime (s : State G C P) (c : C) (v : ℕ) : State G C P :=
  s.setCpu c { s.cpus c with minVruntime := v }

def Rq.insertTaskIntoRq (s : State G C P) (c : C) (p : P) : State G C P :=
  let s := (s.setOnRq p .queued).touch (s.cpus c).rq
  let s := Rq.store s c (Rq.insert s.heap p (s.cpus c).rq)
  Rq.setMinVruntime s c ((Rq.leftmost s c).getD 0)

def Rq.enqueueTask (s : State G C P) (c : C) (p : P) : State G C P :=
  Rq.insertTaskIntoRq
    (s.modify p fun t => { t with vruntime := max (s.cpus c).minVruntime t.vruntime }) c p

def Rq.putPrevTask (s : State G C P) (c : C) (p : P) : State G C P :=
  Rq.insertTaskIntoRq s c p

def Rq.dequeueTask (s : State G C P) (c : C) (p : P) : State G C P :=
  let s := s.touch (p :: (s.cpus c).rq)
  if p ∈ (s.cpus c).rq then Rq.store (s.setOnRq p .dequeued) c ((s.cpus c).rq.erase p) else s

/-- The current task, if its vruntime is in contention. -/
def Rq.contender (s : State G C P) (c : C) : Option P :=
  (s.cpus c).current.filter fun p => (s.heap p).state = .runnable ∨ (s.heap p).state = .running

/-- The least vruntime of the current task and the leftmost one, or the minimum as it is
if there are none. -/
def Rq.leastVruntime (s : State G C P) (c : C) : ℕ :=
  match Rq.contender s c, Rq.leftmost s c with
  | none, none => (s.cpus c).minVruntime
  | some p, none => (s.heap p).vruntime
  | none, some v => v
  | some p, some v => min (s.heap p).vruntime v

def Rq.updateMinVruntime (s : State G C P) (c : C) : State G C P :=
  Rq.setMinVruntime (s.touch ((s.cpus c).rq.head?.toList ++ (s.cpus c).current.toList)) c
    (max (s.cpus c).minVruntime (Rq.leastVruntime s c))

/-- The length of time that a task runs before it is preempted. -/
def Rq.minPreemptionGranularity (cfg : Config C) (rq : List P) : ℕ :=
  let tasks := rq.length + 1
  if cfg.latency < tasks * cfg.minGranularity then cfg.minGranularity
  else (cfg.latency + (tasks - 1)) / tasks

variable [DecidableEq G]

/-- What becomes of the task that was picked before; `PickNextTask` and `CfsSchedule`
have the same switch. -/
def Rq.reconcile (s : State G C P) (c : C) (prev : P) : State G C P :=
  match (s.heap prev).state with
  | .blocked => s.touch [prev]
  | .done => freeTask (Rq.dequeueTask (s.touch [prev]) c prev) prev
  | .runnable => Rq.putPrevTask (s.touch [prev]) c prev
  | .running => (Rq.putPrevTask (s.touch [prev]) c prev).setState prev .runnable

/-- The leftmost task is picked. -/
def Rq.takeLeftmost (s : State G C P) (c : C) (runtime : UInt64) : State G C P × Option P :=
  match (s.cpus c).rq with
  | [] => (Rq.updateMinVruntime s c, none)
  | p :: _ =>
    let s := (Rq.dequeueTask s c p).setState p .running
    let s := s.modify p fun t => { t with runtimeAtFirstPick := runtime }
    (Rq.updateMinVruntime s c, some p)

def Rq.pickNextTask (s : State G C P) (c : C) (prev : Option P) (runtime : UInt64) :
    State G C P × Option P :=
  let s := s.touch prev.toList
  if prev.any fun p => (s.heap p).state = .running ∧ (s.cpus c).preemptCurr = false then (s, prev)
  else
    let s := s.setCpu c { s.cpus c with preemptCurr := false }
    match prev with
    | none => Rq.takeLeftmost s c runtime
    | some p => Rq.takeLeftmost (Rq.reconcile s c p) c runtime

end Rq

/-! ## Messages -/

/-- What a handler gets from outside: the memory for a new task, `SchedGetAffinity`, the
nice value of the payload, and the runtime in the status word of the current task. -/
structure Input (C P : Type*) where
  memory : P
  affinity : Option (C → Bool)
  nice : ℤ
  runtime : UInt64

section Messages

variable [DecidableEq G] [DecidableEq C] [LinearOrder P]

def startMigrateTask (s : State G C P) (p : P) : State G C P :=
  let c := (s.heap p).cpu
  Mq.enqueueTask ((Rq.dequeueTask s c p).setOnRq p .migrating) c p

/-- `CfsScheduler::PutPrevTask`; `c` is the cpu of the agent. -/
def putPrevTask (s : State G C P) (c : C) (p : P) : State G C P :=
  let s := if (s.cpus c).current = some p then s.setCurrent c none else s
  let s := s.setState p .runnable
  if (s.heap p).cpuAffinity (s.heap p).cpu = false then startMigrateTask s p
  else Rq.putPrevTask s c p

/-- The affinity of a task; all cpus if it cannot be read. -/
def readAffinity (cfg : Config C) (input : Input C P) : C → Bool :=
  input.affinity.getD fun c => cfg.cpus.contains c

/-- The checks of a nice value. -/
def niceOk (nice : ℤ) : Bool := kMinNice ≤ nice ∧ nice ≤ kMaxNice

def taskNew (cfg : Config C) (s : State G C P) (c : C) (p : P) (input : Input C P) (seqnum : ℕ)
    (runnable : Bool) : State G C P :=
  let s := s.modify p fun t =>
    { t with cpu := c, cpuAffinity := readAffinity cfg input, seqnum := seqnum }
  let s := (s.check (niceOk input.nice)).modify p fun t =>
    { t with inverseWeight := inverseWeightOf input.nice }
  if runnable then
    Mq.enqueueTask ((s.setState p .runnable).setOnRq p .migrating) (s.heap p).cpu p
  else s

def taskRunnable (s : State G C P) (p : P) : State G C P :=
  let c := (s.heap p).cpu
  let s := if (s.cpus c).current = some p then s.setCurrent c none else s
  Mq.enqueueTask ((s.setState p .runnable).setOnRq p .migrating) c p

def handleTaskDone (s : State G C P) (p : P) (fromSwitchto : Bool) : State G C P :=
  let c := (s.heap p).cpu
  let prev := (s.heap p).state
  let s := (Mq.dequeueTask s c p).setState p .done
  if prev = .running ∨ fromSwitchto ∨ prev = .runnable ∨ prev = .blocked then
    if (s.cpus c).current = some p then s
    else Rq.updateMinVruntime (freeTask (Rq.dequeueTask s c p) p) c
  else s

def taskDeparted (s : State G C P) (p : P) (current : Option (C × Bool)) : State G C P :=
  handleTaskDone s p (current.any Prod.snd)

def taskDead (s : State G C P) (p : P) : State G C P := handleTaskDone s p false

/-- `TaskYield` and `TaskPreempted` are the same; `cpu` is the cpu of the payload. -/
def putBack (s : State G C P) (c : C) (p : P) (cpu : C) (fromSwitchto : Bool) : State G C P :=
  let s := s.check (fromSwitchto || (s.cpus c).current == some p)
  let s := s.check ((s.heap p).onRq = .dequeued)
  (putPrevTask s c p).check (cpu = c || fromSwitchto)

def taskYield (s : State G C P) (c : C) (p : P) (cpu : C) (fromSwitchto : Bool) : State G C P :=
  putBack s c p cpu fromSwitchto

def taskPreempted (s : State G C P) (c : C) (p : P) (cpu : C) (fromSwitchto : Bool) : State G C P :=
  putBack s c p cpu fromSwitchto

def taskBlocked (s : State G C P) (c : C) (p : P) (cpu : C) (fromSwitchto : Bool) : State G C P :=
  let s := s.check (fromSwitchto || (s.cpus c).current == some p)
  let s := if (s.cpus c).current = some p then s.setCurrent c none else s
  let s := s.setState p .blocked
  (s.check ((s.heap p).onRq = .dequeued)).check (cpu = c || fromSwitchto)

def taskSwitchto (s : State G C P) (p : P) : State G C P :=
  let c := (s.heap p).cpu
  let s := (s.check ((s.cpus c).current == some p)).setState p .blocked
  (s.check ((s.heap p).onRq = .dequeued)).setCurrent c none

def taskAffinityChanged (cfg : Config C) (s : State G C P) (p : P) (input : Input C P) :
    State G C P :=
  let s := s.modify p fun t => { t with cpuAffinity := readAffinity cfg input }
  if (s.heap p).cpuAffinity (s.heap p).cpu = true then s
  else if (s.heap p).state = .runnable ∧ (s.heap p).onRq ≠ .migrating then startMigrateTask s p
  else s

def taskPriorityChanged (s : State G C P) (p : P) (input : Input C P) : State G C P :=
  (s.check (niceOk input.nice)).modify p fun t =>
    { t with inverseWeight := inverseWeightOf input.nice }

/-- `CpuTick` and `CheckPreemptTick`. -/
def cpuTick (cfg : Config C) (s : State G C P) (c : C) (input : Input C P) : State G C P :=
  match (s.cpus c).current with
  | none => s
  | some p =>
    let s := s.touch [p]
    if Rq.minPreemptionGranularity cfg (s.cpus c).rq <
        (input.runtime - (s.heap p).runtimeAtFirstPick).toNat then
      s.setCpu c { s.cpus c with preemptCurr := true }
    else s

/-- `Task::Advance`. -/
def advance (s : State G C P) (p : P) (seqnum : ℕ) : State G C P :=
  (s.check ((s.heap p).seqnum < seqnum)).modify p fun t => { t with seqnum := seqnum }

/-- The handler of a message about a known task. -/
def handleMessage (cfg : Config C) (s : State G C P) (c : C) (p : P) (input : Input C P)
    (seqnum : ℕ) : Msg C Unit → State G C P
  | .new _ _ => s
  | .preempt cpu sw => advance (taskPreempted s c p cpu sw) p seqnum
  | .dead => taskDead s p
  | .wakeup => advance (taskRunnable s p) p seqnum
  | .blocked cpu sw => advance (taskBlocked s c p cpu sw) p seqnum
  | .yield cpu sw => advance (taskYield s c p cpu sw) p seqnum
  | .departed current => taskDeparted s p current
  | .switchto _ => advance (taskSwitchto s p) p seqnum
  | .affinityChanged => advance (taskAffinityChanged cfg s p input) p seqnum
  | .prioChanged => advance (taskPriorityChanged s p input) p seqnum
  | .onCpu _ => advance s p seqnum

def dispatchMessage (cfg : Config C) (s : State G C P) (c : C) (input : Input C P) :
    Message G C → State G C P
  | .cpuTick => cpuTick cfg s c input
  | .task g seqnum msg =>
    match s.alloc g, msg with
    | none, .new _ runnable =>
      taskNew cfg (allocTask s g c input.memory) c input.memory input seqnum runnable
    -- a message about a task that the allocator does not know
    | none, _ => s
    -- a new task is ignored if the allocator has a task for the thread
    | some p, msg => handleMessage cfg s c p input seqnum msg

end Messages

/-! ## Migration -/

section Migration

variable [DecidableEq G] [DecidableEq C] [LinearOrder P]

/-- The loop of `SelectTaskRq` over the cpus that it looks at, with the loads it reads. -/
def selectLoop (eligible : C → Bool) : List (C × UInt64) → UInt64 → C → C
  | [], _, minCpu => minCpu
  | (cpu, load) :: rest, minLoad, minCpu =>
    if eligible cpu then
      if load = 0 then cpu
      else if load ≤ minLoad then selectLoop eligible rest load cpu
      else selectLoop eligible rest minLoad minCpu
    else selectLoop eligible rest minLoad minCpu

/-- `SelectTaskRq`: this cpu, the previous one, its siblings, and then every cpu. The
`i`-th load that it reads is `load i`. -/
def selectTaskRq (cfg : Config C) (c : C) (t : CfsTask G C) (load : ℕ → UInt64) : C :=
  let visited := c :: t.cpu :: ((cfg.l3Siblings t.cpu).filter cfg.cpus.contains ++ cfg.cpus)
  selectLoop (fun cpu => cfg.cpus.contains cpu && t.cpuAffinity cpu)
    (visited.zipIdx.map fun v => (v.1, load v.2)) (-1) c

/-- `AssociateTask`. It fails if the sequence number is not the barrier of the thread,
and it may fail otherwise. -/
def associateTask (s : State G C P) (g : G) (dst : C) (seqnum : ℕ) (ok : Bool) :
    Option (State G C P) :=
  if ok ∧ (s.kernel g).barrier = seqnum then
    some { s with channel := update s.channel g dst }
  else none

/-- `Migrate`, with the entry of the migration queue removed if it succeeds. -/
def migrate (s : State G C P) (c : C) (p : P) (dst : C) (ok : Bool) : State G C P :=
  let g := (s.heap p).gtid
  let enqueue := fun s : State G C P =>
    Mq.dequeueTask (if (s.heap p).state = .runnable then Rq.enqueueTask s dst p else s) c p
  if (s.heap p).cpu = dst then enqueue s
  else
    match associateTask s g dst (s.heap p).seqnum ok with
    | none => s
    | some s => enqueue (s.modify p fun t => { t with cpu := dst })

/-- One task of `MigrateTasks`. -/
def migrateTask (cfg : Config C) (s : State G C P) (c : C) (p : P) (load : ℕ → UInt64)
    (ok : Bool) : State G C P :=
  migrate (s.check ((s.heap p).onRq = .migrating)) c p (selectTaskRq cfg c (s.heap p) load) ok

end Migration

/-! ## Load balancing -/

section Balance

variable [DecidableEq G] [DecidableEq C] [LinearOrder P]

def kMaxTasksToLoadBalance : ℕ := 32

/-- What `LoadBalance` reads without a lock: its own size for `ShouldWeBalance`, the sizes for
`FindBusiestQueue`, the sizes of the source and of its own runqueue for `CalculateImbalance`,
and which tasks the kernel lets it associate. -/
structure Sizes (C P : Type*) where
  own : ℕ
  nrRunnable : C → ℕ
  src : ℕ
  dst : ℕ
  ok : P → Bool

/-- `FindBusiestQueue`. -/
def findBusiestQueue (cfg : Config C) (nrRunnable : C → ℕ) : C :=
  (cfg.cpus.foldl (fun best cpu => if nrRunnable cpu ≤ best.1 then best else (nrRunnable cpu, cpu))
    (0, cfg.cpu0)).2

def calculateImbalance (src dst : ℕ) : ℕ :=
  if 2 ≤ src - dst then min kMaxTasksToLoadBalance ((src - dst) / 2) else 0

/-- `CanMigrateTask`, with the association if there is one. -/
def canMigrateTask (s : State G C P) (p : P) (dst : C) (ok : P → Bool) : Option (State G C P) :=
  if (s.heap p).cpuAffinity dst then associateTask s (s.heap p).gtid dst (s.heap p).seqnum (ok p)
  else none

/-- A task that may migrate leaves the runqueue. -/
def detachTask (s : State G C P) (src dst : C) (p : P) : State G C P :=
  let s := (s.modify p fun t => { t with cpu := dst }).setOnRq p .dequeued
  Rq.store s src ((s.cpus src).rq.erase p)

/-- The loop of `DetachTasks` over the runqueue, for at most `n` tasks. -/
def detachTasks (src dst : C) (ok : P → Bool) : List P → ℕ → State G C P → State G C P × List P
  | [], _, s => (s, [])
  | p :: ps, n, s =>
    if (s.cpus src).rq.length ≤ 1 ∨ n = 0 then (s, [])
    else
      let s := s.touch [p]
      match canMigrateTask s p dst ok with
      | some s =>
        let r := detachTasks src dst ok ps (n - 1) (detachTask s src dst p)
        (r.1, p :: r.2)
      | none => detachTasks src dst ok ps n s

def attachTasks (s : State G C P) (c : C) (ps : List P) : State G C P :=
  ps.foldl (fun s p => Rq.enqueueTask s c p) s

/-- `CfsSchedule` has its next task. -/
def setNext (s : State G C P) (c : C) : Option P → State G C P
  | none => (s.setCurrent c none).setAgent c .asleep
  | some p => ((s.touch [p]).setCurrent c (some p)).setAgent c (.opened p)

/-- `LoadBalance` up to `DetachTasks`, for a cpu that is newly idle. -/
def loadBalance (cfg : Config C) (s : State G C P) (c : C) (sizes : Sizes C P) : State G C P :=
  let src := findBusiestQueue cfg sizes.nrRunnable
  let n := calculateImbalance sizes.src sizes.dst
  if sizes.own = 0 ∧ src ≠ c ∧ n ≠ 0 then
    match detachTasks src c sizes.ok (s.cpus src).rq n s with
    | (s, []) => setNext s c none
    | (s, ps) => s.setAgent c (.attach ps)
  else setNext s c none

end Balance

/-! ## Steps -/

inductive Action (G C P : Type*) where
  /-- An event of a thread. -/
  | kernel (gtid : G) (event : Event G Unit)
  /-- The kernel sends a `CPU_TICK`. -/
  | tick (cpu : C)
  /-- The agent gets its cpu. The task that ran there ran for a time. -/
  | wake (cpu : C) (runtime : UInt64)
  /-- The agent handles the first message of its channel. -/
  | dispatch (cpu : C) (input : Input C P)
  /-- The channel is empty. -/
  | drained (cpu : C)
  /-- `Migrate` of one task. -/
  | migrate (cpu : C) (gtid : G) (load : ℕ → UInt64) (ok : Bool)
  /-- `CfsSchedule` of an agent whose priority is boosted. -/
  | boosted (cpu : C)
  /-- `PickNextTask`; the runtime is the one of the task that is picked. -/
  | pick (cpu : C) (runtime : UInt64)
  | detach (cpu : C) (sizes : Sizes C P)
  | attach (cpu : C)
  | repick (cpu : C) (runtime : UInt64)
  | commit (cpu : C) (ok : Bool)

section Step

variable [DecidableEq G] [DecidableEq C]

/-- A new task is associated with the default channel. -/
def channelFor (cfg : Config C) (channel : G → C) (g : G) : Msg C Unit → G → C
  | .new _ _ => update channel g cfg.defaultCpu
  | _ => channel

/-- An event of a thread; its message goes to its channel. -/
def kernelStep (cfg : Config C) (s : State G C P) (g : G) (e : Event G Unit) :
    Option (State G C P) :=
  match Kernel.step false s.kernel g e with
  | none => none
  | some (k, none) => some { s with kernel := k }
  | some (k, some msg) =>
    let channel := channelFor cfg s.channel g msg
    some { s with
      kernel := k
      channel := channel
      queue := update s.queue (channel g) (s.queue (channel g) ++ [.task g (k g).barrier msg]) }

/-- The agent takes the cpu from the task that runs there. There is no message for it. -/
def takeCpu (k : G → Kernel.Task C) (c : C) (g : G) : Kernel.Task C :=
  if (k g).phase = .running c false then { k g with phase := .runnable } else k g

variable [LinearOrder P]

/-- `Commit` has returned, and the task is charged for its runtime. -/
def charge (s : State G C P) (p : P) (runtime : UInt64) : State G C P :=
  s.modify p fun t =>
    { t with vruntime := t.vruntime + t.inverseWeight * runtime.toNat / 2 ^ 22 % 2 ^ 64 }

def wake (cfg : Config C) (s : State G C P) (c : C) (runtime : UInt64) : Option (State G C P) :=
  let s' := { s with kernel := takeCpu s.kernel c }.setAgent c .drain
  match s.agents c with
  | .asleep => if c ∈ cfg.cpus then some s' else none
  | .committed p => some (charge s' p runtime)
  | _ => none

def dispatch (cfg : Config C) (s : State G C P) (c : C) (input : Input C P) :
    Option (State G C P) :=
  match s.agents c, s.queue c with
  | .drain, msg :: rest =>
    if s.mem input.memory = .unused ∧ niceOk input.nice then
      some (dispatchMessage cfg { s with queue := update s.queue c rest } c input msg)
    else none
  | _, _ => none

/-- `CfsSchedule` with `prio_boost`. -/
def boosted (s : State G C P) (c : C) : State G C P :=
  match (s.cpus c).current with
  | none => s.setAgent c .asleep
  | some prev =>
    let s := Rq.reconcile s c prev
    let s := s.setCpu c { s.cpus c with preemptCurr := false, current := none }
    (Rq.updateMinVruntime s c).setAgent c .asleep

/-- `CfsSchedule` up to the end of `PickNextTask`. -/
def pick (cfg : Config C) (s : State G C P) (c : C) (runtime : UInt64) : State G C P :=
  match Rq.pickNextTask s c (s.cpus c).current runtime with
  | (s, none) => if cfg.idleLoadBalancing then s.setAgent c .balance else setNext s c none
  | (s, some p) => setNext s c (some p)

def repick (s : State G C P) (c : C) (runtime : UInt64) : State G C P :=
  let r := Rq.pickNextTask s c none runtime
  setNext r.1 c r.2

/-- `Commit` of the open transaction. -/
def commit (s : State G C P) (c : C) (p : P) (ok : Bool) : Option (State G C P) :=
  let s := s.touch [p]
  if ok then
    (latch s.kernel (s.heap p).gtid c (s.heap p).seqnum).map fun k =>
      { s with kernel := k }.setAgent c (.committed p)
  else some (s.setAgent c .drain)

/-- What an action does. -/
def act (cfg : Config C) (s : State G C P) : Action G C P → Option (State G C P)
  | .kernel g e => kernelStep cfg s g e
  | .tick c => some { s with queue := update s.queue c (s.queue c ++ [.cpuTick]) }
  | .wake c runtime => wake cfg s c runtime
  | .dispatch c input => dispatch cfg s c input
  | .drained c =>
    match s.agents c, s.queue c with
    | .drain, [] => some (s.setAgent c (.migrate ((s.cpus c).mq.map Prod.fst)))
    | _, _ => none
  | .migrate c g load ok =>
    match s.agents c, (s.cpus c).mq.find? fun e => e.1 = g with
    | .migrate todo, some (_, p) =>
      -- the lock of the runqueue that the task goes to
      if g ∈ todo ∧ s.agents (selectTaskRq cfg c (s.heap p) load) ≠ .drain then
        some ((migrateTask cfg s c p load ok).setAgent c (.migrate (todo.erase g)))
      else none
    | _, _ => none
  | .boosted c => if s.agents c = .migrate [] then some (boosted s c) else none
  | .pick c runtime => if s.agents c = .migrate [] then some (pick cfg s c runtime) else none
  | .detach c sizes =>
    -- the lock of the runqueue that the tasks come from
    if s.agents c = .balance ∧ s.agents (findBusiestQueue cfg sizes.nrRunnable) ≠ .drain then
      some (loadBalance cfg s c sizes)
    else none
  | .attach c =>
    match s.agents c with
    | .attach ps => some ((attachTasks s c ps).setAgent c .repick)
    | _ => none
  | .repick c runtime => if s.agents c = .repick then some (repick s c runtime) else none
  | .commit c ok =>
    match s.agents c with
    | .opened p => commit s c p ok
    | _ => none

/-- One step. Nothing happens after a failed check. -/
def step (cfg : Config C) (s : State G C P) (a : Action G C P) : Option (State G C P) :=
  if s.crashed then none else act cfg s a

end Step

/-- At the start, no thread is in ghost and every agent waits. -/
structure Init (s : State G C P) : Prop where
  absent : ∀ g, (s.kernel g).phase = .absent
  queue : ∀ c, s.queue c = []
  mem : ∀ p, s.mem p = .unused
  alloc : ∀ g, s.alloc g = none
  cpus : ∀ c, s.cpus c = ⟨none, false, [], 0, 0, []⟩
  agents : ∀ c, s.agents c = .asleep
  crashed : s.crashed = false
  usedFreed : s.usedFreed = false

/-! ## One runqueue -/

/-- An operation on a runqueue. -/
inductive RqOp (C P : Type*) where
  | enqueueTask (p : P)
  | putPrevTask (p : P)
  /-- With the current task as the previous one. -/
  | pickNextTask (runtime : UInt64)
  /-- Without a previous task. -/
  | pickFirstTask (runtime : UInt64)
  | dequeueTask (p : P)
  | attachTasks (ps : List P)
  | detachTasks (dst : C) (n : ℕ) (ok : P → Bool)
  | updateMinVruntime
  /-- The current task ran. -/
  | charge (runtime : UInt64)

section Ops

variable [DecidableEq G] [DecidableEq C] [LinearOrder P]

/-- The task that is picked becomes the current one. -/
def Rq.pickAs (s : State G C P) (c : C) (prev : Option P) (runtime : UInt64) : State G C P :=
  (Rq.pickNextTask s c prev runtime).1.setCurrent c (Rq.pickNextTask s c prev runtime).2

/-- One operation on the runqueue of a cpu. A task that goes on the runqueue is not there
yet, and it is not the current one any more. -/
def rqStep (c : C) (s : State G C P) : RqOp C P → Option (State G C P)
  | .enqueueTask p =>
    if p ∉ (s.cpus c).rq ∧ (s.cpus c).current ≠ some p then some (Rq.enqueueTask s c p) else none
  | .putPrevTask p =>
    if p ∉ (s.cpus c).rq then
      some (Rq.putPrevTask (if (s.cpus c).current = some p then s.setCurrent c none else s) c p)
    else none
  | .pickNextTask runtime => some (Rq.pickAs s c (s.cpus c).current runtime)
  | .pickFirstTask runtime => some (Rq.pickAs s c none runtime)
  | .dequeueTask p => some (Rq.dequeueTask s c p)
  | .attachTasks ps =>
    if ps.Nodup ∧ ∀ p ∈ ps, p ∉ (s.cpus c).rq ∧ (s.cpus c).current ≠ some p then
      some (Cfs.attachTasks s c ps)
    else none
  | .detachTasks dst n ok => some (Cfs.detachTasks c dst ok (s.cpus c).rq n s).1
  | .updateMinVruntime => some (Rq.updateMinVruntime s c)
  | .charge runtime => (s.cpus c).current.map fun p => Cfs.charge s p runtime

end Ops

end Cfs
