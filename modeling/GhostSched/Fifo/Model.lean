import GhostSched.Central
import GhostSched.Lib.Transition
import Mathlib.Algebra.Group.Nat.Defs
import Mathlib.Data.Int.Notation

/-!
# The centralized FIFO scheduler

One agent on the global cpu schedules all other cpus. It drains its channel and
then makes a pass over the cpus that are available: each gets the first task of
the run queue that is ready, and the task that was there goes back to the queue
before the transaction is committed.

* `FifoTask` and `State` are the data of the scheduler. A task is identified with
  its thread, so the map of the allocator is `tasks`.
* `crashed` records that a `CHECK` failed or that there was no task behind a
  pointer. The one of `Task::Advance`, which is not of this scheduler and compares
  32-bit numbers, is recorded in `misordered`.
* `step` interleaves the kernel, as in `Central`, with the agent. The agent takes
  one step for each message, and in a pass one for each task it takes from the
  run queue and one for each transaction.

What the clock and the kernel answer are inputs of the steps: which cpus are
available, on which ones the time slice is over, whether a thread is still on its
old cpu, and which transactions succeed. Messages about cpus, which this
scheduler does not ask for, are left out.
-/

namespace Fifo

open Kernel Function

/-- `FifoTask::RunState`. -/
inductive RunState where
  | blocked
  | queued
  | runnable
  | onCpu
  | yielding
  deriving DecidableEq

structure FifoTask (C : Type*) where
  seqnum : ℕ
  runState : RunState
  cpu : Option C
  /-- Whether the last execution was preempted or not. -/
  preempted : Bool
  prioBoost : Bool

/-- Where the agent is. -/
inductive Mode (C : Type*) where
  /-- It drains its channel. -/
  | drain
  /-- It picks tasks, with the cpus that still have to get one and those that have one. -/
  | pick (available assigned : List C)
  /-- It looks at the transactions of these cpus. -/
  | commit (assigned : List C)
  deriving DecidableEq

structure Config (C : Type*) where
  /-- The cpus of the enclave, in the order of their numbers. -/
  cpus : List C
  nodup : cpus.Nodup
  globalCpu : C
  global_mem : globalCpu ∈ cpus

structure State (G C : Type*) where
  world : Central.World G C Unit
  tasks : G → Option (FifoTask C)
  current : C → Option G
  runQueue : List G
  yieldingTasks : List G
  numTasks : ℤ
  mode : Mode C
  crashed : Bool
  misordered : Bool

variable {G C : Type*}

namespace State

/-- A `CHECK`. -/
def check (s : State G C) (b : Bool) : State G C :=
  { s with crashed := s.crashed || !b }

variable [DecidableEq G]

def setTask (s : State G C) (g : G) (t : FifoTask C) : State G C :=
  { s with tasks := update s.tasks g (some t) }

/-- Use a task through a pointer. -/
def withTask (s : State G C) (g : G) (f : FifoTask C → State G C) : State G C :=
  match s.tasks g with
  | some t => f t
  | none => s.check false

def setRunState (s : State G C) (g : G) (r : RunState) : State G C :=
  s.withTask g fun t => s.setTask g { t with runState := r }

end State

/-- The run queue with one more task. -/
def FifoTask.push (t : FifoTask C) (g : G) (queue : List G) : List G :=
  if t.prioBoost || t.preempted then g :: queue else queue ++ [g]

section Queues

variable [DecidableEq G]

def enqueue (s : State G C) (g : G) : State G C :=
  s.withTask g fun t =>
    let s := (s.check (t.runState = .runnable)).setTask g { t with runState := .queued }
    { s with runQueue := t.push g s.runQueue }

def dequeue (s : State G C) : State G C × Option G :=
  match s.runQueue with
  | [] => (s, none)
  | g :: rest =>
    (s.withTask g fun t =>
      { (s.check (t.runState = .queued)).setTask g { t with runState := .runnable } with
        runQueue := rest }, some g)

/-- The search for the task starts at the back. -/
def removeFromRunqueue (s : State G C) (g : G) : State G C :=
  s.withTask g fun t =>
    let s := s.check (t.runState = .queued)
    if g ∈ s.runQueue then
      { s.setTask g { t with runState := .runnable } with
        runQueue := (s.runQueue.reverse.erase g).reverse }
    else s.check false

def yield (s : State G C) (g : G) : State G C :=
  s.withTask g fun t =>
    let s := s.check (t.runState = .onCpu || t.runState = .runnable)
    { s.setTask g { t with runState := .yielding } with
      yieldingTasks := s.yieldingTasks ++ [g] }

def unyield (s : State G C) (g : G) : State G C :=
  s.withTask g fun t =>
    let s := (s.check (t.runState = .yielding)).check (s.yieldingTasks.contains g)
    let s := { s with yieldingTasks := s.yieldingTasks.erase g }
    enqueue (s.setTask g { t with runState := .runnable }) g

end Queues

/-! ## Messages -/

section Messages

variable [DecidableEq G] [DecidableEq C]

/-- `cpu_state_of`, and the cpu has no current task any more. -/
def clearCurrent (s : State G C) (g : G) (t : FifoTask C) : State G C :=
  match t.cpu with
  | none => s.check false
  | some c =>
    let s := (s.check (t.runState = .onCpu)).check (s.current c = some g)
    { s with current := update s.current c none }

def taskNew (s : State G C) (g : G) (seqnum : ℕ) (runnable : Bool) : State G C :=
  let s := s.setTask g ⟨seqnum, .blocked, none, false, false⟩
  let s := if runnable then enqueue (s.setRunState g .runnable) g else s
  { s with numTasks := s.numTasks + 1 }

def taskRunnable (s : State G C) (g : G) (deferrable : Bool) : State G C :=
  s.withTask g fun t =>
    let s := s.check (t.runState = .blocked)
    enqueue (s.setTask g { t with runState := .runnable, prioBoost := !deferrable }) g

/-- `FreeTask` and the count of the tasks. -/
def freeTask (s : State G C) (g : G) : State G C :=
  { s with tasks := update s.tasks g none, numTasks := s.numTasks - 1 }

/-- The part of `TaskDeparted` after `Unyield`. -/
def forgetTask (s : State G C) (g : G) : State G C :=
  let s := s.withTask g fun t =>
    if t.runState = .onCpu then clearCurrent s g t
    else if t.runState = .queued then removeFromRunqueue s g
    else s.check (t.runState = .blocked)
  freeTask s g

def taskDeparted (s : State G C) (g : G) : State G C :=
  s.withTask g fun t => forgetTask (if t.runState = .yielding then unyield s g else s) g

def taskDead (s : State G C) (g : G) : State G C :=
  s.withTask g fun t => freeTask (s.check (t.runState = .blocked)) g

def taskBlocked (s : State G C) (g : G) : State G C :=
  s.withTask g fun t =>
    let s :=
      if t.runState = .onCpu then clearCurrent s g t
      else removeFromRunqueue (s.check (t.runState = .queued)) g
    s.setRunState g .blocked

def taskPreempted (s : State G C) (g : G) : State G C :=
  s.withTask g fun t =>
    let s := s.setTask g { t with preempted := true }
    if t.runState = .onCpu then
      enqueue ((clearCurrent s g t).setRunState g .runnable) g
    else s.check (t.runState = .queued)

def taskYield (s : State G C) (g : G) : State G C :=
  s.withTask g fun t =>
    if t.runState = .onCpu then yield (clearCurrent s g t) g
    else s.check (t.runState = .queued)

/-- `Task::Advance`. -/
def advance (s : State G C) (g : G) (seqnum : ℕ) : State G C :=
  s.withTask g fun t =>
    { s.setTask g { t with seqnum := seqnum } with
      misordered := s.misordered || !decide (t.seqnum % 2 ^ 32 < seqnum % 2 ^ 32) }

/-- `DispatchMessage`. Messages about a thread without a task, and a `TASK_NEW` about one with a
task, are ignored. -/
def dispatchMessage (s : State G C) (e : Central.Entry G C Unit) (deferrable : Bool) : State G C :=
  match e.msg, s.tasks e.gtid with
  | .new _ runnable, none => taskNew s e.gtid e.seqnum runnable
  | .new _ _, some _ => s
  | _, none => s
  | .dead, some _ => taskDead s e.gtid
  | .departed _, some _ => taskDeparted s e.gtid
  | .wakeup, some _ => advance (taskRunnable s e.gtid deferrable) e.gtid e.seqnum
  | .blocked _ _, some _ => advance (taskBlocked s e.gtid) e.gtid e.seqnum
  | .preempt _ _, some _ => advance (taskPreempted s e.gtid) e.gtid e.seqnum
  | .yield _ _, some _ => advance (taskYield s e.gtid) e.gtid e.seqnum
  | .onCpu _, some _ | .switchto _, some _ | .affinityChanged, some _ | .prioChanged, some _ =>
    advance s e.gtid e.seqnum

end Messages

/-! ## GlobalSchedule -/

section Schedule

variable [DecidableEq G] [DecidableEq C]

/-- The start of a pass: the cpus that are available and on which no task is within its time
slice. -/
def startPass (cfg : Config C) (s : State G C) (avail expired : C → Bool) : State G C :=
  let s := s.check (s.current cfg.globalCpu = none)
  { s with
    mode := .pick (cfg.cpus.filter fun c =>
        c ≠ cfg.globalCpu && avail c && ((s.current c).isNone || expired c)) [] }

/-- One round of the loop over the available cpus, for the task that was dequeued. -/
def pickTask (s : State G C) (c : C) (available assigned : List C) (onCpu : Bool) : State G C :=
  match dequeue s with
  | (s, none) => { s with mode := .commit assigned }
  | (s, some g) =>
    s.withTask g fun t =>
      if onCpu || t.seqnum ≠ s.world.barrier g then yield s g
      else
        let s :=
          match s.current c with
          | some prev => enqueue (s.setRunState prev .runnable) prev
          | none => s
        { s with
          current := update s.current c (some g)
          mode := .pick available (assigned ++ [c]) }

/-- The transaction of a cpu has succeeded: `TaskOnCpu`. -/
def taskOnCpu (s : State G C) (g : G) (c : C) : State G C :=
  s.withTask g fun t =>
    (s.check (s.current c = some g)).setTask g
      { t with runState := .onCpu, cpu := some c, preempted := false, prioBoost := false }

/-- It has failed. -/
def commitFailed (s : State G C) (g : G) (c : C) : State G C :=
  let s := enqueue (s.withTask g fun t => s.setTask g { t with prioBoost := true }) g
  { s with current := update s.current c none }

/-- A yielding task goes back to the run queue. -/
def requeue (s : State G C) (g : G) : State G C :=
  s.withTask g fun t =>
    enqueue ((s.check (t.runState = .yielding)).setTask g { t with runState := .runnable }) g

/-- The end of a pass. -/
def endPass (s : State G C) : State G C :=
  { s.yieldingTasks.foldl requeue s with yieldingTasks := [], mode := .drain }

inductive Action (G C : Type*) where
  | kernel (e : Central.Event G C Unit)
  | dispatch (deferrable : Bool)
  | startPass (avail expired : C → Bool)
  | pick (onCpu : Bool)
  | endPick
  | commit (success : Bool) (lose : G → Bool)
  | endPass

def step (cfg : Config C) (s : State G C) : Action G C → Option (State G C)
  | .kernel e => (s.world.step e).map fun w => { s with world := w }
  | .dispatch deferrable =>
    match s.mode, s.world.queue with
    | .drain, e :: rest =>
      some (dispatchMessage { s with world := { s.world with queue := rest } } e deferrable)
    | _, _ => none
  | .startPass avail expired =>
    match s.mode with
    | .drain => some (startPass cfg s avail expired)
    | _ => none
  | .pick onCpu =>
    match s.mode with
    | .pick (c :: available) assigned => some (pickTask s c available assigned onCpu)
    | _ => none
  | .endPick =>
    match s.mode with
    | .pick [] assigned => some { s with mode := .commit assigned }
    | _ => none
  | .commit success lose =>
    match s.mode with
    | .commit (c :: assigned) =>
      match s.current c with
      | none => some (s.check false)
      | some g =>
        let s' := { s with mode := .commit assigned }
        if success then
          (s.tasks g).bind fun t =>
            (s.world.commit c g t.seqnum lose).map fun w =>
              taskOnCpu { s' with world := w } g c
        else some (commitFailed s' g c)
    | _ => none
  | .endPass =>
    match s.mode with
    | .commit [] => some (endPass s)
    | _ => none

end Schedule

/-- No thread is in ghost yet. -/
structure Init (s : State G C) : Prop where
  kernel : ∀ g, (s.world.kernel g).phase = .absent
  queue : s.world.queue = []
  tasks : ∀ g, s.tasks g = none
  current : ∀ c, s.current c = none
  runQueue : s.runQueue = []
  yieldingTasks : s.yieldingTasks = []
  numTasks : s.numTasks = 0
  mode : s.mode = .drain
  crashed : s.crashed = false
  misordered : s.misordered = false

end Fifo
