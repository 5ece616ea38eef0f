import GhostSched.Kernel
import GhostSched.Lib.Checked
import GhostSched.Lib.Transition
import Mathlib.Data.Int.Notation

/-!
# The SOL scheduler

One agent on the global cpu schedules all other cpus and does not wait for its
transactions. The task that a cpu is to run next is pending until the agent finds
that the transaction is committed: in the next pass, or when a message about the task
comes first.

* `SolTask` and `State` are the data of the scheduler. A task is identified with its
  thread, so the map of the allocator is `tasks`.
* The functions end with a `Fault` where a `CHECK` fails or there is no task behind a
  pointer.
* `step` is one step of the agent, or a transaction that is committed. The agent takes
  one step for each message, and in a pass one for each cpu and one for each task that
  it takes from the run queue.

The messages are arbitrary. What the clock and the status words say are inputs of the
steps: which time slices are over, whether a thread is still on its old cpu, and its
barrier. A transaction may be committed at any time after it was opened.
-/

namespace Sol

open Checked Function

/-- Why the agent stops. -/
inductive Fault where
  /-- A `CHECK` failed. -/
  | check
  /-- The task behind a pointer was freed. -/
  | freed
  deriving DecidableEq

/-- `SolTask::RunState`. -/
inductive RunState where
  | blocked
  | queued
  | runnable
  | onCpu
  | yielding
  | pending
  | preemptedByAgent
  deriving DecidableEq

structure SolTask (C : Type) where
  seqnum : ℕ
  runState : RunState
  cpu : Option C
  /-- Whether the last execution was preempted or not. -/
  preempted : Bool
  prioBoost : Bool

/-- `ghost_txn_state`, as far as `committed` and `succeeded` tell it. -/
inductive TxnState where
  /-- Open or claimed. -/
  | ready
  | committed (succeeded : Bool)
  deriving DecidableEq

/-- The transaction of a cpu. -/
structure RunRequest (G : Type) where
  target : Option G
  targetBarrier : ℕ
  state : TxnState

/-- Where the agent is. -/
inductive Mode (C : Type) where
  /-- It drains its channel. -/
  | drain
  /-- It looks for available cpus among these, with those it has found. -/
  | reap (cpus available : List C)
  /-- It picks tasks for the available cpus. -/
  | pick (available assigned : List C)
  deriving DecidableEq

structure Config (C : Type) where
  /-- The cpus of the enclave, in the order of their numbers. -/
  cpus : List C
  globalCpu : C
  siblings : C → List C

structure State (G C : Type) where
  tasks : G → Option (SolTask C)
  requests : C → RunRequest G
  current : C → Option G
  next : C → Option G
  runQueue : List G
  yieldingTasks : List G
  numTasks : ℤ
  mode : Mode C

variable {G C : Type}

def TxnState.isCommitted : TxnState → Bool
  | .ready => false
  | .committed _ => true

def TxnState.isSucceeded : TxnState → Bool
  | .ready => false
  | .committed succeeded => succeeded

namespace State

def task (s : State G C) (g : G) : Except Fault (SolTask C) :=
  match s.tasks g with
  | some t => .ok t
  | none => .error .freed

def setTask [DecidableEq G] (s : State G C) (g : G) (t : SolTask C) : State G C :=
  { s with tasks := update s.tasks g (some t) }

end State

/-! ## Queues -/

section Queues

variable [DecidableEq G]

def enqueue (s : State G C) (g : G) : Except Fault (State G C) := do
  let t ← s.task g
  check .check (t.runState = .runnable)
  return { s.setTask g { t with runState := .queued } with
    runQueue := if t.prioBoost || t.preempted then g :: s.runQueue else s.runQueue ++ [g] }

/-- The search for the task starts at the back. -/
def removeFromRunqueue (s : State G C) (g : G) : Except Fault (State G C) := do
  let t ← s.task g
  check .check (t.runState = .queued)
  check .check (g ∈ s.runQueue)
  return { s.setTask g { t with runState := .runnable } with
    runQueue := (s.runQueue.reverse.erase g).reverse }

def yield (s : State G C) (g : G) : Except Fault (State G C) := do
  let t ← s.task g
  check .check (t.runState = .onCpu ∨ t.runState = .runnable)
  return { s.setTask g { t with runState := .yielding } with
    yieldingTasks := s.yieldingTasks ++ [g] }

def unyield (s : State G C) (g : G) : Except Fault (State G C) := do
  let t ← s.task g
  check .check (t.runState = .yielding)
  check .check (g ∈ s.yieldingTasks)
  enqueue { s.setTask g { t with runState := .runnable } with
    yieldingTasks := s.yieldingTasks.erase g } g

end Queues

/-! ## Cpus -/

section Cpus

variable [DecidableEq G] [DecidableEq C]

/-- `cpu_state_of`. -/
def cpuStateOf (s : State G C) (g : G) : Except Fault C := do
  let t ← s.task g
  match t.cpu with
  | none => .error .check
  | some c =>
    check .check (t.runState = .onCpu ∨ t.runState = .pending)
    check .check (s.current c = some g ∨ s.next c = some g)
    return c

/-- The cpu of a task that is on one has no current task any more. -/
def clearCurrent (s : State G C) (g : G) : Except Fault (State G C) := do
  let c ← cpuStateOf s g
  check .check (s.current c = some g)
  return { s with current := update s.current c none }

def taskOffCpu (s : State G C) (g : G) (blocked fromSwitchto : Bool) :
    Except Fault (State G C) := do
  let t ← s.task g
  let s ← (
    if t.runState = .onCpu then clearCurrent s g
    else do
      check .check (fromSwitchto = true)
      check .check (t.runState = .blocked)
      return s)
  return s.setTask g { t with runState := if blocked then .blocked else .runnable }

/-- What `SyncCpuState` does with a transaction that succeeded: the task that was current was
preempted by it. -/
def replaceCurrent (s : State G C) (c : C) (next : G) : Except Fault (State G C) := do
  let s ← (
    match s.current c with
    | none => .ok s
    | some g => do
      let t ← s.task g
      check .check (t.runState = .onCpu)
      return s.setTask g { t with runState := .preemptedByAgent })
  let t ← s.task next
  return { s.setTask next { t with runState := .onCpu, prioBoost := false } with
    current := update s.current c (some next) }

/-- The result says whether the transaction succeeded. -/
def syncCpuState (s : State G C) (c : C) : Except Fault (State G C × Bool) :=
  match s.next c with
  | none => .error .check
  | some next => do
    let t ← s.task next
    check .check (t.runState = .pending)
    check .check ((s.requests c).state.isCommitted = true)
    let s := { s with next := update s.next c none }
    check .check (t.preempted = false)
    if (s.requests c).state.isSucceeded then return (← replaceCurrent s c next, true)
    else return (← enqueue (s.setTask next { t with runState := .runnable }) next, false)

def syncTaskState (s : State G C) (g : G) : Except Fault (State G C) := do
  let t ← s.task g
  check .check (t.runState = .pending)
  let c ← cpuStateOf s g
  check .check (s.current c = none)
  check .check (s.next c = some g)
  let (s, succeeded) ← syncCpuState s c
  check .check (succeeded = true)
  return s

/-- Wait for a transaction. If it is not committed yet, it will be `done`. -/
def completeRunRequest (s : State G C) (c : C) (done : Bool) : State G C :=
  match (s.requests c).state with
  | .committed _ => s
  | .ready =>
    { s with
      requests := update s.requests c { s.requests c with state := .committed done } }

/-- `RunRequest::Open`. -/
def openRequest (s : State G C) (c : C) (g : G) (barrier : ℕ) : Except Fault (State G C) := do
  check .check ((s.requests c).state.isCommitted = true)
  return { s with requests := update s.requests c ⟨some g, barrier, .ready⟩ }

end Cpus

/-! ## Messages -/

section Messages

variable [DecidableEq G] [DecidableEq C]

def taskNew (s : State G C) (g : G) (seqnum : ℕ) (runnable : Bool) : Except Fault (State G C) := do
  let t : SolTask C := ⟨seqnum, .blocked, none, false, false⟩
  let s ← (
    if runnable then enqueue (s.setTask g { t with runState := .runnable }) g
    else .ok (s.setTask g t))
  return { s with numTasks := s.numTasks + 1 }

def taskRunnable (s : State G C) (g : G) (deferrable : Bool) : Except Fault (State G C) := do
  let t ← s.task g
  check .check (t.runState = .blocked)
  enqueue (s.setTask g { t with runState := .runnable, prioBoost := !deferrable }) g

/-- `FreeTask` and the count of the tasks. -/
def freeTask (s : State G C) (g : G) : State G C :=
  { s with tasks := update s.tasks g none, numTasks := s.numTasks - 1 }

/-- The first part of `TaskDeparted`: there may be no other message about the task that tells how
its transaction ended. -/
def reapPending (s : State G C) (g : G) (done : Bool) : Except Fault (State G C) := do
  let t ← s.task g
  if t.runState = .pending then
    match t.cpu with
    | none => .error .check
    | some c => Prod.fst <$> syncCpuState (completeRunRequest s c done) c
  else return s

def taskDeparted (s : State G C) (g : G) (fromSwitchto done : Bool) : Except Fault (State G C) := do
  let s ← reapPending s g done
  let t ← s.task g
  let s ← (if t.runState = .yielding then unyield s g else .ok s)
  let t ← s.task g
  let s ← (
    if t.runState = .onCpu ∨ fromSwitchto = true then taskOffCpu s g false fromSwitchto
    else if t.runState = .queued then removeFromRunqueue s g
    else do
      check .check (t.runState = .blocked)
      return s)
  return freeTask s g

def taskDead (s : State G C) (g : G) : Except Fault (State G C) := do
  let t ← s.task g
  check .check (t.runState = .blocked)
  return freeTask s g

/-- A message about a pending task tells that its transaction has succeeded. -/
def syncPending (s : State G C) (g : G) : Except Fault (State G C) := do
  let t ← s.task g
  if t.runState = .pending then syncTaskState s g else return s

def taskBlocked (s : State G C) (g : G) (fromSwitchto : Bool) : Except Fault (State G C) := do
  let s ← syncPending s g
  let t ← s.task g
  let s ← (
    if t.runState = .onCpu ∨ fromSwitchto = true then taskOffCpu s g true fromSwitchto
    else if t.runState = .preemptedByAgent then .ok s
    else do
      check .check (t.runState = .queued)
      removeFromRunqueue s g)
  let t ← s.task g
  return s.setTask g { t with runState := .blocked }

def taskPreempted (s : State G C) (g : G) (fromSwitchto : Bool) : Except Fault (State G C) := do
  let s ← syncPending s g
  let t ← s.task g
  let s := s.setTask g { t with preempted := true }
  if t.runState = .onCpu ∨ fromSwitchto = true then
    enqueue (← taskOffCpu s g false fromSwitchto) g
  else if t.runState = .preemptedByAgent then
    enqueue (s.setTask g { t with preempted := true, runState := .runnable }) g
  else
    check .check (t.runState = .queued)
    return s

def taskSwitchto (s : State G C) (g : G) : Except Fault (State G C) := do
  taskOffCpu (← syncPending s g) g true false

def taskYield (s : State G C) (g : G) (fromSwitchto : Bool) : Except Fault (State G C) := do
  let s ← syncPending s g
  let t ← s.task g
  if t.runState = .onCpu ∨ fromSwitchto = true then
    yield (← taskOffCpu s g false fromSwitchto) g
  else if t.runState = .preemptedByAgent then
    enqueue (s.setTask g { t with runState := .runnable }) g
  else
    check .check (t.runState = .queued)
    return s

/-- `Task::Advance`. -/
def advance (s : State G C) (g : G) (seqnum : ℕ) : Except Fault (State G C) := do
  let t ← s.task g
  check .check (t.seqnum < seqnum)
  return s.setTask g { t with seqnum := seqnum }

/-- `DispatchMessage`. Messages about a thread without a task, and a `TASK_NEW` about one with a
task, are ignored. -/
def dispatchMessage (s : State G C) (g : G) (seqnum : ℕ) (msg : Kernel.Msg C Unit)
    (deferrable done : Bool) : Except Fault (State G C) :=
  match msg, s.tasks g with
  | .new _ runnable, none => taskNew s g seqnum runnable
  | .new _ _, some _ => .ok s
  | _, none => .ok s
  | .dead, some _ => taskDead s g
  | .departed current, some _ => taskDeparted s g (current.any Prod.snd) done
  | .wakeup, some _ => do advance (← taskRunnable s g deferrable) g seqnum
  | .blocked _ fromSwitchto, some _ => do advance (← taskBlocked s g fromSwitchto) g seqnum
  | .preempt _ fromSwitchto, some _ => do advance (← taskPreempted s g fromSwitchto) g seqnum
  | .yield _ fromSwitchto, some _ => do advance (← taskYield s g fromSwitchto) g seqnum
  | .switchto _, some _ => do advance (← taskSwitchto s g) g seqnum
  | .onCpu _, some _ | .affinityChanged, some _ | .prioChanged, some _ => advance s g seqnum

end Messages

/-! ## GlobalSchedule -/

section Schedule

variable [DecidableEq G] [DecidableEq C]

/-- One round of the first loop. The time slice of the current task is over if `expired`. -/
def reapCpu (cfg : Config C) (s : State G C) (c : C) (cpus available : List C) (expired : Bool) :
    Except Fault (State G C) := do
  if c = cfg.globalCpu then
    check .check (s.current c = none)
    check .check (s.next c = none)
    check .check ((s.requests c).state.isCommitted = true)
    return { s with mode := .reap cpus available }
  else if s.next c ≠ none ∧ (s.requests c).state.isCommitted = false then
    return { s with mode := .reap cpus available }
  else
    let s ← (if s.next c ≠ none then Prod.fst <$> syncCpuState s c else .ok s)
    if s.current c ≠ none ∧ expired = false then return { s with mode := .reap cpus available }
    else return { s with mode := .reap cpus (available ++ [c]) }

/-- The cpu for a task: its last one, a sibling of it, or the first one. -/
def chooseCpu (cfg : Config C) (t : SolTask C) (available : List C) : Option C :=
  match t.cpu with
  | none => available.head?
  | some c =>
    if c ∈ available then some c
    else
      match (cfg.siblings c).find? (· ∈ available) with
      | some sibling => some sibling
      | none => available.head?

/-- A task becomes the next one of a cpu. -/
def assignCpu (s : State G C) (g : G) (t : SolTask C) (c : C) : Except Fault (State G C) := do
  check .check (s.next c = none)
  let s ← openRequest s c g t.seqnum
  let t := { t with runState := .pending, cpu := some c }
  return { s.setTask g (if t.preempted then { t with preempted := false, prioBoost := true } else t)
    with next := update s.next c (some g) }

/-- One round of the loop over the available cpus, for the task that was dequeued. -/
def pickTask (cfg : Config C) (s : State G C) (g : G) (rest : List G) (available assigned : List C)
    (onCpu : Bool) (barrier : ℕ) : Except Fault (State G C) := do
  let t ← s.task g
  check .check (t.runState = .queued)
  let t := { t with runState := .runnable }
  let s := { s.setTask g t with runQueue := rest }
  if onCpu || t.seqnum ≠ barrier then yield s g
  else
    match chooseCpu cfg t available with
    | none => .error .check
    | some c =>
      check .check (c ∈ available)
      let s ← assignCpu s g t c
      return { s with mode := .pick (available.erase c) (assigned ++ [c]) }

/-- The yielding tasks go back to the run queue, one after the other. -/
def requeue (s : State G C) : List G → Except Fault (State G C)
  | [] => .ok s
  | g :: rest => do
    let t ← s.task g
    check .check (t.runState = .yielding)
    let s ← enqueue (s.setTask g { t with runState := .runnable }) g
    requeue s rest

/-- The end of a pass. -/
def endPass (s : State G C) : Except Fault (State G C) := do
  let s ← requeue s s.yieldingTasks
  return { s with yieldingTasks := [], mode := .drain }

inductive Action (G C : Type) where
  /-- The kernel commits a transaction. -/
  | commit (c : C) (succeeded : Bool)
  | message (g : G) (seqnum : ℕ) (msg : Kernel.Msg C Unit) (deferrable done : Bool)
  | startPass
  | reap (expired : Bool)
  | endReap
  | pick (onCpu : Bool) (barrier : ℕ)
  | endPass

/-- One step, if it can be taken. -/
def act (cfg : Config C) (s : State G C) : Action G C → Option (Except Fault (State G C))
  | .commit c succeeded =>
    match (s.requests c).state with
    | .ready => some (.ok { s with
        requests := update s.requests c { s.requests c with state := .committed succeeded } })
    | .committed _ => none
  | .message g seqnum msg deferrable done =>
    match s.mode with
    | .drain => some (dispatchMessage s g seqnum msg deferrable done)
    | _ => none
  | .startPass =>
    match s.mode with
    | .drain => some (.ok { s with mode := .reap cfg.cpus [] })
    | _ => none
  | .reap expired =>
    match s.mode with
    | .reap (c :: cpus) available => some (reapCpu cfg s c cpus available expired)
    | _ => none
  | .endReap =>
    match s.mode with
    | .reap [] available => some (.ok { s with mode := .pick available [] })
    | _ => none
  | .pick onCpu barrier =>
    match s.mode, s.runQueue with
    | .pick (c :: available) assigned, g :: rest =>
      some (pickTask cfg s g rest (c :: available) assigned onCpu barrier)
    | _, _ => none
  | .endPass =>
    match s.mode, s.runQueue with
    | .pick [] _, _ => some (endPass s)
    | .pick _ _, [] => some (endPass s)
    | _, _ => none

/-- A step without a fault. -/
def step (cfg : Config C) (s : State G C) (a : Action G C) : Option (State G C) :=
  (act cfg s a).bind Except.toOption

end Schedule

/-- There are no tasks yet. -/
structure Init (s : State G C) : Prop where
  tasks : ∀ g, s.tasks g = none
  current : ∀ c, s.current c = none
  next : ∀ c, s.next c = none
  runQueue : s.runQueue = []
  yieldingTasks : s.yieldingTasks = []
  mode : s.mode = .drain

end Sol
