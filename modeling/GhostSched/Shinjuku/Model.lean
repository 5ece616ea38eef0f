import GhostSched.Central
import GhostSched.Lib.Checked
import GhostSched.Lib.Transition
import Mathlib.Data.Int.Notation

/-!
# The Shinjuku scheduler

One agent on the global cpu schedules all other cpus. It drains its channel, takes
over what the applications changed in their tables, and then makes a pass over the
cpus. A task whose sched item has no work is paused. If it is on a cpu at that time,
it is only marked, and the pass takes it off.

* `ShinjukuTask` and `State` are the data of the scheduler. Tasks are behind pointers,
  since a list may hold on to a task that was freed.
* The functions end with a `Fault` where a `CHECK` fails or a pointer is not valid.
* `step` is one step of the agent: a message, a sched item that is read again, and in a
  pass one step for each task that is taken from the run queue, for each cpu and for
  each transaction.

What the kernel, the applications and the clock answer are inputs of the steps, so the
messages are arbitrary. Transactions that take a task off its cpu succeed.
-/

namespace Shinjuku

open Checked Function

/-- Why the agent stops. -/
inductive Fault where
  /-- A `CHECK` failed. -/
  | check
  /-- A `CHECK` of `SchedParamsCallback` that involves `paused()` failed. -/
  | paused
  /-- The task behind a pointer was freed. -/
  | freed
  | null
  deriving DecidableEq

/-- `ShinjukuTask::RunState`. -/
inductive RunState where
  | blocked
  | queued
  | onCpu
  | yielding
  | paused
  deriving DecidableEq

/-- `ShinjukuTask::UnscheduleLevel`. -/
inductive UnscheduleLevel where
  | no
  | could
  | must
  deriving DecidableEq

/-- The copy of a sched item, with the flag that it has work. -/
structure SchedParams (G : Type) where
  /-- Items that are not in use have no thread. -/
  gtid : Option G
  wcid : ℕ
  hasWork : Bool
  qos : ℕ

/-- What the `sp` of a task points to: an item of a table, or the item for tasks without table. -/
inductive Item (T : Type) where
  | dummy
  | item (tgid : T) (sid : ℕ)
  deriving DecidableEq

structure ShinjukuTask (G C T : Type) where
  gtid : G
  seqnum : ℕ
  runState : RunState
  cpu : Option C
  prioBoost : Bool
  runtime : ℕ
  elapsedRuntime : ℕ
  lastRan : ℤ
  preempted : Bool
  /-- The table of its process. -/
  orch : Option T
  sp : Option (Item T)
  hasWork : Bool
  wcid : ℕ
  unscheduleLevel : UnscheduleLevel

/-! ## The run queue -/

/-- `run_queue_`: the deques in the order of their QoS. -/
abbrev RunQueue (P : Type) := List (ℕ × List P)

namespace RunQueue

variable {P : Type}

/-- All tasks on the deques. -/
def tasks (rq : RunQueue P) : List P :=
  rq.flatMap Prod.snd

/-- Add a task to the back or to the front of a deque. -/
def push (qos : ℕ) (back : Bool) (p : P) : RunQueue P → RunQueue P
  | [] => [(qos, [p])]
  | (q, l) :: rest =>
    if q = qos then (q, if back then l ++ [p] else p :: l) :: rest
    else if qos < q then (qos, [p]) :: (q, l) :: rest
    else (q, l) :: push qos back p rest

/-- The front of the deque with the highest QoS among those that are not empty. -/
def pop : RunQueue P → Option (P × RunQueue P)
  | [] => none
  | (q, l) :: rest =>
    match pop rest with
    | some (p, rest') => some (p, (q, l) :: rest')
    | none =>
      match l with
      | [] => none
      | p :: l' => some (p, (q, l') :: rest)

/-- The search for the task starts at the lowest QoS, and in a deque at the back. -/
def erase [DecidableEq P] (p : P) : RunQueue P → Option (RunQueue P)
  | [] => none
  | (q, l) :: rest =>
    if p ∈ l then some ((q, (l.reverse.erase p).reverse) :: rest)
    else (erase p rest).map ((q, l) :: ·)

end RunQueue

/-! ## State -/

/-- The two iterations of `GlobalSchedule`. -/
inductive Round where
  | first
  | second
  deriving DecidableEq

/-- Where the agent is. -/
inductive Mode (C : Type) where
  /-- It makes tasks for the threads that are there already. -/
  | discover
  /-- It reads all sched items at the end of the discovery. -/
  | scrape
  /-- It drains its channel. -/
  | drain
  /-- `UpdateSchedParams`. -/
  | update
  /-- It picks tasks for these cpus. With `again`, it has to try the first one again. -/
  | pick (round : Round) (again : Bool) (cpus updated : List C)
  /-- It looks at the unschedule levels on these cpus. -/
  | levels (round : Round) (cpus updated : List C)
  /-- It looks at the transactions of these cpus. -/
  | commit (cpus : List C)
  /-- It looks at the paused repeatables, starting with this one. -/
  | rearm (index : ℕ)
  deriving DecidableEq

structure Config (G C T : Type) where
  /-- The cpus of the enclave, in the order of their numbers. -/
  cpus : List C
  nodup : cpus.Nodup
  /-- The process of a thread. -/
  tgid : G → T
  numSchedItems : T → ℕ
  /-- `WORK_CLASS_REPEATING`. -/
  repeating : T → ℕ → Bool
  period : T → ℕ → ℤ
  preemptionTimeSlice : ℤ

structure State (G C P T : Type) where
  /-- The map of the allocator. -/
  allocator : G → Option P
  heap : P → Option (ShinjukuTask G C T)
  current : C → Option P
  next : C → Option P
  runQueue : RunQueue P
  pausedRepeatables : List P
  yieldingTasks : List P
  numTasks : ℤ
  /-- The tables that are attached. -/
  orchs : T → Bool
  cachedsids : T → ℕ → SchedParams G
  mode : Mode C
  /-- The cpus with open transactions. -/
  openCpus : List C

variable {G C P T : Type}

/-- The `sp` of a task. -/
def ShinjukuTask.item (t : ShinjukuTask G C T) : Except Fault (Item T) :=
  match t.sp with
  | some sp => .ok sp
  | none => .error .null

namespace State

def task (s : State G C P T) (p : P) : Except Fault (ShinjukuTask G C T) :=
  match s.heap p with
  | some t => .ok t
  | none => .error .freed

def setTask [DecidableEq P] (s : State G C P T) (p : P) (t : ShinjukuTask G C T) : State G C P T :=
  { s with heap := update s.heap p (some t) }

/-- The QoS of an item. -/
def qosOf (s : State G C P T) : Item T → ℕ
  | .item tgid sid => (s.cachedsids tgid sid).qos
  | .dummy => 0

/-- The work class of an item. -/
def wcidOf (s : State G C P T) : Item T → ℕ
  | .item tgid sid => (s.cachedsids tgid sid).wcid
  | .dummy => 0

def inDiscovery [DecidableEq C] (s : State G C P T) : Bool :=
  decide (s.mode = .discover) || decide (s.mode = .scrape)

end State

/-! ## Queues -/

section Queues

variable [DecidableEq P]

def enqueue (s : State G C P T) (p : P) (back : Bool) : Except Fault (State G C P T) := do
  let t ← s.task p
  check .check (t.unscheduleLevel = .no)
  if t.hasWork then
    let sp ← t.item
    return { s.setTask p { t with runState := .queued } with
      runQueue := s.runQueue.push (s.qosOf sp) (back && !t.prioBoost) p }
  else return s.setTask p { t with runState := .paused }

/-- The task at the front of the run queue and the run queue without it. -/
def front (s : State G C P T) : Except Fault (Option (P × RunQueue P)) :=
  match s.runQueue.pop with
  | none => .ok none
  | some (p, rest) => do
    let t ← s.task p
    check .check (t.hasWork = true)
    check .check (t.unscheduleLevel = .no)
    return some (p, rest)

/-- The search for the task starts at the back. -/
def removeFromRunqueue (s : State G C P T) (p : P) : Except Fault (State G C P T) := do
  let t ← s.task p
  check .check (t.runState = .queued)
  match s.runQueue.erase p with
  | some rest => return { s.setTask p { t with runState := .paused } with runQueue := rest }
  | none => .error .check

def yield (s : State G C P T) (p : P) : Except Fault (State G C P T) := do
  let t ← s.task p
  check .check (t.runState = .onCpu ∨ t.runState = .queued)
  return { s.setTask p { t with runState := .yielding } with
    yieldingTasks := s.yieldingTasks ++ [p] }

def unyield (s : State G C P T) (p : P) : Except Fault (State G C P T) := do
  let t ← s.task p
  check .check (t.runState = .yielding)
  check .check (p ∈ s.yieldingTasks)
  enqueue { s with yieldingTasks := s.yieldingTasks.erase p } p true

variable [DecidableEq C]

/-- `cpu_state_of`, and the cpu has no current task any more. -/
def clearCurrent (s : State G C P T) (p : P) : Except Fault (State G C P T) := do
  let t ← s.task p
  check .check (t.runState = .onCpu)
  match t.cpu with
  | none => .error .check
  | some c =>
    check .check (s.current c = some p)
    return { s with current := update s.current c none }

/-- Take a task off its cpu. The cpu idles then. -/
def unscheduleTask (s : State G C P T) (p : P) : Except Fault (State G C P T) := do
  let t ← s.task p
  check .check (t.runState = .onCpu)
  match t.cpu with
  | none => .error .check
  | some c =>
    return { s.setTask p { t with runState := .paused, unscheduleLevel := .no } with
      current := update s.current c none }

end Queues

/-! ## Sched items -/

section Items

variable [DecidableEq G] [DecidableEq C] [DecidableEq P] [DecidableEq T]

def State.setParams (s : State G C P T) (tgid : T) (sid : ℕ) (sp : SchedParams G) : State G C P T :=
  { s with cachedsids :=
      update s.cachedsids tgid (update (s.cachedsids tgid) sid sp) }

/-- `MakeEngineRunnable` of the table `orch`, with the thread that the item in the table has. -/
def makeEngineRunnable (cfg : Config G C T) (s : State G C P T) (orch : T) (sp : Item T)
    (gpid : Option G) : Except Fault (State G C P T) :=
  match sp with
  | .dummy => .error .check
  | .item tgid sid => do
    check .check (tgid = orch ∧ sid < cfg.numSchedItems orch)
    check .check (gpid = (s.cachedsids orch sid).gtid)
    check .check (cfg.repeating orch (s.cachedsids orch sid).wcid = true)
    check .check ((s.cachedsids orch sid).hasWork = false)
    return s.setParams orch sid { s.cachedsids orch sid with hasWork := true }

/-- The task takes over the parameters. It reads its runtime if it had work. -/
def takeParams (s : State G C P T) (p : P) (tgid : T) (sid runtime : ℕ) :
    Except Fault (State G C P T) := do
  let t ← s.task p
  let sp := s.cachedsids tgid sid
  let t' := { t with sp := some (.item tgid sid), hasWork := sp.hasWork, wcid := sp.wcid }
  if t.hasWork then
    check .check (t.runtime ≤ runtime)
    return s.setTask p { t' with runtime := runtime, elapsedRuntime := 0 }
  else return s.setTask p t'

/-- Cases (a) and (b): the task had no work. -/
def edgeFromIdle (s : State G C P T) (p : P) : Except Fault (State G C P T) := do
  let t ← s.task p
  check .paused (t.runState = .paused ∨ t.runState = .onCpu ∧ t.unscheduleLevel = .must)
  if t.hasWork then
    if t.runState = .paused then enqueue s p true
    else return s.setTask p { t with unscheduleLevel := .could }
  else return s

/-- The task has no work any more. On a cpu, it is only marked. -/
def loseWork (s : State G C P T) (p : P) : Except Fault (State G C P T) := do
  let t ← s.task p
  if t.runState = .onCpu then return s.setTask p { t with unscheduleLevel := .must }
  else if t.runState = .queued then removeFromRunqueue s p
  else .error .check

/-- Cases (c) and (d): the task had work. -/
def edgeFromWork (cfg : Config G C T) (s : State G C P T) (p : P) (tgid : T) :
    Except Fault (State G C P T) := do
  let t ← s.task p
  check .paused (t.runState ≠ .paused)
  if t.hasWork then
    let sp ← t.item
    check .check (t.runState = .queued → cfg.repeating tgid (s.wcidOf sp) = false)
    if t.runState = .onCpu then return s.setTask p { t with unscheduleLevel := .could }
    else return s
  else
    let s ← loseWork s p
    let t ← s.task p
    check .paused (t.runState = .paused ∨ t.runState = .onCpu ∧ t.unscheduleLevel = .must)
    let sp ← t.item
    if cfg.repeating tgid (s.wcidOf sp) then
      return { s with pausedRepeatables := s.pausedRepeatables ++ [p] }
    else return s

/-- The part of `SchedParamsCallback` about a task. -/
def updateTask (cfg : Config G C T) (s : State G C P T) (p : P) (tgid : T) (sid runtime : ℕ) :
    Except Fault (State G C P T) := do
  let t ← s.task p
  let s ← (if t.runState = .yielding then unyield s p else .ok s)
  let s ← takeParams s p tgid sid runtime
  if t.runState = .blocked then return s
  else if t.hasWork then edgeFromWork cfg s p tgid
  else edgeFromIdle s p

def schedParamsCallback (cfg : Config G C T) (s : State G C P T) (tgid : T) (sid : ℕ)
    (oldgtid gpid : Option G) (runtime : ℕ) : Except Fault (State G C P T) := do
  let sp := s.cachedsids tgid sid
  check .check (oldgtid = none ∨ oldgtid = sp.gtid)
  match sp.gtid with
  | none => return s
  | some g =>
    let s ← (
      if s.inDiscovery && cfg.repeating tgid sp.wcid && !sp.hasWork then
        makeEngineRunnable cfg s tgid (.item tgid sid) gpid
      else .ok s)
    match s.allocator g with
    | none => return s
    | some p => updateTask cfg s p tgid sid runtime

/-- What `SeqCopyParams` finds. -/
inductive Copy (G : Type) where
  /-- The sequence count has not changed. -/
  | unchanged
  /-- A writer interfered. Only the QoS is copied. -/
  | failed (qos : ℕ)
  | copied (sp : SchedParams G)

/-- `SeqCopyParams` on the cached item, and whether it has changed. -/
def Copy.apply (sp : SchedParams G) : Copy G → SchedParams G × Bool
  | .unchanged => (sp, false)
  | .failed qos => ({ sp with qos := qos, hasWork := true }, !sp.hasWork)
  | .copied sp' => (sp', true)

def refreshSchedParam (cfg : Config G C T) (s : State G C P T) (tgid : T) (sid : ℕ)
    (copy : Copy G) (gpid : Option G) (runtime : ℕ) : Except Fault (State G C P T) :=
  let sp := s.cachedsids tgid sid
  let s' := s.setParams tgid sid (copy.apply sp).1
  if (copy.apply sp).2 then schedParamsCallback cfg s' tgid sid sp.gtid gpid runtime
  else .ok s'

/-- The first item of the table that belongs to the thread. -/
def getSchedParams (cfg : Config G C T) (s : State G C P T) (tgid : T) (g : G)
    (gpid : Option G) (runtime : ℕ) : Except Fault (State G C P T) :=
  match (List.range (cfg.numSchedItems tgid)).find? fun sid =>
      (s.cachedsids tgid sid).gtid = some g with
  | some sid => schedParamsCallback cfg s tgid sid (s.cachedsids tgid sid).gtid gpid runtime
  | none => .ok s

end Items

/-! ## Messages -/

section Messages

variable [DecidableEq G] [DecidableEq C] [DecidableEq P] [DecidableEq T]

/-- The items of a table that has just been attached. -/
def emptyItems : ℕ → SchedParams G :=
  fun _ => ⟨none, 0, false, 0⟩

def updateTaskRuntime (s : State G C P T) (p : P) (runtime : ℕ) (updateElapsed : Bool) :
    Except Fault (State G C P T) := do
  let t ← s.task p
  check .check (t.runtime ≤ runtime)
  let elapsed := if updateElapsed then t.elapsedRuntime + (runtime - t.runtime)
    else t.elapsedRuntime
  check .check (if t.sp.isSome then t.runState = .onCpu else t.runState ≠ .queued)
  return s.setTask p { t with runtime := runtime, elapsedRuntime := elapsed }

/-- `HandleNewGtid`. The table of the process cannot be found if `attach` fails. -/
def handleNewGtid (s : State G C P T) (p : P) (tgid : T) (attach : Bool) :
    Except Fault (State G C P T) :=
  if s.orchs tgid then .ok s
  else if attach then
    .ok { s with
      orchs := update s.orchs tgid true
      cachedsids := update s.cachedsids tgid emptyItems }
  else do
    let t ← s.task p
    return s.setTask p { t with hasWork := true, sp := some .dummy }

/-- The constructor of a task. The default of `wcid` is the largest 32-bit number. -/
def ShinjukuTask.init (g : G) : ShinjukuTask G C T :=
  ⟨g, 0, .blocked, none, false, 0, 0, 0, false, none, none, false, 4294967295, .no⟩

def taskNew (cfg : Config G C T) (s : State G C P T) (p : P) (g : G) (seqnum runtime : ℕ)
    (runnable attach : Bool) (gpid : Option G) : Except Fault (State G C P T) := do
  let s ← updateTaskRuntime s p runtime false
  let t ← s.task p
  let s := s.setTask p { t with seqnum := seqnum, runState := .blocked }
  let s ← handleNewGtid s p (cfg.tgid g) attach
  let s ← (if runnable then enqueue s p true else .ok s)
  let t ← s.task p
  let orch := if s.orchs (cfg.tgid g) then some (cfg.tgid g) else none
  let s := { s.setTask p { t with orch := orch } with numTasks := s.numTasks + 1 }
  if s.inDiscovery then return s
  else
    match orch with
    | none => .error .null
    | some tgid => getSchedParams cfg s tgid g gpid runtime

def taskRunnable (s : State G C P T) (p : P) (deferrable : Bool) :
    Except Fault (State G C P T) := do
  let t ← s.task p
  check .check (t.runState = .blocked)
  enqueue (s.setTask p { t with prioBoost := !deferrable }) p false

/-- `FreeTask` and the count of the tasks. -/
def freeTask (s : State G C P T) (p : P) : Except Fault (State G C P T) := do
  let t ← s.task p
  return { s with
    allocator := update s.allocator t.gtid none
    heap := update s.heap p none
    numTasks := s.numTasks - 1 }

/-- The part of `TaskDeparted` between `Unyield` and `FreeTask`. -/
def departFrom (s : State G C P T) (p : P) : Except Fault (State G C P T) := do
  let t ← s.task p
  if t.runState = .onCpu then clearCurrent s p
  else if t.runState = .queued then removeFromRunqueue s p
  else
    check .check (t.runState = .blocked ∨ t.runState = .paused)
    return s

def taskDeparted (s : State G C P T) (p : P) : Except Fault (State G C P T) := do
  let t ← s.task p
  let s ← (if t.runState = .yielding then unyield s p else .ok s)
  let s ← departFrom s p
  freeTask s p

def taskDead (s : State G C P T) (p : P) : Except Fault (State G C P T) := do
  let t ← s.task p
  check .check (t.runState = .blocked)
  freeTask s p

/-- A task leaves its cpu by itself. -/
def getOffCpu (s : State G C P T) (p : P) (runtime : ℕ) : Except Fault (State G C P T) := do
  let s ← updateTaskRuntime s p runtime true
  clearCurrent s p

/-- The part of `TaskBlocked` before the task gets its new state. -/
def blockFrom (s : State G C P T) (p : P) (runtime : ℕ) : Except Fault (State G C P T) := do
  let t ← s.task p
  if t.runState = .onCpu then getOffCpu s p runtime
  else if t.runState = .queued then removeFromRunqueue s p
  else
    check .check (t.runState = .paused)
    return s

def taskBlocked (s : State G C P T) (p : P) (runtime : ℕ) : Except Fault (State G C P T) := do
  let s ← blockFrom s p runtime
  let t ← s.task p
  return s.setTask p { t with runState := .blocked }

def taskPreempted (s : State G C P T) (p : P) (runtime : ℕ) : Except Fault (State G C P T) := do
  let t ← s.task p
  let s := s.setTask p { t with preempted := true, prioBoost := true }
  if t.runState = .onCpu then
    let s ← getOffCpu s p runtime
    enqueue s p true
  else if t.runState = .queued then
    let s ← removeFromRunqueue s p
    enqueue s p true
  else
    check .check (t.runState = .paused)
    return s

def taskYield (s : State G C P T) (p : P) (runtime : ℕ) : Except Fault (State G C P T) := do
  let t ← s.task p
  if t.runState = .onCpu then
    let s ← getOffCpu s p runtime
    yield s p
  else
    check .check (t.runState = .queued ∨ t.runState = .paused)
    return s

/-- `Task::Advance`. -/
def advance (s : State G C P T) (p : P) (seqnum : ℕ) : Except Fault (State G C P T) := do
  let t ← s.task p
  check .check (t.seqnum < seqnum)
  return s.setTask p { t with seqnum := seqnum }

/-- What the answers of the environment to a message are. -/
structure Answers (G : Type) where
  /-- Whether a wakeup can be deferred. -/
  deferrable : Bool
  /-- Whether the table of the process can be attached. -/
  attach : Bool
  /-- The thread of the sched item in the table. -/
  gpid : Option G

/-- A message about a thread that has a task. -/
def taskMessage (s : State G C P T) (p : P) (e : Central.Entry G C Unit)
    (deferrable : Bool) : Except Fault (State G C P T) :=
  match e.msg with
  | .new _ _ => .ok s
  | .dead => taskDead s p
  | .departed _ => taskDeparted s p
  | .wakeup => do
    let s ← taskRunnable s p deferrable
    advance s p e.seqnum
  | .blocked _ _ => do
    let s ← taskBlocked s p e.runtime
    advance s p e.seqnum
  | .preempt _ _ => do
    let s ← taskPreempted s p e.runtime
    advance s p e.seqnum
  | .yield _ _ => do
    let s ← taskYield s p e.runtime
    advance s p e.seqnum
  | .onCpu _ | .switchto _ | .affinityChanged | .prioChanged => advance s p e.seqnum

/-- A task at a free place of the heap. -/
def State.allocate (s : State G C P T) (p : P) (g : G) : State G C P T :=
  { s.setTask p (.init g) with allocator := update s.allocator g (some p) }

/-- `DispatchMessage`. Messages about a thread without a task, and a `TASK_NEW` about one with a
task, are ignored. A new task gets the place `p`, which has to be free. -/
def dispatchMessage (cfg : Config G C T) (s : State G C P T) (e : Central.Entry G C Unit)
    (p : P) (a : Answers G) : Option (Except Fault (State G C P T)) :=
  match s.allocator e.gtid, e.msg with
  | some q, _ => some (taskMessage s q e a.deferrable)
  | none, .new _ runnable =>
    if (s.heap p).isNone then
      some (taskNew cfg (s.allocate p e.gtid) p e.gtid e.seqnum e.runtime runnable a.attach a.gpid)
    else none
  | none, _ => some (.ok s)

end Messages

/-! ## GlobalSchedule -/

section Schedule

variable [DecidableEq G] [DecidableEq C] [DecidableEq P] [DecidableEq T]

/-- `SkipForSchedule`. A cpu that is not available, or is the one of the agent, is not `usable`. -/
def skipForSchedule (s : State G C P T) (r : Round) (c : C) (usable : Bool) : Except Fault Bool :=
  if !usable then .ok true
  else
    match r, s.current c with
    | .first, some p => do
      let t ← s.task p
      return t.unscheduleLevel ≠ .must
    | .first, none => .ok false
    | .second, _ => .ok (s.next c).isSome

/-- Whether the current task of a cpu should give way to the first task of the run queue. -/
def shouldPreempt (cfg : Config G C T) (s : State G C P T) (p : P) (now : ℤ) :
    Except Fault Bool := do
  let t ← s.task p
  match ← front s with
  | none => return false
  | some (peek, _) =>
    let sp ← t.item
    let tPeek ← s.task peek
    let spPeek ← tPeek.item
    if s.qosOf sp < s.qosOf spPeek then return true
    else if s.qosOf sp = s.qosOf spPeek then
      -- repeatables may exceed their time slice
      let used := decide (now - t.lastRan ≥ cfg.preemptionTimeSlice) &&
        match t.orch with
        | some tgid => !cfg.repeating tgid (s.wcidOf sp)
        | none => false
      return used || t.unscheduleLevel ≠ .no
    else return false

/-- Take a task from the run queue for a cpu. Stop if there is none, and try again if the task is
still on its old cpu. -/
def pickTask (cfg : Config G C T) (s : State G C P T) (r : Round) (c : C)
    (cpus updated : List C) (onCpu : Bool) : Except Fault (State G C P T) := do
  match ← front s with
  | none => return { s with mode := .levels r cfg.cpus updated }
  | some (p, rest) =>
    let s := { s with runQueue := rest }
    if onCpu then
      let s ← yield s p
      return { s with mode := .pick r true (c :: cpus) updated }
    else
      return { s with
        next := update s.next c (some p)
        mode := .pick r false cpus (updated ++ [c]) }

/-- One round of the first loop. -/
def pickFor (cfg : Config G C T) (s : State G C P T) (r : Round) (again : Bool) (c : C)
    (cpus updated : List C) (usable onCpu : Bool) (now : ℤ) : Except Fault (State G C P T) := do
  let skip ← (if again then .ok false else skipForSchedule s r c usable)
  if skip then return { s with mode := .pick r false cpus updated }
  else
    let preempt ← (
      match s.current c with
      | some p => shouldPreempt cfg s p now
      | none => .ok true)
    if preempt then pickTask cfg s r c cpus updated onCpu
    else return { s with mode := .pick r false cpus updated }

/-- No task takes the place of this one. -/
def keepOrUnschedule (s : State G C P T) (p : P) : Except Fault (State G C P T) := do
  let t ← s.task p
  match t.unscheduleLevel with
  | .no => return s
  | .could => return s.setTask p { t with unscheduleLevel := .no }
  | .must => unscheduleTask s p

/-- One round of the second loop. -/
def settleLevel (s : State G C P T) (c : C) : Except Fault (State G C P T) :=
  match s.current c with
  | none => .ok s
  | some p => do
    let s ← (if (s.next c).isNone then keepOrUnschedule s p else .ok s)
    let t ← s.task p
    check .check ((s.next c).isSome ∨ t.unscheduleLevel = .no)
    return s

/-- The third loop, which opens the transactions. -/
def openTransactions (cfg : Config G C T) (s : State G C P T) (r : Round) (updated : List C) :
    Except Fault (State G C P T) := do
  check .check (∀ c ∈ updated, (s.next c).isSome)
  let opened := s.openCpus ++ updated.filter fun c => s.current c ≠ s.next c
  return { s with
    openCpus := opened
    mode :=
      match r with
      | .first => .pick .second false cfg.cpus []
      | .second => .commit (cfg.cpus.filter (· ∈ opened)) }

/-- A task that has lost its cpu to another one. -/
def displace (s : State G C P T) (prev : P) (runtime : ℕ) : Except Fault (State G C P T) := do
  let t ← s.task prev
  check .check (t.runState = .onCpu)
  check .check (t.runtime ≤ runtime)
  let t' := { t with
    unscheduleLevel := .no
    runtime := runtime
    elapsedRuntime := t.elapsedRuntime + (runtime - t.runtime) }
  enqueue (s.setTask prev t') prev true

/-- The transaction of a cpu has succeeded. -/
def commitSucceeded (s : State G C P T) (c : C) (p : P) (runtime : ℕ) (now : ℤ) :
    Except Fault (State G C P T) := do
  let s ← (
    match s.current c with
    | none => .ok s
    | some prev => displace s prev runtime)
  let t ← s.task p
  let t' := { t with
    runState := .onCpu
    cpu := some c
    preempted := false
    prioBoost := false
    elapsedRuntime := 0
    lastRan := now }
  return { s.setTask p t' with current := update s.current c (some p) }

/-- It has failed. -/
def commitFailed (s : State G C P T) (c : C) (p : P) : Except Fault (State G C P T) := do
  let s ← enqueue s p false
  match s.current c with
  | none => return s
  | some prev =>
    let t ← s.task prev
    if t.unscheduleLevel ≠ .no then unscheduleTask s prev else return s

def commitFor (s : State G C P T) (c : C) (cpus : List C) (success : Bool) (runtime : ℕ)
    (now : ℤ) : Except Fault (State G C P T) :=
  match s.next c with
  | none => .error .null
  | some p =>
    let s := { s with next := update s.next c none, mode := .commit cpus }
    if success then commitSucceeded s c p runtime now else commitFailed s c p

/-- A yielding task goes back to the run queue. -/
def requeue (s : State G C P T) (p : P) : Except Fault (State G C P T) := do
  let t ← s.task p
  check .check (t.runState = .yielding)
  enqueue s p true

def requeueYielding (s : State G C P T) : Except Fault (State G C P T) := do
  let s ← s.yieldingTasks.foldlM requeue s
  return { s with yieldingTasks := [], mode := .rearm 0 }

/-- A paused repeatable runs again if it has waited for its period. -/
def rearm (cfg : Config G C T) (s : State G C P T) (i : ℕ) (p : P) (now : ℤ)
    (gpid : Option G) : Except Fault (State G C P T) := do
  let t ← s.task p
  match t.orch with
  | none => .error .check
  | some orch =>
    let sp ← t.item
    if now - t.lastRan ≥ cfg.period orch (s.wcidOf sp) then
      let s ← makeEngineRunnable cfg s orch sp gpid
      let s ← enqueue (s.setTask p { t with hasWork := true }) p true
      return { s with pausedRepeatables := s.pausedRepeatables.eraseIdx i }
    else return { s with mode := .rearm (i + 1) }

end Schedule

/-! ## Steps -/

inductive Action (G C P T : Type) where
  /-- `TASK_NEW` for a thread that is discovered. -/
  | discover (p : P) (g : G) (seqnum runtime : ℕ) (runnable attach : Bool)
  | scrape
  | discoveryComplete
  | dispatch (e : Central.Entry G C Unit) (p : P) (a : Answers G)
  | updateSchedParams
  | refresh (tgid : T) (sid : ℕ) (copy : Copy G) (gpid : Option G) (runtime : ℕ)
  | globalSchedule
  | pick (usable onCpu : Bool) (now : ℤ)
  | endPick
  | settleLevel
  | openTransactions
  | commit (success : Bool) (runtime : ℕ) (now : ℤ)
  | requeueYielding
  | rearm (now : ℤ) (gpid : Option G)
  | endPass

section Step

variable [DecidableEq G] [DecidableEq C] [DecidableEq P] [DecidableEq T]

/-- What an action does, if it is possible. -/
def act (cfg : Config G C T) (s : State G C P T) :
    Action G C P T → Option (Except Fault (State G C P T))
  | .discover p g seqnum runtime runnable attach =>
    if s.mode = .discover ∧ s.allocator g = none ∧ s.heap p = none then
      some (taskNew cfg (s.allocate p g) p g seqnum runtime runnable attach none)
    else none
  | .scrape => if s.mode = .discover then some (.ok { s with mode := .scrape }) else none
  | .discoveryComplete => if s.mode = .scrape then some (.ok { s with mode := .drain }) else none
  | .dispatch e p a => if s.mode = .drain then dispatchMessage cfg s e p a else none
  | .updateSchedParams => if s.mode = .drain then some (.ok { s with mode := .update }) else none
  | .refresh tgid sid copy gpid runtime =>
    if (s.mode = .update ∨ s.mode = .scrape) ∧ s.orchs tgid ∧ sid < cfg.numSchedItems tgid then
      some (refreshSchedParam cfg s tgid sid copy gpid runtime)
    else none
  | .globalSchedule =>
    if s.mode = .update then
      some (.ok { s with mode := .pick .first false cfg.cpus [], openCpus := [] })
    else none
  | .pick usable onCpu now =>
    match s.mode with
    | .pick r again (c :: cpus) updated =>
      some (pickFor cfg s r again c cpus updated usable onCpu now)
    | _ => none
  | .endPick =>
    match s.mode with
    | .pick r _ [] updated => some (.ok { s with mode := .levels r cfg.cpus updated })
    | _ => none
  | .settleLevel =>
    match s.mode with
    | .levels r (c :: cpus) updated =>
      some (settleLevel { s with mode := .levels r cpus updated } c)
    | _ => none
  | .openTransactions =>
    match s.mode with
    | .levels r [] updated => some (openTransactions cfg s r updated)
    | _ => none
  | .commit success runtime now =>
    match s.mode with
    | .commit (c :: cpus) => some (commitFor s c cpus success runtime now)
    | _ => none
  | .requeueYielding =>
    match s.mode with
    | .commit [] => some (requeueYielding s)
    | _ => none
  | .rearm now gpid =>
    match s.mode with
    | .rearm i => (s.pausedRepeatables[i]?).map fun p => rearm cfg s i p now gpid
    | _ => none
  | .endPass =>
    match s.mode with
    | .rearm i => if i = s.pausedRepeatables.length then some (.ok { s with mode := .drain })
        else none
    | _ => none

/-- The agent stops at the first fault. -/
inductive Agent (G C P T : Type) where
  | running (s : State G C P T)
  | stopped (f : Fault)

def step (cfg : Config G C T) : Agent G C P T → Action G C P T → Option (Agent G C P T)
  | .running s, a =>
    match act cfg s a with
    | some (.ok s') => some (.running s')
    | some (.error f) => some (.stopped f)
    | none => none
  | .stopped _, _ => none

end Step

structure Init (s : State G C P T) : Prop where
  allocator : ∀ g, s.allocator g = none
  heap : ∀ p, s.heap p = none
  current : ∀ c, s.current c = none
  next : ∀ c, s.next c = none
  runQueue : s.runQueue = []
  pausedRepeatables : s.pausedRepeatables = []
  yieldingTasks : s.yieldingTasks = []
  numTasks : s.numTasks = 0
  orchs : ∀ tgid, s.orchs tgid = false
  mode : s.mode = .discover
  openCpus : s.openCpus = []

end Shinjuku
