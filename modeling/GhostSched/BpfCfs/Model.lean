import GhostSched.Kernel
import GhostSched.Lib.TailQueue
import GhostSched.Lib.Transition

/-!
# The CFS scheduler in BPF

Each cpu has a runqueue, which is a tail queue of elements of one array of
threads. A thread is queued on the runqueue of the cpu that happens to handle
its message, and PNT of a cpu takes the thread with the smallest vruntime of its
own runqueue.

* `enqueueTask`, `removeTaskFromRq`, `cfsPickNextTask` and the functions they call
  are the runqueue; times and weights are 64 bit words, as in the code.
* `cfsMsgSend` and its handlers run on any cpu and at any time, so both are
  arguments of a step. What a handler does to a runqueue it does under its lock,
  so a kernel event and its handler are one step.
* `pntStep` is PNT, which is interleaved with the handlers between its accesses to
  the runqueue and the kernel.
-/

namespace BpfCfs

open Kernel TailQueue Transition Function

/-- `CFS_MAX_GTIDS` -/
def maxGtids : ℕ := 65536

/-- `NICE_0_LOAD` -/
def nice0Load : UInt64 := 1024

/-- `sched_latency` -/
def schedLatency : UInt64 := 6000

/-- An element of the array of threads. -/
structure Thread (G : Type*) where
  gtid : Option G
  taskBarrier : ℕ
  ranAt : UInt64
  weight : UInt64
  vruntime : UInt64

def Thread.zero (G : Type*) : Thread G := ⟨none, 0, 0, 0, 0⟩

structure Rq (G : Type*) where
  /-- The thread that runs, which is also in the cpu's own data. -/
  current : Option G
  weight : UInt64
  nrRunning : UInt64
  minVruntime : UInt64
  rqRoot : Head ℕ

/-- Where a cpu is in `cfs_pnt`. -/
inductive Pnt (G : Type*) where
  | idle
  /-- Before `bpf_ghost_run_gtid`. -/
  | run (gtid : G) (taskBarrier : ℕ)
  /-- Before it puts the thread back. -/
  | enqueue (gtid : G) (taskBarrier : ℕ)

/-- The thread that PNT has taken from its runqueue. -/
def Pnt.next {G : Type*} : Pnt G → Option G
  | .idle => none
  | .run gtid _ | .enqueue gtid _ => some gtid

structure State (G C : Type*) where
  tasks : G → Kernel.Task C
  /-- The status word index of each thread, which is its index in the array. -/
  swLookup : G → Option ℕ
  /-- The number of entries of the hash map. -/
  swCount : ℕ
  threads : ℕ → Thread G
  /-- The `next_task` of each thread. -/
  links : ℕ → Link ℕ
  rqs : C → Rq G
  pnt : C → Pnt G

def State.init (G C : Type*) : State G C where
  tasks _ := .absent C
  swLookup _ := none
  swCount := 0
  threads _ := .zero G
  links _ := ⟨none, none⟩
  rqs _ := ⟨none, 0, 0, 0, .empty⟩
  pnt _ := .idle

variable {G C : Type*}

/-! ## Times -/

def calcDelta (deltaExec weight ldWeight : UInt64) : UInt64 :=
  deltaExec * (weight * 1000 / ldWeight)

def calcDeltaFair (delta weight : UInt64) : UInt64 :=
  if weight ≠ nice0Load then calcDelta delta nice0Load weight else delta

/-- The later of two times that may have wrapped around. -/
def maxVruntime (max vruntime : UInt64) : UInt64 :=
  if 0 < (vruntime - max).toInt64 then vruntime else max

def minVruntime (min vruntime : UInt64) : UInt64 :=
  if (vruntime - min).toInt64 < 0 then vruntime else min

/-! ## The runqueue -/

def gtidToThread (s : State G C) (gtid : G) : Option ℕ :=
  (s.swLookup gtid).filter (· < maxGtids)

def getCurrent (s : State G C) (cpu : C) : Option ℕ :=
  (s.rqs cpu).current.bind (gtidToThread s)

def updateMinVruntime (rq : Rq G) (curr : Thread G) (threads : ℕ → Thread G)
    (links : ℕ → Link ℕ) : Rq G :=
  if 0 < rq.nrRunning ∧ rq.nrRunning < 1000 then
    let vruntime := (walk links rq.nrRunning.toNat rq.rqRoot.first).foldl
      (fun v t => minVruntime v (threads t).vruntime) curr.vruntime
    { rq with minVruntime := maxVruntime rq.minVruntime vruntime }
  else rq

def updateCurr (now : UInt64) (rq : Rq G) (curr : Option ℕ) (threads : ℕ → Thread G)
    (links : ℕ → Link ℕ) : Rq G × (ℕ → Thread G) :=
  match curr with
  | none => (rq, threads)
  | some i =>
    let deltaExec := now - (threads i).ranAt
    if deltaExec = 0 then (rq, threads)
    else
      let threads := update threads i { threads i with
        ranAt := now
        vruntime := (threads i).vruntime + calcDeltaFair deltaExec (threads i).weight }
      (updateMinVruntime rq (threads i) threads links, threads)

/-- Make the vruntime of a thread relative to the runqueue. -/
def renormalise (rq : Rq G) (thread : Thread G) (renorm : Bool) : Thread G :=
  if renorm then { thread with vruntime := thread.vruntime + rq.minVruntime } else thread

/-- Where a thread that wakes up is placed. -/
def placeEntity (rq : Rq G) (thread : Thread G) : Thread G :=
  { thread with
    vruntime := maxVruntime thread.vruntime (rq.minVruntime - schedLatency >>> 1) }

section Rq

variable [DecidableEq G] [DecidableEq C]

/-- `wakeup` is the flag `ENQUEUE_WAKEUP`; no caller sets `ENQUEUE_MIGRATED`. -/
def enqueueTask (s : State G C) (gtid : G) (taskBarrier : ℕ) (wakeup : Bool) (cpu : C)
    (now : UInt64) : State G C :=
  match gtidToThread s gtid with
  | none => s
  | some i =>
    let rq := s.rqs cpu
    let thread := { s.threads i with
      gtid := some gtid
      taskBarrier := taskBarrier
      weight := if (s.threads i).weight = 0 then nice0Load else (s.threads i).weight }
    let renorm := !wakeup
    let curr : Bool := rq.current = some gtid
    let thread := renormalise rq thread (renorm && curr)
    let (rq, threads) :=
      updateCurr now rq (getCurrent s cpu) (update s.threads i thread) s.links
    let thread := renormalise rq (threads i) (renorm && !curr)
    let rq := { rq with weight := rq.weight + thread.weight, nrRunning := rq.nrRunning + 1 }
    let thread := if wakeup then placeEntity rq thread else thread
    -- new threads go to the head, old ones to the tail
    let (rqRoot, links) :=
      if wakeup then insertTail rq.rqRoot s.links i else insertHead rq.rqRoot s.links i
    { s with
      threads := update threads i thread
      links := links
      rqs := update s.rqs cpu { rq with rqRoot := rqRoot } }

def updateRqOnTaskDead (rq : Rq G) (thread : Thread G) : Rq G :=
  { rq with nrRunning := rq.nrRunning - 1, weight := rq.weight - thread.weight }

/-- The element that `remove_task_from_rq` takes for the thread. -/
def findInRq (s : State G C) (cpu : C) (i : ℕ) : Option ℕ :=
  let rq := s.rqs cpu
  if 0 < rq.nrRunning ∧ rq.nrRunning < 1000 then
    foreach s.links (· = i) rq.nrRunning.toNat rq.rqRoot.first
  else none

/-- Take an element off a runqueue. -/
def unlink (s : State G C) (cpu : C) (t : ℕ) : State G C :=
  let (rqRoot, links) := remove (s.rqs cpu).rqRoot s.links t
  { s with
    links := links
    rqs := update s.rqs cpu { s.rqs cpu with rqRoot := rqRoot } }

/-- The counters of a runqueue after a thread is gone. -/
def uncount (s : State G C) (cpu : C) (i : ℕ) : State G C :=
  { s with
    rqs := update s.rqs cpu (updateRqOnTaskDead (s.rqs cpu) (s.threads i)) }

def removeTaskFromRq (s : State G C) (cpu : C) (i : ℕ) : State G C :=
  match findInRq s cpu i with
  | none => s
  | some t => uncount (unlink s cpu t) cpu i

/-- The first of the threads with the smallest vruntime, among at most 100. -/
def threadToSchedule (s : State G C) (first : ℕ) : ℕ :=
  (walk s.links 100 (some first)).foldl
    (fun best t => if (s.threads t).vruntime < (s.threads best).vruntime then t else best) first

/-- The state without the thread that PNT takes, and the thread. -/
def cfsPickNextTask (s : State G C) (cpu : C) : Option (State G C × Thread G) :=
  match (s.rqs cpu).rqRoot.first with
  | none => none
  | some first =>
    let t := threadToSchedule s first
    some (unlink s cpu t, s.threads t)

/-! ## Message handlers -/

def State.setCurrent (s : State G C) (cpu : C) (gtid : Option G) : State G C :=
  { s with rqs := update s.rqs cpu { s.rqs cpu with current := gtid } }

def taskStarted (s : State G C) (gtid : G) (cpu : C) : State G C := s.setCurrent cpu (some gtid)

def taskStopped (s : State G C) (cpu : C) : State G C := s.setCurrent cpu none

/-- Delete the entry of a thread. -/
def forget (s : State G C) (gtid : G) : State G C :=
  { s with
    swLookup := update s.swLookup gtid none
    swCount := if (s.swLookup gtid).isSome then s.swCount - 1 else s.swCount }

def handleNew (s : State G C) (gtid : G) (seqnum index : ℕ) (runnable : Bool) (cpu : C)
    (now : UInt64) : State G C :=
  if (s.swLookup gtid).isSome ∨ maxGtids ≤ s.swCount then s
  else
    let s := { s with
      swLookup := update s.swLookup gtid (some index), swCount := s.swCount + 1 }
    match gtidToThread s gtid with
    | none => s
    | some i =>
      let s := { s with
        threads := update s.threads i
          { s.threads i with gtid := some gtid, taskBarrier := seqnum } }
      if runnable then enqueueTask s gtid seqnum false cpu now else s

def handleOnCpu (s : State G C) (gtid : G) (onCpu : C) (now : UInt64) : State G C :=
  match gtidToThread s gtid with
  | none => s
  | some i =>
    taskStarted { s with
      threads := update s.threads i { s.threads i with ranAt := now } } gtid onCpu

def handleBlocked (s : State G C) (gtid : G) (blockedCpu : C) : State G C :=
  if (gtidToThread s gtid).isSome then taskStopped s blockedCpu else s

def handleWakeup (s : State G C) (gtid : G) (seqnum : ℕ) (cpu : C) (now : UInt64) : State G C :=
  if (gtidToThread s gtid).isSome then enqueueTask s gtid seqnum true cpu now else s

/-- A thread stopped on a cpu and is runnable. -/
def handleStopped (s : State G C) (gtid : G) (seqnum : ℕ) (stoppedCpu cpu : C) (now : UInt64) :
    State G C :=
  if (gtidToThread s gtid).isSome then
    enqueueTask (taskStopped s stoppedCpu) gtid seqnum false cpu now
  else s

def handlePreempt (s : State G C) (gtid : G) (seqnum : ℕ) (preemptCpu cpu : C) (now : UInt64) :
    State G C :=
  handleStopped s gtid seqnum preemptCpu cpu now

def handleYield (s : State G C) (gtid : G) (seqnum : ℕ) (yieldCpu cpu : C) (now : UInt64) :
    State G C :=
  handleStopped s gtid seqnum yieldCpu cpu now

/-- The thread is not taken from a runqueue. -/
def handleDead (s : State G C) (gtid : G) (cpu : C) : State G C :=
  match gtidToThread s gtid with
  | none => s
  | some i => forget (uncount s cpu i) gtid

/-- Only the runqueue of the cpu that handles the message is searched. -/
def handleDeparted (s : State G C) (gtid : G) (current : Option (C × Bool)) (cpu : C) : State G C :=
  let s := match current with
    | some (c, _) => taskStopped s c
    | none => s
  match gtidToThread s gtid with
  | none => s
  | some i => forget (removeTaskFromRq s cpu i) gtid

def cfsMsgSend (s : State G C) (gtid : G) (seqnum : ℕ) (cpu : C) (now : UInt64) :
    Msg C ℕ → State G C
  | .new index runnable => handleNew s gtid seqnum index runnable cpu now
  | .onCpu onCpu => handleOnCpu s gtid onCpu now
  | .blocked blockedCpu _ => handleBlocked s gtid blockedCpu
  | .wakeup => handleWakeup s gtid seqnum cpu now
  | .preempt preemptCpu _ => handlePreempt s gtid seqnum preemptCpu cpu now
  | .yield yieldCpu _ => handleYield s gtid seqnum yieldCpu cpu now
  | .dead => handleDead s gtid cpu
  | .departed current => handleDeparted s gtid current cpu
  -- the handler only takes the time
  | .switchto _ => s
  -- no handler
  | .affinityChanged | .prioChanged => s

/-! ## Steps -/

/-- What `bpf_ghost_run_gtid` returns. -/
inductive RunResult where
  | ok
  | enoent
  | estale
  | ebusy
  /-- `ERANGE`, `EXDEV`, `EINVAL`, `ENOSPC` and whatever else there may be. -/
  | other
  deriving DecidableEq

/-- Who takes the next step. A message is handled on a cpu at a time. -/
inductive Action (G C : Type*) where
  | kernel (g : G) (e : Event G ℕ) (cpu : C) (now : UInt64)
  | pnt (cpu : C) (res : RunResult) (now : UInt64)

def State.setPnt (s : State G C) (cpu : C) (p : Pnt G) : State G C :=
  { s with pnt := update s.pnt cpu p }

/-- The next access of a cpu in `cfs_pnt`. The kernel can refuse a thread for
reasons of its own at any time, but it says that a thread is gone or that a
barrier is old only if this is so. -/
def pntStep (s : State G C) (cpu : C) (res : RunResult) (now : UInt64) : Option (State G C) :=
  match s.pnt cpu with
  | .idle =>
    match cfsPickNextTask s cpu with
    | none => none
    | some (s, next) =>
      match next.gtid with
      | none => some s
      | some gtid => some (s.setPnt cpu (.run gtid next.taskBarrier))
  | .run gtid taskBarrier =>
    match res with
    | .ok =>
      (latch s.tasks gtid cpu taskBarrier).map fun k => { s with tasks := k }.setPnt cpu .idle
    | .enoent => if (s.tasks gtid).phase = .absent then some (s.setPnt cpu .idle) else none
    | .estale =>
      if (s.tasks gtid).barrier ≠ taskBarrier then some (s.setPnt cpu .idle) else none
    | .ebusy | .other => some (s.setPnt cpu (.enqueue gtid taskBarrier))
  | .enqueue gtid taskBarrier =>
    some ((enqueueTask s gtid taskBarrier false cpu now).setPnt cpu .idle)

def step (s : State G C) : Action G C → Option (State G C)
  | .kernel g e cpu now =>
    match Kernel.step true s.tasks g e with
    | none => none
    | some (k, none) => some { s with tasks := k }
    | some (k, some msg) => some (cfsMsgSend { s with tasks := k } g (k g).barrier cpu now msg)
  | .pnt cpu res now => pntStep s cpu res now

end Rq

end BpfCfs
