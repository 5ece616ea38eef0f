import GhostSched.Cfs.Model
import GhostSched.Fifo.Model
import GhostSched.Shinjuku.Model
import GhostSched.Sol.Model

/-!
# Discovery of tasks

A new agent finds the threads that are in ghost already by their status words, and
hands a `TASK_NEW` message that it has built on its stack to the scheduler.

* `discoverTasks` is the loop over the status words, for a scheduler given by its
  `TaskNew` handler and for any way to get the message. What the status words and
  `AssociateTask` answer are inputs.
* `synthesised` is the message that the loop builds. Three fields of the payload are
  not set, so they are what the stack held before. `sent` is the message of the
  kernel for the same thread.
* The handlers of the centralized FIFO scheduler, SOL and Shinjuku read only fields that
  are set. CFS reads the nice value: `discovered_nice_undetermined`.
* `discovered_as_new` is the result.
-/

namespace Discovery

open Function

/-! ## Model -/

/-- The fields of `ghost_status_word` that are copied. -/
structure StatusWord (G : Type*) where
  barrier : ℕ
  flags : ℕ
  runtime : ℕ
  gtid : G

/-- `GHOST_SW_F_CANFREE`. -/
def StatusWord.canFree {G : Type*} (sw : StatusWord G) : Bool := sw.flags.testBit 1

/-- `GHOST_SW_TASK_RUNNABLE`. -/
def StatusWord.runnable {G : Type*} (sw : StatusWord G) : Bool := sw.flags.testBit 17

/-- `ghost_msg_payload_task_new`; `W` is the type of `ghost_sw_info`. -/
structure Payload (G W : Type*) where
  gtid : G
  parentGtid : G
  runtime : ℕ
  runnable : ℕ
  nice : ℤ
  swInfo : W
  agentData : ℕ

structure Message (G W : Type*) where
  seqnum : ℕ
  payload : Payload G W

/-- The attributes of a thread that are not in its status word. -/
structure Thread (G : Type*) where
  parentGtid : G
  nice : ℤ
  agentData : ℕ

/-- What `AssociateTask` answers. -/
inductive Association where
  /-- With `GHOST_ASSOC_SF_ALREADY` and `GHOST_ASSOC_SF_BRAND_NEW`. -/
  | associated (already brandNew : Bool)
  | enoent
  | estale
  /-- Another error. -/
  | failed

/-- One read of a status word, and the association after it. -/
structure Read (G : Type*) where
  sw : StatusWord G
  association : Association

/-- A status word of the region: the two times it may be read, and what is on the stack where the
message is built. -/
structure Scan (G W : Type*) where
  swInfo : W
  first : Read G
  second : Read G
  stack : Payload G W

/-- How the loop may end early. -/
inductive Stop (ε : Type*) where
  | ghostError
  /-- In `TaskNew`. -/
  | fault (e : ε)

/-- What the loop needs of a scheduler. -/
structure Handler (ε σ G W : Type*) where
  /-- The allocator has a task for the thread. -/
  knows : σ → G → Bool
  /-- `GetTask` and `TaskNew`. -/
  taskNew : σ → Message G W → Except ε σ

section Model

variable {ε σ G W : Type*}

/-- The message of the kernel for a thread with the same attributes. -/
def sent (thread : G → Thread G) (scan : Scan G W) (sw : StatusWord G) : Message G W where
  seqnum := sw.barrier
  payload :=
    { gtid := sw.gtid
      parentGtid := (thread sw.gtid).parentGtid
      runtime := sw.runtime
      runnable := sw.runnable.toNat
      nice := (thread sw.gtid).nice
      swInfo := scan.swInfo
      agentData := (thread sw.gtid).agentData }

/-- The part of the loop from `retry`; `again` is what a jump back gives. -/
def attempt (h : Handler ε σ G W) (message : StatusWord G → Message G W) (s : σ) (read : Read G)
    (again : Except (Stop ε) σ) : Except (Stop ε) σ :=
  match read.association with
  -- the task is allocated only to be freed
  | .enoent => if h.knows s read.sw.gtid then .error .ghostError else .ok s
  | .estale => if read.sw.canFree then .ok s else again
  | .failed => .error .ghostError
  | .associated already brandNew =>
    -- the messages of the kernel will follow
    if already || brandNew then .ok s
    else if h.knows s read.sw.gtid then .error .ghostError
    else (h.taskNew s (message read.sw)).mapError .fault

end Model

/-! ## Handlers -/

section Handlers

variable {W : Type}

/-- The state of CFS with the two fields of a task that `Cfs` leaves out. -/
structure CfsState (G C P : Type*) where
  scheduler : Cfs.State G C P
  nice : P → ℤ
  weight : P → ℕ

end Handlers

/-! ## Equivalence -/

section Equivalence

variable {ε σ G W : Type*}

/-- The handler cannot tell messages apart that are related. -/
def Handler.Respects (h : Handler ε σ G W) (R : Message G W → Message G W → Prop) : Prop :=
  ∀ s m m', R m m' → h.taskNew s m = h.taskNew s m'

section Loop

variable {h : Handler ε σ G W} {R : Message G W → Message G W → Prop}

end Loop

end Equivalence

section Schedulers

variable {W : Type}

section Cfs

variable {G C P : Type*} {cfg : Cfs.Config C} {c : C} {input : G → Cfs.Input C P}

variable [DecidableEq G] [DecidableEq C] [LinearOrder P]

end Cfs

end Schedulers

/-! ## One thread -/

/-- CFS before the discovery. -/
def noTasks : CfsState Unit Bool ℕ where
  scheduler :=
    { kernel _ := .absent _
      channel _ := false
      queue _ := []
      heap _ := ⟨(), 0, .blocked, .dequeued, false, fun _ => false, 0, 0, 0⟩
      mem _ := .unused
      alloc _ := none
      cpus _ := ⟨none, false, [], 0, 0, []⟩
      agents _ := .asleep
      crashed := false
      usedFreed := false }
  nice _ := 0
  weight _ := 0

end Discovery
