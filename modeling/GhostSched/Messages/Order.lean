import Mathlib.Logic.Function.Basic
import GhostSched.Lib.Transition

/-!
# The check of the message order

`DispatchMessage` compares the sequence number of each message with the one that the task
has stored. The kernel counts with 32 bits, so a number that follows another one may be
smaller, but the comparison is one of plain numbers.

* `dispatchMessage` is the part of the dispatcher that is about sequence numbers.
* `InOrder` says that the kernel counts up, modulo the size of the counter.
* `seqnum_eq_delivered` is the result for all runs in which no counter wraps and no thread
  comes back before its old task is gone. `wrapped_check_fails` has a run in which one
  counter wraps, one in which a thread comes back too early, and one in which a task is
  kept that the result says nothing about.
-/

namespace MessageOrder

open Transition Function

/-- The messages about tasks. -/
inductive MsgType where
  | new
  | preempt
  | dead
  | wakeup
  | blocked
  | yield
  | departed
  | switchto
  | affinityChanged
  | priorityChanged
  | onCpu
  deriving DecidableEq

/-- `update_seqnum`: `TaskNew` stores the number itself, and after the other two the task may be
gone. -/
def MsgType.updateSeqnum : MsgType → Bool
  | .new | .dead | .departed => false
  | _ => true

/-- `TASK_DEAD` and `TASK_DEPARTED`. -/
def MsgType.ends (type : MsgType) : Bool :=
  type == .dead || type == .departed

structure Message (G : Type*) where
  gtid : G
  type : MsgType
  seqnum : UInt32

/-- The tasks of the allocator, each with its `seqnum`. -/
abbrev Tasks (G : Type*) := G → Option UInt32

/-- `Task::Advance`, unless its `CHECK` fails. -/
def advance (seqnum next : UInt32) : Option UInt32 :=
  if next > seqnum then some next else none

section Model

variable {G : Type*} [DecidableEq G]

/-- The handlers of `TASK_DEAD` and `TASK_DEPARTED` may free the task or keep it. Nothing is
returned if a `CHECK` fails. -/
def dispatchMessage (tasks : Tasks G) (msg : Message G) (frees : Bool) : Option (Tasks G) :=
  match msg.type, tasks msg.gtid with
  | .new, none => some (update tasks msg.gtid (some msg.seqnum))
  -- messages without a task, and a new message for a task that is there, are ignored
  | .new, some _ | _, none => some tasks
  | type, some seqnum =>
    if type.updateSeqnum then
      (advance seqnum msg.seqnum).map fun n => update tasks msg.gtid (some n)
    else if frees then some (update tasks msg.gtid none)
    else some tasks

/-- The tasks, and for each thread that is there the number of the message delivered last. -/
structure State (G : Type*) where
  tasks : Tasks G
  delivered : G → Option UInt32
  crashed : Bool

inductive Action (G : Type*) where
  | deliver (msg : Message G) (frees : Bool)
  /-- The scheduler frees a task that it has kept when the thread left. -/
  | free (gtid : G)

def step (s : State G) : Action G → Option (State G)
  | .deliver msg frees =>
    if s.crashed then none
    else
      match dispatchMessage s.tasks msg frees with
      | none => some { s with crashed := true }
      | some tasks =>
        some ⟨tasks,
          update s.delivered msg.gtid (if msg.type.ends then none else some msg.seqnum), false⟩
  | .free g =>
    if s.delivered g = none then some { s with tasks := update s.tasks g none } else none

def init : State G := ⟨fun _ => none, fun _ => none, false⟩

/-- The kernel sends `TASK_NEW` first, and it counts up by less than half of the range. -/
def InOrder (s : State G) : Action G → Prop
  | .deliver msg _ =>
    if msg.type = .new then s.delivered msg.gtid = none
    else ∃ m ∈ s.delivered msg.gtid, 0 < msg.seqnum - m ∧ msg.seqnum - m < 2147483648
  | .free _ => True

/-- The counter does not wrap. -/
def Unwrapped (s : State G) : Action G → Prop
  | .deliver msg _ => ∀ m ∈ s.delivered msg.gtid, m < msg.seqnum
  | .free _ => True

/-- A thread that comes back finds its old task freed. -/
def Freed (s : State G) : Action G → Prop
  | .deliver msg _ => msg.type = .new → s.tasks msg.gtid = none
  | .free _ => True

/-- Each thread that is there has a task with the number that was delivered last. -/
def Recorded (s : State G) : Prop := ∀ g, ∀ n ∈ s.delivered g, s.tasks g = some n

/-- The message is accepted, and its number is stored unless the thread leaves. -/
theorem dispatchMessage_spec {s : State G} {msg : Message G} {frees : Bool} (h : Recorded s)
    (horder : InOrder s (.deliver msg frees)) (hok : Unwrapped s (.deliver msg frees))
    (hfreed : Freed s (.deliver msg frees)) :
    ∃ task, dispatchMessage s.tasks msg frees = some (update s.tasks msg.gtid task) ∧
      (msg.type.ends = false → task = some msg.seqnum) := by
  rcases msg with ⟨g, type, n⟩
  by_cases hnew : type = .new
  · subst hnew
    have hnone : s.tasks g = none := hfreed rfl
    exact ⟨some n, by simp [dispatchMessage, hnone], fun _ => rfl⟩
  · obtain ⟨m, hm, -⟩ : ∃ m ∈ s.delivered g, _ := by simpa [InOrder, hnew] using horder
    have hlt : m < n := hok m hm
    have hsome : s.tasks g = some m := h g m hm
    cases type with
    | new => exact absurd rfl hnew
    | dead | departed =>
      cases frees with
      | true =>
        exact ⟨none, by simp [dispatchMessage, hsome, MsgType.updateSeqnum], by simp [MsgType.ends]⟩
      | false =>
        -- the task is kept as it is
        refine ⟨s.tasks g, ?_, by simp [MsgType.ends]⟩
        rw [update_eq_self]
        simp [dispatchMessage, hsome, MsgType.updateSeqnum]
    | _ => exact ⟨some n, by simp [dispatchMessage, hsome, MsgType.updateSeqnum, advance, hlt],
        fun _ => rfl⟩

/-- No `CHECK` fails in one step, and the task of the message is up to date after it. -/
theorem step_spec {s s' : State G} {a : Action G} (h : s.crashed = false ∧ Recorded s)
    (ha : InOrder s a ∧ Unwrapped s a ∧ Freed s a) (hs : step s a = some s') :
    s'.crashed = false ∧ Recorded s' := by
  cases a with
  | deliver msg frees =>
    obtain ⟨task, heq, htask⟩ := dispatchMessage_spec h.2 ha.1 ha.2.1 ha.2.2
    simp only [step, heq, h.1, Bool.false_eq_true, if_false] at hs
    cases hs
    refine ⟨rfl, fun g n hn => ?_⟩
    by_cases hg : g = msg.gtid
    · subst hg
      simp only [update_self, Option.mem_def, Option.ite_none_left_eq_some,
        Option.some.injEq, Bool.not_eq_true] at hn
      exact (update_self ..).trans ((htask hn.1).trans (congrArg some hn.2))
    · simp only [update_of_ne hg] at hn ⊢
      exact h.2 g n hn
  | free g =>
    obtain ⟨hnone, hs⟩ := Option.ite_none_right_eq_some.mp hs
    cases hs
    refine ⟨h.1, fun g' n hn => ?_⟩
    -- the thread of the freed task is not there
    have hne : g' ≠ g := by
      rintro rfl
      cases hnone.symm.trans hn
    exact (update_of_ne hne ..).trans (h.2 g' n hn)

/-- As long as no counter wraps and no thread comes back before its old task is freed, no check
fails and each task has the number of the message that was delivered last. -/
theorem seqnum_eq_delivered {s : State G}
    (h : StepsWhen (fun s a => InOrder s a ∧ Unwrapped s a ∧ Freed s a) step init s) :
    s.crashed = false ∧ ∀ g n, s.delivered g = some n → s.tasks g = some n :=
  h.invariant (fun _ _ _ hs ha hstep => step_spec hs ha hstep) ⟨rfl, fun _ _ hn => by cases hn⟩

instance (s : State G) (a : Action G) : Decidable (InOrder s a) :=
  match a with
  | .deliver msg _ => inferInstanceAs (Decidable (if msg.type = .new then _ else _))
  | .free _ => inferInstanceAs (Decidable True)

instance (s : State G) (a : Action G) : Decidable (Unwrapped s a) :=
  match a with
  -- not by going through all numbers
  | .deliver _ _ => Option.decidableForallMem _
  | .free _ => inferInstanceAs (Decidable True)

instance (s : State G) (a : Action G) : Decidable (Freed s a) :=
  match a with
  | .deliver msg _ => inferInstanceAs (Decidable (msg.type = .new → _))
  | .free _ => inferInstanceAs (Decidable True)

end Model

/-- A thread wakes up and leaves. Its task is freed later, and then it comes back. -/
def leaveAndReturn : List (Action Unit) :=
  [.deliver ⟨(), .new, 5⟩ false, .deliver ⟨(), .wakeup, 6⟩ false,
    .deliver ⟨(), .departed, 9⟩ false, .free (), .deliver ⟨(), .new, 1⟩ false,
    .deliver ⟨(), .blocked, 2⟩ false]

theorem seqnum_eq_delivered_returned :
    ∃ s, exec step init leaveAndReturn = some s ∧ s.delivered () = some 2 ∧
      s.crashed = false ∧ ∀ g n, s.delivered g = some n → s.tasks g = some n :=
  ⟨_, rfl, rfl, seqnum_eq_delivered
    (.of_execWhen (fun _ _ h => of_decide_eq_true h) leaveAndReturn rfl)⟩

/-- The number after the largest one is zero. A thread that comes back before its old task is freed
keeps that one, with a number that the new stay has not reached. A task that is kept when its
thread leaves does not get the number `7` of the last message. -/
theorem wrapped_check_fails :
    (∃ s : State Unit, StepsWhen (fun s a => InOrder s a ∧ Freed s a) step init s ∧
      s.crashed = true) ∧
    (∃ s : State Unit, StepsWhen (fun s a => InOrder s a ∧ Unwrapped s a) step init s ∧
      s.crashed = true) ∧
    ∃ s : State Unit, exec step init [.deliver ⟨(), .new, 5⟩ false, .deliver ⟨(), .wakeup, 6⟩ false,
      .deliver ⟨(), .departed, 7⟩ false] = some s ∧ s.tasks () = some 6 :=
  ⟨⟨_, .of_execWhen (fun _ _ h => of_decide_eq_true h)
    [.deliver ⟨(), .new, 4294967295⟩ false, .deliver ⟨(), .wakeup, 0⟩ false] rfl, rfl⟩,
   ⟨_, .of_execWhen (fun _ _ h => of_decide_eq_true h)
    [.deliver ⟨(), .new, 5⟩ false, .deliver ⟨(), .departed, 6⟩ false, .deliver ⟨(), .new, 1⟩ false,
      .deliver ⟨(), .wakeup, 2⟩ false] rfl, rfl⟩,
   ⟨_, rfl, rfl⟩⟩

end MessageOrder
