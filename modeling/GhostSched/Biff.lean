import GhostSched.Kernel
import GhostSched.Lib.Transition

/-!
# Biff

The standalone biff scheduler: one global fifo of threads, filled by the message
handlers and emptied by PNT. An item of the fifo records the barrier its thread
had when it was queued, and the kernel refuses an item whose barrier is old, so
a thread is not lost only as long as some item has its present barrier.

* `biffMsgSend` and its handlers, `pntStep` and `step` are the model. A message
  is handled while the kernel holds the runqueue lock of its thread, so a
  kernel event and its handler are one step. PNT has no lock between its accesses
  to the fifo and the kernel.
* `Kept` is what keeps a thread from being lost: the maps have room, and no
  message that biff does not handle is sent for a thread that waits.
* `none_lost` is the result for runs; `affinity_change_loses` shows what such a
  message does.
-/

namespace Biff

open Kernel Transition Function

/-- `BIFF_MAX_GTIDS` -/
def maxGtids : ℕ := 65536

structure RqItem (G : Type*) where
  gtid : G
  taskBarrier : ℕ
  deriving DecidableEq

/-- Where a cpu is in `biff_pnt`. -/
inductive Pnt (G : Type*) where
  | idle
  /-- Before `bpf_ghost_run_gtid`. -/
  | run (next : RqItem G)
  /-- Before it puts the item back. -/
  | enqueue (next : RqItem G)
  deriving DecidableEq

/-- The item that PNT has taken from the queue and not dropped yet. -/
def Pnt.next {G : Type*} : Pnt G → Option (RqItem G)
  | .idle => none
  | .run next | .enqueue next => some next

structure State (G C : Type*) where
  tasks : G → Kernel.Task C
  /-- The status word index of each thread. -/
  swLookup : G → Option ℕ
  /-- The number of entries of the hash map. -/
  swCount : ℕ
  globalRq : List (RqItem G)
  pnt : C → Pnt G

def State.init (G C : Type*) : State G C :=
  ⟨fun _ => .absent C, fun _ => none, 0, [], fun _ => .idle⟩

/-- What `bpf_ghost_run_gtid` returns. -/
inductive RunResult where
  | ok
  | enoent
  | estale
  | ebusy
  /-- `ERANGE`, `EXDEV`, `EINVAL`, `ENOSPC` and whatever else there may be. -/
  | other

/-- Who takes the next step. -/
inductive Action (G C : Type*) where
  | kernel (g : G) (e : Event G ℕ)
  | pnt (c : C) (res : RunResult)

variable {G C : Type*}

/-! ## Message handlers -/

/-- A push fails if the map is full, and then the item is gone. -/
def enqueueTask (s : State G C) (gtid : G) (taskBarrier : ℕ) : State G C :=
  if s.globalRq.length < maxGtids then
    { s with globalRq := s.globalRq ++ [⟨gtid, taskBarrier⟩] }
  else s

def gtidToSwd (s : State G C) (gtid : G) : Option ℕ :=
  (s.swLookup gtid).filter (· < maxGtids)

section Handlers

variable [DecidableEq G]

def handleNew (s : State G C) (gtid : G) (seqnum index : ℕ) (runnable : Bool) : State G C :=
  if (s.swLookup gtid).isSome ∨ maxGtids ≤ s.swCount then s
  else
    let s := { s with
      swLookup := update s.swLookup gtid (some index), swCount := s.swCount + 1 }
    if (gtidToSwd s gtid).isSome ∧ runnable then enqueueTask s gtid seqnum else s

/-- A thread that biff knows about is runnable again. -/
def handleRunnable (s : State G C) (gtid : G) (seqnum : ℕ) : State G C :=
  if (gtidToSwd s gtid).isSome then enqueueTask s gtid seqnum else s

def handleWakeup (s : State G C) (gtid : G) (seqnum : ℕ) : State G C :=
  handleRunnable s gtid seqnum

def handlePreempt (s : State G C) (gtid : G) (seqnum : ℕ) : State G C :=
  handleRunnable s gtid seqnum

def handleYield (s : State G C) (gtid : G) (seqnum : ℕ) : State G C :=
  handleRunnable s gtid seqnum

/-- Delete the entry of a thread. -/
def forget (s : State G C) (gtid : G) : State G C :=
  { s with
    swLookup := update s.swLookup gtid none
    swCount := if (s.swLookup gtid).isSome then s.swCount - 1 else s.swCount }

def handleDead (s : State G C) (gtid : G) : State G C := forget s gtid

def handleDeparted (s : State G C) (gtid : G) : State G C := forget s gtid

def biffMsgSend (s : State G C) (gtid : G) (seqnum : ℕ) : Msg C ℕ → State G C
  | .new index runnable => handleNew s gtid seqnum index runnable
  | .wakeup => handleWakeup s gtid seqnum
  | .preempt _ _ => handlePreempt s gtid seqnum
  | .yield _ _ => handleYield s gtid seqnum
  | .dead => handleDead s gtid
  | .departed _ => handleDeparted s gtid
  -- the handlers of these only take times and the thread a cpu runs
  | .onCpu _ | .blocked _ _ | .switchto _ => s
  -- no handler
  | .affinityChanged | .prioChanged => s

end Handlers

/-! ## Steps -/

section Steps

variable [DecidableEq G] [DecidableEq C]

def State.setPnt (s : State G C) (c : C) (p : Pnt G) : State G C :=
  { s with pnt := update s.pnt c p }

/-- The next access of a cpu in `biff_pnt`. The kernel can refuse a thread for
reasons of its own at any time, but it says that a thread is gone or that a
barrier is old only if this is so. -/
def pntStep (s : State G C) (c : C) (res : RunResult) : Option (State G C) :=
  match s.pnt c with
  | .idle =>
    match s.globalRq with
    | [] => none
    | next :: rq => some ({ s with globalRq := rq }.setPnt c (.run next))
  | .run next =>
    match res with
    | .ok =>
      (latch s.tasks next.gtid c next.taskBarrier).map fun k =>
        { s with tasks := k }.setPnt c .idle
    | .enoent =>
      if (s.tasks next.gtid).phase = .absent then some (s.setPnt c .idle) else none
    | .estale =>
      if (s.tasks next.gtid).barrier ≠ next.taskBarrier then some (s.setPnt c .idle) else none
    | .ebusy | .other => some (s.setPnt c (.enqueue next))
  | .enqueue next => some ((enqueueTask s next.gtid next.taskBarrier).setPnt c .idle)

def step (s : State G C) : Action G C → Option (State G C)
  | .kernel g e =>
    match Kernel.step true s.tasks g e with
    | none => none
    | some (k, none) => some { s with tasks := k }
    | some (k, some msg) => some (biffMsgSend { s with tasks := k } g (k g).barrier msg)
  | .pnt c res => pntStep s c res

end Steps

/-! ## What keeps a thread from being lost -/

/-- There is room for what the handler of a message stores, and a message
without a handler is not about a thread that waits. -/
def MsgKept (s : State G C) (g : G) : Msg C ℕ → Prop
  | .new index _ => s.swCount < maxGtids ∧ index < maxGtids ∧ s.globalRq.length < maxGtids
  | .wakeup | .preempt _ _ | .yield _ _ => s.globalRq.length < maxGtids
  | .affinityChanged | .prioChanged => (s.tasks g).phase ≠ .runnable
  | _ => True

def Kept [DecidableEq G] (s : State G C) : Action G C → Prop
  | .kernel g e =>
    match Kernel.step true s.tasks g e with
    | some (_, some msg) => MsgKept s g msg
    | _ => True
  | .pnt c _ =>
    match s.pnt c with
    | .enqueue _ => s.globalRq.length < maxGtids
    | _ => True

instance [DecidableEq C] (s : State G C) (g : G) (msg : Msg C ℕ) : Decidable (MsgKept s g msg) := by
  unfold MsgKept
  split <;> infer_instance

instance [DecidableEq G] [DecidableEq C] (s : State G C) (a : Action G C) :
    Decidable (Kept s a) := by
  unfold Kept
  split <;> split <;> infer_instance

/-- An item is in the queue, or PNT has taken it and will still run it or put it
back. -/
def Waits (s : State G C) (item : RqItem G) : Prop :=
  item ∈ s.globalRq ∨ ∃ c, (s.pnt c).next = some item

/-! ## The invariant -/

/-- Biff knows the thread if it is in ghost, and there is an item with its present
barrier if it waits. -/
structure Tracked (s : State G C) (g : G) : Prop where
  known : (s.tasks g).phase ≠ .absent → (gtidToSwd s g).isSome
  unknown : (s.tasks g).phase = .absent → s.swLookup g = none
  waits : (s.tasks g).phase = .runnable → Waits s ⟨g, (s.tasks g).barrier⟩

variable {s s' : State G C} {g g' : G} {c : C} {t : Kernel.Task C} {item next : RqItem G} {n : ℕ}

theorem tracked_init : Tracked (State.init G C) g :=
  ⟨fun h => absurd rfl h, fun _ => rfl, nofun⟩

/-- A step about another thread. -/
theorem Tracked.frame (h : Tracked s g) (htask : s'.tasks g = s.tasks g)
    (hlookup : s'.swLookup g = s.swLookup g)
    (hwaits : ∀ n, Waits s ⟨g, n⟩ → Waits s' ⟨g, n⟩) : Tracked s' g := by
  refine ⟨?_, ?_, ?_⟩
  · rw [htask, gtidToSwd, hlookup]
    exact h.known
  · rw [htask, hlookup]
    exact h.unknown
  · rw [htask]
    intro hrun
    exact hwaits _ (h.waits hrun)

/-- A thread that biff knows and that does not wait. -/
theorem tracked_quiet (ht : s.tasks g = t) (habs : t.phase ≠ .absent) (hrun : t.phase ≠ .runnable)
    (hknown : (gtidToSwd s g).isSome) : Tracked s g := by
  subst ht
  exact ⟨fun _ => hknown, fun h => absurd h habs, fun h => absurd h hrun⟩

/-- A thread that left ghost. -/
theorem tracked_gone (habs : (s.tasks g).phase = .absent) (hlookup : s.swLookup g = none) :
    Tracked s g :=
  ⟨fun h => absurd habs h, fun _ => hlookup, fun h => nomatch habs.symm.trans h⟩

/-! ### The queue -/

@[simp]
theorem enqueueTask_tasks : (enqueueTask s g n).tasks = s.tasks := by
  unfold enqueueTask
  split <;> rfl

@[simp]
theorem enqueueTask_swLookup : (enqueueTask s g n).swLookup = s.swLookup := by
  unfold enqueueTask
  split <;> rfl

@[simp]
theorem enqueueTask_pnt : (enqueueTask s g n).pnt = s.pnt := by
  unfold enqueueTask
  split <;> rfl

theorem Waits.enqueueTask (h : Waits s item) : Waits (enqueueTask s g n) item := by
  unfold Biff.enqueueTask
  split
  · exact h.imp_left (List.mem_append_left _)
  · exact h

/-- A push into a queue with room. -/
theorem mem_enqueueTask (hroom : s.globalRq.length < maxGtids) :
    ⟨g, n⟩ ∈ (enqueueTask s g n).globalRq := by
  rw [enqueueTask, if_pos hroom]
  exact List.mem_append_right _ (List.mem_singleton_self _)

/-- A thread that biff knows is runnable and has been queued. -/
theorem tracked_enqueueTask (ht : s.tasks g = t) (hrun : t.phase = .runnable)
    (hknown : (gtidToSwd s g).isSome) (hroom : s.globalRq.length < maxGtids) :
    Tracked (enqueueTask s g t.barrier) g := by
  refine ⟨?_, ?_, ?_⟩
  · intro _
    rw [gtidToSwd, enqueueTask_swLookup]
    exact hknown
  · rw [enqueueTask_tasks, ht, hrun]
    nofun
  · rw [enqueueTask_tasks, ht]
    intro _
    exact .inl (mem_enqueueTask hroom)

/-! ### Messages -/

section Messages

variable [DecidableEq G]

variable {msg : Msg C ℕ}

theorem biffMsgSend_tasks : (biffMsgSend s g n msg).tasks = s.tasks := by
  cases msg with
  | new index r =>
    simp only [biffMsgSend, handleNew]
    split
    · rfl
    · split
      · exact enqueueTask_tasks
      · rfl
  | wakeup | preempt | yield =>
    simp only [biffMsgSend, handleWakeup, handlePreempt, handleYield, handleRunnable]
    split
    · exact enqueueTask_tasks
    · rfl
  | _ => rfl

theorem biffMsgSend_swLookup (hne : g' ≠ g) :
    (biffMsgSend s g n msg).swLookup g' = s.swLookup g' := by
  cases msg with
  | new index r =>
    simp only [biffMsgSend, handleNew]
    split
    · rfl
    · split
      · rw [enqueueTask_swLookup]
        exact update_of_ne hne ..
      · exact update_of_ne hne ..
  | wakeup | preempt | yield =>
    simp only [biffMsgSend, handleWakeup, handlePreempt, handleYield, handleRunnable]
    split
    · rw [enqueueTask_swLookup]
    · rfl
  | dead | departed => exact update_of_ne hne ..
  | _ => rfl

theorem Waits.biffMsgSend (h : Waits s item) : Waits (biffMsgSend s g n msg) item := by
  cases msg with
  | new index r =>
    simp only [Biff.biffMsgSend, handleNew]
    split
    · exact h
    · split
      · exact Waits.enqueueTask h
      · exact h
  | wakeup | preempt | yield =>
    simp only [Biff.biffMsgSend, handleWakeup, handlePreempt, handleYield, handleRunnable]
    split
    · exact h.enqueueTask
    · exact h
  | _ => exact h

/-- The handler of a message about the thread itself. -/
theorem Tracked.sends (h : Tracked s g) (hsends : Sends (s.tasks g) msg t)
    (hkept : MsgKept s g msg) :
    Tracked (biffMsgSend { s with tasks := update s.tasks g t } g t.barrier msg) g := by
  have htask : update s.tasks g t g = t := update_self ..
  -- biff knows every thread that it gets a message about, but for a new one
  have hknown : (s.tasks g).phase ≠ .absent →
      (gtidToSwd { s with tasks := update s.tasks g t } g).isSome := h.known
  cases hsends with
  | new index barrier r habs =>
    rcases hkept with ⟨hcount, hindex, hroom⟩
    have hfresh : ¬((s.swLookup g).isSome ∨ maxGtids ≤ s.swCount) := by
      rw [h.unknown habs]
      simpa using hcount
    have hswd : ∀ tasks, (gtidToSwd (C := C) ⟨tasks, update s.swLookup g (some index),
        s.swCount + 1, s.globalRq, s.pnt⟩ g).isSome := by
      intro tasks
      simp [gtidToSwd, Option.filter, hindex]
    simp only [biffMsgSend, handleNew, if_neg hfresh]
    cases r with
    | true =>
      rw [if_pos ⟨hswd _, rfl⟩]
      exact tracked_enqueueTask (t := ⟨.runnable, _, barrier⟩) htask rfl (hswd _) hroom
    | false =>
      rw [if_neg fun hr => nomatch hr.2]
      exact tracked_quiet htask nofun nofun (hswd _)
  | onCpu c hp | blocked c sw hp =>
      exact tracked_quiet htask nofun nofun (hknown (by rw [hp]; nofun))
  | wakeup hp =>
    have hk := hknown (by rw [hp]; nofun)
    rw [biffMsgSend, handleWakeup, handleRunnable, if_pos hk]
    exact tracked_enqueueTask htask rfl hk hkept
  | preempt c sw hp | unlatch c hp =>
    have hk := hknown (by rw [hp]; nofun)
    rw [biffMsgSend, handlePreempt, handleRunnable, if_pos hk]
    exact tracked_enqueueTask htask rfl hk hkept
  | yield c sw hp =>
    have hk := hknown (by rw [hp]; nofun)
    rw [biffMsgSend, handleYield, handleRunnable, if_pos hk]
    exact tracked_enqueueTask htask rfl hk hkept
  | affinityChanged hp | prioChanged hp => exact tracked_quiet htask hp hkept (hknown hp)
  | dead | departed | left =>
    exact tracked_gone (congrArg _ htask) (update_self ..)

omit [DecidableEq G] in
/-- A step without a message that biff acts on. -/
theorem Tracked.quiet {k : G → Kernel.Task C} (h : Tracked s g) (hq : Quiet (s.tasks g) (k g)) :
    Tracked { s with tasks := k } g := by
  refine ⟨fun hin => h.known (mt hq.absent.mpr hin), fun ha => h.unknown (hq.absent.mp ha), ?_⟩
  intro hrun
  have hwas := hq.runnable.mp hrun
  rw [hq.barrier hwas]
  exact h.waits hwas

end Messages

/-! ### PNT -/

section Pnt

variable [DecidableEq C]

/-- PNT takes an item that has nothing to do with the one that waits. -/
theorem Waits.setPnt {p : Pnt G} (h : Waits s item)
    (hp : (s.pnt c).next = some item → p.next = some item) : Waits (s.setPnt c p) item := by
  rcases h with hmem | ⟨c', hc'⟩
  · exact .inl hmem
  · refine .inr ⟨c', ?_⟩
    show (update s.pnt c p c').next = some item
    rw [update_apply]
    split_ifs with hc
    · subst hc
      exact hp hc'
    · exact hc'

/-- PNT drops an item of a thread that does not wait with the barrier of it. -/
theorem Tracked.drop (h : Tracked s g) (hp : (s.pnt c).next = some next)
    (hne : (s.tasks g).phase = .runnable → next ≠ ⟨g, (s.tasks g).barrier⟩) :
    Tracked (s.setPnt c .idle) g := by
  refine ⟨h.known, h.unknown, fun hrun => (h.waits hrun).setPnt ?_⟩
  intro hitem
  exact absurd (Option.some.inj (hp.symm.trans hitem)) (hne hrun)

/-- PNT takes the first item of the queue. -/
theorem Tracked.pop {rq : List (RqItem G)} (h : Tracked s g) (hidle : s.pnt c = .idle)
    (hrq : s.globalRq = next :: rq) :
    Tracked ({ s with globalRq := rq }.setPnt c (.run next)) g := by
  refine h.frame rfl rfl fun n hn => ?_
  rcases hn with hmem | ⟨c', hc'⟩
  · rw [hrq] at hmem
    rcases List.mem_cons.mp hmem with heq | hmem
    · refine .inr ⟨c, ?_⟩
      show (update s.pnt c (.run next) c).next = _
      rw [update_self, heq]
      rfl
    · exact .inl hmem
  · have hc : c' ≠ c := by
      intro heq
      rw [heq, hidle] at hc'
      cases hc'
    refine .inr ⟨c', ?_⟩
    show (update s.pnt c (.run next) c').next = _
    rw [update_of_ne hc]
    exact hc'

variable [DecidableEq G]

/-- The kernel latches the thread of the item. -/
theorem Tracked.latch {k : G → Kernel.Task C} (h : Tracked s g) (hp : (s.pnt c).next = some next)
    (hk : latch s.tasks next.gtid c next.taskBarrier = some k) :
    Tracked ({ s with tasks := k }.setPnt c .idle) g := by
  rcases latch_eq_some hk with ⟨hphase, -, rfl⟩
  by_cases hg : g = next.gtid
  · subst hg
    refine tracked_quiet (update_self ..) nofun nofun (h.known ?_)
    rw [hphase]
    nofun
  · refine (h.drop hp ?_).frame (update_of_ne hg ..) rfl fun n hn => hn
    rintro - rfl
    exact hg rfl

theorem tracked_pntStep {res : RunResult} (hI : ∀ g, Tracked s g) (hkept : Kept s (.pnt c res))
    (hstep : pntStep s c res = some s') : ∀ g, Tracked s' g := by
  intro g
  unfold pntStep at hstep
  split at hstep
  · rename_i hidle
    split at hstep <;> cases hstep
    exact (hI g).pop hidle ‹_›
  · -- bpf_ghost_run_gtid
    rename_i next hrun
    have hnext : (s.pnt c).next = some next := by rw [hrun]; rfl
    cases res with
    | ok =>
      rcases Option.map_eq_some_iff.mp hstep with ⟨k, hk, hs⟩
      subst hs
      exact (hI g).latch hnext hk
    | enoent =>
      rcases Option.ite_none_right_eq_some.mp hstep with ⟨habs, hs⟩
      cases hs
      refine (hI g).drop hnext ?_
      rintro hwaits rfl
      cases habs.symm.trans hwaits
    | estale =>
      rcases Option.ite_none_right_eq_some.mp hstep with ⟨hold, hs⟩
      cases hs
      refine (hI g).drop hnext ?_
      rintro - rfl
      exact hold rfl
    | ebusy | other =>
      cases hstep
      refine (hI g).frame rfl rfl fun n hn => hn.setPnt ?_
      rw [hnext]
      exact id
  · -- the item goes back to the queue, which has room for it
    rename_i next hput
    simp only [Kept, hput] at hkept
    have hnext : (s.pnt c).next = some next := by rw [hput]; rfl
    cases hstep
    refine (hI g).frame (congrFun enqueueTask_tasks g) (congrFun enqueueTask_swLookup g) ?_
    intro n hn
    by_cases hitem : next = ⟨g, n⟩
    · subst hitem
      exact .inl (mem_enqueueTask hkept)
    · refine hn.enqueueTask.setPnt fun hpnt => ?_
      rw [enqueueTask_pnt, hnext] at hpnt
      exact absurd (Option.some.inj hpnt) hitem

end Pnt

/-! ## Runs -/

section Run

variable [DecidableEq G] [DecidableEq C]

theorem tracked_step {a : Action G C} (hI : ∀ g, Tracked s g) (hkept : Kept s a)
    (hstep : step s a = some s') : ∀ g, Tracked s' g := by
  cases a with
  | pnt c res => exact tracked_pntStep hI hkept hstep
  | kernel g e =>
    intro g'
    simp only [Kept] at hkept
    simp only [step] at hstep
    split at hstep
    · cases hstep
    · -- no message
      rename_i k hk
      cases hstep
      rcases (step_cases hk).sends_or_quiet with ⟨_, _, _, hmsg, _⟩ | ⟨_, hq⟩
      · cases hmsg
      · exact (hI g').quiet (hq g')
    · rename_i k msg hk
      cases hstep
      rw [hk] at hkept
      rcases (step_cases hk).sends_or_quiet with ⟨_, t, hsends, hmsg, rfl⟩ | ⟨hmsg, hq⟩
      · cases hmsg
        by_cases hg : g' = g
        · subst hg
          rw [update_self]
          exact (hI g').sends hsends hkept
        · refine (hI g').frame ?_ (biffMsgSend_swLookup hg) fun n hn => Waits.biffMsgSend hn
          rw [biffMsgSend_tasks]
          exact update_of_ne hg ..
      · -- the start of a switchto chain
        rcases hmsg msg rfl with ⟨c, rfl⟩
        exact (hI g').quiet (hq g')

/-- In every run that starts without threads and meets the condition at each
step, a thread that is runnable and neither latched nor running has an item with
its present barrier in the queue, or in the hands of a PNT that has not finished. -/
theorem none_lost (hrun : StepsWhen Kept step (State.init G C) s)
    (hwaits : (s.tasks g).phase = .runnable) :
    ⟨g, (s.tasks g).barrier⟩ ∈ s.globalRq ∨
      ∃ c, (s.pnt c).next = some ⟨g, (s.tasks g).barrier⟩ := by
  have hI : ∀ g, Tracked s g :=
    hrun.invariant (fun _ _ _ hI hkept hstep => tracked_step hI hkept hstep) fun _ => tracked_init
  exact (hI g).waits hwaits

end Run

/-! ### One thread on one cpu -/

/-- The thread runs and is preempted. -/
def preempted : List (Action Unit Unit) :=
  [.kernel () (.enter 0 1 true), .pnt () .ok, .pnt () .ok, .kernel () .getOnCpu,
    .kernel () .preempt]

def afterPreempt : State Unit Unit := (exec step (.init Unit Unit) preempted).getD (.init Unit Unit)

theorem none_lost_preempted : (afterPreempt.tasks ()).phase = .runnable ∧
    (⟨(), 3⟩ ∈ afterPreempt.globalRq ∨ ∃ c, (afterPreempt.pnt c).next = some ⟨(), 3⟩) := by
  have hrun : StepsWhen Kept step (.init Unit Unit) afterPreempt :=
    .of_execWhen (fun _ _ h => of_decide_eq_true h) preempted rfl
  exact ⟨rfl, none_lost hrun rfl⟩

/-- Its affinity changes while it is in the queue. -/
def changed : List (Action Unit Unit) :=
  [.kernel () (.enter 0 1 true), .kernel () .changeAffinity, .pnt () .ok, .pnt () .estale]

def afterChange : State Unit Unit := (exec step (.init Unit Unit) changed).getD (.init Unit Unit)

/-- A change of the affinity makes the only item of a runnable thread stale. PNT
drops the item, and nothing in biff knows that the thread is runnable. -/
theorem affinity_change_loses : Steps step (.init Unit Unit) afterChange ∧
    (afterChange.tasks ()).phase = .runnable ∧ afterChange.globalRq = [] ∧
    afterChange.pnt () = .idle := by
  have hrun : exec step (.init Unit Unit) changed = some afterChange := rfl
  exact ⟨.of_exec hrun, rfl, rfl, rfl⟩

end Biff
