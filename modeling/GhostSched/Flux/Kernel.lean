import GhostSched.Flux.Pnt

/-!
# The kernel and the ball

The steps of the kernel: it sends a message, which moves the barrier on and makes
every attempt to latch the thread stale, or it latches the thread, which only an
attempt with the current barrier can achieve.
-/

namespace Flux

open Function

variable {G T K : Type*} {s s' : State G T K} {g : G} {t j : T} {c : K}
variable {k : Task} {msg : Msg T} {caller : Option K} {n : ℕ}

/-! ## A message -/

/-- A thread that is not in ghost and has no handler is not tracked. -/
theorem Inv.not_absent (hI : Inv s) (hfree : s.TaskLockFree g) (htr : Tracked s j)
    (hg : (s.threads j).gtid = g) : (s.tasks g).phase ≠ .absent := by
  intro habs
  rcases ((hI.thread j htr).leaving (hg ▸ habs)).2.1 with ⟨h, hh, -⟩
  rw [hg, hfree.1] at hh
  cases hh

/-- The kernel does not have the ball of a marked thread whose lock is free. -/
theorem Inv.not_pending (hI : Inv s) (hfree : s.TaskLockFree g) (htr : Tracked s j)
    (hg : (s.threads j).gtid = g) (hr : (s.tasks g).phase ≠ .runnable) :
    (s.threads j).pendingLatch = false := by
  by_contra hp
  have habs := hI.not_absent hfree htr hg
  subst hg
  rcases ((hI.thread j htr).kernel hr habs).2.2.2 (eq_true_of_ne_false hp) with ⟨c, hc⟩
  have hl := ((hI.pnt c).won j (by simp [hc])).1
  rw [hfree.2] at hl
  cases hl

/-- A handler that enqueues the thread runs when the thread is runnable. -/
theorem Msg.phase_of_enqueue (hin : .enqueue ∈ msg.handler) {p : Flux.Phase} (hp : msg.Phase p) :
    p = .runnable := by
  cases msg with
  | new idx r => cases r <;> simp_all [Msg.handler, Msg.Phase]
  | _ => simp_all [Msg.handler, Msg.Phase]

variable [DecidableEq G]

/-- The states of a thread before and after a message about it, and what its
handler does about the ball. -/
structure Msg.Follows (msg : Msg T) (p p' : Flux.Phase) : Prop where
  enqueue : .enqueue ∈ msg.handler → p ≠ .runnable
  runnable : p' = .runnable → .enqueue ∈ msg.handler ∨ p = .runnable
  kernel : p' ≠ .runnable → p' ≠ .absent → p ≠ .runnable
  absent : p' = .absent → .setSchedNone ∈ msg.handler ∧ (.dequeue ∈ msg.handler ∨ p ≠ .runnable)

/-- The kernel sends a message. -/
structure Sent (s s' : State G T K) (g : G) (k : Task) (msg : Msg T) (caller : Option K) :
    Prop where
  free : s.TaskLockFree g
  tasks : s'.tasks = update s.tasks g k
  handlers : s'.handlers = update s.handlers g
    (some { msg, seqnum := k.barrier, todo := msg.handler, caller })
  rq : s'.rq = s.rq
  threads : s'.threads = s.threads
  swLookup : s'.swLookup = s.swLookup
  pnt : s'.pnt = s.pnt
  biffLock : s'.biffLock = s.biffLock
  latchedBy : s'.latchedBy = s.latchedBy
  stale : ∀ c j n, (s.pnt c).Attempt j n → (s.threads j).gtid = g → n < k.barrier
  later : (s.tasks g).phase ≠ .absent → (s.tasks g).barrier < k.barrier
  phase : msg.Phase k.phase
  follows : (s.tasks g).phase ≠ .absent → msg.Follows (s.tasks g).phase k.phase
  inserts : ∀ idx r, .insert idx r ∈ msg.handler → (s.tasks g).phase = .absent ∧ Fresh s g idx

namespace Sent

variable (hm : Sent s s' g k msg caller)
include hm

theorem task_self : s'.tasks g = k := by
  rw [hm.tasks, update_self]

theorem task_ne {g' : G} (hg : g' ≠ g) : s'.tasks g' = s.tasks g' := by
  rw [hm.tasks, update_of_ne hg]

theorem handler_self :
    s'.handlers g = some { msg, seqnum := k.barrier, todo := msg.handler, caller } := by
  rw [hm.handlers, update_self]

theorem handler_ne {g' : G} (hg : g' ≠ g) : s'.handlers g' = s.handlers g' := by
  rw [hm.handlers, update_of_ne hg]

theorem tracked : Tracked s' j ↔ Tracked s j := by
  unfold Tracked
  rw [hm.threads, hm.swLookup]

theorem popped : Popped s' j ↔ Popped s j := by
  unfold Popped
  rw [hm.pnt]

theorem noFresh (hg : (s.threads j).gtid = g) : NoFresh s' j := by
  intro c n hatt
  rw [hm.pnt] at hatt
  rw [hm.threads, hg, hm.task_self]
  exact hm.stale c j n hatt hg

/-- The ball of the thread that the message is about. -/
theorem threadOk_self (hI : Inv s) (htr : Tracked s j) (hg : (s.threads j).gtid = g) :
    ThreadOk s' j := by
  have hok := hI.thread j htr
  have habs := hI.not_absent hm.free htr hg
  have hlt := hm.later habs
  have hf := hm.follows habs
  have hfresh := hm.noFresh hg
  have hhas : ∀ op, Has s' g op ↔ op ∈ msg.handler := fun op => has_of_handler hm.handler_self
  -- before the message there was no handler
  have hno : ∀ op, ¬ Has s g op := by
    intro op hhas
    rcases hhas with ⟨h, hh, -⟩
    rw [hm.free.1] at hh
    cases hh
  constructor <;> rw [hm.threads] <;> subst hg
  · rw [hm.task_self]
    exact hok.seqnum_le.trans hlt.le
  · rw [hm.task_self, hm.rq, hm.popped]
    intro hr ha
    rcases hok.kernel (hf.kernel hr ha) habs with ⟨hrq, hpop, -, -⟩
    rw [hI.not_pending hm.free htr rfl (hf.kernel hr ha)]
    exact ⟨hrq, hpop, hfresh, fun hp => by cases hp⟩
  · rw [hm.task_self, hm.rq, hm.popped, hhas]
    intro hin
    have hr := hf.enqueue hin
    rcases hok.kernel hr habs with ⟨hrq, hpop, -, -⟩
    rw [hI.not_pending hm.free htr rfl hr]
    refine ⟨?_, hrq, hpop, hfresh, fun hp => by cases hp⟩
    exact Msg.phase_of_enqueue hin hm.phase
  · rw [hm.task_self, hm.rq, hm.popped, hhas]
    intro hr hnot
    exact hok.biff ((hf.runnable hr).resolve_left hnot) (hno _)
  · rw [hm.rq, hm.popped]
    exact fun hin => ⟨(hok.queued hin).1, (hok.queued hin).2.1, hfresh⟩
  · rw [hm.rq, hm.popped]
    exact fun hp => ⟨(hok.popped hp).1, (hok.popped hp).2.1, hfresh⟩
  · intro c n hatt hn
    rw [hm.pnt] at hatt
    rw [hm.task_self] at hn
    exact absurd hn (hm.stale c j n hatt rfl).ne
  · rw [hm.task_self, hm.rq, hm.popped, hhas, hhas]
    intro ha
    rcases hf.absent ha with ⟨hnone, hdq | hr⟩
    · exact ⟨hfresh, hnone, .inl hdq⟩
    · rcases hok.kernel hr habs with ⟨hrq, hpop, -⟩
      exact ⟨hfresh, hnone, .inr ⟨hrq, hpop⟩⟩
  · rw [hm.task_self, hm.pnt]
    intro _
    refine ⟨hok.seqnum_le.trans_lt hlt, hfresh, ?_⟩
    exact fun c n hpc => ((hI.pnt c).setPending j n hpc).trans_lt hlt
  · rw [hm.task_self, hm.pnt, hhas]
    intro c n hpc
    refine ⟨?_, fun c' n' hatt _ => hm.stale c' j n' hatt rfl⟩
    have hr := (hok.taken c n hpc).1.resolve_right (hno _)
    by_contra hne
    rw [not_or] at hne
    by_cases ha : k.phase = .absent
    · exact (hf.absent ha).2.elim hne.2 fun hnr => hnr hr
    · exact hf.kernel hne.1 ha hr

theorem threadOk_ne (hI : Inv s) (htr : Tracked s j) (hg : (s.threads j).gtid ≠ g) :
    ThreadOk s' j := by
  have hh := hm.handler_ne hg
  refine (hI.thread j htr).congr ⟨by rw [hm.threads], hm.task_ne hg, by rw [hm.rq], ?_,
    fun op _ => has_congr hh, (has_congr hh).mp⟩ (.inl ?_) (.inl ⟨?_, ?_, (has_congr hh).mpr⟩)
  · intro c
    rw [hm.pnt]
    exact .refl _ _ _
  · rw [hm.threads]
  · rw [hm.threads]
  · rw [hm.pnt]
    exact fun _ => id

theorem pntOk (hI : Inv s) (c : K) : PntOk s' c := by
  have hp := hI.pnt c
  constructor <;> rw [hm.pnt]
  · exact fun j hpop => hm.tracked.mpr (hp.popping j hpop)
  · intro j n hpc
    rw [hm.threads]
    by_cases hg : (s.threads j).gtid = g
    · have hlt := hm.later (hI.not_absent hm.free (hp.popping j (by simp [hpc])) hg)
      have hle := hp.setPending j n hpc
      rw [hg] at hle ⊢
      rw [hm.task_self]
      exact hle.trans hlt.le
    · rw [hm.task_ne hg]
      exact hp.setPending j n hpc
  · intro j n hatt
    rw [hm.threads, hm.tracked]
    by_cases hg : (s.threads j).gtid = g
    · have hlt := hm.stale c j n hatt hg
      rw [hg, hm.task_self]
      exact ⟨hlt.le, fun _ => hlt⟩
    · rw [hm.task_ne hg]
      exact hp.attempt j n hatt
  · exact fun j n hpc => hm.tracked.mpr (hp.taken j n hpc)
  · intro j hwon
    rcases hp.won j hwon with ⟨hl, htr, hph⟩
    -- the task lock was free
    have hg : (s.threads j).gtid ≠ g := by
      intro hg
      rw [hg, hm.free.2] at hl
      cases hl
    rw [hm.threads, hm.latchedBy, hm.tracked, hm.task_ne hg]
    exact ⟨hl, htr, hph⟩

/-- Who uses a status word index does not change, but for the message itself. -/
theorem fresh {g' : G} {idx : T} (hf : Fresh s g' idx)
    (hins : g ≠ g' → ∀ r, .insert idx r ∉ msg.handler) : Fresh s' g' idx := by
  constructor
  · rw [hm.swLookup]
    exact hf.swLookup
  · rw [hm.pnt]
    exact hf.pnt
  · rw [hm.rq]
    exact hf.rq
  · intro g'' h hh
    by_cases hg : g'' = g
    · subst hg
      rw [hm.handler_self] at hh
      cases hh
      exact ⟨by simp, hins⟩
    · rw [hm.handler_ne hg] at hh
      exact hf.handlers g'' h hh

/-- The new handler has all of its work to do. -/
theorem handlerOk_self (hI : Inv s) :
    HandlerOk s' g { msg, seqnum := k.barrier, todo := msg.handler, caller } := by
  constructor
  · rw [hm.task_self]
  · rw [hm.latchedBy]
    exact hm.free.2
  · rw [hm.task_self]
    exact hm.phase
  · exact msg.rest_handler
  · exact fun j hj => by cases hj
  · intro idx r hins
    rcases hm.inserts idx r hins with ⟨habs, hf⟩
    refine ⟨hm.fresh hf fun hne => absurd rfl hne, ?_⟩
    intro j hl hs
    rw [hm.swLookup] at hl
    rw [hm.threads] at hs
    have hg := hI.lookup g j hl
    exact hI.not_absent hm.free ⟨hg.symm ▸ hl, hs⟩ hg habs
  · exact fun _ j hj => by cases hj
  · exact fun j hj => by cases hj

/-- The handlers of the other threads do not notice. -/
theorem handlerOk_ne (hI : Inv s) {g' : G} (hg : g' ≠ g) {h : Handler T K}
    (hh : s.handlers g' = some h) : HandlerOk s' g' h := by
  have ho := hI.handler g' h hh
  refine ho.congr (hm.task_ne hg) ?_ (by rw [hm.swLookup]) ?_ ?_ ?_
  · rw [hm.latchedBy]
    exact ho.unlatched
  · rw [hm.threads]
    exact fun _ _ => ⟨rfl, rfl⟩
  · rw [hm.rq]
    exact fun _ _ => id
  · intro idx r hins hf
    refine hm.fresh hf fun _ r' hins' => ?_
    exact ((hm.inserts idx r' hins').2.handlers g' h hh).2 hg r hins

theorem refsOk (hI : Inv s) (j : T) : RefsOk s' j := by
  refine (hI.refs j).congr (by rw [hm.threads]) (by rw [hm.threads]) ?_ (by rw [hm.swLookup]) ?_ ?_
  · rw [hm.threads]
    exact id
  · rw [hm.pnt]
    exact fun _ => Iff.rfl
  · intro a ha
    cases a with
    | inl c =>
      change (s.pnt c).Deletes j
      rw [← hm.pnt]
      exact ha
    | inr g' =>
      rcases ha with ⟨h, hh, ht, hin⟩
      by_cases hg : g' = g
      · subst hg
        rw [hm.handler_self] at hh
        cases hh
        cases ht
      · rw [hm.handler_ne hg] at hh
        exact ⟨h, hh, ht, hin⟩

end Sent

/-- A message keeps the invariant. -/
theorem Inv.sent (hI : Inv s) (hm : Sent s s' g k msg caller) : Inv s' := by
  constructor
  · rw [hm.biffLock, hm.pnt]
    exact hI.lock
  · rw [hm.threads, hm.rq]
    exact hI.enqueued
  · rw [hm.rq]
    exact hI.nodup
  · rw [hm.rq]
    exact fun j hin => hm.tracked.mpr (hI.queued j hin)
  · rw [hm.threads, hm.swLookup]
    exact hI.lookup
  · intro j htr
    rw [hm.tracked] at htr
    by_cases hg : (s.threads j).gtid = g
    · exact hm.threadOk_self hI htr hg
    · exact hm.threadOk_ne hI htr hg
  · exact hm.pntOk hI
  · intro g' h hh
    by_cases hg : g' = g
    · subst hg
      rw [hm.handler_self] at hh
      cases hh
      exact hm.handlerOk_self hI
    · rw [hm.handler_ne hg] at hh
      exact hm.handlerOk_ne hI hg hh
  · exact hm.refsOk hI

/-! ## A change that flux is not told about -/

/-- The kernel keeps the ball: a switch to another thread, or a thread that leaves
its cpu. -/
theorem Inv.setTask (hI : Inv s) (f : Task → Task)
    (hbar : (f (s.tasks g)).barrier = (s.tasks g).barrier)
    (hph : (f (s.tasks g)).phase = (s.tasks g).phase ∨ s.TaskLockFree g ∧
      ((f (s.tasks g)).phase = .runnable ↔ (s.tasks g).phase = .runnable) ∧
      ((f (s.tasks g)).phase = .absent ↔ (s.tasks g).phase = .absent)) :
    Inv (s.setTask g f) := by
  set s' := s.setTask g f
  have hself : s'.tasks g = f (s.tasks g) := update_self ..
  have hne : ∀ g', g' ≠ g → s'.tasks g' = s.tasks g' := fun g' hg' => update_of_ne hg' ..
  -- the barrier, and whether the thread is runnable or absent, is all that flux depends on
  have hb : ∀ g', (s'.tasks g').barrier = (s.tasks g').barrier := by
    intro g'
    by_cases hg : g' = g
    · rw [hg, hself, hbar]
    · rw [hne g' hg]
  have hr : ∀ g', (s'.tasks g').phase = .runnable ↔ (s.tasks g').phase = .runnable := by
    intro g'
    by_cases hg : g' = g
    · rw [hg, hself]
      rcases hph with heq | ⟨-, hiff, -⟩
      · rw [heq]
      · exact hiff
    · rw [hne g' hg]
  have ha : ∀ g', (s'.tasks g').phase = .absent ↔ (s.tasks g').phase = .absent := by
    intro g'
    by_cases hg : g' = g
    · rw [hg, hself]
      rcases hph with heq | ⟨-, -, hiff⟩
      · rw [heq]
      · exact hiff
    · rw [hne g' hg]
  -- who holds the task lock sees the same state
  have hlock : ∀ g', ¬ s.TaskLockFree g' → (s'.tasks g').phase = (s.tasks g').phase := by
    intro g' hnot
    by_cases hg : g' = g
    · subst hg
      rw [hself]
      rcases hph with heq | ⟨hfree, -⟩
      · exact heq
      · exact absurd hfree hnot
    · rw [hne g' hg]
  have hfresh : ∀ j, NoFresh s' j ↔ NoFresh s j := by
    intro j
    unfold NoFresh
    rw [hb]
    exact Iff.rfl
  refine ⟨hI.lock, hI.enqueued, hI.nodup, hI.queued, hI.lookup, ?_, ?_, ?_, ?_⟩
  · -- the entries
    intro j htr
    have hok := hI.thread j htr
    constructor
    · rw [hb]
      exact hok.seqnum_le
    · rw [Ne, hr, Ne, ha, hfresh]
      exact hok.kernel
    · rw [hr, hfresh]
      exact hok.owes
    · rw [hr]
      exact hok.biff
    · rw [hfresh]
      exact hok.queued
    · rw [hfresh]
      exact hok.popped
    · rw [hb]
      exact hok.fresh
    · rw [ha, hfresh]
      exact hok.leaving
    · rw [hb, hfresh]
      exact hok.unseen
    · rw [hr, hb]
      exact hok.taken
  · -- the cpus
    intro c
    have hp := hI.pnt c
    refine ⟨hp.popping, ?_, ?_, hp.taken, ?_⟩
    · intro j n hpc
      rw [hb]
      exact hp.setPending j n hpc
    · intro j n hatt
      rw [hb]
      exact hp.attempt j n hatt
    · intro j hwon
      rcases hp.won j hwon with ⟨hl, htr, hph⟩
      refine ⟨hl, htr, (hlock _ ?_).trans hph⟩
      intro hfree
      cases hl.symm.trans hfree.2
  · -- the handlers
    intro g' h hh
    have ho := hI.handler g' h hh
    refine ⟨?_, ho.unlatched, ?_, ho.rest, ho.thread, ?_, ho.init, ho.dropped⟩
    · rw [hb]
      exact ho.seqnum
    · rw [hlock g' fun hfree => by cases hfree.1.symm.trans hh]
      exact ho.phase
    · intro idx r hins
      rcases ho.insert idx r hins with ⟨hf, hnot⟩
      exact ⟨⟨hf.swLookup, hf.pnt, hf.rq, hf.handlers⟩, hnot⟩
  · intro j
    have hrf := hI.refs j
    exact ⟨hrf.tracked, hrf.deleted, hrf.deleter⟩

/-! ## A latch -/

/-- `bpf_ghost_run_gtid` succeeds. -/
structure Latched [DecidableEq K] (s s' : State G T K) (c : K) (t : T) (n : ℕ) : Prop where
  old : s.pnt c = .run t n
  free : s.TaskLockFree (s.threads t).gtid
  barrier : (s.tasks (s.threads t).gtid).barrier = n
  tasks : s'.tasks = update s.tasks (s.threads t).gtid
    { s.tasks (s.threads t).gtid with phase := .latched }
  latchedBy : s'.latchedBy = update s.latchedBy (s.threads t).gtid (some c)
  pnt : s'.pnt = update s.pnt c (.clearPending t)
  rq : s'.rq = s.rq
  threads : s'.threads = s.threads
  swLookup : s'.swLookup = s.swLookup
  handlers : s'.handlers = s.handlers
  biffLock : s'.biffLock = s.biffLock

namespace Latched

variable [DecidableEq K]

variable (hm : Latched s s' c t n)
include hm

theorem task_self : (s'.tasks (s.threads t).gtid).phase = .latched := by
  rw [hm.tasks, update_self]

theorem task_ne (hg : g ≠ (s.threads t).gtid) : s'.tasks g = s.tasks g := by
  rw [hm.tasks, update_of_ne hg]

theorem barrier_eq (g : G) : (s'.tasks g).barrier = (s.tasks g).barrier := by
  by_cases hg : g = (s.threads t).gtid
  · rw [hm.tasks, hg, update_self]
  · rw [hm.task_ne hg]

theorem latchedBy_ne (hg : g ≠ (s.threads t).gtid) : s'.latchedBy g = s.latchedBy g := by
  rw [hm.latchedBy, update_of_ne hg]

theorem pnt_self : s'.pnt c = .clearPending t := by
  rw [hm.pnt, update_self]

theorem pnt_ne {c' : K} (hc : c' ≠ c) : s'.pnt c' = s.pnt c' := by
  rw [hm.pnt, update_of_ne hc]

theorem tracked : Tracked s' j ↔ Tracked s j := by
  unfold Tracked
  rw [hm.threads, hm.swLookup]

theorem attempt : (s.pnt c).Attempt t n := by
  simp [hm.old]

/-- The cpu had the ball. -/
theorem tracked_self (hI : Inv s) : Tracked s t := by
  by_contra hnot
  exact absurd hm.barrier (((hI.pnt c).attempt t n hm.attempt).2 hnot).ne'

theorem not_noFresh : ¬ NoFresh s t :=
  fun hf => absurd hm.barrier (hf c n hm.attempt).ne'

/-- No other attempt can succeed. -/
theorem noFresh (hI : Inv s) : NoFresh s' t := by
  intro c' n' hatt
  rw [hm.barrier_eq, hm.threads]
  by_cases hc : c' = c
  · rw [hc, hm.pnt_self] at hatt
    cases hatt
  · rw [hm.pnt_ne hc] at hatt
    refine lt_of_le_of_ne ((hI.pnt c').attempt t n' hatt).1 ?_
    intro heq
    have hfresh := (hI.thread t (hm.tracked_self hI)).fresh c n hm.attempt hm.barrier.symm
    exact hc (hfresh.2 c' n' hatt heq)

theorem not_popped (hI : Inv s) : ¬ Popped s' t := by
  intro hp
  rcases hp with ⟨c', hc'⟩
  by_cases hc : c' = c
  · rw [hc, hm.pnt_self] at hc'
    exact hc'
  · rw [hm.pnt_ne hc] at hc'
    exact hm.not_noFresh ((hI.thread t (hm.tracked_self hI)).popped ⟨c', hc'⟩).2.2

theorem not_has (op : MicroOp T) : ¬ Has s' (s.threads t).gtid op := by
  intro hhas
  rcases hhas with ⟨h, hh, -⟩
  rw [hm.handlers, hm.free.1] at hh
  cases hh

theorem threadOk_self (hI : Inv s) : ThreadOk s' t := by
  have hok := hI.thread t (hm.tracked_self hI)
  have hfresh := hm.noFresh hI
  have hpop := hm.not_popped hI
  have hrq : t ∉ s'.rq := by
    rw [hm.rq]
    exact fun hin => hm.not_noFresh (hok.queued hin).2.2
  constructor <;> rw [hm.threads]
  · rw [hm.barrier_eq]
    exact hok.seqnum_le
  · exact fun _ _ => ⟨hrq, hpop, hfresh, fun _ => ⟨c, hm.pnt_self⟩⟩
  · exact fun hhas => absurd hhas (hm.not_has _)
  · rw [hm.task_self]
    exact fun hr => by cases hr
  · exact fun hin => absurd hin hrq
  · exact fun hp => absurd hp hpop
  · intro c' n' hatt heq
    exact absurd heq (hm.threads ▸ hfresh c' n' hatt).ne
  · rw [hm.task_self]
    exact fun ha => by cases ha
  · rintro (hhas | hhas) <;> exact absurd hhas (hm.not_has _)
  · intro c' n' hpc
    by_cases hc : c' = c
    · rw [hc, hm.pnt_self] at hpc
      cases hpc
    · -- a cpu that marked the thread later would have made this attempt stale
      rw [hm.pnt_ne hc] at hpc
      have hlt := (hok.taken c' n' hpc).2 c n hm.attempt (Ne.symm hc)
      exact absurd hm.barrier hlt.ne'

theorem gtid_ne (hI : Inv s) (hj : j ≠ t) (htr : Tracked s j) :
    (s.threads j).gtid ≠ (s.threads t).gtid :=
  fun hg => hj (htr.eq_of_lookup hg (hm.tracked_self hI).1)

theorem threadOk_ne (hI : Inv s) (hj : j ≠ t) (htr : Tracked s j) : ThreadOk s' j := by
  have hg := hm.gtid_ne hI hj htr
  have hh : s'.handlers (s.threads j).gtid = s.handlers (s.threads j).gtid := by rw [hm.handlers]
  have hold : (s.pnt c).thread ≠ some j := by simp [hm.old, Ne.symm hj]
  refine (hI.thread j htr).congr ⟨by rw [hm.threads], hm.task_ne hg, by rw [hm.rq], ?_,
    fun op _ => has_congr hh, (has_congr hh).mp⟩ (.inl ?_) (.inl ⟨?_, ?_, (has_congr hh).mpr⟩)
  · intro c'
    by_cases hc : c' = c
    · rw [hc, hm.pnt_self]
      exact .of_thread_ne hold (by simp [Ne.symm hj])
    · rw [hm.pnt_ne hc]
      exact .refl _ _ _
  · rw [hm.threads]
  · rw [hm.threads]
  · intro c' hpc
    by_cases hc : c' = c
    · rw [hc] at hpc
      exact absurd (congrArg PntPc.thread hpc) hold
    · rw [hm.pnt_ne hc, hpc]

theorem pntOk (hI : Inv s) (c' : K) : PntOk s' c' := by
  by_cases hc : c' = c
  · subst hc
    constructor <;> rw [hm.pnt_self]
    · exact fun j hj => by cases hj
    · exact fun j n hj => by cases hj
    · exact fun j n hj => by cases hj
    · exact fun j n hj => by cases hj
    · intro j hj
      cases hj
      rw [hm.threads, hm.tracked, hm.latchedBy, update_self]
      exact ⟨rfl, hm.tracked_self hI, hm.task_self⟩
  · have hp := hI.pnt c'
    constructor <;> rw [hm.pnt_ne hc]
    · exact fun j hpop => hm.tracked.mpr (hp.popping j hpop)
    · intro j n hpc
      rw [hm.barrier_eq, hm.threads]
      exact hp.setPending j n hpc
    · intro j n hatt
      rw [hm.barrier_eq, hm.threads, hm.tracked]
      exact hp.attempt j n hatt
    · exact fun j n hpc => hm.tracked.mpr (hp.taken j n hpc)
    · intro j hwon
      rcases hp.won j hwon with ⟨hl, htr, hph⟩
      have hg : (s.threads j).gtid ≠ (s.threads t).gtid := by
        intro hg
        rw [hg, hm.free.2] at hl
        cases hl
      rw [hm.threads, hm.latchedBy_ne hg, hm.tracked, hm.task_ne hg]
      exact ⟨hl, htr, hph⟩

theorem handlerOk (hI : Inv s) {h : Handler T K} (hh : s'.handlers g = some h) :
    HandlerOk s' g h := by
  rw [hm.handlers] at hh
  have ho := hI.handler g h hh
  have hg : g ≠ (s.threads t).gtid := by
    intro hg
    rw [hg, hm.free.1] at hh
    cases hh
  refine ho.congr (hm.task_ne hg) ?_ (by rw [hm.swLookup]) ?_ ?_ ?_
  · rw [hm.latchedBy_ne hg]
    exact ho.unlatched
  · rw [hm.threads]
    exact fun _ _ => ⟨rfl, rfl⟩
  · rw [hm.rq]
    exact fun _ _ => id
  · intro idx r _ hf
    refine ⟨by rw [hm.swLookup]; exact hf.swLookup, ?_, by rw [hm.rq]; exact hf.rq,
      by rw [hm.handlers]; exact hf.handlers⟩
    intro c'
    by_cases hc : c' = c
    · have hold := hf.pnt c
      rw [hm.old] at hold
      rw [hc, hm.pnt_self]
      exact hold
    · rw [hm.pnt_ne hc]
      exact hf.pnt c'

theorem refsOk (hI : Inv s) (j : T) : RefsOk s' j := by
  refine (hI.refs j).congr (by rw [hm.threads]) (by rw [hm.threads]) ?_ (by rw [hm.swLookup]) ?_ ?_
  · rw [hm.threads]
    exact id
  · intro c'
    by_cases hc : c' = c
    · rw [hc, hm.pnt_self, hm.old]
      exact Iff.rfl
    · rw [hm.pnt_ne hc]
  · intro a ha
    cases a with
    | inl c' =>
      change (s'.pnt c').Deletes j at ha
      by_cases hc : c' = c
      · rw [hc, hm.pnt_self] at ha
        cases ha
      · rw [hm.pnt_ne hc] at ha
        exact ha
    | inr g =>
      change ∃ h, s.handlers g = some h ∧ _
      rw [← hm.handlers]
      exact ha

end Latched

/-- The kernel gets the ball from the cpu. -/
theorem Inv.latched [DecidableEq T] [DecidableEq K] (hI : Inv s) (hm : Latched s s' c t n) :
    Inv s' := by
  constructor
  · exact hI.lock_of_iff hm.pnt hm.biffLock (by simp [hm.old])
  · rw [hm.threads, hm.rq]
    exact hI.enqueued
  · rw [hm.rq]
    exact hI.nodup
  · rw [hm.rq]
    exact fun j hin => hm.tracked.mpr (hI.queued j hin)
  · rw [hm.threads, hm.swLookup]
    exact hI.lookup
  · intro j htr
    rw [hm.tracked] at htr
    by_cases hj : j = t
    · rw [hj]
      exact hm.threadOk_self hI
    · exact hm.threadOk_ne hI hj htr
  · exact hm.pntOk hI
  · exact fun g h hh => hm.handlerOk hI hh
  · exact hm.refsOk hI

end Flux
