import Mathlib.Data.Finset.Card
import GhostSched.Flux.Threads

/-!
# Who has the ball

A runnable thread is on biff's runqueue, in the hands of a cpu in PNT, in the
hands of a message handler that is about to enqueue it, or in the hands of the
kernel. The source calls this "the ball". This file states the invariant that
keeps track of it.

* `Tracked` threads are those that flux knows and biff schedules.
* `ThreadOk` says where the ball of a tracked thread can be, given the state of
  the thread in the kernel and the handler in progress.
* A cpu that tries to latch with the barrier of the kernel is the only one that
  can succeed, and then nobody else has the ball (`ThreadOk.fresh`).
* `HandlerOk` and `PntOk` are what the parties rely on.
-/

namespace Flux

variable {G T K : Type*}

/-! ## What a program counter means -/

namespace PntPc

/-- The thread that the cpu is busy with. -/
@[simp]
def thread : PntPc T → Option T
  | .idle => none
  | .readSeqnum t | .setPending t _ | .incref t _ | .unlock t _ | .run t _ | .clearPending t
  | .wonDecref t | .wonDelete t | .wonReturn t | .failed t | .failedDecref t
  | .failedDelete t => some t

/-- The cpu has taken the thread off the runqueue and not marked it yet. -/
@[simp]
def Popping (t : T) : PntPc T → Prop
  | .readSeqnum t' | .setPending t' _ => t' = t
  | _ => False

/-- The cpu is going to run the thread with this `latched_seqnum`. -/
@[simp]
def Attempt (t : T) (n : ℕ) : PntPc T → Prop
  | .incref t' n' | .unlock t' n' | .run t' n' => t' = t ∧ n' = n
  | _ => False

/-- The cpu holds biff's lock. -/
@[simp]
def Locked : PntPc T → Prop
  | .readSeqnum _ | .setPending _ _ | .incref _ _ | .unlock _ _ => True
  | _ => False

/-- The cpu has latched the thread and holds its task lock. -/
@[simp]
def Won (t : T) : PntPc T → Prop
  | .clearPending t' | .wonDecref t' | .wonDelete t' | .wonReturn t' => t' = t
  | _ => False

/-- The cpu holds a reference to the thread. -/
@[simp]
def HoldsRef (t : T) : PntPc T → Prop
  | .unlock t' _ | .run t' _ | .clearPending t' | .wonDecref t' | .failed t'
  | .failedDecref t' => t' = t
  | _ => False

/-- The cpu has dropped the last reference and deletes the entry. -/
@[simp]
def Deletes (t : T) : PntPc T → Prop
  | .wonDelete t' | .failedDelete t' => t' = t
  | _ => False

variable {pc : PntPc T} {t : T} {n : ℕ}

theorem Popping.thread (h : pc.Popping t) : pc.thread = some t := by
  cases pc <;> simp_all [Popping, PntPc.thread]

theorem Popping.locked (h : pc.Popping t) : pc.Locked := by
  cases pc <;> simp_all [Popping, Locked]

theorem Attempt.thread (h : pc.Attempt t n) : pc.thread = some t := by
  cases pc <;> simp_all [Attempt, PntPc.thread]

theorem Won.thread (h : pc.Won t) : pc.thread = some t := by
  cases pc <;> simp_all [Won, PntPc.thread]

theorem HoldsRef.thread (h : pc.HoldsRef t) : pc.thread = some t := by
  cases pc <;> simp_all [HoldsRef, PntPc.thread]

theorem Deletes.thread (h : pc.Deletes t) : pc.thread = some t := by
  cases pc <;> simp_all [Deletes, PntPc.thread]

end PntPc

/-! ## Handlers -/

/-- The states of the thread in the kernel while a handler runs. -/
def Msg.Phase : Msg T → Flux.Phase → Prop
  | .new _ runnable => fun p => p = if runnable then .runnable else .blocked
  | .onCpu => (· = .running)
  | .blocked | .switchto => (· = .blocked)
  | .wakeup | .preempt _ | .yield _ => (· = .runnable)
  | .affinityChanged | .prioChanged | .latchFailure => (· ≠ .absent)
  | .dead | .departed => (· = .absent)

/-- The accesses that decide where a thread is, and the messages whose handlers
make them. -/
def Msg.May (msg : Msg T) : MicroOp T → Prop
  | .enqueue => msg.Phase .runnable
  | .takeBall | .clearPending => msg = .latchFailure
  | .dequeue => msg = .departed
  | .setSchedNone | .decref | .deleteEntry => msg = .dead ∨ msg = .departed
  | .insert idx r => msg = .new idx r
  | _ => True

/-- What must not, or must, come after an access. -/
def MicroOp.Before (rest : List (MicroOp T)) : MicroOp T → Prop
  | .insert _ r => (r = true → .enqueue ∈ rest) ∧ ∀ idx r', .insert idx r' ∉ rest
  | .enqueue => .enqueue ∉ rest ∧ .clearPending ∉ rest ∧ .takeBall ∉ rest ∧ .dequeue ∉ rest ∧
    .initBiff ∉ rest
  | .storeSeqnum => .takeBall ∉ rest ∧ .dequeue ∉ rest
  | .takeBall => rest = []
  | .clearPending => .enqueue ∈ rest ∧ .takeBall ∉ rest ∧ .dequeue ∉ rest
  | .dequeue => .dequeue ∉ rest
  | .setSchedNone => .dequeue ∉ rest
  | .decref => .setSchedNone ∉ rest ∧ .deleteEntry ∉ rest
  | .deleteEntry => .deleteEntry ∉ rest
  | .lookup => .initBiff ∉ rest ∧ .deleteEntry ∉ rest ∧ (.decref ∈ rest → .setSchedNone ∈ rest) ∧
    ∀ idx r, .insert idx r ∉ rest
  | _ => True

/-- The accesses come in an order that makes sense. -/
def Ordered : List (MicroOp T) → Prop
  | [] => True
  | op :: rest => op.Before rest ∧ Ordered rest

/-- What a handler can still have to do. -/
def Msg.Rest (msg : Msg T) (todo : List (MicroOp T)) : Prop :=
  Ordered todo ∧ ∀ op ∈ todo, msg.May op

theorem Msg.Rest.nil {msg : Msg T} : msg.Rest [] := ⟨trivial, by simp⟩

theorem Msg.Rest.tail {msg : Msg T} {op : MicroOp T} {rest : List (MicroOp T)}
    (h : msg.Rest (op :: rest)) : msg.Rest rest :=
  ⟨h.1.2, fun op' hop => h.2 op' (List.mem_cons_of_mem op hop)⟩

/-- A handler starts with all that its message asks for. -/
theorem Msg.rest_handler (msg : Msg T) : msg.Rest msg.handler := by
  constructor
  · cases msg with
    | new idx r => cases r <;> simp [handler, Ordered, MicroOp.Before]
    | preempt b | yield b => cases b <;> simp [handler, Ordered, MicroOp.Before]
    | _ => simp [handler, Ordered, MicroOp.Before]
  · cases msg with
    | new idx r => cases r <;> simp [handler, May, Msg.Phase]
    | preempt b | yield b => cases b <;> simp [handler, May, Msg.Phase]
    | _ => simp [handler, May, Msg.Phase]

/-- The rest of a failure handler that has the ball. -/
theorem Msg.rest_ball :
    (Msg.latchFailure : Msg T).Rest [.clearPending, .enqueue, .storeSeqnum] := by
  constructor
  · simp [Ordered, MicroOp.Before]
  · simp [May, Msg.Phase]

/-! ## The invariant -/

section Invariant

variable (s : State G T K)

/-- Flux knows the thread, and biff schedules it. -/
def Tracked (t : T) : Prop :=
  s.swLookup (s.threads t).gtid = some t ∧ (s.threads t).sched = .biff

/-- The handler in progress still has this access to make. -/
def Has (g : G) (op : MicroOp T) : Prop := ∃ h, s.handlers g = some h ∧ op ∈ h.todo

/-- Some cpu is taking the thread off the runqueue. -/
def Popped (t : T) : Prop := ∃ c, (s.pnt c).Popping t

/-- Every attempt to latch the thread that is under way will fail. -/
def NoFresh (t : T) : Prop :=
  ∀ c n, (s.pnt c).Attempt t n → n < (s.tasks (s.threads t).gtid).barrier

/-- The ball of a thread that flux tracks. -/
structure ThreadOk (t : T) : Prop where
  seqnum_le : (s.threads t).seqnum ≤ (s.tasks (s.threads t).gtid).barrier
  /-- the kernel has the ball -/
  kernel : (s.tasks (s.threads t).gtid).phase ≠ .runnable →
    (s.tasks (s.threads t).gtid).phase ≠ .absent →
    t ∉ s.rq ∧ ¬ Popped s t ∧ NoFresh s t ∧
      ((s.threads t).pendingLatch = true → ∃ c, s.pnt c = .clearPending t)
  /-- a handler has the ball -/
  owes : Has s (s.threads t).gtid .enqueue →
    (s.tasks (s.threads t).gtid).phase = .runnable ∧ t ∉ s.rq ∧ ¬ Popped s t ∧ NoFresh s t ∧
      ((s.threads t).pendingLatch = true → Has s (s.threads t).gtid .clearPending)
  /-- biff has the ball -/
  biff : (s.tasks (s.threads t).gtid).phase = .runnable → ¬ Has s (s.threads t).gtid .enqueue →
    t ∈ s.rq ∨ Popped s t ∨ (s.threads t).pendingLatch = true
  queued : t ∈ s.rq → (s.threads t).pendingLatch = false ∧ ¬ Popped s t ∧ NoFresh s t
  popped : Popped s t → t ∉ s.rq ∧ (s.threads t).pendingLatch = false ∧ NoFresh s t
  /-- only one attempt can succeed, and it has the ball -/
  fresh : ∀ c n, (s.pnt c).Attempt t n → n = (s.tasks (s.threads t).gtid).barrier →
    (s.threads t).pendingLatch = true ∧
      ∀ c' n', (s.pnt c').Attempt t n' → n' = (s.tasks (s.threads t).gtid).barrier → c' = c
  /-- the thread leaves ghost -/
  leaving : (s.tasks (s.threads t).gtid).phase = .absent → NoFresh s t ∧
    Has s (s.threads t).gtid .setSchedNone ∧
      (Has s (s.threads t).gtid .dequeue ∨ t ∉ s.rq ∧ ¬ Popped s t)
  /-- a handler that still looks at the state of the thread has not told PNT
  its seqnum -/
  unseen : Has s (s.threads t).gtid .takeBall ∨ Has s (s.threads t).gtid .dequeue →
    (s.threads t).seqnum < (s.tasks (s.threads t).gtid).barrier ∧ NoFresh s t ∧
      ∀ c n, s.pnt c = .setPending t n → n < (s.tasks (s.threads t).gtid).barrier
  /-- a cpu that marked the thread and has no reference yet -/
  taken : ∀ c n, s.pnt c = .incref t n →
    ((s.tasks (s.threads t).gtid).phase = .runnable ∨ Has s (s.threads t).gtid .dequeue) ∧
      ∀ c' n', (s.pnt c').Attempt t n' → c' ≠ c → n' < (s.tasks (s.threads t).gtid).barrier

/-- What a cpu in PNT relies on. -/
structure PntOk (c : K) : Prop where
  popping : ∀ t, (s.pnt c).Popping t → Tracked s t
  setPending : ∀ t n, s.pnt c = .setPending t n → n ≤ (s.tasks (s.threads t).gtid).barrier
  attempt : ∀ t n, (s.pnt c).Attempt t n → n ≤ (s.tasks (s.threads t).gtid).barrier ∧
    (¬ Tracked s t → n < (s.tasks (s.threads t).gtid).barrier)
  taken : ∀ t n, s.pnt c = .incref t n → Tracked s t
  won : ∀ t, (s.pnt c).Won t → s.latchedBy (s.threads t).gtid = some c ∧ Tracked s t ∧
    (s.tasks (s.threads t).gtid).phase = .latched

/-- The status word index belongs to the new thread alone. -/
structure Fresh (g : G) (idx : T) : Prop where
  swLookup : ∀ g', s.swLookup g' ≠ some idx
  pnt : ∀ c, (s.pnt c).thread ≠ some idx
  rq : idx ∉ s.rq
  handlers : ∀ g' h, s.handlers g' = some h →
    h.thread ≠ some idx ∧ (g' ≠ g → ∀ r, .insert idx r ∉ h.todo)

/-- What a handler relies on. -/
structure HandlerOk (g : G) (h : Handler T K) : Prop where
  seqnum : h.seqnum = (s.tasks g).barrier
  unlatched : s.latchedBy g = none
  phase : h.msg.Phase (s.tasks g).phase
  rest : h.msg.Rest h.todo
  thread : ∀ t, h.thread = some t → (s.threads t).gtid = g ∧
    (s.swLookup g = some t ∨ s.swLookup g = none ∧ (s.threads t).sched ≠ .biff)
  insert : ∀ idx r, .insert idx r ∈ h.todo →
    Fresh s g idx ∧ ∀ t, s.swLookup g = some t → (s.threads t).sched ≠ .biff
  init : .initBiff ∈ h.todo → ∀ t, h.thread = some t → t ∉ s.rq
  /-- the thread has no scheduler any more when its reference is dropped -/
  dropped : ∀ t, h.thread = some t → .setSchedNone ∉ h.todo →
    .decref ∈ h.todo ∨ .deleteEntry ∈ h.todo → (s.threads t).sched ≠ .biff

/-- Who is about to delete the entry of a thread: a cpu, or a handler. -/
def Deleter (t : T) : K ⊕ G → Prop
  | .inl c => (s.pnt c).Deletes t
  | .inr g => ∃ h, s.handlers g = some h ∧ h.thread = some t ∧ .deleteEntry ∈ h.todo

/-- References to thread structs. -/
structure RefsOk (t : T) : Prop where
  tracked : Tracked s t → ∃ F : Finset K, (∀ c, c ∈ F ↔ (s.pnt c).HoldsRef t) ∧
    (s.threads t).refcnt = F.card + 1
  deleted : s.swLookup (s.threads t).gtid ≠ some t → (s.threads t).refcnt ≤ 0
  deleter : ∀ a, Deleter s t a → (s.threads t).refcnt ≤ 0 ∧ (s.threads t).sched ≠ .biff ∧
    s.swLookup (s.threads t).gtid = some t ∧ ∀ b, Deleter s t b → b = a

/-- The invariant of all threads. -/
structure Inv : Prop where
  lock : ∀ c, s.biffLock = some c ↔ (s.pnt c).Locked
  enqueued : ∀ t, (s.threads t).enqueued = true ↔ t ∈ s.rq
  nodup : s.rq.Nodup
  queued : ∀ t ∈ s.rq, Tracked s t
  lookup : ∀ g t, s.swLookup g = some t → (s.threads t).gtid = g
  thread : ∀ t, Tracked s t → ThreadOk s t
  pnt : ∀ c, PntOk s c
  handler : ∀ g h, s.handlers g = some h → HandlerOk s g h
  refs : ∀ t, RefsOk s t

end Invariant

/-! ## What the clauses depend on -/

/-- The second program counter says no more about the ball of `t`, whose seqnum
is `m`. -/
structure PntPc.Weaker (t : T) (m : ℕ) (pc pc' : PntPc T) : Prop where
  popping : pc'.Popping t ↔ pc.Popping t
  attempt : ∀ n, pc'.Attempt t n → pc.Attempt t n
  setPending : ∀ n, pc' = .setPending t n → pc = .setPending t n ∨ n = m
  incref : ∀ n, pc' = .incref t n → pc = .incref t n

theorem PntPc.Weaker.refl (t : T) (m : ℕ) (pc : PntPc T) : PntPc.Weaker t m pc pc :=
  ⟨Iff.rfl, fun _ h => h, fun _ h => .inl h, fun _ h => h⟩

/-- A cpu that is busy with other threads says nothing. -/
theorem PntPc.Weaker.of_thread_ne {pc pc' : PntPc T} {t : T} {m : ℕ} (h : pc.thread ≠ some t)
    (h' : pc'.thread ≠ some t) : PntPc.Weaker t m pc pc' := by
  constructor
  · exact ⟨fun hp => absurd hp.thread h', fun hp => absurd hp.thread h⟩
  · exact fun n hatt => absurd hatt.thread h'
  · intro n hpc
    rw [hpc] at h'
    exact absurd rfl h'
  · intro n hpc
    rw [hpc] at h'
    exact absurd rfl h'

/-- The accesses of a handler that decide where the ball is. -/
def MicroOp.Moves (op : MicroOp T) : Prop :=
  op = .enqueue ∨ op = .dequeue ∨ op = .setSchedNone

section Congr

variable {s s' : State G T K} {t : T} {g : G}

/-- The surroundings of the ball of a thread do not change. -/
structure Undisturbed (s s' : State G T K) (t : T) : Prop where
  gtid : (s'.threads t).gtid = (s.threads t).gtid
  task : s'.tasks (s.threads t).gtid = s.tasks (s.threads t).gtid
  rq : t ∈ s'.rq ↔ t ∈ s.rq
  pnt : ∀ c, PntPc.Weaker t (s.threads t).seqnum (s.pnt c) (s'.pnt c)
  has : ∀ op : MicroOp T, op.Moves → (Has s' (s.threads t).gtid op ↔ Has s (s.threads t).gtid op)
  takeBall : Has s' (s.threads t).gtid .takeBall → Has s (s.threads t).gtid .takeBall

theorem Undisturbed.popped (h : Undisturbed s s' t) : Popped s' t ↔ Popped s t :=
  exists_congr fun c => (h.pnt c).popping

theorem Undisturbed.noFresh (h : Undisturbed s s' t) (hn : NoFresh s t) : NoFresh s' t := by
  intro c n hatt
  rw [h.gtid, h.task]
  exact hn c n ((h.pnt c).attempt n hatt)

/-- What may happen to `seqnum`: the handler stores the one of its message. -/
def SeqnumKept (s s' : State G T K) (t : T) : Prop :=
  (s'.threads t).seqnum = (s.threads t).seqnum ∨
    (s'.threads t).seqnum = (s.tasks (s.threads t).gtid).barrier ∧
      ¬ Has s (s.threads t).gtid .takeBall ∧ ¬ Has s (s.threads t).gtid .dequeue

/-- What may happen to `pending_latch`: whoever has the ball clears it. -/
def PendingKept (s s' : State G T K) (t : T) : Prop :=
  (s'.threads t).pendingLatch = (s.threads t).pendingLatch ∧
      (∀ c, s.pnt c = .clearPending t → s'.pnt c = .clearPending t) ∧
      (Has s (s.threads t).gtid .clearPending → Has s' (s.threads t).gtid .clearPending) ∨
    (s'.threads t).pendingLatch = false ∧ NoFresh s t ∧
      ((s.tasks (s.threads t).gtid).phase = .runnable → Has s (s.threads t).gtid .enqueue)

/-- What holds of a thread survives a step that does not disturb it. -/
theorem ThreadOk.congr (hok : ThreadOk s t) (h : Undisturbed s s' t) (hseq : SeqnumKept s s' t)
    (hpend : PendingKept s s' t) : ThreadOk s' t := by
  have henq := h.has .enqueue (.inl rfl)
  have hdeq := h.has .dequeue (.inr (.inl rfl))
  have hnone := h.has .setSchedNone (.inr (.inr rfl))
  -- a thread that is marked was marked
  have hmark : (s'.threads t).pendingLatch = true → (s.threads t).pendingLatch = true := by
    intro hp
    rcases hpend with ⟨heq, -⟩ | ⟨hf, -⟩
    · rw [← heq, hp]
    · rw [hf] at hp
      cases hp
  have hunmark : (s.threads t).pendingLatch = false → (s'.threads t).pendingLatch = false := by
    intro hp
    by_contra hc
    rw [hmark (eq_true_of_ne_false hc)] at hp
    cases hp
  constructor
  · rw [h.gtid, h.task]
    rcases hseq with hseq | ⟨hseq, -⟩
    · rw [hseq]
      exact hok.seqnum_le
    · exact hseq.le
  · rw [h.gtid, h.task, h.rq, h.popped]
    intro hr ha
    rcases hok.kernel hr ha with ⟨hrq, hpop, hfresh, hclr⟩
    refine ⟨hrq, hpop, h.noFresh hfresh, ?_⟩
    intro hp
    rcases hclr (hmark hp) with ⟨c, hc⟩
    rcases hpend with ⟨-, hkeep, -⟩ | ⟨hf, -⟩
    · exact ⟨c, hkeep c hc⟩
    · rw [hf] at hp
      cases hp
  · rw [h.gtid, h.task, h.rq, h.popped, henq]
    intro hhas
    rcases hok.owes hhas with ⟨hph, hrq, hpop, hfresh, hclr⟩
    refine ⟨hph, hrq, hpop, h.noFresh hfresh, ?_⟩
    intro hp
    rcases hpend with ⟨-, -, hkeep⟩ | ⟨hf, -⟩
    · exact hkeep (hclr (hmark hp))
    · rw [hf] at hp
      cases hp
  · rw [h.gtid, h.task, h.rq, h.popped, henq]
    intro hph hhas
    rcases hpend with ⟨heq, -⟩ | ⟨-, -, howes⟩
    · rw [heq]
      exact hok.biff hph hhas
    · exact absurd (howes hph) hhas
  · rw [h.rq, h.popped]
    intro hrq
    rcases hok.queued hrq with ⟨hp, hpop, hfresh⟩
    exact ⟨hunmark hp, hpop, h.noFresh hfresh⟩
  · rw [h.rq, h.popped]
    intro hpop
    rcases hok.popped hpop with ⟨hrq, hp, hfresh⟩
    exact ⟨hrq, hunmark hp, h.noFresh hfresh⟩
  · rw [h.gtid, h.task]
    intro c n hatt hn
    have hatts := (h.pnt c).attempt n hatt
    rcases hok.fresh c n hatts hn with ⟨hp, huniq⟩
    refine ⟨?_, fun c' n' hatt' => huniq c' n' ((h.pnt c').attempt n' hatt')⟩
    rcases hpend with ⟨heq, -⟩ | ⟨-, hfresh, -⟩
    · rw [heq, hp]
    · exact absurd hn (hfresh c n hatts).ne
  · rw [h.gtid, h.task, h.rq, h.popped, hdeq, hnone]
    intro hph
    rcases hok.leaving hph with ⟨hfresh, hrest⟩
    exact ⟨h.noFresh hfresh, hrest⟩
  · rw [h.gtid, h.task, hdeq]
    intro hhas
    replace hhas := hhas.imp_left h.takeBall
    rcases hok.unseen hhas with ⟨hlt, hfresh, hset⟩
    refine ⟨?_, h.noFresh hfresh, ?_⟩
    · rcases hseq with hseq | ⟨-, htk, hdq⟩
      · rw [hseq]
        exact hlt
      · rcases hhas with hhas | hhas
        · exact absurd hhas htk
        · exact absurd hhas hdq
    · intro c n hpc
      rcases (h.pnt c).setPending n hpc with hold | hn
      · exact hset c n hold
      · exact hn ▸ hlt
  · rw [h.gtid, h.task, hdeq]
    intro c n hpc
    rcases hok.taken c n ((h.pnt c).incref n hpc) with ⟨hph, hothers⟩
    exact ⟨hph, fun c' n' hatt => hothers c' n' ((h.pnt c').attempt n' hatt)⟩

/-- References depend on who holds them, and on who is about to delete the entry. -/
theorem RefsOk.congr (hr : RefsOk s t) (hg : (s'.threads t).gtid = (s.threads t).gtid)
    (href : (s'.threads t).refcnt = (s.threads t).refcnt)
    (hsched : (s'.threads t).sched = .biff → (s.threads t).sched = .biff)
    (hl : s'.swLookup (s.threads t).gtid = s.swLookup (s.threads t).gtid)
    (hholds : ∀ c, (s'.pnt c).HoldsRef t ↔ (s.pnt c).HoldsRef t)
    (hdel : ∀ a, Deleter s' t a → Deleter s t a) : RefsOk s' t := by
  constructor
  · intro htr
    have htr' : Tracked s t := by
      refine ⟨?_, hsched htr.2⟩
      rw [← hl, ← hg]
      exact htr.1
    rcases hr.tracked htr' with ⟨F, hF, hcard⟩
    rw [href]
    exact ⟨F, fun c => (hF c).trans (hholds c).symm, hcard⟩
  · rw [hg, hl, href]
    exact hr.deleted
  · intro a ha
    rw [hg, hl, href]
    rcases hr.deleter a (hdel a ha) with ⟨hle, hs, hlookup, huniq⟩
    exact ⟨hle, mt hsched hs, hlookup, fun b hb => huniq b (hdel b hb)⟩

/-- A handler depends on its own task, and on the threads that it knows or can find. -/
theorem HandlerOk.congr {h : Handler T K} (ho : HandlerOk s g h) (htask : s'.tasks g = s.tasks g)
    (hlatch : s'.latchedBy g = none) (hl : s'.swLookup g = s.swLookup g)
    (hthreads : ∀ j, h.thread = some j ∨ s.swLookup g = some j →
      (s'.threads j).gtid = (s.threads j).gtid ∧ (s'.threads j).sched = (s.threads j).sched)
    (hrq : ∀ j, h.thread = some j → j ∈ s'.rq → j ∈ s.rq)
    (hfresh : ∀ idx r, .insert idx r ∈ h.todo → Fresh s g idx → Fresh s' g idx) :
    HandlerOk s' g h := by
  constructor
  · rw [htask]
    exact ho.seqnum
  · exact hlatch
  · rw [htask]
    exact ho.phase
  · exact ho.rest
  · intro j hj
    rw [(hthreads j (.inl hj)).1, (hthreads j (.inl hj)).2, hl]
    exact ho.thread j hj
  · intro idx r hins
    rcases ho.insert idx r hins with ⟨hf, hnot⟩
    refine ⟨hfresh idx r hins hf, ?_⟩
    intro j hj
    rw [hl] at hj
    rw [(hthreads j (.inr hj)).2]
    exact hnot j hj
  · exact fun hinit j hj hin => ho.init hinit j hj (hrq j hj hin)
  · intro j hj
    rw [(hthreads j (.inl hj)).2]
    exact ho.dropped j hj

end Congr

end Flux
