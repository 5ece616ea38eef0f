import GhostSched.Flux.Accesses

/-!
# PNT and the ball

Every access of a cpu in PNT keeps the invariant of `Ball.lean`. As for the
handlers, `PntMove` is the frame: a cpu works on one thread, and the others do
not notice. The cpu takes the ball when it takes the thread off the runqueue. It
keeps it, as `pending_latch`, until a latch succeeds, or until a handler that
runs after a failed latch takes it back.
-/

namespace Flux

open Function

variable {G T K : Type*} [DecidableEq T] [DecidableEq K] {s s' : State G T K} {g : G} {t : T}
variable {c : K} {x : Thread G} {pc : PntPc T} {j : T} {n : ℕ}

/-! ## The frame of an access -/

/-- What a cpu leaves alone when it works on its thread. -/
structure PntMove [DecidableEq G] (s s' : State G T K) (c : K) (t : T) (x : Thread G)
    (pc : PntPc T) : Prop where
  known : (s.pnt c).thread = some t ∨ s.pnt c = .idle ∧ t ∈ s.rq
  threads : s'.threads = update s.threads t x
  gtid : x.gtid = (s.threads t).gtid
  seqnum : x.seqnum = (s.threads t).seqnum
  sched : x.sched = (s.threads t).sched
  pnt : s'.pnt = update s.pnt c pc
  thread : ∀ j, pc.thread = some j → j = t
  lock : ∀ c', s'.biffLock = some c' ↔ (s'.pnt c').Locked
  swLookup : s'.swLookup = s.swLookup
  handlers : s'.handlers = s.handlers
  tasks : s'.tasks = s.tasks
  latchedBy : s'.latchedBy = s.latchedBy ∨
    (s.pnt c).Won t ∧ s'.latchedBy = update s.latchedBy (s.threads t).gtid none
  rq : ∀ j, j ≠ t → (j ∈ s'.rq ↔ j ∈ s.rq)
  rq_self : t ∈ s'.rq → t ∈ s.rq

namespace PntMove

variable [DecidableEq G]

variable (hm : PntMove s s' c t x pc)
include hm

theorem thread_self : s'.threads t = x := by
  rw [hm.threads, update_self]

theorem thread_ne (hj : j ≠ t) : s'.threads j = s.threads j := by
  rw [hm.threads, update_of_ne hj]

theorem gtid_eq (j : T) : (s'.threads j).gtid = (s.threads j).gtid := by
  by_cases hj : j = t
  · rw [hj, hm.thread_self, hm.gtid]
  · rw [hm.thread_ne hj]

theorem sched_eq (j : T) : (s'.threads j).sched = (s.threads j).sched := by
  by_cases hj : j = t
  · rw [hj, hm.thread_self, hm.sched]
  · rw [hm.thread_ne hj]

theorem pnt_self : s'.pnt c = pc := by
  rw [hm.pnt, update_self]

theorem pnt_ne {c' : K} (hc : c' ≠ c) : s'.pnt c' = s.pnt c' := by
  rw [hm.pnt, update_of_ne hc]

theorem task (j : T) : s'.tasks (s'.threads j).gtid = s.tasks (s.threads j).gtid := by
  rw [hm.gtid_eq, hm.tasks]

theorem has (j : T) {op : MicroOp T} :
    Has s' (s'.threads j).gtid op ↔ Has s (s.threads j).gtid op := by
  rw [hm.gtid_eq]
  exact has_congr (by rw [hm.handlers])

theorem tracked (j : T) : Tracked s' j ↔ Tracked s j := by
  unfold Tracked
  rw [hm.gtid_eq, hm.sched_eq, hm.swLookup]

theorem mem_rq (hj : j ∈ s'.rq) : j ∈ s.rq := by
  grind [hm.rq_self, hm.rq]

/-- The cpu had nothing to do with another thread, and still has not. -/
theorem old_thread_ne (hj : j ≠ t) : (s.pnt c).thread ≠ some j := by
  rcases hm.known with hth | ⟨hidle, -⟩
  · rw [hth]
    exact fun heq => hj (Option.some.inj heq).symm
  · rw [hidle]
    exact fun heq => by cases heq

theorem new_thread_ne (hj : j ≠ t) : (s'.pnt c).thread ≠ some j := by
  rw [hm.pnt_self]
  exact fun heq => hj (hm.thread j heq)

/-- Whatever a program counter says about another thread has not changed. -/
theorem pnt_iff (hj : j ≠ t) (P : PntPc T → Prop) (hP : ∀ pc, P pc → pc.thread = some j) (c' : K) :
    P (s'.pnt c') ↔ P (s.pnt c') := by
  by_cases hc : c' = c
  · grind [hm.new_thread_ne, hm.old_thread_ne]
  · rw [hm.pnt_ne hc]

/-- The other entries do not notice what the cpu holds. -/
theorem weaker_ne (hj : j ≠ t) (c' : K) :
    PntPc.Weaker j (s.threads j).seqnum (s.pnt c') (s'.pnt c') := by
  by_cases hc : c' = c
  · subst hc
    exact .of_thread_ne (hm.old_thread_ne hj) (hm.new_thread_ne hj)
  · rw [hm.pnt_ne hc]
    exact .refl _ _ _

/-- The other entries do not notice. -/
theorem threadOk_ne (hI : Inv s) (hj : j ≠ t) (htr : Tracked s j) : ThreadOk s' j := by
  have hh : s'.handlers (s.threads j).gtid = s.handlers (s.threads j).gtid := by rw [hm.handlers]
  refine (hI.thread j htr).congr ⟨hm.gtid_eq j, by rw [hm.tasks], hm.rq j hj, hm.weaker_ne hj,
    fun op _ => has_congr hh, (has_congr hh).mp⟩ (.inl ?_) (.inl ⟨?_, ?_, (has_congr hh).mpr⟩)
  · rw [hm.thread_ne hj]
  · rw [hm.thread_ne hj]
  · intro c' hpc
    exact (hm.pnt_iff hj (· = .clearPending j) (fun _ hpc => congrArg PntPc.thread hpc) c').mpr hpc

theorem latchedBy_none (hl : s.latchedBy g = none) : s'.latchedBy g = none := by
  rcases hm.latchedBy with heq | ⟨-, heq⟩
  · rw [heq, hl]
  · rw [heq]
    by_cases hg : g = (s.threads t).gtid
    · rw [hg, update_self]
    · rw [update_of_ne hg, hl]

/-- The locks of the other cpus stay. -/
theorem latchedBy_some (hI : Inv s) {c' : K} (hc : c' ≠ c) (hl : s.latchedBy g = some c') :
    s'.latchedBy g = some c' := by
  rcases hm.latchedBy with heq | ⟨hwon, heq⟩
  · rw [heq, hl]
  · rw [heq]
    by_cases hg : g = (s.threads t).gtid
    · have hl' := ((hI.pnt c).won t hwon).1
      rw [← hg, hl] at hl'
      exact absurd (Option.some.inj hl') hc
    · rw [update_of_ne hg, hl]

/-- The other cpus do not notice. -/
theorem pntOk_ne (hI : Inv s) {c' : K} (hc : c' ≠ c) : PntOk s' c' := by
  have hp := hI.pnt c'
  constructor
  · intro j hpop
    rw [hm.pnt_ne hc] at hpop
    exact (hm.tracked j).mpr (hp.popping j hpop)
  · intro j n hpc
    rw [hm.pnt_ne hc] at hpc
    rw [hm.task]
    exact hp.setPending j n hpc
  · intro j n hatt
    rw [hm.pnt_ne hc] at hatt
    rw [hm.task, hm.tracked]
    exact hp.attempt j n hatt
  · intro j n hpc
    rw [hm.pnt_ne hc] at hpc
    exact (hm.tracked j).mpr (hp.taken j n hpc)
  · intro j hwon
    rw [hm.pnt_ne hc] at hwon
    rcases hp.won j hwon with ⟨hl, htr, hph⟩
    rw [hm.task, hm.gtid_eq]
    exact ⟨hm.latchedBy_some hI hc hl, (hm.tracked j).mpr htr, hph⟩

/-- The handlers do not notice. -/
theorem handlerOk (hI : Inv s) {h : Handler T K} (hh : s'.handlers g = some h) :
    HandlerOk s' g h := by
  rw [hm.handlers] at hh
  have ho := hI.handler g h hh
  refine ho.congr (by rw [hm.tasks]) (hm.latchedBy_none ho.unlatched) (by rw [hm.swLookup])
    (fun j _ => ⟨hm.gtid_eq j, hm.sched_eq j⟩) (fun _ _ => hm.mem_rq) ?_
  intro idx r _ hf
  have hidx : idx ≠ t := by
    grind [hm.known, hf.pnt, hf.rq]
  refine ⟨by rw [hm.swLookup]; exact hf.swLookup, fun c' => ?_, fun hin => hf.rq (hm.mem_rq hin),
    by rw [hm.handlers]; exact hf.handlers⟩
  exact mt (hm.pnt_iff hidx (·.thread = some idx) (fun _ => id) c').mp (hf.pnt c')

/-- The references to the other entries stay. -/
theorem refsOk_ne (hI : Inv s) (hj : j ≠ t) : RefsOk s' j := by
  refine (hI.refs j).congr (hm.gtid_eq j) (by rw [hm.thread_ne hj]) ?_ (by rw [hm.swLookup])
    (hm.pnt_iff hj (·.HoldsRef j) fun _ => PntPc.HoldsRef.thread) ?_
  · rw [hm.thread_ne hj]
    exact id
  · intro a ha
    cases a with
    | inl c' => exact (hm.pnt_iff hj (·.Deletes j) (fun _ => PntPc.Deletes.thread) c').mp ha
    | inr g =>
      grind [hm.handlers, Flux.Deleter]

end PntMove

/-- The invariant after a cpu has worked on its thread. -/
theorem Inv.pntMove [DecidableEq G] (hI : Inv s) (hm : PntMove s s' c t x pc) (hnd : s'.rq.Nodup)
    (henq : x.enqueued = true ↔ t ∈ s'.rq) (hok : Tracked s t → ThreadOk s' t) (hpnt : PntOk s' c)
    (hrefs : RefsOk s' t) : Inv s' := by
  constructor
  · exact hm.lock
  · intro j
    by_cases hj : j = t
    · rw [hj, hm.thread_self]
      exact henq
    · rw [hm.thread_ne hj, hm.rq j hj]
      exact hI.enqueued j
  · exact hnd
  · exact fun j hin => (hm.tracked j).mpr (hI.queued j (hm.mem_rq hin))
  · intro g j hl
    rw [hm.gtid_eq]
    exact hI.lookup g j (hm.swLookup ▸ hl)
  · grind [hm.tracked, hm.threadOk_ne]
  · grind [hm.pntOk_ne]
  · exact fun g h hh => hm.handlerOk hI hh
  · grind [hm.refsOk_ne]

/-! ## What an access has to show -/

omit [DecidableEq T] in
/-- Biff's lock, when the cpu neither takes nor releases it. -/
theorem Inv.lock_of_iff (hI : Inv s) (hp : s'.pnt = update s.pnt c pc)
    (hb : s'.biffLock = s.biffLock) (hl : pc.Locked ↔ (s.pnt c).Locked) (c' : K) :
    s'.biffLock = some c' ↔ (s'.pnt c').Locked := by
  rw [hb, hp, hI.lock c']
  by_cases hc : c' = c
  · rw [hc, update_self, hl]
  · rw [update_of_ne hc]

section Obligations

variable [DecidableEq G]

namespace PntMove

variable (hm : PntMove s s' c t x pc)
include hm

/-- What the cpu relies on. -/
theorem pntOk_self (hpop : ∀ j, pc.Popping j → Tracked s j)
    (hset : ∀ j n, pc = .setPending j n → n ≤ (s.tasks (s.threads j).gtid).barrier)
    (hatt : ∀ j n, pc.Attempt j n → n ≤ (s.tasks (s.threads j).gtid).barrier ∧
      (¬ Tracked s j → n < (s.tasks (s.threads j).gtid).barrier))
    (htaken : ∀ j n, pc = .incref j n → Tracked s j)
    (hwon : ∀ j, pc.Won j → s'.latchedBy (s.threads j).gtid = some c ∧ Tracked s j ∧
      (s.tasks (s.threads j).gtid).phase = .latched) :
    PntOk s' c := by
  constructor <;> rw [hm.pnt_self]
  · exact fun j hj => (hm.tracked j).mpr (hpop j hj)
  · intro j n hj
    rw [hm.task]
    exact hset j n hj
  · intro j n hj
    rw [hm.task, hm.tracked]
    exact hatt j n hj
  · exact fun j n hj => (hm.tracked j).mpr (htaken j n hj)
  · intro j hj
    rw [hm.task, hm.gtid_eq, hm.tracked]
    exact hwon j hj

/-- Nobody else begins to delete the entry. -/
theorem deleter_self (hdel : pc.Deletes t → (s.pnt c).Deletes t) {a : K ⊕ G} (ha : Deleter s' t a) :
    Deleter s t a := by
  cases a with
  | inl c' =>
    change (s'.pnt c').Deletes t at ha
    by_cases hc : c' = c
    · rw [hc] at ha ⊢
      rw [hm.pnt_self] at ha
      exact hdel ha
    · rw [hm.pnt_ne hc] at ha
      exact ha
  | inr g =>
    change ∃ h, s.handlers g = some h ∧ _
    rw [← hm.handlers]
    exact ha

/-- The references, when none is taken or dropped. -/
theorem refsOk (hI : Inv s) (href : x.refcnt = (s.threads t).refcnt)
    (hh : pc.HoldsRef t ↔ (s.pnt c).HoldsRef t) (hdel : pc.Deletes t → (s.pnt c).Deletes t) :
    RefsOk s' t := by
  refine (hI.refs t).congr (hm.gtid_eq t) (by rw [hm.thread_self, href]) ?_ (by rw [hm.swLookup]) ?_
    fun a ha => hm.deleter_self hdel ha
  · rw [hm.sched_eq]
    exact id
  · intro c'
    by_cases hc : c' = c
    · rw [hc, hm.pnt_self, hh]
    · rw [hm.pnt_ne hc]

/-- The entry stays on the queue, or off it. -/
theorem undisturbed_self (hrq : t ∈ s'.rq ↔ t ∈ s.rq)
    (hw : PntPc.Weaker t (s.threads t).seqnum (s.pnt c) pc) : Undisturbed s s' t := by
  have hh : s'.handlers (s.threads t).gtid = s.handlers (s.threads t).gtid := by rw [hm.handlers]
  refine ⟨hm.gtid_eq t, by rw [hm.tasks], hrq, ?_, fun op _ => has_congr hh, (has_congr hh).mp⟩
  intro c'
  by_cases hc : c' = c
  · rw [hc, hm.pnt_self]
    exact hw
  · rw [hm.pnt_ne hc]
    exact .refl _ _ _

end PntMove

/-- An access that does not move the ball. -/
theorem Inv.pntQuiet (hI : Inv s) (hm : PntMove s s' c t x pc) (hrq : s'.rq = s.rq)
    (henq : x.enqueued = (s.threads t).enqueued)
    (hpend : x.pendingLatch = (s.threads t).pendingLatch ∧ s.pnt c ≠ .clearPending t)
    (hw : PntPc.Weaker t (s.threads t).seqnum (s.pnt c) pc) (hpnt : PntOk s' c)
    (hrefs : RefsOk s' t) : Inv s' := by
  refine hI.pntMove hm ?_ ?_ ?_ hpnt hrefs
  · rw [hrq]
    exact hI.nodup
  · rw [henq, hrq]
    exact hI.enqueued t
  · intro htr
    refine (hI.thread t htr).congr (hm.undisturbed_self (by rw [hrq]) hw) (.inl ?_)
      (.inl ⟨?_, ?_, ?_⟩)
    · rw [hm.thread_self, hm.seqnum]
    · rw [hm.thread_self, hpend.1]
    · grind [hm.pnt_ne]
    · exact (has_congr (by rw [hm.handlers])).mpr

/-! ## References -/

/-- The references, when the cpu takes one. -/
theorem PntMove.refsOk_acquire (hm : PntMove s s' c t x pc) (hI : Inv s) (htr : Tracked s t)
    (href : x.refcnt = (s.threads t).refcnt + 1) (hold : ¬ (s.pnt c).HoldsRef t)
    (hnew : pc.HoldsRef t) (hdel : ¬ pc.Deletes t) : RefsOk s' t := by
  have hr := hI.refs t
  constructor
  · intro _
    rcases hr.tracked htr with ⟨F, hF, hcard⟩
    have hc : c ∉ F := mt (hF c).mp hold
    refine ⟨insert c F, ?_, ?_⟩
    · intro c'
      rw [Finset.mem_insert, hF]
      by_cases hc' : c' = c
      · rw [hc', hm.pnt_self]
        exact ⟨fun _ => hnew, fun _ => .inl rfl⟩
      · simp [hc', hm.pnt_ne hc']
    · rw [hm.thread_self, href, hcard, Finset.card_insert_of_notMem hc]
      omega
  · rw [hm.gtid_eq, hm.swLookup]
    exact fun hl => absurd htr.1 hl
  · intro a ha
    exact absurd htr.2 (hr.deleter a (hm.deleter_self (fun hd => absurd hd hdel) ha)).2.1

/-- The references, when the cpu drops its own. The last one to do so deletes the
entry. -/
theorem PntMove.refsOk_release (hm : PntMove s s' c t x pc) (hI : Inv s)
    (href : x.refcnt = (s.threads t).refcnt - 1) (hold : (s.pnt c).HoldsRef t)
    (hnew : ¬ pc.HoldsRef t) (hdel : pc.Deletes t → (s.threads t).refcnt - 1 = 0) :
    RefsOk s' t := by
  have hr := hI.refs t
  have hle : x.refcnt ≤ (s.threads t).refcnt := by
    rw [href]
    exact sub_le_self _ zero_le_one
  constructor
  · intro htr
    rcases hr.tracked ((hm.tracked t).mp htr) with ⟨F, hF, hcard⟩
    have hc : c ∈ F := (hF c).mpr hold
    refine ⟨F.erase c, ?_, ?_⟩
    · intro c'
      rw [Finset.mem_erase, hF]
      by_cases hc' : c' = c
      · grind [hm.pnt_self]
      · simp [hc', hm.pnt_ne hc']
    · grind [hm.thread_self]
  · rw [hm.gtid_eq, hm.thread_self, hm.swLookup]
    exact fun hl => hle.trans (hr.deleted hl)
  · intro a ha
    rw [hm.sched_eq, hm.gtid_eq, hm.thread_self, hm.swLookup]
    by_cases hz : (s.threads t).refcnt - 1 = 0
    · -- the last reference: nobody deletes the entry yet, and it is there
      have hpos : ¬ (s.threads t).refcnt ≤ 0 := by omega
      have hl : s.swLookup (s.threads t).gtid = some t := by
        by_contra hl
        exact hpos (hr.deleted hl)
      have hoff : (s.threads t).sched ≠ .biff := by
        intro hs
        rcases hr.tracked ⟨hl, hs⟩ with ⟨F, hF, hcard⟩
        have hc := Finset.card_pos.mpr ⟨c, (hF c).mpr hold⟩
        omega
      have hnew : ∀ b, Deleter s' t b → b = .inl c := by
        intro b hb
        by_contra hne
        refine hpos (hr.deleter b ?_).1
        cases b with
        | inl c' =>
          have hc' : c' ≠ c := fun heq => hne (by rw [heq])
          change (s.pnt c').Deletes t
          rw [← hm.pnt_ne hc']
          exact hb
        | inr g =>
          grind [hm.handlers, Flux.Deleter]
      refine ⟨?_, hoff, hl, fun b hb => (hnew b hb).trans (hnew a ha).symm⟩
      rw [href, hz]
    · have hno : pc.Deletes t → (s.pnt c).Deletes t := fun hd => absurd (hdel hd) hz
      rcases hr.deleter a (hm.deleter_self hno ha) with ⟨hle', hs, hl, huniq⟩
      exact ⟨hle.trans hle', hs, hl, fun b hb => huniq b (hm.deleter_self hno hb)⟩

end Obligations

/-! ## Taking the ball -/

variable [DecidableEq G]

section

variable (hI : Inv s)
include hI

/-- `__biff_pick_first_to_run`: the cpu takes a thread off the runqueue. -/
theorem Inv.pop {rq : List T} (hpc : s.pnt c = .idle) (hlock : s.biffLock = none)
    (hrq : s.rq = t :: rq) :
    let s' := ({ s with rq := rq, biffLock := some c }.setThread t
      fun x => { x with enqueued := false }).setPnt c (.readSeqnum t)
    Inv s' := by
  have hin : t ∈ s.rq := hrq ▸ List.mem_cons_self
  have htr := hI.queued t hin
  have hok := hI.thread t htr
  have hnd := hI.nodup
  rw [hrq, List.nodup_cons] at hnd
  rcases hok.queued hin with ⟨hpend, hpop, hfresh⟩
  set s' := ({ s with rq := rq, biffLock := some c }.setThread t
    fun x => { x with enqueued := false }).setPnt c (.readSeqnum t)
  have hm : PntMove s s' c t { s.threads t with enqueued := false } (.readSeqnum t) := by
    refine ⟨.inr ⟨hpc, hin⟩, rfl, rfl, rfl, rfl, rfl, fun j hj => (Option.some.inj hj).symm, ?_,
      rfl, rfl, rfl, .inl rfl, ?_, fun _ => hin⟩
    · -- the lock is this cpu's now
      intro c'
      change some c = some c' ↔ (Function.update s.pnt c (.readSeqnum t) c').Locked
      by_cases hc : c' = c
      · rw [hc, Function.update_self]
        simp [PntPc.Locked]
      · rw [Function.update_of_ne hc, ← hI.lock c', hlock]
        simp [Ne.symm hc]
    · -- the other entries stay on the queue
      intro j hj
      rw [hrq, List.mem_cons]
      exact ⟨.inr, fun hor => hor.resolve_left hj⟩
  -- the ball goes from the queue to this cpu
  have hpop' : Popped s' t := ⟨c, hm.pnt_self ▸ rfl⟩
  have hfresh' : NoFresh s' t := by
    intro c' n hatt
    rw [hm.task]
    by_cases hc : c' = c
    · rw [hc, hm.pnt_self] at hatt
      cases hatt
    · rw [hm.pnt_ne hc] at hatt
      exact hfresh c' n hatt
  refine hI.pntMove hm hnd.2 (by simp [hnd.1, s', State.setPnt, State.setThread]) ?_ ?_ ?_
  · -- the entry
    intro _
    constructor
    · rw [hm.task, hm.thread_self]
      exact hok.seqnum_le
    · rw [hm.task]
      exact fun hr ha => absurd hin (hok.kernel hr ha).1
    · rw [hm.has]
      exact fun hhas => absurd hin (hok.owes hhas).2.1
    · exact fun _ _ => .inr (.inl hpop')
    · exact fun hin' => absurd hin' hnd.1
    · intro _
      rw [hm.thread_self]
      exact ⟨hnd.1, hpend, hfresh'⟩
    · exact fun c' n hatt heq => absurd heq (hfresh' c' n hatt).ne
    · rw [hm.task, hm.has, hm.has]
      intro habs
      rcases hok.leaving habs with ⟨-, hnone, hdq | ⟨hnot, -⟩⟩
      · exact ⟨hfresh', hnone, .inl hdq⟩
      · exact absurd hin hnot
    · rw [hm.task, hm.has, hm.has, hm.thread_self]
      intro hhas
      rcases hok.unseen hhas with ⟨hlt, -, hset⟩
      refine ⟨hlt, hfresh', ?_⟩
      intro c' n hpc'
      by_cases hc : c' = c
      · rw [hc, hm.pnt_self] at hpc'
        cases hpc'
      · exact hset c' n (hm.pnt_ne hc ▸ hpc')
    · intro c' n hpc'
      by_cases hc : c' = c
      · rw [hc, hm.pnt_self] at hpc'
        cases hpc'
      · exact absurd (hm.pnt_ne hc ▸ hpc') (hI.not_incref hlock c' n)
  · -- the cpu
    refine hm.pntOk_self ?_ (by simp) (by simp [PntPc.Attempt]) (by simp) (by simp [PntPc.Won])
    intro j hj
    cases hj
    exact htr
  · -- the queue's reference becomes the cpu's
    refine hm.refsOk hI rfl ?_ (by simp [PntPc.Deletes])
    rw [hpc]
    exact Iff.rfl

/-- The frame of an access that leaves the lock alone. -/
theorem PntMove.of_setThread (hth : (s.pnt c).thread = some t)
    (hpc : ∀ j, pc.thread = some j → j = t) (hl : pc.Locked ↔ (s.pnt c).Locked)
    (f : Thread G → Thread G) (hg : (f (s.threads t)).gtid = (s.threads t).gtid)
    (hseq : (f (s.threads t)).seqnum = (s.threads t).seqnum)
    (hs : (f (s.threads t)).sched = (s.threads t).sched) :
    PntMove s ((s.setThread t f).setPnt c pc) c t (f (s.threads t)) pc :=
  ⟨.inl hth, rfl, hg, hseq, hs, rfl, hpc, hI.lock_of_iff rfl rfl hl, rfl, rfl, rfl, .inl rfl,
    fun _ _ => Iff.rfl, id⟩

/-- Only the cpu goes on. -/
theorem PntMove.of_setPnt (hth : (s.pnt c).thread = some t)
    (hpc : ∀ j, pc.thread = some j → j = t) (hl : pc.Locked ↔ (s.pnt c).Locked) :
    PntMove s (s.setPnt c pc) c t (s.threads t) pc :=
  ⟨.inl hth, (update_eq_self t s.threads).symm, rfl, rfl, rfl, rfl, hpc,
    hI.lock_of_iff rfl rfl hl, rfl, rfl, rfl, .inl rfl, fun _ _ => Iff.rfl, id⟩

/-- `flux_prepare_to_run` reads the seqnum of the thread. -/
theorem Inv.readSeqnum (hpc : s.pnt c = .readSeqnum t) :
    Inv (s.setPnt c (.setPending t (s.threads t).seqnum)) := by
  have htr := (hI.pnt c).popping t (by simp [hpc])
  have hm : PntMove s (s.setPnt c (.setPending t (s.threads t).seqnum)) c t (s.threads t)
      (.setPending t (s.threads t).seqnum) :=
    .of_setPnt hI (by simp [hpc]) (by simp) (by simp [hpc])
  refine hI.pntQuiet hm rfl rfl ⟨rfl, by simp [hpc]⟩ ?_ ?_ ?_
  · constructor <;> simp +contextual [hpc]
  · refine hm.pntOk_self ?_ ?_ (by simp) (by simp) (by simp)
    · intro j hj
      cases hj
      exact htr
    · intro j n hj
      cases hj
      exact (hI.thread t htr).seqnum_le
  · exact hm.refsOk hI rfl (by simp [hpc]) (by simp)

/-- `flux_prepare_to_run` marks the thread: the ball is with this cpu. -/
theorem Inv.setPending (hpc : s.pnt c = .setPending t n) :
    let s' := (s.setThread t fun x => { x with pendingLatch := true }).setPnt c (.incref t n)
    Inv s' := by
  have hpop : Popped s t := ⟨c, by simp [hpc]⟩
  have htr := (hI.pnt c).popping t (by simp [hpc])
  have hok := hI.thread t htr
  rcases hok.popped hpop with ⟨hrq, -, hfresh⟩
  set s' := (s.setThread t fun x => { x with pendingLatch := true }).setPnt c (.incref t n)
  have hm : PntMove s s' c t { s.threads t with pendingLatch := true } (.incref t n) :=
    .of_setThread hI (by simp [hpc]) (by simp) (by simp [hpc]) _ rfl rfl rfl
  -- only the holder of biff's lock takes threads off the runqueue
  have hpop' : ¬ Popped s' t := by
    intro hp
    rcases hp with ⟨c', hc'⟩
    by_cases hc : c' = c
    · rw [hc, hm.pnt_self] at hc'
      exact hc'
    · rw [hm.pnt_ne hc] at hc'
      exact hc (hI.locked_unique (by simp [hpc]) hc'.locked)
  have hothers : ∀ c' n', (s'.pnt c').Attempt t n' → c' ≠ c →
      n' < (s.tasks (s.threads t).gtid).barrier := by
    intro c' n' hatt hc
    rw [hm.pnt_ne hc] at hatt
    exact hfresh c' n' hatt
  have hself : ∀ n', (s'.pnt c).Attempt t n' → n' = n := by
    intro n' hatt
    rw [hm.pnt_self] at hatt
    exact hatt.2.symm
  have hstale : Has s (s.threads t).gtid .takeBall ∨ Has s (s.threads t).gtid .dequeue →
      NoFresh s' t := by
    intro hhas c' n' hatt
    rw [hm.task]
    by_cases hc : c' = c
    · rw [hc] at hatt
      rw [hself n' hatt]
      exact (hok.unseen hhas).2.2 c n hpc
    · exact hothers c' n' hatt hc
  -- the thread is runnable, or about to leave
  have hph : (s.tasks (s.threads t).gtid).phase = .runnable ∨
      (s.tasks (s.threads t).gtid).phase = .absent ∧ Has s (s.threads t).gtid .dequeue := by
    by_contra hne
    rw [not_or] at hne
    by_cases habs : (s.tasks (s.threads t).gtid).phase = .absent
    · rcases (hok.leaving habs).2.2 with hdq | ⟨-, hnot⟩
      · exact hne.2 ⟨habs, hdq⟩
      · exact hnot hpop
    · exact (hok.kernel hne.1 habs).2.1 hpop
  refine hI.pntMove hm hI.nodup (hI.enqueued t) ?_ ?_ ?_
  · intro _
    constructor
    · rw [hm.task, hm.thread_self]
      exact hok.seqnum_le
    · rw [hm.task]
      exact fun hr ha => absurd hpop (hok.kernel hr ha).2.1
    · rw [hm.has]
      exact fun hhas => absurd hpop (hok.owes hhas).2.2.1
    · rw [hm.thread_self]
      exact fun _ _ => .inr (.inr rfl)
    · exact fun hin => absurd hin hrq
    · exact fun hp => absurd hp hpop'
    · rw [hm.task, hm.thread_self]
      intro c' n' hatt hn'
      refine ⟨rfl, ?_⟩
      have hc' : c' = c := by
        by_contra hc
        exact absurd hn' (hothers c' n' hatt hc).ne
      intro c'' n'' hatt' hn''
      by_contra hc
      exact absurd hn'' (hothers c'' n'' hatt' (hc' ▸ hc)).ne
    · rw [hm.task, hm.has, hm.has]
      intro habs
      rcases hok.leaving habs with ⟨-, hnone, hdq | ⟨-, hnot⟩⟩
      · exact ⟨hstale (.inr hdq), hnone, .inl hdq⟩
      · exact absurd hpop hnot
    · rw [hm.task, hm.has, hm.has, hm.thread_self]
      intro hhas
      rcases hok.unseen hhas with ⟨hlt, -, hset⟩
      refine ⟨hlt, hstale hhas, ?_⟩
      intro c' n' hpc'
      by_cases hc : c' = c
      · rw [hc, hm.pnt_self] at hpc'
        cases hpc'
      · exact hset c' n' (hm.pnt_ne hc ▸ hpc')
    · rw [hm.task, hm.has]
      intro c' n' hpc'
      have hc' : c' = c := by
        by_contra hc
        rw [hm.pnt_ne hc] at hpc'
        exact hc (hI.locked_unique (by simp [hpc]) (by simp [hpc']))
      rw [hc']
      exact ⟨hph.imp_right And.right, hothers⟩
  · refine hm.pntOk_self (by simp) (by simp) ?_ ?_ (by simp)
    · intro j n' hatt
      rcases hatt with ⟨htj, hn⟩
      subst htj hn
      exact ⟨(hI.pnt c).setPending _ _ hpc, fun hnot => absurd htr hnot⟩
    · intro j n' hj
      cases hj
      exact htr
  · exact hm.refsOk hI rfl (by simp [hpc]) (by simp)

/-- `flux_thread_incref` -/
theorem Inv.incref (hpc : s.pnt c = .incref t n) :
    let s' := (s.setThread t fun x => { x with refcnt := x.refcnt + 1 }).setPnt c (.unlock t n)
    Inv s' := by
  intro s'
  have hm : PntMove s s' c t { s.threads t with refcnt := (s.threads t).refcnt + 1 }
    (.unlock t n) :=
    .of_setThread hI (by simp [hpc]) (by simp) (by simp [hpc]) _ rfl rfl rfl
  refine hI.pntQuiet hm rfl rfl ⟨rfl, by simp [hpc]⟩ ?_ ?_ ?_
  · constructor <;> simp +contextual [hpc]
  · refine hm.pntOk_self (by simp) (by simp) ?_ (by simp) (by simp)
    intro j n' hatt
    exact (hI.pnt c).attempt j n' (by rw [hpc]; exact hatt)
  · exact hm.refsOk_acquire hI ((hI.pnt c).taken t n hpc) rfl (by simp [hpc]) rfl (by simp)

/-- The cpu releases biff's lock. -/
theorem Inv.unlock (hpc : s.pnt c = .unlock t n) :
    let s' := { s with biffLock := none }.setPnt c (.run t n)
    Inv s' := by
  intro s'
  have hm : PntMove s s' c t (s.threads t) (.run t n) := by
    refine ⟨.inl (by simp [hpc]), (update_eq_self t s.threads).symm, rfl, rfl, rfl, rfl,
      by simp, ?_, rfl, rfl, rfl, .inl rfl, fun _ _ => Iff.rfl, id⟩
    intro c'
    change none = some c' ↔ (update s.pnt c (.run t n) c').Locked
    by_cases hc : c' = c
    · rw [hc, update_self]
      simp
    · rw [update_of_ne hc]
      refine ⟨by simp, ?_⟩
      exact fun hl => absurd (hI.locked_unique (by simp [hpc]) hl) hc
  refine hI.pntQuiet hm rfl rfl ⟨rfl, by simp [hpc]⟩ ?_ ?_ ?_
  · constructor <;> simp +contextual [hpc]
  · refine hm.pntOk_self (by simp) (by simp) ?_ (by simp) (by simp)
    intro j n' hatt
    exact (hI.pnt c).attempt j n' (by rw [hpc]; exact hatt)
  · exact hm.refsOk hI rfl (by simp [hpc]) (by simp)

end

/-! ## After a latch that failed -/

/-- The cpu has no more to do with the ball. -/
theorem Inv.giveUp (hI : Inv s) (hpc : (s.pnt c).HoldsRef t)
    (hnot : ∀ j, ¬ (s.pnt c).Popping j ∧ s.pnt c ≠ .clearPending j ∧ ¬ (s.pnt c).Locked)
    (hp : pc = .failed t ∨ pc = .failedDecref t) : Inv (s.setPnt c pc) := by
  have hm : PntMove s (s.setPnt c pc) c t (s.threads t) pc := by
    refine .of_setPnt hI hpc.thread ?_ ?_
    · rcases hp with hp | hp <;> simp [hp]
    · simp only [(hnot t).2.2, iff_false]
      rcases hp with hp | hp <;> simp [hp]
  refine hI.pntQuiet hm rfl rfl ⟨rfl, (hnot t).2.1⟩ ?_ ?_ ?_
  · constructor
    · simp only [(hnot t).1, iff_false]
      rcases hp with hp | hp <;> simp [hp]
    all_goals rcases hp with hp | hp <;> simp [hp]
  · apply hm.pntOk_self <;> rcases hp with hp | hp <;> simp [hp]
  · refine hm.refsOk hI rfl ?_ ?_
    · simp only [hpc, iff_true]
      rcases hp with hp | hp <;> simp [hp]
    · rcases hp with hp | hp <;> simp [hp]

/-- `flux_thread_decref` after a latch that failed. -/
theorem Inv.failedDecref (hI : Inv s) (hpc : s.pnt c = .failedDecref t) :
    Inv ((s.setThread t fun x => { x with refcnt := x.refcnt - 1 }).setPnt c
      (if (s.threads t).refcnt - 1 = 0 then .failedDelete t else .idle)) := by
  set pc : PntPc T := if (s.threads t).refcnt - 1 = 0 then .failedDelete t else .idle with hif
  have hp : pc = .failedDelete t ∧ (s.threads t).refcnt - 1 = 0 ∨ pc = .idle := by
    rw [hif]
    split
    · exact .inl ⟨rfl, ‹_›⟩
    · exact .inr rfl
  clear_value pc
  have hm : PntMove s ((s.setThread t fun x => { x with refcnt := x.refcnt - 1 }).setPnt c pc) c t
      { s.threads t with refcnt := (s.threads t).refcnt - 1 } pc := by
    refine .of_setThread hI (by simp [hpc]) ?_ ?_ _ rfl rfl rfl
    · rcases hp with ⟨hp, -⟩ | hp <;> simp [hp]
    · rcases hp with ⟨hp, -⟩ | hp <;> simp [hp, hpc]
  refine hI.pntQuiet hm rfl rfl ⟨rfl, by simp [hpc]⟩ ?_ ?_ ?_
  · constructor <;> rcases hp with ⟨hp, -⟩ | hp <;> simp [hp, hpc]
  · apply hm.pntOk_self <;> rcases hp with ⟨hp, -⟩ | hp <;> simp [hp]
  · refine hm.refsOk_release hI rfl (by simp [hpc]) ?_ ?_
    · rcases hp with ⟨hp, -⟩ | hp <;> simp [hp]
    · rcases hp with ⟨hp, hz⟩ | hp
      · exact fun _ => hz
      · simp [hp]

/-- The cpu deletes the entry. -/
theorem Inv.failedDelete (hI : Inv s) (hpc : s.pnt c = .failedDelete t) :
    Inv ((s.deleteEntry (s.threads t).gtid).setPnt c .idle) := by
  have hd : Deleter s t (.inl c) := by
    change (s.pnt c).Deletes t
    simp [hpc]
  rcases (hI.refs t).deleter _ hd with ⟨hle, hoff, hl, huniq⟩
  have hm : PntMove s (s.setPnt c .idle) c t (s.threads t) .idle :=
    .of_setPnt hI (by simp [hpc]) (by simp) (by simp [hpc])
  have hI' : Inv (s.setPnt c .idle) := by
    refine hI.pntQuiet hm rfl rfl ⟨rfl, by simp [hpc]⟩ ?_ ?_ ?_
    · constructor <;> simp [hpc]
    · apply hm.pntOk_self <;> simp
    · exact hm.refsOk hI rfl (by simp [hpc]) (by simp)
  refine hI'.deleteEntry hoff hle hl ?_
  intro a ha
  cases huniq a (hm.deleter_self (by simp) ha)
  change ((s.setPnt c .idle).pnt c).Deletes t at ha
  rw [hm.pnt_self] at ha
  exact ha

/-! ## After a latch that succeeded -/

/-- `flux_run_thread` clears the mark of the thread, which the kernel has now. -/
theorem Inv.clearPending (hI : Inv s) (hpc : s.pnt c = .clearPending t) :
    let s' := (s.setThread t fun x => { x with pendingLatch := false }).setPnt c (.wonDecref t)
    Inv s' := by
  intro s'
  have hwon := (hI.pnt c).won t (by simp [hpc])
  have hok := hI.thread t hwon.2.1
  have hm : PntMove s s' c t { s.threads t with pendingLatch := false } (.wonDecref t) :=
    .of_setThread hI (by simp [hpc]) (by simp) (by simp [hpc]) _ rfl rfl rfl
  refine hI.pntMove hm hI.nodup (hI.enqueued t) ?_ ?_ ?_
  · intro _
    refine hok.congr (hm.undisturbed_self Iff.rfl ?_) (.inl ?_) (.inr ⟨?_, ?_, ?_⟩)
    · constructor <;> simp [hpc]
    · rw [hm.thread_self]
    · rw [hm.thread_self]
    · exact (hok.kernel (by simp [hwon.2.2]) (by simp [hwon.2.2])).2.2.1
    · simp [hwon.2.2]
  · refine hm.pntOk_self (by simp) (by simp) (by simp) (by simp) ?_
    intro j hj
    cases hj
    exact hwon
  · exact hm.refsOk hI rfl (by simp [hpc]) (by simp)

/-- `flux_thread_decref` after a latch that succeeded: the table still has its
reference. -/
theorem Inv.wonDecref (hI : Inv s) (hpc : s.pnt c = .wonDecref t) :
    Inv ((s.setThread t fun x => { x with refcnt := x.refcnt - 1 }).setPnt c
      (if (s.threads t).refcnt - 1 = 0 then .wonDelete t else .wonReturn t)) := by
  have hwon := (hI.pnt c).won t (by simp [hpc])
  have hz : ¬ (s.threads t).refcnt - 1 = 0 := by
    rcases (hI.refs t).tracked hwon.2.1 with ⟨F, hF, hcard⟩
    have hc := Finset.card_pos.mpr ⟨c, (hF c).mpr (by simp [hpc])⟩
    omega
  rw [if_neg hz]
  have hm : PntMove s ((s.setThread t fun x => { x with refcnt := x.refcnt - 1 }).setPnt c
      (.wonReturn t)) c t { s.threads t with refcnt := (s.threads t).refcnt - 1 } (.wonReturn t) :=
    .of_setThread hI (by simp [hpc]) (by simp) (by simp [hpc]) _ rfl rfl rfl
  refine hI.pntQuiet hm rfl rfl ⟨rfl, by simp [hpc]⟩ ?_ ?_ ?_
  · constructor <;> simp [hpc]
  · refine hm.pntOk_self (by simp) (by simp) (by simp) (by simp) ?_
    intro j hj
    cases hj
    exact hwon
  · exact hm.refsOk_release hI rfl (by simp [hpc]) (by simp) (by simp)

/-- The cpu returns from PNT and releases the task lock. -/
theorem Inv.wonReturn (hI : Inv s) (hpc : s.pnt c = .wonReturn t) :
    Inv ((s.setLatchedBy (s.threads t).gtid none).setPnt c .idle) := by
  have hm : PntMove s ((s.setLatchedBy (s.threads t).gtid none).setPnt c .idle) c t (s.threads t)
      .idle :=
    ⟨.inl (by simp [hpc]), (update_eq_self t s.threads).symm, rfl, rfl, rfl, rfl,
      by simp, hI.lock_of_iff rfl rfl (by simp [hpc]), rfl, rfl, rfl, .inr ⟨by simp [hpc], rfl⟩,
      fun _ _ => Iff.rfl, id⟩
  refine hI.pntQuiet hm rfl rfl ⟨rfl, by simp [hpc]⟩ ?_ ?_ ?_
  · constructor <;> simp [hpc]
  · apply hm.pntOk_self <;> simp
  · exact hm.refsOk hI rfl (by simp [hpc]) (by simp)

end Flux
