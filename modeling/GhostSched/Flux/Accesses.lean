import GhostSched.Flux.Handlers

/-!
# The accesses of a message handler

One lemma for each access, in the order of `MicroOp`. Those that move the ball
are `enqueue`, `dequeue`, `takeBall` and `clearPending`; those that end the life
of a thread in flux are `setSchedNone`, `decref` and `deleteEntry`.
-/

namespace Flux

open Function

variable {G T K : Type*} [DecidableEq G] [DecidableEq T]
variable {s s' : State G T K} {g : G} {t : T} {h : Handler T K} {x : Thread G}
variable {op : MicroOp T} {rest : List (MicroOp T)}

/-! ## Frames -/

section Frames

variable (hh : s.handlers g = some h) (ht : h.thread = some t)
include hh ht

/-- The handler goes on, with or without a new value of `nr_cpus_wanted`. -/
theorem HandlerMove.of_resume {n : ℤ} {todo : List (MicroOp T)}
    (hins : ∀ idx r, .insert idx r ∈ todo → .insert idx r ∈ h.todo) :
    HandlerMove s ({ s with nrCpusWanted := n }.resume g h todo) g t (s.threads t) h
      { h with todo } :=
  ⟨hh, .inl ht, (update_eq_self t s.threads).symm, rfl, rfl, ht, hins, rfl, rfl, rfl, rfl, rfl,
    fun _ _ => Iff.rfl⟩

/-- An access that changes the thread, and maybe its place on the runqueue. -/
theorem HandlerMove.of_thread {rq : List T} {todo : List (MicroOp T)} (f : Thread G → Thread G)
    (hf : (f (s.threads t)).gtid = (s.threads t).gtid)
    (hins : ∀ idx r, .insert idx r ∈ todo → .insert idx r ∈ h.todo)
    (hrq : ∀ j, j ≠ t → (j ∈ rq ↔ j ∈ s.rq)) :
    HandlerMove s (({ s with rq }.setThread t f).resume g h todo) g t (f (s.threads t)) h
      { h with todo } :=
  ⟨hh, .inl ht, rfl, hf, rfl, ht, hins, rfl, rfl, rfl, rfl, rfl, hrq⟩

theorem HandlerMove.of_setThread (htodo : h.todo = op :: rest) (f : Thread G → Thread G)
    (hf : (f (s.threads t)).gtid = (s.threads t).gtid) :
    HandlerMove s ((s.setThread t f).resume g h rest) g t (f (s.threads t)) h
      { h with todo := rest } :=
  .of_thread hh ht f hf (fun _ _ => mem_todo_of_tail htodo) fun _ _ => Iff.rfl

end Frames

/-! ## Accesses that do not matter here -/

/-- What the handler relies on after an access. -/
theorem HandlerMove.handlerOk_tail (hm : HandlerMove s s' g t x h { h with todo := rest })
    (hI : Inv s) (ht : h.thread = some t) (htodo : h.todo = op :: rest)
    (hsched : x.sched = .biff → (s.threads t).sched = .biff ∧ op ≠ .setSchedNone)
    (hinit : .initBiff ∈ rest → t ∉ s'.rq) : HandlerOk s' g { h with todo := rest } := by
  have ho := hI.handler g h hm.old
  refine hm.handlerOk hI rfl rfl ?_ (fun hx => (hsched hx).1) hinit ?_
  · exact (htodo ▸ ho.rest).tail
  · intro hnone hdrop hx
    refine ho.dropped t ht ?_ ?_ (hsched hx).1
    · rw [htodo, List.mem_cons, not_or]
      exact ⟨fun heq => (hsched hx).2 heq.symm, hnone⟩
    · rw [htodo]
      exact hdrop.imp (List.mem_cons_of_mem _) (List.mem_cons_of_mem _)

/-- An access that leaves the ball where it is. A handler that has it may clear
`pending_latch`. -/
theorem Inv.handlerTail (hI : Inv s) (hm : HandlerMove s s' g t x h { h with todo := rest })
    (ht : h.thread = some t) (htodo : h.todo = op :: rest) (hop : ¬ op.Moves)
    (hrq : s'.rq = s.rq) (hx : (s.threads t).Quiet x)
    (hseq : x.seqnum = (s.threads t).seqnum ∨ op = .storeSeqnum ∧ x.seqnum = h.seqnum)
    (hpend : x.pendingLatch = (s.threads t).pendingLatch ∧ op ≠ .clearPending ∨
      x.pendingLatch = false ∧ .enqueue ∈ rest) : Inv s' := by
  have ho := hI.handler g h hm.old
  have hns : op ≠ .setSchedNone := fun heq => hop (.inr (.inr heq))
  have hmem : ∀ op', op' ∈ rest → op' ∈ h.todo := fun _ => mem_todo_of_tail htodo
  refine hI.handlerQuiet hm hrq hx ?_ ?_ ?_ (hmem _) (fun hdel => ⟨ht, hmem _ hdel⟩) ?_
  · rcases hseq with hseq | ⟨hop, hseq⟩
    · exact .inl hseq
    · refine .inr ⟨hseq, ?_⟩
      have hrest := ho.rest
      rw [htodo, hop] at hrest
      rw [htodo, hop]
      exact ⟨by simp [hrest.1.1.1], by simp [hrest.1.1.2]⟩
  · intro htr
    rcases hpend with ⟨hpend, hne⟩ | ⟨hpend, henq⟩
    · refine .inl ⟨by rw [hm.thread_self, hpend], ?_, ?_⟩
      · intro c
        rw [hm.pnt]
        exact id
      · rw [(hm.has_self hI).1, (hm.has_self hI).2, htodo, List.mem_cons]
        rintro (heq | hin)
        · exact absurd heq.symm hne
        · exact hin
    · have howes := (hm.has_self hI).1.mpr (hmem _ henq)
      refine .inr ⟨by rw [hm.thread_self, hpend], ?_, fun _ => howes⟩
      exact ((hI.thread t htr).owes howes).2.2.2.1
  · intro op' hop'
    refine ⟨hmem op', ?_⟩
    intro hin
    rw [htodo, List.mem_cons] at hin
    rcases hin with heq | hin
    · exact absurd (heq ▸ hop') hop
    · exact hin
  · refine hm.handlerOk_tail hI ht htodo (fun he => ⟨hx.sched ▸ he, hns⟩) ?_
    rw [hrq]
    exact fun hin => ho.init (hmem _ hin) t ht

theorem Inv.skip (hI : Inv s) (hh : s.handlers g = some h) (ht : h.thread = some t)
    (htodo : h.todo = op :: rest) (hop : ¬ op.Moves) (hclr : op ≠ .clearPending) (n : ℤ) :
    Inv ({ s with nrCpusWanted := n }.resume g h rest) :=
  hI.handlerTail (.of_resume hh ht fun _ _ => mem_todo_of_tail htodo) ht htodo hop rfl
    ⟨rfl, rfl, rfl⟩ (.inl rfl) (.inl ⟨rfl, hclr⟩)

/-- An access to a thread that has no scheduler any more. -/
theorem Inv.skipOff (hI : Inv s) (hh : s.handlers g = some h) (ht : h.thread = some t)
    (htodo : h.todo = op :: rest) (hop : op ≠ .setSchedNone) (hoff : (s.threads t).sched ≠ .biff) :
    Inv (s.resume g h rest) := by
  have hm : HandlerMove s (s.resume g h rest) g t (s.threads t) h { h with todo := rest } :=
    .of_resume hh ht fun _ _ => mem_todo_of_tail htodo
  refine hI.handlerOff hm rfl rfl hoff hoff ?_ ?_
  · refine hm.handlerOk_tail hI ht htodo (fun hx => ⟨hx, hop⟩) ?_
    exact fun hin => (hI.handler g h hh).init (mem_todo_of_tail htodo hin) t ht
  · exact hm.refsOk hI id rfl fun hdel => ⟨ht, mem_todo_of_tail htodo hdel⟩

/-! ## Accesses that move the ball -/

/-- `__biff_enqueue_task`: the handler gives the ball to biff. -/
theorem Inv.enqueue (hI : Inv s) (hh : s.handlers g = some h) (ht : h.thread = some t)
    (htodo : h.todo = .enqueue :: rest) (hs : (s.threads t).sched = .biff) :
    Inv (({ s with rq := s.rq ++ [t] }.setThread t
      fun x => { x with enqueued := true }).resume g h rest) := by
  have ho := hI.handler g h hh
  have htr := hI.tracked_of_handler hh ht hs
  have hok := hI.thread t htr
  have hhas : ∀ op, Has s (s.threads t).gtid op ↔ op ∈ h.todo := fun op =>
    (ho.thread t ht).1 ▸ has_of_handler hh
  rcases hok.owes ((hhas _).mpr (htodo ▸ List.mem_cons_self)) with ⟨hph, hrq, hpop, hfresh, hclr⟩
  have hrest := ho.rest
  rw [htodo] at hrest
  rcases hrest.1.1 with ⟨henq, hnclr, hntk, hndq, hninit⟩
  -- a pending latch would still have to be cleared
  have hpend : (s.threads t).pendingLatch = false := by
    by_contra hp
    have hin := (hhas _).mp (hclr (eq_true_of_ne_false hp))
    rw [htodo, List.mem_cons] at hin
    rcases hin with heq | hin
    · cases heq
    · exact hnclr hin
  set s' := ({ s with rq := s.rq ++ [t] }.setThread t
    fun x => { x with enqueued := true }).resume g h rest with hs'
  have hm : HandlerMove s s' g t { s.threads t with enqueued := true } h { h with todo := rest } :=
    .of_thread hh ht _ rfl (fun _ _ => mem_todo_of_tail htodo) fun j hj => by simp [hj]
  have hin : t ∈ s'.rq := List.mem_append_right _ (List.mem_singleton_self t)
  have hhas' : ∀ op, Has s' (s'.threads t).gtid op ↔ op ∈ rest := fun op => hm.has_new hI
  have hfresh' := hm.noFresh.mpr hfresh
  refine hI.handlerMove hm ?_ ?_ ?_ ?_ ?_ ?_ ?_
  · -- the entry was not on the queue
    exact List.nodup_append.mpr ⟨hI.nodup, List.nodup_singleton t, by
      intro a ha b hb hab
      rw [List.mem_singleton] at hb
      exact hrq (hb ▸ hab ▸ ha)⟩
  · simp [hin]
  · exact fun _ => hm.tracked_self.mpr ⟨htr.1, hs⟩
  · -- the ball goes from the handler to the queue
    intro _
    constructor
    · rw [hm.gtid_eq, hm.thread_self]
      exact hok.seqnum_le
    · rw [hm.task]
      exact fun hne => absurd hph hne
    · intro hin'
      exact absurd ((hhas' _).mp hin') henq
    · exact fun _ _ => .inl hin
    · intro _
      rw [hm.thread_self]
      exact ⟨hpend, hpop, hfresh'⟩
    · exact fun hp => absurd hp hpop
    · exact fun c n hatt heq => absurd heq (hfresh' c n hatt).ne
    · rw [hm.task, hph]
      exact fun habs => by cases habs
    · rw [hhas', hhas']
      rintro (hin' | hin')
      · exact absurd hin' hntk
      · exact absurd hin' hndq
    · grind [hm.task, Flux.NoFresh]
  · exact fun _ hns => absurd hs hns
  · grind [hm.handlerOk_tail]
  · exact hm.refsOk hI id rfl fun hdel => ⟨ht, mem_todo_of_tail htodo hdel⟩

/-- `__biff_dequeue_task`: nobody has the ball of a thread that departs. -/
theorem Inv.dequeue (hI : Inv s) (hm : HandlerMove s s' g t x h { h with todo := rest })
    (ht : h.thread = some t) (htodo : h.todo = .dequeue :: rest)
    (hs : (s.threads t).sched = .biff) (hlock : s.biffLock = none)
    (hx : x = { s.threads t with enqueued := false }) (hrq : t ∉ s'.rq) (hnd : s'.rq.Nodup) :
    Inv s' := by
  have ho := hI.handler g h hm.old
  have htr := hI.tracked_of_handler hm.old ht hs
  have hok := hI.thread t htr
  have hrest := ho.rest
  rw [htodo] at hrest
  have hmsg : h.msg = .departed := hrest.2 _ List.mem_cons_self
  have hph : (s.tasks (s.threads t).gtid).phase = .absent :=
    (hm.lookup hI).1 ▸ ho.absent (.inr hmsg)
  have hndq : .dequeue ∉ rest := hrest.1.1
  have hpop : ¬ Popped s' t := mt hm.popped.mp (hI.not_popped hlock)
  rcases hok.leaving hph with ⟨hfresh, hnone, -⟩
  have hfresh' := hm.noFresh.mpr hfresh
  refine hI.handlerMove hm hnd ?_ (fun hin => absurd hin hrq) ?_ ?_ ?_ ?_
  · simp [hx, hrq]
  · intro _
    constructor
    · rw [hm.task, hm.thread_self, hx]
      exact hok.seqnum_le
    · rw [hm.task]
      exact fun _ hne => absurd hph hne
    · grind [hm.has_new, hok.owes, hm.has_self]
    · rw [hm.task, hph]
      exact fun hr => by cases hr
    · exact fun hin => absurd hin hrq
    · exact fun hp => absurd hp hpop
    · exact fun c n hatt heq => absurd heq (hfresh' c n hatt).ne
    · grind [hm.has_new, hm.has_self]
    · rw [hm.has_new hI, hm.has_new hI]
      rintro (hin | hin)
      · have hlf : h.msg = .latchFailure := hrest.2 _ (List.mem_cons_of_mem _ hin)
        rw [hmsg] at hlf
        cases hlf
      · exact absurd hin hndq
    · intro c n hpc
      rw [hm.pnt] at hpc
      exact absurd hpc (hI.not_incref hlock c n)
  · exact fun _ hns => absurd (hx ▸ hs) hns
  · refine hm.handlerOk_tail hI ht htodo (fun _ => ⟨hs, by simp⟩) fun _ => hrq
  · grind [hm.refsOk]

/-- A handler that finds the thread marked after a failed latch takes the ball. -/
theorem Inv.takeBall (hI : Inv s) (hh : s.handlers g = some h) (ht : h.thread = some t)
    (htodo : h.todo = .takeBall :: rest) (hpend : (s.threads t).pendingLatch = true) :
    Inv (s.resume g h [.clearPending, .enqueue, .storeSeqnum]) := by
  have ho := hI.handler g h hh
  have hrest := ho.rest
  rw [htodo] at hrest
  have hmsg : h.msg = .latchFailure := hrest.2 _ List.mem_cons_self
  set s' := s.resume g h [.clearPending, .enqueue, .storeSeqnum] with hs'
  have hm : HandlerMove s s' g t (s.threads t) h
      { h with todo := [.clearPending, .enqueue, .storeSeqnum] } :=
    .of_resume hh ht (by simp)
  have hgt := (hm.lookup hI).1
  refine hI.handlerMove hm hI.nodup (hI.enqueued t) (hI.queued t) ?_ ?_ ?_ ?_
  · intro htr
    have hok := hI.thread t htr
    rcases hok.unseen (.inl ((hm.has_self hI).1.mpr (htodo ▸ List.mem_cons_self))) with
      ⟨-, hfresh, -⟩
    have hfresh' := hm.noFresh.mpr hfresh
    have hrq : t ∉ s.rq := by
      intro hin
      rw [(hok.queued hin).1] at hpend
      cases hpend
    have hpop : ¬ Popped s t := by
      intro hp
      rw [(hok.popped hp).2.1] at hpend
      cases hpend
    -- the kernel has marked threads only while a cpu holds the task lock
    have hph : (s.tasks (s.threads t).gtid).phase = .runnable := by
      by_contra hr
      have habs : (s.tasks (s.threads t).gtid).phase ≠ .absent := by
        rw [hgt]
        have hph := ho.phase
        rw [hmsg] at hph
        exact hph
      rcases (hok.kernel hr habs).2.2.2 hpend with ⟨c, hc⟩
      have hl := ((hI.pnt c).won t (hc ▸ rfl)).1
      rw [hgt, ho.unlatched] at hl
      cases hl
    constructor
    · exact hok.seqnum_le
    · exact fun hne => absurd hph hne
    · intro _
      exact ⟨hph, hrq, hpop, hfresh', fun _ => (hm.has_new hI).mpr (by simp)⟩
    · exact fun _ hno => absurd ((hm.has_new hI).mpr (by simp)) hno
    · exact fun hin => absurd hin hrq
    · exact fun hp => absurd hp hpop
    · exact fun c n hatt heq => absurd heq (hfresh' c n hatt).ne
    · rw [hm.task, hph]
      exact fun hr => by cases hr
    · rw [hm.has_new hI, hm.has_new hI]
      exact fun hin => by simp at hin
    · intro c n _
      exact ⟨.inl hph, fun c' n' hatt _ => hfresh c' n' hatt⟩
  · exact fun htr hns => absurd htr.2 hns
  · grind [hm.handlerOk, Msg.rest_ball]
  · exact hm.refsOk hI id rfl (by simp)

/-- A handler that does not find the thread marked goes on. -/
theorem Inv.missBall (hI : Inv s) (hh : s.handlers g = some h) (ht : h.thread = some t)
    (htodo : h.todo = .takeBall :: rest) : Inv (s.resume g h [.storeSeqnum]) := by
  have ho := hI.handler g h hh
  have hrest := ho.rest
  rw [htodo] at hrest
  have hmsg : h.msg = .latchFailure := hrest.2 _ List.mem_cons_self
  have hm : HandlerMove s (s.resume g h [.storeSeqnum]) g t (s.threads t) h
      { h with todo := [.storeSeqnum] } :=
    .of_resume hh ht (by simp)
  have hnot : ∀ op : MicroOp T, op.Moves ∨ op = .clearPending → op ∉ h.todo := by
    intro op hop hin
    rw [htodo] at hin
    have hmay := hrest.2 op hin
    rw [List.mem_cons] at hin
    rcases hop with (hop | hop | hop) | hop <;> subst hop
    · rcases hin with heq | hin
      · cases heq
      · rw [hrest.1.1] at hin
        cases hin
    · rw [hmsg] at hmay
      cases hmay
    · rw [hmsg] at hmay
      rcases hmay with hmay | hmay <;> cases hmay
    · rcases hin with heq | hin
      · cases heq
      · rw [hrest.1.1] at hin
        cases hin
  refine hI.handlerQuiet hm rfl ⟨rfl, rfl, rfl⟩ (.inl rfl) ?_ ?_ (by simp) (by simp) ?_
  · intro _
    refine .inl ⟨rfl, fun c => id, ?_⟩
    rw [(hm.has_self hI).1]
    exact fun hin => absurd hin (hnot _ (.inr rfl))
  · grind [Flux.MicroOp.Moves]
  · refine hm.handlerOk hI rfl rfl ?_ id (by simp) (by simp)
    rw [hmsg]
    exact ⟨by simp [Ordered, MicroOp.Before], by simp [Msg.May]⟩

/-! ## The end of a thread -/

/-- The scheduler forgets the thread when no cpu can want it any more. -/
theorem Inv.setSchedNone (hI : Inv s) (hh : s.handlers g = some h) (ht : h.thread = some t)
    (htodo : h.todo = .setSchedNone :: rest) :
    Inv ((s.setThread t fun x => { x with sched := .none }).resume g h rest) := by
  have ho := hI.handler g h hh
  have hrest := ho.rest
  rw [htodo] at hrest
  have hph : (s.tasks (s.threads t).gtid).phase = .absent :=
    (ho.thread t ht).1 ▸ ho.absent (hrest.2 _ List.mem_cons_self)
  have hm : HandlerMove s ((s.setThread t fun x => { x with sched := .none }).resume g h rest) g t
      { s.threads t with sched := .none } h { h with todo := rest } :=
    .of_setThread hh ht htodo _ rfl
  have hndq : ¬ Has s (s.threads t).gtid .dequeue := by
    rw [(hm.has_self hI).1, htodo]
    simp [show .dequeue ∉ rest from hrest.1.1]
  have hfree : Tracked s t → t ∉ s.rq ∧ Unclaimed s t := by
    intro htr
    have hok := hI.thread t htr
    grind [hok.leaving, hok.taken, Flux.Unclaimed]
  refine hI.handlerMove hm hI.nodup (hI.enqueued t) ?_ ?_ (fun htr _ => (hfree htr).2) ?_ ?_
  · exact fun hin => absurd hin (hfree (hI.queued t hin)).1
  · exact fun htr => by cases (hm.tracked_self.mp htr).2
  · refine hm.handlerOk_tail hI ht htodo (fun hx => by cases hx) ?_
    exact fun hin => ho.init (mem_todo_of_tail htodo hin) t ht
  · grind [hm.refsOk]

/-- `flux_thread_decref` in a handler. Whoever drops the last reference is the
only one who deletes the entry. -/
theorem Inv.decref (hI : Inv s) (hh : s.handlers g = some h) (ht : h.thread = some t)
    (htodo : h.todo = .decref :: rest) :
    Inv ((s.setThread t fun x => { x with refcnt := x.refcnt - 1 }).resume g h
      (if (s.threads t).refcnt - 1 = 0 then .deleteEntry :: rest else rest)) := by
  have ho := hI.handler g h hh
  have hrest := ho.rest
  rw [htodo] at hrest
  have hnone : .setSchedNone ∉ h.todo := by
    rw [htodo]
    simp [hrest.1.1.1]
  have hoff : (s.threads t).sched ≠ .biff :=
    ho.dropped t ht hnone (.inl (htodo ▸ List.mem_cons_self))
  set todo := if (s.threads t).refcnt - 1 = 0 then .deleteEntry :: rest else rest with htd
  have hmem : ∀ op, op ∈ todo → op = .deleteEntry ∨ op ∈ rest := by
    intro op hop
    rw [htd] at hop
    split at hop
    · exact List.mem_cons.mp hop
    · exact .inr hop
  set s' := (s.setThread t fun x => { x with refcnt := x.refcnt - 1 }).resume g h todo
  have hm : HandlerMove s s' g t { s.threads t with refcnt := (s.threads t).refcnt - 1 } h
      { h with todo } := by
    refine ⟨hh, .inl ht, rfl, rfl, rfl, ht, ?_, rfl, rfl, rfl, rfl, rfl, fun _ _ => Iff.rfl⟩
    intro idx r hin
    rcases hmem _ hin with heq | hin
    · cases heq
    · exact mem_todo_of_tail htodo hin
  refine hI.handlerOff hm rfl rfl hoff hoff ?_ ?_
  · refine hm.handlerOk hI rfl rfl ?_ id ?_ (fun _ _ => hoff)
    · rw [htd]
      split
      · refine ⟨⟨hrest.1.1.2, hrest.tail.1⟩, ?_⟩
        intro op hop
        rcases List.mem_cons.mp hop with heq | hop
        · rw [heq]
          exact hrest.2 .decref List.mem_cons_self
        · exact hrest.tail.2 op hop
      · exact hrest.tail
    · intro hin
      rcases hmem _ hin with heq | hin
      · cases heq
      · exact ho.init (mem_todo_of_tail htodo hin) t ht
  · have hr := hI.refs t
    constructor
    · exact fun htr => absurd (hm.tracked_self.mp htr).2 hoff
    · rw [hm.gtid_eq, hm.swLookup, hm.thread_self]
      exact fun hl => (sub_le_self _ zero_le_one).trans (hr.deleted hl)
    · intro a ha
      rw [hm.gtid_eq, hm.swLookup, hm.thread_self]
      by_cases hz : (s.threads t).refcnt - 1 = 0
      · -- the last reference: nobody deletes the entry yet, and it is there
        have hpos : ¬ (s.threads t).refcnt ≤ 0 := by omega
        have hnew : ∀ b, Deleter s' t b → b = .inr g := by
          intro b hb
          cases b with
          | inl c => exact absurd (hr.deleter (.inl c) hb).1 hpos
          | inr g' =>
            by_contra hne
            have hg : g' ≠ g := fun heq => hne (by rw [heq])
            rcases hb with ⟨k, hk, hkt, hdel⟩
            rw [hm.handler_ne hg] at hk
            exact hpos (hr.deleter (.inr g') ⟨k, hk, hkt, hdel⟩).1
        refine ⟨hz.le, hoff, ?_, fun b hb => (hnew b hb).trans (hnew a ha).symm⟩
        by_contra hl
        exact hpos (hr.deleted hl)
      · have hdel : .deleteEntry ∈ todo → h.thread = some t ∧ .deleteEntry ∈ h.todo := by
          rw [htd, if_neg hz]
          exact fun hin => ⟨ht, mem_todo_of_tail htodo hin⟩
        rcases hr.deleter a (hm.deleter_self hdel ha) with ⟨hle, -, hl, huniq⟩
        exact ⟨(sub_le_self _ zero_le_one).trans hle, hoff, hl,
          fun b hb => huniq b (hm.deleter_self hdel hb)⟩

/-- The entry of a thread goes when its last reference has been dropped. -/
theorem Inv.deleteEntry (hI : Inv s) (hoff : (s.threads t).sched ≠ .biff)
    (hle : (s.threads t).refcnt ≤ 0) (hl : s.swLookup (s.threads t).gtid = some t)
    (hdel : ∀ a, ¬ Deleter s t a) : Inv (s.deleteEntry (s.threads t).gtid) := by
  set g := (s.threads t).gtid with hg
  have hself : (s.deleteEntry g).swLookup g = none := update_self ..
  have hne : ∀ g', g' ≠ g → (s.deleteEntry g).swLookup g' = s.swLookup g' :=
    fun g' hg' => update_of_ne hg' ..
  have hsome : ∀ g' j, (s.deleteEntry g).swLookup g' = some j → s.swLookup g' = some j := by
    intro g' j hj
    by_cases hg' : g' = g
    · rw [hg', hself] at hj
      cases hj
    · rw [← hne g' hg', hj]
  -- the entry was not tracked any more
  have htr : ∀ j, Tracked (s.deleteEntry g) j ↔ Tracked s j := by
    intro j
    refine ⟨fun h => ⟨hsome _ _ h.1, h.2⟩, ?_⟩
    intro h
    refine ⟨?_, h.2⟩
    rw [← h.1]
    apply hne
    intro hgj
    rw [h.eq_of_lookup hgj hl] at h
    exact hoff h.2
  have hfresh : ∀ g' idx, Fresh s g' idx → Fresh (s.deleteEntry g) g' idx :=
    fun g' idx hf => ⟨fun g'' he => hf.swLookup g'' (hsome _ _ he), hf.pnt, hf.rq, hf.handlers⟩
  constructor
  · exact hI.lock
  · exact hI.enqueued
  · exact hI.nodup
  · exact fun j hj => (htr j).mpr (hI.queued j hj)
  · exact fun g' j hj => hI.lookup g' j (hsome g' j hj)
  · intro j hj
    exact (hI.thread j ((htr j).mp hj)).congr
      ⟨rfl, rfl, Iff.rfl, fun _ => .refl _ _ _, fun _ _ => Iff.rfl, id⟩ (.inl rfl)
      (.inl ⟨rfl, fun _ => id, id⟩)
  · -- a cpu that holds the entry can only put it back
    intro c
    have hp := hI.pnt c
    refine ⟨fun j hj => (htr j).mpr (hp.popping j hj), hp.setPending, ?_,
      fun j n hj => (htr j).mpr (hp.taken j n hj), ?_⟩
    · exact fun j n hatt => ⟨(hp.attempt j n hatt).1,
        fun hnot => (hp.attempt j n hatt).2 fun h => hnot ((htr j).mpr h)⟩
    · exact fun j hwon => ⟨(hp.won j hwon).1, (htr j).mpr (hp.won j hwon).2.1, (hp.won j hwon).2.2⟩
  · -- the thread may enter again while an old handler still has the entry
    intro g' k hk
    have ho := hI.handler g' k hk
    refine ⟨ho.seqnum, ho.unlatched, ho.phase, ho.rest, ?_, ?_, ho.init, ho.dropped⟩
    · intro j hj
      refine ⟨(ho.thread j hj).1, ?_⟩
      by_cases hg' : g' = g
      · subst hg'
        refine .inr ⟨hself, ?_⟩
        rcases (ho.thread j hj).2 with hlj | ⟨-, hsj⟩
        · rw [hl] at hlj
          cases hlj
          exact hoff
        · exact hsj
      · rw [hne g' hg']
        exact (ho.thread j hj).2
    · intro idx r hins
      refine ⟨hfresh g' idx (ho.insert idx r hins).1, ?_⟩
      exact fun j hj => (ho.insert idx r hins).2 j (hsome g' j hj)
  · -- no reference is left
    intro j
    have hr := hI.refs j
    refine ⟨fun h => hr.tracked ((htr j).mp h), ?_, ?_⟩
    · intro hnot
      by_cases hj : j = t
      · rw [hj]
        exact hle
      · refine hr.deleted ?_
        by_cases hgj : (s.threads j).gtid = g
        · rw [hgj, hl]
          exact fun he => hj (Option.some.inj he).symm
        · change (s.deleteEntry g).swLookup (s.threads j).gtid ≠ some j at hnot
          rw [hne _ hgj] at hnot
          exact hnot
    · -- and nobody else deletes it
      intro a ha
      rcases hr.deleter a ha with ⟨hlej, hsj, hlj, huniq⟩
      refine ⟨hlej, hsj, ?_, huniq⟩
      rw [← hlj]
      apply hne
      intro hgj
      change (s.threads j).gtid = g at hgj
      rw [hgj, hl] at hlj
      cases hlj
      exact hdel a ha

/-- A handler deletes the entry. -/
theorem Inv.handlerDelete (hI : Inv s) (hh : s.handlers g = some h) (ht : h.thread = some t)
    (htodo : h.todo = .deleteEntry :: rest) :
    Inv ((s.deleteEntry (s.threads t).gtid).resume g h rest) := by
  have hd : Deleter s t (.inr g) := ⟨h, hh, ht, htodo ▸ List.mem_cons_self⟩
  rcases (hI.refs t).deleter _ hd with ⟨hle, hoff, hl, huniq⟩
  refine (hI.skipOff hh ht htodo (by simp) hoff).deleteEntry hoff hle hl ?_
  intro a ha
  cases a with
  | inl c => cases huniq (.inl c) ha
  | inr g' =>
    rcases ha with ⟨k, hk, hkt, hmem⟩
    by_cases hg : g' = g
    · subst hg
      have hself : (s.resume g' h rest).handlers g' = some { h with todo := rest } :=
        update_self ..
      rw [hself] at hk
      cases hk
      have hrest := (hI.handler g' h hh).rest
      rw [htodo] at hrest
      exact hrest.1.1 hmem
    · have hne : (s.resume g h rest).handlers g' = s.handlers g' := update_of_ne hg ..
      rw [hne] at hk
      cases huniq (.inr g') ⟨k, hk, hkt, hmem⟩
      exact hg rfl

/-! ## The start and the end of a handler -/

/-- `gtid_to_thread` -/
theorem Inv.lookupThread (hI : Inv s) (hh : s.handlers g = some h)
    (htodo : h.todo = .lookup :: rest) (hl : s.swLookup g = some t) :
    Inv (s.resume g { h with thread := some t } rest) := by
  have ho := hI.handler g h hh
  have hrest := ho.rest
  rw [htodo] at hrest
  rcases hrest.1.1 with ⟨hinit, hdel, hdrop, -⟩
  have hm : HandlerMove s (s.resume g { h with thread := some t } rest) g t (s.threads t) h
      { h with thread := some t, todo := rest } :=
    ⟨hh, .inr hl, (update_eq_self t s.threads).symm, rfl, rfl, rfl,
      fun _ _ => mem_todo_of_tail htodo, rfl, rfl, rfl, rfl, rfl, fun _ _ => Iff.rfl⟩
  have hmem : ∀ op, op ≠ .lookup → (op ∈ rest ↔ op ∈ h.todo) := by
    intro op hop
    simp [htodo, hop]
  refine hI.handlerQuiet hm rfl ⟨rfl, rfl, rfl⟩ (.inl rfl) ?_ ?_ ?_ ?_ ?_
  · intro _
    refine .inl ⟨rfl, fun _ => id, ?_⟩
    rw [(hm.has_self hI).1, (hm.has_self hI).2]
    exact (hmem _ (by simp)).mpr
  · intro op hop
    apply hmem
    rcases hop with hop | hop | hop <;> simp [hop]
  · exact (hmem _ (by simp)).mp
  · exact fun hin => absurd hin hdel
  · grind [hm.handlerOk, hrest.tail]

omit [DecidableEq T] in
/-- A handler that has nothing left to do for a thread that biff schedules. -/
theorem Inv.setHandler (hI : Inv s) (hh : s.handlers g = some h) (o : Option (Handler T K))
    (ho : ∀ h', o = some h' → h' = { h with todo := [] })
    (hdone : ∀ j, Tracked s j → (s.threads j).gtid = g → h.todo = []) :
    Inv (s.setHandler g o) := by
  have hself : (s.setHandler g o).handlers g = o := update_self ..
  have hne : ∀ g', g' ≠ g → (s.setHandler g o).handlers g' = s.handlers g' :=
    fun g' hg' => update_of_ne hg' ..
  have hhas : ∀ j, Tracked s j → ∀ op, Has (s.setHandler g o) (s.threads j).gtid op ↔
      Has s (s.threads j).gtid op := by
    intro j hj op
    grind [Flux.Has]
  -- what is left of the handler is a part of what it was
  have hsub : ∀ g' k, (s.setHandler g o).handlers g' = some k →
      s.handlers g' = some k ∨ g' = g ∧ k = { h with todo := [] } := by
    intro g' k hk
    by_cases hg' : g' = g
    · subst hg'
      exact .inr ⟨rfl, ho k (hself.symm.trans hk)⟩
    · exact .inl ((hne g' hg').symm.trans hk)
  have hfresh : ∀ g' idx, Fresh s g' idx → Fresh (s.setHandler g o) g' idx := by
    intro g' idx hf
    refine ⟨hf.swLookup, hf.pnt, hf.rq, ?_⟩
    grind [hf.handlers]
  have hdel : ∀ j a, Deleter (s.setHandler g o) j a → Deleter s j a := by
    intro j a ha
    cases a with
    | inl c => exact ha
    | inr g' =>
      grind [Flux.Deleter]
  refine ⟨hI.lock, hI.enqueued, hI.nodup, hI.queued, hI.lookup, ?_, ?_, ?_, ?_⟩
  · intro j hj
    exact (hI.thread j hj).congr
      ⟨rfl, rfl, Iff.rfl, fun _ => .refl _ _ _, fun op _ => hhas j hj op, (hhas j hj _).mp⟩
        (.inl rfl)
      (.inl ⟨rfl, fun _ => id, (hhas j hj _).mpr⟩)
  · intro c
    have hp := hI.pnt c
    exact ⟨hp.popping, hp.setPending, hp.attempt, hp.taken, hp.won⟩
  · intro g' k hk
    rcases hsub g' k hk with hks | ⟨hg', hkd⟩
    · have hok := hI.handler g' k hks
      exact ⟨hok.seqnum, hok.unlatched, hok.phase, hok.rest, hok.thread,
        fun idx r hins => ⟨hfresh g' idx (hok.insert idx r hins).1, (hok.insert idx r hins).2⟩,
        hok.init, hok.dropped⟩
    · subst hg' hkd
      have hok := hI.handler g' h hh
      exact ⟨hok.seqnum, hok.unlatched, hok.phase, .nil, hok.thread, by simp, by simp, by simp⟩
  · intro j
    have hr := hI.refs j
    refine ⟨hr.tracked, hr.deleted, ?_⟩
    intro a ha
    rcases hr.deleter a (hdel j a ha) with ⟨hle, hsj, hlj, huniq⟩
    exact ⟨hle, hsj, hlj, fun b hb => huniq b (hdel j b hb)⟩

/-! ## A new thread -/

/-- `handle_new` for a gtid that is not in `sw_lookup`. -/
structure Inserted (s s' : State G T K) (g : G) (idx : T) (r : Bool) (x : Thread G)
    (h : Handler T K) (rest : List (MicroOp T)) : Prop where
  old : s.handlers g = some h
  todo : h.todo = .insert idx r :: rest
  absent : s.swLookup g = none
  threads : s'.threads = update s.threads idx x
  gtid : x.gtid = g
  seqnum : x.seqnum = h.seqnum
  refcnt : x.refcnt = 1
  pendingLatch : x.pendingLatch = false
  enqueued : x.enqueued = (s.threads idx).enqueued
  swLookup : s'.swLookup = update s.swLookup g (some idx)
  handlers : s'.handlers = update s.handlers g (some { h with thread := some idx, todo := rest })
  rq : s'.rq = s.rq
  pnt : s'.pnt = s.pnt
  biffLock : s'.biffLock = s.biffLock
  tasks : s'.tasks = s.tasks
  latchedBy : s'.latchedBy = s.latchedBy

namespace Inserted

variable {idx : T} {r : Bool} {j : T}

variable (hn : Inserted s s' g idx r x h rest)
include hn

theorem lookup_self : s'.swLookup g = some idx := by
  rw [hn.swLookup, update_self]

theorem lookup_ne {g' : G} (hg : g' ≠ g) : s'.swLookup g' = s.swLookup g' := by
  rw [hn.swLookup, update_of_ne hg]

theorem thread_self : s'.threads idx = x := by
  rw [hn.threads, update_self]

theorem thread_ne (hj : j ≠ idx) : s'.threads j = s.threads j := by
  rw [hn.threads, update_of_ne hj]

theorem handler_self : s'.handlers g = some { h with thread := some idx, todo := rest } := by
  rw [hn.handlers, update_self]

theorem handler_ne {g' : G} (hg : g' ≠ g) : s'.handlers g' = s.handlers g' := by
  rw [hn.handlers, update_of_ne hg]

/-- What the handler still has to do. -/
theorem rest_new (hI : Inv s) :
    h.msg = .new idx r ∧ (Msg.new idx r).Rest rest ∧ (r = true → .enqueue ∈ rest) ∧
      ∀ idx' r', .insert idx' r' ∉ rest := by
  have hrest := (hI.handler g h hn.old).rest
  rw [hn.todo] at hrest
  have hmsg : h.msg = .new idx r := hrest.2 _ List.mem_cons_self
  exact ⟨hmsg, hmsg ▸ hrest.tail, hrest.1.1⟩

theorem isFresh (hI : Inv s) : Fresh s g idx :=
  ((hI.handler g h hn.old).insert idx r (hn.todo ▸ List.mem_cons_self)).1

theorem not_mem_rq (hI : Inv s) : idx ∉ s'.rq := by
  rw [hn.rq]
  exact (hn.isFresh hI).rq

theorem pnt_ne (hI : Inv s) (c : K) : (s'.pnt c).thread ≠ some idx := by
  rw [hn.pnt]
  exact (hn.isFresh hI).pnt c

theorem tracked_ne (hj : j ≠ idx) : Tracked s' j ↔ Tracked s j := by
  unfold Tracked
  rw [hn.thread_ne hj]
  by_cases hg : (s.threads j).gtid = g
  · rw [hg, hn.lookup_self, hn.absent]
    simp [hj.symm]
  · rw [hn.lookup_ne hg]

section

variable (hI : Inv s)
include hI

/-- Nobody has the ball of the new thread but its handler. -/
theorem threadOk_self : ThreadOk s' idx := by
  have ho := hI.handler g h hn.old
  rcases hn.rest_new hI with ⟨hmsg, hrest, hrun, -⟩
  have hrq := hn.not_mem_rq hI
  have hpnt := hn.pnt_ne hI
  have hpop : ¬ Popped s' idx := fun ⟨c, hc⟩ => hpnt c hc.thread
  have hfresh : NoFresh s' idx := fun c n hatt => absurd hatt.thread (hpnt c)
  have hph : (s'.tasks (s'.threads idx).gtid).phase = if r then .runnable else .blocked := by
    rw [hn.thread_self, hn.gtid, hn.tasks]
    have hp := ho.phase
    rw [hmsg] at hp
    exact hp
  have hhas : ∀ op, Has s' (s'.threads idx).gtid op ↔ op ∈ rest := by
    intro op
    rw [hn.thread_self, hn.gtid]
    exact has_of_handler hn.handler_self
  constructor
  · rw [hn.thread_self, hn.seqnum, hn.gtid, hn.tasks, ho.seqnum]
  · grind [hn.thread_self, hn.pendingLatch]
  · rw [hhas, hn.thread_self, hn.pendingLatch, ← hn.thread_self]
    intro hin
    have hr : Phase.runnable = if r then .runnable else .blocked := hrest.2 _ hin
    exact ⟨hph.trans hr.symm, hrq, hpop, hfresh, fun hp => by cases hp⟩
  · rw [hph, hhas]
    cases r with
    | true => exact fun _ hno => absurd (hrun rfl) hno
    | false => exact fun hr => by cases hr
  · exact fun hin => absurd hin hrq
  · exact fun hp => absurd hp hpop
  · exact fun c n hatt => absurd hatt.thread (hpnt c)
  · rw [hph]
    cases r <;> exact fun habs => by cases habs
  · rw [hhas, hhas]
    rintro (hin | hin) <;> cases hrest.2 _ hin
  · intro c n hpc
    exact absurd (congrArg PntPc.thread hpc) (hpnt c)

theorem threadOk_ne (hj : j ≠ idx) (htr : Tracked s j) : ThreadOk s' j := by
  have hg : (s.threads j).gtid ≠ g := by
    intro hg
    have hl := hn.absent
    rw [← hg, htr.1] at hl
    cases hl
  have hh := hn.handler_ne hg
  refine (hI.thread j htr).congr ⟨?_, ?_, ?_, ?_, fun op _ => has_congr hh, (has_congr hh).mp⟩
    (.inl ?_) (.inl ⟨?_, ?_, (has_congr hh).mpr⟩)
  · rw [hn.thread_ne hj]
  · rw [hn.tasks]
  · rw [hn.rq]
  · intro c
    rw [hn.pnt]
    exact .refl _ _ _
  · rw [hn.thread_ne hj]
  · rw [hn.thread_ne hj]
  · intro c
    rw [hn.pnt]
    exact id

theorem pntOk (c : K) : PntOk s' c := by
  have hp := hI.pnt c
  have hne : ∀ {j}, (s.pnt c).thread = some j → j ≠ idx := by
    intro j hj heq
    exact (hn.isFresh hI).pnt c (heq ▸ hj)
  constructor
  · rw [hn.pnt]
    exact fun j hpop => (hn.tracked_ne (hne hpop.thread)).mpr (hp.popping j hpop)
  · intro j n hpc
    rw [hn.pnt] at hpc
    rw [hn.thread_ne (hne (congrArg PntPc.thread hpc)), hn.tasks]
    exact hp.setPending j n hpc
  · intro j n hatt
    rw [hn.pnt] at hatt
    rw [hn.thread_ne (hne hatt.thread), hn.tasks, hn.tracked_ne (hne hatt.thread)]
    exact hp.attempt j n hatt
  · intro j n hpc
    rw [hn.pnt] at hpc
    exact (hn.tracked_ne (hne (congrArg PntPc.thread hpc))).mpr (hp.taken j n hpc)
  · intro j hwon
    rw [hn.pnt] at hwon
    rw [hn.thread_ne (hne hwon.thread), hn.tasks, hn.latchedBy, hn.tracked_ne (hne hwon.thread)]
    exact hp.won j hwon

theorem handlerOk_self : HandlerOk s' g { h with thread := some idx, todo := rest } := by
  have ho := hI.handler g h hn.old
  rcases hn.rest_new hI with ⟨hmsg, hrest, -, hnins⟩
  constructor
  · rw [hn.tasks]
    exact ho.seqnum
  · rw [hn.latchedBy]
    exact ho.unlatched
  · rw [hn.tasks]
    exact ho.phase
  · exact hmsg ▸ hrest
  · intro j hj
    cases hj
    rw [hn.thread_self]
    exact ⟨hn.gtid, .inl hn.lookup_self⟩
  · exact fun idx' r' hins => absurd hins (hnins idx' r')
  · intro _ j hj
    cases hj
    exact hn.not_mem_rq hI
  · intro j _ _ hin
    rcases hin with hin | hin <;> rcases hrest.2 _ hin with hmsg | hmsg <;> cases hmsg

theorem handlerOk_ne {g' : G} (hg : g' ≠ g) {k : Handler T K} (hk : s.handlers g' = some k) :
    HandlerOk s' g' k := by
  have hf := hn.isFresh hI
  have ho := hI.handler g' k hk
  have hne : ∀ j, k.thread = some j → j ≠ idx :=
    fun j hj heq => (hf.handlers g' k hk).1 (heq ▸ hj)
  constructor
  · rw [hn.tasks]
    exact ho.seqnum
  · rw [hn.latchedBy]
    exact ho.unlatched
  · rw [hn.tasks]
    exact ho.phase
  · exact ho.rest
  · intro j hj
    rw [hn.thread_ne (hne j hj), hn.lookup_ne hg]
    exact ho.thread j hj
  · intro idx' r' hins
    rcases ho.insert idx' r' hins with ⟨hf', hnot⟩
    -- the other new thread has another index
    have hidx : idx' ≠ idx := by
      intro heq
      subst heq
      exact (hf.handlers g' k hk).2 hg r' hins
    refine ⟨⟨?_, ?_, ?_, ?_⟩, ?_⟩
    · intro g'' hl
      by_cases hg'' : g'' = g
      · rw [hg'', hn.lookup_self] at hl
        exact hidx (Option.some.inj hl).symm
      · exact hf'.swLookup g'' (hn.lookup_ne hg'' ▸ hl)
    · rw [hn.pnt]
      exact hf'.pnt
    · rw [hn.rq]
      exact hf'.rq
    · intro g'' k' hk'
      by_cases hg'' : g'' = g
      · subst hg''
        rw [hn.handler_self] at hk'
        cases hk'
        refine ⟨fun heq => hidx (Option.some.inj heq).symm, ?_⟩
        exact fun _ r'' hins' => (hn.rest_new hI).2.2.2 idx' r'' hins'
      · rw [hn.handler_ne hg''] at hk'
        exact hf'.handlers g'' k' hk'
    · intro j hl
      rw [hn.lookup_ne hg] at hl
      rw [hn.thread_ne fun heq => hf.swLookup g' (heq ▸ hl)]
      exact hnot j hl
  · intro hinit j hj
    rw [hn.rq]
    exact ho.init hinit j hj
  · intro j hj
    rw [hn.thread_ne (hne j hj)]
    exact ho.dropped j hj

/-- The new thread has one reference, the one of the table. -/
theorem refsOk_self : RefsOk s' idx := by
  have hpnt := hn.pnt_ne hI
  constructor
  · intro _
    refine ⟨∅, ?_, ?_⟩
    · exact fun c => ⟨fun hc => absurd hc (Finset.notMem_empty c),
        fun hc => absurd hc.thread (hpnt c)⟩
    · rw [hn.thread_self, hn.refcnt]
      rfl
  · rw [hn.thread_self, hn.gtid, hn.lookup_self]
    exact fun hne => absurd rfl hne
  · intro a ha
    exfalso
    cases a with
    | inl c => exact hpnt c ha.thread
    | inr g' =>
      rcases ha with ⟨k, hk, hkt, hdel⟩
      by_cases hg : g' = g
      · subst hg
        rw [hn.handler_self] at hk
        cases hk
        rcases (hn.rest_new hI).2.1.2 _ hdel with hmsg | hmsg <;> cases hmsg
      · rw [hn.handler_ne hg] at hk
        exact ((hn.isFresh hI).handlers g' k hk).1 hkt

theorem refsOk_ne (hj : j ≠ idx) : RefsOk s' j := by
  have hr := hI.refs j
  have hdel : ∀ a, Deleter s' j a → Deleter s j a := by
    intro a ha
    cases a with
    | inl c =>
      change (s.pnt c).Deletes j
      rw [← hn.pnt]
      exact ha
    | inr g' =>
      rcases ha with ⟨k, hk, hkt, hin⟩
      by_cases hg : g' = g
      · subst hg
        rw [hn.handler_self] at hk
        cases hk
        exact absurd (Option.some.inj hkt).symm hj
      · rw [hn.handler_ne hg] at hk
        exact ⟨k, hk, hkt, hin⟩
  constructor
  · rw [hn.tracked_ne hj, hn.thread_ne hj, hn.pnt]
    exact hr.tracked
  · rw [hn.thread_ne hj]
    intro hl
    apply hr.deleted
    by_cases hg : (s.threads j).gtid = g
    · rw [hg, hn.absent]
      exact fun he => by cases he
    · rw [← hn.lookup_ne hg]
      exact hl
  · intro a ha
    rw [hn.thread_ne hj]
    rcases hr.deleter a (hdel a ha) with ⟨hle, hs, hl, huniq⟩
    have hg : (s.threads j).gtid ≠ g := by
      intro hg
      rw [hg, hn.absent] at hl
      cases hl
    rw [hn.lookup_ne hg]
    exact ⟨hle, hs, hl, fun b hb => huniq b (hdel b hb)⟩

end

end Inserted

theorem Inv.inserted {idx : T} {r : Bool} (hI : Inv s) (hn : Inserted s s' g idx r x h rest) :
    Inv s' := by
  have hf := hn.isFresh hI
  constructor
  · rw [hn.biffLock, hn.pnt]
    exact hI.lock
  · intro j
    rw [hn.rq]
    by_cases hj : j = idx
    · rw [hj, hn.thread_self, hn.enqueued]
      exact hI.enqueued idx
    · rw [hn.thread_ne hj]
      exact hI.enqueued j
  · rw [hn.rq]
    exact hI.nodup
  · intro j hin
    rw [hn.rq] at hin
    exact (hn.tracked_ne fun heq => hf.rq (heq ▸ hin)).mpr (hI.queued j hin)
  · intro g' j hl
    by_cases hg : g' = g
    · rw [hg, hn.lookup_self] at hl
      cases hl
      rw [hn.thread_self, hn.gtid, hg]
    · rw [hn.lookup_ne hg] at hl
      rw [hn.thread_ne fun heq => hf.swLookup g' (heq ▸ hl)]
      exact hI.lookup g' j hl
  · intro j htr
    by_cases hj : j = idx
    · subst hj
      exact hn.threadOk_self hI
    · exact hn.threadOk_ne hI hj ((hn.tracked_ne hj).mp htr)
  · exact hn.pntOk hI
  · intro g' k hk
    by_cases hg : g' = g
    · subst hg
      rw [hn.handler_self] at hk
      cases hk
      exact hn.handlerOk_self hI
    · rw [hn.handler_ne hg] at hk
      exact hn.handlerOk_ne hI hg hk
  · intro j
    by_cases hj : j = idx
    · subst hj
      exact hn.refsOk_self hI
    · exact hn.refsOk_ne hI hj

/-! ## Every access -/

theorem Inv.threadOp (hI : Inv s) (hh : s.handlers g = some h) (ht : h.thread = some t)
    (htodo : h.todo = op :: rest) (hs : Flux.threadOp s g h t rest op = some s') : Inv s' := by
  have ho := hI.handler g h hh
  cases op with
  | insert idx r | lookup => cases hs
  | initBiff =>
    cases hs
    -- the new thread is not on the runqueue
    have henq : (s.threads t).enqueued = false := by
      grind [ho.init, hI.enqueued]
    refine hI.handlerTail (.of_setThread hh ht htodo _ ?_) ht htodo (by simp [MicroOp.Moves]) rfl
      ?_ (.inl ?_) (.inl ⟨?_, by simp⟩)
    · split <;> rfl
    · split
      · exact ⟨rfl, rfl, henq.symm⟩
      · exact ⟨rfl, rfl, rfl⟩
    · split <;> rfl
    · split <;> rfl
  | enqueue =>
    grind [Flux.threadOp, hI.enqueue, hI.skipOff]
  | dequeue =>
    simp only [Flux.threadOp] at hs
    split at hs
    · split at hs
      · split at hs <;> cases hs
        · refine hI.dequeue (.of_thread hh ht _ rfl (fun _ _ => mem_todo_of_tail htodo) ?_) ht htodo
            ‹_› ‹_› rfl hI.nodup.not_mem_erase (hI.nodup.erase t)
          exact fun j hj => List.mem_erase_of_ne hj
        · rename_i henq
          have hrq : t ∉ s.rq := mt (hI.enqueued t).mpr henq
          refine hI.dequeue (.of_resume hh ht fun _ _ => mem_todo_of_tail htodo) ht htodo ‹_› ‹_› ?_
            hrq hI.nodup
          rw [← eq_false_of_ne_true henq]
      · cases hs
    · cases hs
      exact hI.skipOff hh ht htodo (by simp) ‹_›
  | request n | requestIfOnRq n =>
    simp only [Flux.threadOp] at hs
    split at hs <;>
    · cases hs
      exact hI.skip hh ht htodo (by simp [MicroOp.Moves]) (by simp) _
  | storeSeqnum =>
    cases hs
    exact hI.handlerTail (.of_setThread hh ht htodo _ rfl) ht htodo (by simp [MicroOp.Moves]) rfl
      ⟨rfl, rfl, rfl⟩ (.inr ⟨rfl, rfl⟩) (.inl ⟨rfl, by simp⟩)
  | setOnRq b | setOnCpu b =>
    cases hs
    exact hI.handlerTail (.of_setThread hh ht htodo _ rfl) ht htodo (by simp [MicroOp.Moves]) rfl
      ⟨rfl, rfl, rfl⟩ (.inl rfl) (.inl ⟨rfl, by simp⟩)
  | takeBall =>
    grind [Flux.threadOp, hI.takeBall, hI.missBall]
  | clearPending =>
    cases hs
    have hrest := ho.rest
    rw [htodo] at hrest
    exact hI.handlerTail (.of_setThread hh ht htodo _ rfl) ht htodo (by simp [MicroOp.Moves]) rfl
      ⟨rfl, rfl, rfl⟩ (.inl rfl) (.inr ⟨rfl, hrest.1.1.1⟩)
  | setSchedNone =>
    cases hs
    exact hI.setSchedNone hh ht htodo
  | decref =>
    cases hs
    exact hI.decref hh ht htodo
  | deleteEntry =>
    cases hs
    exact hI.handlerDelete hh ht htodo

/-- A handler keeps the invariant with every access. -/
theorem Inv.handlerStep (hI : Inv s) (hs : Flux.handlerStep s g = some s') : Inv s' := by
  unfold Flux.handlerStep at hs
  split at hs
  · cases hs
  · rename_i h hh
    have ho := hI.handler g h hh
    split at hs
    · -- the handler returns
      cases hs
      exact hI.setHandler hh none (by simp) fun _ _ _ => ‹_›
    · rename_i idx r rest htodo
      split at hs
      · -- the gtid is already there: the message is ignored
        cases hs
        refine hI.setHandler hh _ (by simp) ?_
        grind [Flux.Tracked, cases Flux.HandlerOk]
      · cases hs
        exact hI.inserted ⟨hh, htodo, ‹_›, rfl, rfl, rfl, rfl, rfl, rfl, rfl, rfl, rfl, rfl, rfl,
          rfl, rfl⟩
    · rename_i rest htodo
      split at hs
      · -- the gtid is not there
        rename_i hl
        cases hs
        refine hI.setHandler hh _ (by simp) ?_
        intro j htr hg
        rw [← hg, htr.1] at hl
        cases hl
      · cases hs
        exact hI.lookupThread hh htodo ‹_›
    · split at hs
      · cases hs
      · exact hI.threadOp hh ‹_› ‹_› hs

end Flux
