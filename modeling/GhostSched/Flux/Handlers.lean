import GhostSched.Flux.Ball

/-!
# Message handlers and the ball

Every access of a message handler keeps the invariant of `Ball.lean`.
`HandlerMove` is the frame of an access to the thread of the handler: the other
threads, cpus and handlers do not notice (`Inv.handlerMove`). What is left for
each access is the ball of that one thread, what the handler relies on, and the
references.
-/

namespace Flux

open Function

variable {G T K : Type*} {s s' : State G T K} {g : G} {t : T} {c : K} {h h' : Handler T K}

/-! ## The frame of an access -/

variable {op : MicroOp T}

/-- What a handler has still to do. -/
theorem has_of_handler (hh : s.handlers g = some h) : Has s g op ↔ op ∈ h.todo := by
  constructor
  · intro hhas
    rcases hhas with ⟨h', hh', hop⟩
    rw [hh] at hh'
    cases hh'
    exact hop
  · exact fun hop => ⟨h, hh, hop⟩

theorem has_congr (hh : s'.handlers g = s.handlers g) : Has s' g op ↔ Has s g op := by
  unfold Has
  rw [hh]

/-- Flux tracks at most one thread for a gtid. -/
theorem Tracked.eq_of_lookup {j : T} (hj : Tracked s j) (hg : (s.threads j).gtid = g)
    (hl : s.swLookup g = some t) : j = t := by
  rw [← hg, hj.1] at hl
  exact Option.some.inj hl

theorem mem_todo_of_tail {op' : MicroOp T} {rest : List (MicroOp T)} (htodo : h.todo = op :: rest)
    (hmem : op' ∈ rest) : op' ∈ h.todo := by
  rw [htodo]
  exact List.mem_cons_of_mem _ hmem

/-- The thread of a handler is tracked if biff schedules it. -/
theorem Inv.tracked_of_handler (hI : Inv s) (hh : s.handlers g = some h) (ht : h.thread = some t)
    (hs : (s.threads t).sched = .biff) : Tracked s t := by
  rcases (hI.handler g h hh).thread t ht with ⟨hgt, hl | ⟨-, hoff⟩⟩
  · exact ⟨hgt ▸ hl, hs⟩
  · exact absurd hs hoff

/-- Nobody takes a thread off the runqueue while biff's lock is free. -/
theorem Inv.not_popped (hI : Inv s) (hlock : s.biffLock = none) : ¬ Popped s t := by
  intro hpop
  rcases hpop with ⟨c, hc⟩
  rw [(hI.lock c).mpr hc.locked] at hlock
  cases hlock

/-- At most one cpu holds biff's lock. -/
theorem Inv.locked_unique (hI : Inv s) {c' : K} (hc : (s.pnt c).Locked) (hc' : (s.pnt c').Locked) :
    c' = c := by
  have hl := (hI.lock c').mpr hc'
  rw [(hI.lock c).mpr hc] at hl
  exact (Option.some.inj hl).symm

/-- Nobody is about to take a reference while the lock is free. -/
theorem Inv.not_incref (hI : Inv s) (hlock : s.biffLock = none) (c : K) (n : ℕ) :
    s.pnt c ≠ .incref t n := by
  intro hc
  have hl := (hI.lock c).mpr (hc ▸ trivial)
  rw [hlock] at hl
  cases hl

/-- A handler that drops its thread runs when the thread is not in ghost. -/
theorem HandlerOk.absent (ho : HandlerOk s g h) (hmsg : h.msg = .dead ∨ h.msg = .departed) :
    (s.tasks g).phase = .absent := by
  have hph := ho.phase
  rcases hmsg with hmsg | hmsg <;>
  · rw [hmsg] at hph
    exact hph

section Frame

variable [DecidableEq G] [DecidableEq T]

/-- What a handler leaves alone when it works on its thread. -/
structure HandlerMove (s s' : State G T K) (g : G) (t : T) (x : Thread G) (h h' : Handler T K) :
    Prop where
  old : s.handlers g = some h
  known : h.thread = some t ∨ s.swLookup g = some t
  threads : s'.threads = update s.threads t x
  gtid : x.gtid = (s.threads t).gtid
  handlers : s'.handlers = update s.handlers g (some h')
  thread : h'.thread = some t
  inserts : ∀ idx r, .insert idx r ∈ h'.todo → .insert idx r ∈ h.todo
  swLookup : s'.swLookup = s.swLookup
  pnt : s'.pnt = s.pnt
  biffLock : s'.biffLock = s.biffLock
  tasks : s'.tasks = s.tasks
  latchedBy : s'.latchedBy = s.latchedBy
  rq : ∀ j, j ≠ t → (j ∈ s'.rq ↔ j ∈ s.rq)

namespace HandlerMove

variable {x : Thread G} {j : T}

variable (hm : HandlerMove s s' g t x h h')
include hm

theorem thread_self : s'.threads t = x := by
  rw [hm.threads, update_self]

theorem thread_ne (hj : j ≠ t) : s'.threads j = s.threads j := by
  rw [hm.threads, update_of_ne hj]

theorem gtid_eq (j : T) : (s'.threads j).gtid = (s.threads j).gtid := by
  by_cases hj : j = t
  · subst hj
    rw [hm.thread_self, hm.gtid]
  · rw [hm.thread_ne hj]

theorem handler_self : s'.handlers g = some h' := by
  rw [hm.handlers, update_self]

variable {g' : G}

theorem handler_ne (hg : g' ≠ g) : s'.handlers g' = s.handlers g' := by
  rw [hm.handlers, update_of_ne hg]

/-- The other entries stay tracked. -/
theorem tracked_ne (hj : j ≠ t) : Tracked s' j ↔ Tracked s j := by
  unfold Tracked
  rw [hm.thread_ne hj, hm.swLookup]

/-- The entry stays tracked while its scheduler is biff. -/
theorem tracked_self : Tracked s' t ↔ s.swLookup (s.threads t).gtid = some t ∧ x.sched = .biff := by
  unfold Tracked
  rw [hm.thread_self, hm.swLookup, hm.gtid]

/-- The thread is the one that the handler found in `sw_lookup`. -/
theorem lookup (hI : Inv s) : (s.threads t).gtid = g ∧
    (s.swLookup g = some t ∨ s.swLookup g = none ∧ (s.threads t).sched ≠ .biff) := by
  rcases hm.known with hth | hl
  · exact (hI.handler g h hm.old).thread t hth
  · exact ⟨hI.lookup g t hl, .inl hl⟩

/-- Nobody else is tracked for the gtid. -/
theorem gtid_ne (hI : Inv s) (hj : j ≠ t) (htr : Tracked s j) : (s.threads j).gtid ≠ g := by
  intro hg
  rcases (hm.lookup hI).2 with hl | ⟨hl, -⟩
  · exact hj (htr.eq_of_lookup hg hl)
  · rw [← hg, htr.1] at hl
    cases hl

/-- Another tracked thread does not notice. -/
theorem undisturbed_ne (hI : Inv s) (hj : j ≠ t) (htr : Tracked s j) : Undisturbed s s' j := by
  have hh := hm.handler_ne (hm.gtid_ne hI hj htr)
  refine ⟨by rw [hm.thread_ne hj], by rw [hm.tasks], hm.rq j hj, ?_, ?_, ?_⟩
  · intro c
    rw [hm.pnt]
    exact .refl _ _ _
  · exact fun op _ => has_congr hh
  · exact (has_congr hh).mp

/-- The other entries do not notice. -/
theorem threadOk_ne (hI : Inv s) (hj : j ≠ t) (htr : Tracked s j) : ThreadOk s' j := by
  refine (hI.thread j htr).congr (hm.undisturbed_ne hI hj htr) (.inl ?_) (.inl ⟨?_, ?_, ?_⟩)
  · rw [hm.thread_ne hj]
  · rw [hm.thread_ne hj]
  · intro c
    rw [hm.pnt]
    exact id
  · exact (has_congr (hm.handler_ne (hm.gtid_ne hI hj htr))).mpr

/-- A status word index that nobody uses is still unused. -/
theorem fresh {idx : T} (hf : Fresh s g' idx) : Fresh s' g' idx := by
  have hidx : idx ≠ t := by
    intro heq
    subst heq
    rcases hm.known with hth | hl
    · exact (hf.handlers g h hm.old).1 hth
    · exact hf.swLookup g hl
  constructor
  · rw [hm.swLookup]
    exact hf.swLookup
  · rw [hm.pnt]
    exact hf.pnt
  · rw [hm.rq idx hidx]
    exact hf.rq
  · intro g'' k hk
    by_cases hg : g'' = g
    · subst hg
      rw [hm.handler_self] at hk
      cases hk
      refine ⟨?_, ?_⟩
      · rw [hm.thread]
        exact fun heq => hidx (Option.some.inj heq).symm
      · intro hne r hmem
        exact (hf.handlers g'' h hm.old).2 hne r (hm.inserts idx r hmem)
    · rw [hm.handler_ne hg] at hk
      exact hf.handlers g'' k hk

/-- The handlers of other gtids do not notice. -/
theorem handlerOk_ne (hI : Inv s) (hg : g' ≠ g) {k : Handler T K} (hk : s.handlers g' = some k) :
    HandlerOk s' g' k := by
  have ho := hI.handler g' k hk
  have hne : ∀ j, (s.threads j).gtid = g' → j ≠ t := by
    intro j hj heq
    subst heq
    exact hg (hj.symm.trans (hm.lookup hI).1)
  refine ho.congr (by rw [hm.tasks]) ?_ (by rw [hm.swLookup]) ?_ ?_ fun idx r _ hf => hm.fresh hf
  · rw [hm.latchedBy]
    exact ho.unlatched
  · intro j hj
    have hjt : j ≠ t := hne j (hj.elim (fun hj => (ho.thread j hj).1) (hI.lookup g' j))
    rw [hm.thread_ne hjt]
    exact ⟨rfl, rfl⟩
  · exact fun j hj => (hm.rq j (hne j (ho.thread j hj).1)).mp

/-- Nobody else begins to delete another entry. -/
theorem deleter_ne (hj : j ≠ t) {a : K ⊕ G} (ha : Deleter s' j a) : Deleter s j a := by
  cases a with
  | inl c =>
    change (s.pnt c).Deletes j
    rw [← hm.pnt]
    exact ha
  | inr g' =>
    rcases ha with ⟨k, hk, hkt, hdel⟩
    by_cases hg : g' = g
    · subst hg
      rw [hm.handler_self] at hk
      cases hk
      exact absurd (Option.some.inj (hkt.symm.trans hm.thread)) hj
    · rw [hm.handler_ne hg] at hk
      exact ⟨k, hk, hkt, hdel⟩

/-- References to other threads do not change. -/
theorem refsOk_ne (hI : Inv s) (hj : j ≠ t) : RefsOk s' j := by
  refine (hI.refs j).congr (hm.gtid_eq j) (by rw [hm.thread_ne hj]) ?_ (by rw [hm.swLookup]) ?_
    fun a ha => hm.deleter_ne hj ha
  · rw [hm.thread_ne hj]
    exact id
  · rw [hm.pnt]
    exact fun _ => Iff.rfl

end HandlerMove

end Frame

/-- No cpu has the ball of the thread, or can get it. -/
def Unclaimed (s : State G T K) (t : T) : Prop :=
  ¬ Popped s t ∧ NoFresh s t ∧ ∀ c n, s.pnt c ≠ .incref t n

variable [DecidableEq G] [DecidableEq T]

variable {x : Thread G}

/-- The invariant after a handler has worked on its thread. -/
theorem Inv.handlerMove (hI : Inv s) (hm : HandlerMove s s' g t x h h') (hnd : s'.rq.Nodup)
    (henq : x.enqueued = true ↔ t ∈ s'.rq) (htr : t ∈ s'.rq → Tracked s' t)
    (hok : Tracked s' t → ThreadOk s' t) (hun : Tracked s t → x.sched ≠ .biff → Unclaimed s t)
    (hH : HandlerOk s' g h') (hrefs : RefsOk s' t) : Inv s' := by
  -- the thread stays tracked unless its scheduler is cleared, when no cpu claims it
  have hkeep : Tracked s t → ¬ Tracked s' t → Unclaimed s t := by
    intro htr hnot
    exact hun htr fun hsched => hnot (hm.tracked_self.mpr ⟨htr.1, hsched⟩)
  constructor
  · intro c
    rw [hm.biffLock, hm.pnt]
    exact hI.lock c
  · intro j
    by_cases hj : j = t
    · subst hj
      rw [hm.thread_self]
      exact henq
    · rw [hm.thread_ne hj, hm.rq j hj]
      exact hI.enqueued j
  · exact hnd
  · intro j hjrq
    by_cases hj : j = t
    · subst hj
      exact htr hjrq
    · exact (hm.tracked_ne hj).mpr (hI.queued j ((hm.rq j hj).mp hjrq))
  · intro g' j hl
    rw [hm.gtid_eq]
    exact hI.lookup g' j (hm.swLookup ▸ hl)
  · intro j htrj
    by_cases hj : j = t
    · subst hj
      exact hok htrj
    · exact hm.threadOk_ne hI hj ((hm.tracked_ne hj).mp htrj)
  · intro c
    have hp := hI.pnt c
    constructor
    · intro j hpop
      rw [hm.pnt] at hpop
      have htrj := hp.popping j hpop
      by_cases hj : j = t
      · subst hj
        by_contra hnot
        exact (hkeep htrj hnot).1 ⟨c, hpop⟩
      · exact (hm.tracked_ne hj).mpr htrj
    · intro j n hpc
      rw [hm.pnt] at hpc
      rw [hm.gtid_eq, hm.tasks]
      exact hp.setPending j n hpc
    · intro j n hatt
      rw [hm.pnt] at hatt
      rw [hm.gtid_eq, hm.tasks]
      refine ⟨(hp.attempt j n hatt).1, ?_⟩
      intro hnot
      by_cases htrj : Tracked s j
      · by_cases hj : j = t
        · subst hj
          exact (hkeep htrj hnot).2.1 c n hatt
        · exact absurd ((hm.tracked_ne hj).mpr htrj) hnot
      · exact (hp.attempt j n hatt).2 htrj
    · intro j n hpc
      rw [hm.pnt] at hpc
      have htrj := hp.taken j n hpc
      by_cases hj : j = t
      · subst hj
        by_contra hnot
        exact (hkeep htrj hnot).2.2 c n hpc
      · exact (hm.tracked_ne hj).mpr htrj
    · intro j hwon
      rw [hm.pnt] at hwon
      rcases hp.won j hwon with ⟨hl, htrj, hph⟩
      -- the task lock is the handler's
      have hj : j ≠ t := by
        intro hj
        subst hj
        rw [(hm.lookup hI).1, (hI.handler g h hm.old).unlatched] at hl
        cases hl
      rw [hm.gtid_eq, hm.tasks, hm.latchedBy]
      exact ⟨hl, (hm.tracked_ne hj).mpr htrj, hph⟩
  · intro g' k hk
    by_cases hg : g' = g
    · subst hg
      rw [hm.handler_self] at hk
      cases hk
      exact hH
    · rw [hm.handler_ne hg] at hk
      exact hm.handlerOk_ne hI hg hk
  · intro j
    by_cases hj : j = t
    · subst hj
      exact hrefs
    · exact hm.refsOk_ne hI hj

/-! ## What an access has to show -/

namespace HandlerMove

variable {x : Thread G}

variable (hm : HandlerMove s s' g t x h h')
include hm

/-- What the handler relies on, when no thread gets a scheduler. -/
theorem handlerOk (hI : Inv s) (hmsg : h'.msg = h.msg) (hseq : h'.seqnum = h.seqnum)
    (hrest : h.msg.Rest h'.todo) (hsched : x.sched = .biff → (s.threads t).sched = .biff)
    (hinit : .initBiff ∈ h'.todo → t ∉ s'.rq)
    (hdrop : .setSchedNone ∉ h'.todo → .decref ∈ h'.todo ∨ .deleteEntry ∈ h'.todo →
      x.sched ≠ .biff) :
    HandlerOk s' g h' := by
  have ho := hI.handler g h hm.old
  have hthread : ∀ j, h'.thread = some j → j = t :=
    fun j hj => Option.some.inj (hj.symm.trans hm.thread)
  constructor
  · rw [hseq, hm.tasks]
    exact ho.seqnum
  · rw [hm.latchedBy]
    exact ho.unlatched
  · rw [hmsg, hm.tasks]
    exact ho.phase
  · rw [hmsg]
    exact hrest
  · intro j hj
    rw [hthread j hj, hm.gtid_eq, hm.thread_self, hm.swLookup]
    rcases hm.lookup hI with ⟨hgt, hl | ⟨hl, hs⟩⟩
    · exact ⟨hgt, .inl hl⟩
    · exact ⟨hgt, .inr ⟨hl, mt hsched hs⟩⟩
  · intro idx r hins
    rcases ho.insert idx r (hm.inserts idx r hins) with ⟨hf, hnot⟩
    refine ⟨hm.fresh hf, ?_⟩
    intro j hl
    rw [hm.swLookup] at hl
    by_cases hj : j = t
    · subst hj
      rw [hm.thread_self]
      exact mt hsched (hnot j hl)
    · rw [hm.thread_ne hj]
      exact hnot j hl
  · intro hmem j hj
    rw [hthread j hj]
    exact hinit hmem
  · intro j hj
    rw [hthread j hj, hm.thread_self]
    exact hdrop

/-- An access does not begin to track the entry. -/
theorem tracked_of (hsched : x.sched = .biff → (s.threads t).sched = .biff) (htr : Tracked s' t) :
    Tracked s t :=
  ⟨(hm.tracked_self.mp htr).1, hsched (hm.tracked_self.mp htr).2⟩

/-- Nobody else begins to delete the entry. -/
theorem deleter_self (hdel : .deleteEntry ∈ h'.todo → h.thread = some t ∧ .deleteEntry ∈ h.todo)
    {a : K ⊕ G} (ha : Deleter s' t a) : Deleter s t a := by
  cases a with
  | inl c =>
    change (s.pnt c).Deletes t
    rw [← hm.pnt]
    exact ha
  | inr g' =>
    rcases ha with ⟨k, hk, hkt, hmem⟩
    by_cases hg : g' = g
    · subst hg
      rw [hm.handler_self] at hk
      cases hk
      exact ⟨h, hm.old, hdel hmem⟩
    · rw [hm.handler_ne hg] at hk
      exact ⟨k, hk, hkt, hmem⟩

/-- The references, when none is dropped. -/
theorem refsOk (hI : Inv s) (hsched : x.sched = .biff → (s.threads t).sched = .biff)
    (href : x.refcnt = (s.threads t).refcnt)
    (hdel : .deleteEntry ∈ h'.todo → h.thread = some t ∧ .deleteEntry ∈ h.todo) : RefsOk s' t := by
  refine (hI.refs t).congr (hm.gtid_eq t) (by rw [hm.thread_self, href]) ?_ (by rw [hm.swLookup]) ?_
    fun a ha => hm.deleter_self hdel ha
  · rw [hm.thread_self]
    exact hsched
  · rw [hm.pnt]
    exact fun _ => Iff.rfl

/-- The work of the handler before and after the access. -/
theorem has_self (hI : Inv s) : (Has s (s.threads t).gtid op ↔ op ∈ h.todo) ∧
      (Has s' (s.threads t).gtid op ↔ op ∈ h'.todo) := by
  rw [(hm.lookup hI).1]
  exact ⟨has_of_handler hm.old, has_of_handler hm.handler_self⟩

/-- What the ball of the thread depends on, apart from its handler. -/
theorem has_new (hI : Inv s) : Has s' (s'.threads t).gtid op ↔ op ∈ h'.todo := by
  rw [hm.gtid_eq]
  exact (hm.has_self hI).2

theorem task : s'.tasks (s'.threads t).gtid = s.tasks (s.threads t).gtid := by
  rw [hm.gtid_eq, hm.tasks]

theorem noFresh : NoFresh s' t ↔ NoFresh s t := by
  unfold NoFresh
  rw [hm.task, hm.pnt]

theorem popped : Popped s' t ↔ Popped s t := by
  unfold Popped
  rw [hm.pnt]

/-- The entry stays on the queue, or off it. -/
theorem undisturbed_self (hI : Inv s) (hrq : t ∈ s'.rq ↔ t ∈ s.rq)
    (hmv : ∀ op : MicroOp T, op.Moves → (op ∈ h'.todo ↔ op ∈ h.todo))
    (htk : .takeBall ∈ h'.todo → .takeBall ∈ h.todo) : Undisturbed s s' t := by
  refine ⟨hm.gtid_eq t, by rw [hm.tasks], hrq, ?_, ?_, ?_⟩
  · intro c
    rw [hm.pnt]
    exact .refl _ _ _
  · intro op hop
    rw [(hm.has_self hI).1, (hm.has_self hI).2]
    exact hmv op hop
  · rw [(hm.has_self hI).1, (hm.has_self hI).2]
    exact htk

end HandlerMove

/-- The access leaves the runqueue, the scheduler and the references alone. -/
structure Thread.Quiet (x y : Thread G) : Prop where
  refcnt : y.refcnt = x.refcnt
  sched : y.sched = x.sched
  enqueued : y.enqueued = x.enqueued

/-- An access that does not move the ball. -/
theorem Inv.handlerQuiet (hI : Inv s) (hm : HandlerMove s s' g t x h h') (hrq : s'.rq = s.rq)
    (hx : (s.threads t).Quiet x)
    (hseq : x.seqnum = (s.threads t).seqnum ∨
      x.seqnum = h.seqnum ∧ .takeBall ∉ h.todo ∧ .dequeue ∉ h.todo)
    (hpend : Tracked s t → PendingKept s s' t)
    (hmv : ∀ op : MicroOp T, op.Moves → (op ∈ h'.todo ↔ op ∈ h.todo))
    (htk : .takeBall ∈ h'.todo → .takeBall ∈ h.todo)
    (hdel : .deleteEntry ∈ h'.todo → h.thread = some t ∧ .deleteEntry ∈ h.todo)
    (hH : HandlerOk s' g h') : Inv s' := by
  have hsched : x.sched = .biff → (s.threads t).sched = .biff := fun he => hx.sched ▸ he
  refine hI.handlerMove hm ?_ ?_ ?_ ?_ ?_ hH (hm.refsOk hI hsched hx.refcnt hdel)
  · rw [hrq]
    exact hI.nodup
  · rw [hx.enqueued, hrq]
    exact hI.enqueued t
  · intro hmem
    rw [hrq] at hmem
    have htr := hI.queued t hmem
    exact hm.tracked_self.mpr ⟨htr.1, hx.sched.trans htr.2⟩
  · intro htr
    replace htr := hm.tracked_of hsched htr
    refine (hI.thread t htr).congr (hm.undisturbed_self hI (by rw [hrq]) hmv htk) ?_ (hpend htr)
    unfold SeqnumKept
    rw [hm.thread_self, (hm.has_self hI).1, (hm.has_self hI).1, (hm.lookup hI).1,
      ← (hI.handler g h hm.old).seqnum]
    exact hseq
  · intro htr hns
    exact absurd (hx.sched.trans htr.2) hns

/-- An access to a thread that biff does not schedule. -/
theorem Inv.handlerOff (hI : Inv s) (hm : HandlerMove s s' g t x h h') (hrq : s'.rq = s.rq)
    (henq : x.enqueued = (s.threads t).enqueued) (hoff : (s.threads t).sched ≠ .biff)
    (hx : x.sched ≠ .biff) (hH : HandlerOk s' g h') (hrefs : RefsOk s' t) : Inv s' := by
  refine hI.handlerMove hm ?_ ?_ ?_ ?_ ?_ hH hrefs
  · rw [hrq]
    exact hI.nodup
  · rw [henq, hrq]
    exact hI.enqueued t
  · rw [hrq]
    exact fun hmem => absurd (hI.queued t hmem).2 hoff
  · exact fun htr => absurd (hm.tracked_self.mp htr).2 hx
  · exact fun htr => absurd htr.2 hoff

end Flux
