import GhostSched.Fifo.Invariant

/-!
# The passes of the FIFO scheduler

Each part of `GlobalSchedule` keeps the invariant, whatever the kernel answers
and does meanwhile.

* `Inv.pickTask` is a round of the loop over the available cpus, `Inv.commit` and
  `Inv.commitFailed` are the two outcomes of a transaction, and `Inv.endPass`
  brings back the tasks that were put aside.
* `task_places` is the result, with a run in which the task that was to be
  replaced goes on to run.
-/

namespace Fifo

open Central Function

variable {G C : Type*}

/-! ## The cpus of a pass -/

section Cpus

variable [DecidableEq C] {assigned : List C} {current : C → Option G} {c : C} {o : Option G}

variable (hc : c ∉ assigned)
include hc

/-- The pass replaces the task of one more cpu. -/
theorem runningOn_append : runningOn (assigned ++ [c]) (update current c o) =
      update (runningOn assigned current) c none := by
  funext d
  by_cases hd : d = c
  · subst hd
    simp [runningOn]
  · simp [runningOn, hd]

/-- The pass has picked a task for one more cpu. -/
theorem pickedFor_append :
    pickedFor (assigned ++ [c]) (update current c o) = update (pickedFor assigned current) c o := by
  funext d
  by_cases hd : d = c
  · subst hd
    simp [pickedFor]
  · simp [pickedFor, hd]

/-- The transaction of a cpu is over. -/
theorem runningOn_cons :
    runningOn assigned (update current c o) = update (runningOn (c :: assigned) current) c o := by
  funext d
  by_cases hd : d = c
  · subst hd
    simp [runningOn, hc]
  · simp [runningOn, hd]

/-- Nothing is picked for that cpu any more. -/
theorem pickedFor_cons : pickedFor assigned (update current c o) =
      update (pickedFor (c :: assigned) current) c none := by
  funext d
  by_cases hd : d = c
  · subst hd
    simp [pickedFor, hc]
  · simp [pickedFor, hd]

end Cpus

/-! ## A pass -/

/-- A task that waits for a cpu goes on to wait. -/
theorem Allows.rests {drain : Prop} {t t' : FifoTask C} {v : View C} (h : Allows drain (some t) v)
    (hr : t.runState = .queued ∨ t.runState = .runnable ∨ t.runState = .yielding)
    (hr' : t'.runState = .queued ∨ t'.runState = .runnable ∨ t'.runState = .yielding ∧ ¬ drain) :
    Allows drain (some t') v := by
  cases h with
  | blocked hb | placed hb => simp [hb] at hr
  | resting => exact .resting (hr'.imp_right (Or.imp_right And.left))
  | waiting => exact .waiting hr'

section InTouch

variable [DecidableEq G] {w : World G C Unit} {tasks : G → Option (FifoTask C)} {drain : Prop}
  {g : G} {t t' : FifoTask C} {o : Option (FifoTask C)}

variable (h : InTouch drain tasks w)
include h

/-- One task changes without a message. -/
theorem InTouch.update
    (hg : ∃ v, Allows drain o v ∧ Follows (isStrict o) v (seqnumOf o) (w.pending g) (w.kernel g)) :
    InTouch drain (update tasks g o) w := by
  refine Comm.update h (g := g) (fun g' hg' => ?_) (by simpa using hg)
  simp only [update_of_ne hg']
  exact ⟨fun _ => id, trivial, id⟩

/-- The agent may believe the same of it. -/
theorem InTouch.change (ht : tasks g = some t)
    (hallows : ∀ v, Allows drain (some t) v → Allows drain (some t') v)
    (hseq : t'.seqnum = t.seqnum) (hstrict : isStrict (some t') = false) :
    InTouch drain (Function.update tasks g (some t')) w := by
  rcases h g with ⟨v, hv, hf⟩
  simp only [ht] at hv hf
  refine h.update ⟨v, hallows v hv, ?_⟩
  rw [hstrict, show seqnumOf (some t') = seqnumOf (some t) from hseq]
  exact hf.loosen

/-- The agent takes a task off its cpu. -/
theorem InTouch.displace (ht : tasks g = some t) (hr : t.runState = .onCpu) :
    InTouch drain (Function.update tasks g (some { t with runState := .queued })) w := by
  rcases h g with ⟨v, hv, hf⟩
  simp only [ht] at hv hf
  refine h.update ⟨.waiting, .waiting (.inl rfl), ?_⟩
  cases hv with
  | placed => exact hf.displace
  | _ => simp_all

/-- The agent picks a task about which it has read every message. -/
theorem InTouch.pick (ht : tasks g = some t) (hr : t.runState = .queued)
    (hbarrier : t.seqnum = w.barrier g) :
    InTouch drain (Function.update tasks g (some { t with runState := .runnable })) w := by
  rcases h g with ⟨v, hv, hf⟩
  simp only [ht] at hv hf
  have hne : v ≠ .absent := by
    rintro rfl
    cases hv
  have hnil : w.pending g = [] := hf.eq_nil hne (Nat.le_of_eq hbarrier.symm)
  refine h.update ⟨v, hv.rests (.inl hr) (.inr (.inl rfl)), ?_⟩
  rw [hnil] at hf ⊢
  exact hf

end InTouch

section Pass

variable [DecidableEq G] [DecidableEq C] {cfg : Config C} {s : State G C} {g : G} {c : C}
  {t t' : FifoTask C}

/-- A pass begins with the cpus that are available. -/
theorem Inv.startPass {avail expired : C → Bool} (h : Inv cfg s) (hd : s.mode = .drain) :
    Inv cfg (startPass cfg s avail expired) := by
  have hplaced := h.placed
  rw [hd] at hplaced
  unfold Fifo.startPass
  rw [check_of_true (decide_eq_true h.global)]
  refine ⟨h.crashed, h.counts, hplaced, ?_, ?_, fun c hc => absurd hc List.not_mem_nil, ?_,
    h.global⟩
  · intro g
    rcases h.comm g with ⟨v, hv, hf⟩
    exact ⟨v, hv.mono fun _ => hd, hf⟩
  · simpa [Mode.cpus] using cfg.nodup.filter _
  · simp [Mode.cpus]

variable {rest : List G}

omit [DecidableEq C] in
/-- `Dequeue` takes the first task. -/
theorem dequeue_eq (hq : s.runQueue = g :: rest) (ht : s.tasks g = some t)
    (hr : t.runState = .queued) :
    dequeue s = ({ s with
      tasks := update s.tasks g (some { t with runState := .runnable })
      runQueue := rest }, some g) := by
  simp only [dequeue, hq]
  rw [withTask_eq ht, check_of_true (decide_eq_true hr)]
  rfl

variable {assigned available : List C}

omit [DecidableEq C] in
/-- The cpus that still have to get a task. -/
theorem Mode.not_mem_assigned (h : (Mode.pick (c :: available) assigned).cpus.Nodup) :
    c ∉ assigned := by
  have hnot := (List.nodup_cons.mp h).1
  exact fun hmem => hnot (List.mem_append_right _ hmem)

section

variable (h : Inv cfg s)
include h

/-- A task that is not ready is put aside. -/
theorem Inv.putAside (hm : s.mode = .pick available assigned) (hq : s.runQueue = g :: rest)
    (ht : s.tasks g = some t) (hr : t.runState = .queued) :
    Inv cfg { s with
      tasks := update s.tasks g (some { t with runState := .yielding })
      runQueue := rest
      yieldingTasks := s.yieldingTasks ++ [g] } := by
  have hlift := Placed.lift_queue h.placed (List.Perm.of_eq hq)
  refine ⟨h.crashed, ?_, put_yielded hlift rfl (List.perm_append_singleton ..), ?_, h.nodup,
    h.assigned, h.not_global, h.global⟩
  · simpa using h.counts.change ht
  · exact h.comm.change ht (fun v hv => hv.rests (.inl hr) (.inr (.inr ⟨rfl, by simp [hm]⟩)))
      rfl rfl

/-- A task is picked for a cpu. -/
theorem InvWith.picked (hm : s.mode = .pick (c :: available) assigned)
    (hq : s.runQueue = g :: rest) :
    Placed Fits (update s.tasks g (some { t with runState := .runnable })) rest
      s.yieldingTasks (runningOn assigned s.current)
      (update (pickedFor assigned s.current) c (some g)) := by
  have hnodup := h.nodup
  have hplaced := h.placed
  rw [hm] at hnodup hplaced
  have hc : c ∉ assigned := Mode.not_mem_assigned hnodup
  have hlift := Placed.lift_queue hplaced (List.Perm.of_eq hq)
  apply (hlift.retask _).put_next
  · rw [update_self]
    exact .runnable rfl
  · simp [pickedFor, Mode.assigned, hc]

variable {tasks : G → Option (FifoTask C)} {queue : List G}

/-- The cpu has an open transaction now. -/
theorem Inv.assign (hm : s.mode = .pick (c :: available) assigned)
    (hcounts : Counts tasks s.numTasks) (hcomm : InTouch False tasks s.world)
    (hplaced : Placed Fits tasks queue s.yieldingTasks (update (runningOn assigned s.current)
      c none) (update (pickedFor assigned s.current) c (some g))) :
    Inv cfg { s with
      tasks := tasks
      runQueue := queue
      current := update s.current c (some g)
      mode := .pick available (assigned ++ [c]) } := by
  have hnodup := h.nodup
  have hglobal := h.not_global
  have hassigned := h.assigned
  rw [hm] at hnodup hglobal hassigned
  have hc : c ∉ assigned := Mode.not_mem_assigned hnodup
  have hperm : (available ++ (assigned ++ [c])).Perm (c :: available ++ assigned) := by
    rw [← List.append_assoc]
    exact List.perm_append_singleton ..
  have hne : cfg.globalCpu ≠ c := fun heq => hglobal (heq ▸ List.mem_cons_self)
  refine ⟨h.crashed, hcounts, ?_, ?_, hperm.nodup_iff.mpr hnodup, ?_, ?_, ?_⟩
  · show Placed Fits tasks queue s.yieldingTasks (runningOn (assigned ++ [c]) _)
      (pickedFor (assigned ++ [c]) _)
    rw [runningOn_append hc, pickedFor_append hc]
    exact hplaced
  · simpa using hcomm
  · intro d hd
    by_cases hdc : d = c
    · simp [hdc]
    · rcases List.mem_append.mp hd with hd | hd
      · simpa [hdc] using hassigned d hd
      · exact absurd (List.mem_singleton.mp hd) hdc
  · exact fun hmem => hglobal (hperm.mem_iff.mp hmem)
  · simpa [hne] using h.global

/-- A cpu gets the first task of the run queue, unless that one has to skip a round. -/
theorem Inv.pickTask {onCpu : Bool} (hm : s.mode = .pick (c :: available) assigned) :
    Inv cfg (pickTask s c available assigned onCpu) := by
  have hplaced := h.placed
  have hnodup := h.nodup
  have hglobal := h.not_global
  have hassigned := h.assigned
  have hcomm := h.comm
  rw [hm] at hplaced hnodup hglobal hassigned hcomm
  unfold Fifo.pickTask
  cases hq : s.runQueue with
  | nil =>
    simp only [dequeue, hq]
    refine ⟨h.crashed, h.counts, ?_, by simpa using hcomm, ?_, hassigned, ?_, h.global⟩
    · rw [hq] at hplaced
      exact hplaced
    · exact (List.nodup_append.mp (List.nodup_cons.mp hnodup).2).2.1
    · exact fun hmem => hglobal (List.mem_cons_of_mem _ (List.mem_append_right _ hmem))
  | cons g rest =>
    rcases (Placed.mem_queue hplaced (fun _ _ hf => hf.queued_iff) g).mp (by simp [hq]) with
      ⟨t, ht, hr⟩
    simp only [dequeue_eq hq ht hr]
    rw [withTask_eq (Function.update_self ..)]
    split
    · -- the task is not ready
      rw [yield, withTask_eq (Function.update_self ..)]
      simp only [decide_true, Bool.or_true, check_of_true, State.setTask, Function.update_idem]
      exact h.putAside hm hq ht hr
    · rename_i hready
      have hbarrier : t.seqnum = s.world.barrier g := by
        by_contra hne
        exact hready (by simp [hne])
      have hcomm' := hcomm.pick ht hr hbarrier
      have hpicked := InvWith.picked (t := t) h hm hq
      cases hc : s.current c with
      | none =>
        have hrun : Function.update (runningOn assigned s.current) c none =
            runningOn assigned s.current := by
          rw [Function.update_eq_self_iff]
          simp [runningOn, hc]
        exact h.assign hm (by simpa using h.counts.change ht) (by simpa using hcomm')
          (by rw [hrun]; exact hpicked)
      | some prev =>
        -- the current task goes back to the run queue
        have hrun : runningOn assigned s.current c = some prev := by
          simp [runningOn, hc, Mode.not_mem_assigned hnodup]
        rcases (Placed.current_iff hpicked (fun _ _ hf => hf.onCpu_iff) prev).mp hrun with
          ⟨tp, htp, hrp, -⟩
        have hcounts : Counts (Function.update
            (Function.update s.tasks g (some { t with runState := .runnable })) prev
            (some { tp with runState := .queued })) (s.numTasks + 0 + 0) :=
          (h.counts.change ht).change htp
        have hplaced' := put_queued (t := { tp with runState := .queued })
          (Placed.lift_current hpicked hrun)
            rfl (push_perm { tp with runState := .runnable } prev rest)
        simp only
        rw [setRunState_eq (by exact htp), enqueue_eq (Function.update_self ..) rfl]
        simp only [State.setTask, Function.update_idem]
        exact h.assign hm (by simpa using hcounts) (by simpa using hcomm'.displace htp hrp) hplaced'

/-- A transaction has been looked at. -/
theorem Inv.settle {world : World G C Unit} {o : Option G} (hm : s.mode = .commit (c :: assigned))
    (hcounts : Counts tasks s.numTasks) (hcomm : InTouch False tasks world)
    (hplaced : Placed Fits tasks queue s.yieldingTasks (update (runningOn (c :: assigned) s.current)
      c o) (update (pickedFor (c :: assigned) s.current) c none)) :
    Inv cfg { s with
      world := world
      tasks := tasks
      runQueue := queue
      current := update s.current c o
      mode := .commit assigned } := by
  have hnodup := h.nodup
  have hglobal := h.not_global
  have hassigned := h.assigned
  rw [hm] at hnodup hglobal hassigned
  rcases List.nodup_cons.mp hnodup with ⟨hc, hnodup'⟩
  have hne : cfg.globalCpu ≠ c := fun heq => hglobal (heq ▸ List.mem_cons_self)
  refine ⟨h.crashed, hcounts, ?_, ?_, hnodup', ?_, ?_, ?_⟩
  · show Placed Fits tasks queue s.yieldingTasks (runningOn assigned _) (pickedFor assigned _)
    rw [runningOn_cons hc, pickedFor_cons hc]
    exact hplaced
  · simpa using hcomm
  · intro d hd
    have hdc : d ≠ c := fun heq => hc (heq ▸ hd)
    simpa [hdc] using hassigned d (List.mem_cons_of_mem _ hd)
  · exact fun hmem => hglobal (List.mem_cons_of_mem _ hmem)
  · simpa [hne] using h.global

/-- The task of an open transaction. -/
theorem InvWith.opened (hm : s.mode = .commit (c :: assigned)) (hc : s.current c = some g) :
    ∃ t, s.tasks g = some t ∧ t.runState = .runnable := by
  have hplaced := h.placed
  rw [hm] at hplaced
  have hnext : pickedFor (Mode.commit (c :: assigned)).assigned s.current c = some g := by
    simp [pickedFor, Mode.assigned, hc]
  have hfits := Placed.next_some hplaced hnext
  generalize s.tasks g = o at hfits
  cases hfits with
  | runnable hr => exact ⟨_, rfl, hr⟩

/-- The picked task of a cpu, taken from it. -/
theorem InvWith.lift_opened (hm : s.mode = .commit (c :: assigned)) (hc : s.current c = some g) :
    Lifted g Fits s.tasks s.runQueue s.yieldingTasks (runningOn (c :: assigned) s.current)
      (update (pickedFor (c :: assigned) s.current) c none) := by
  have hplaced := h.placed
  rw [hm] at hplaced
  apply Placed.lift_next hplaced
  simp [pickedFor, Mode.assigned, hc]

/-- The kernel has put the task on its cpu. -/
theorem Inv.commit {lose : G → Bool} {w : World G C Unit} (hm : s.mode = .commit (c :: assigned))
    (hc : s.current c = some g) (ht : s.tasks g = some t)
    (hcommit : s.world.commit c g t.seqnum lose = some w) :
    Inv cfg (taskOnCpu { s with mode := .commit assigned, world := w } g c) := by
  have hlift := InvWith.lift_opened h hm hc
  have hplaced := h.placed
  have hcomm := h.comm
  rw [hm] at hplaced hcomm
  have hr : t.runState = .runnable := by
    rcases InvWith.opened h hm hc with ⟨t', ht', hr⟩
    rw [ht] at ht'
    cases ht'
    exact hr
  -- nobody is believed to be on the cpu
  have hothers : ∀ g' ≠ g, ¬ Allows (Mode.commit (c :: assigned) = .drain) (s.tasks g')
      (.placed c) := by
    intro g' _ hallows
    generalize ho : s.tasks g' = o at hallows
    cases hallows with
    | placed hr' hc' =>
      have hrun := (Placed.current_iff hplaced (fun _ _ hf => hf.onCpu_iff) g').mpr
        ⟨_, ho, hr', hc'⟩
      simp [runningOn, Mode.assigned] at hrun
  have hseq : seqnumOf (s.tasks g) = t.seqnum := by
    rw [ht]
    rfl
  have hlatch := Comm.commit hcomm (hseq ▸ hcommit) (by simp [ht, isStrict, hr]) (by
      intro v hv
      rw [ht] at hv
      cases hv with
      | blocked hr' | placed hr' => simp [hr] at hr'
      | resting => exact .inl rfl
      | waiting => exact .inr rfl)
    hothers
  set t' : FifoTask C :=
    { t with runState := .onCpu, cpu := some c, preempted := false, prioBoost := false } with ht'
  have hcomm' : InTouch False (update s.tasks g (some t')) w := by
    intro g'
    rcases hlatch g' with ⟨v, hv, hf⟩
    by_cases hg : g' = g
    · subst hg
      simp only [if_true] at hv
      subst hv
      simp only [update_self]
      refine ⟨.placed c, .placed rfl rfl, ?_⟩
      simpa [ht, isStrict, hr, ht', seqnumOf] using hf
    · simp only [hg, if_false] at hv
      simp only [update_of_ne hg]
      exact ⟨v, hv.mono False.elim, hf⟩
  rw [taskOnCpu, withTask_eq (by exact ht), check_of_true (decide_eq_true (by exact hc))]
  have hsettle := h.settle hm (by simpa using h.counts.change ht) hcomm'
    ((hlift.retask (some t')).put_current (by rw [update_self]; exact .onCpu rfl rfl)
      (by simp [runningOn]))
  rwa [← hc, update_eq_self] at hsettle

/-- The task goes back to the run queue. -/
theorem Inv.commitFailed (hm : s.mode = .commit (c :: assigned)) (hc : s.current c = some g) :
    Inv cfg (commitFailed { s with mode := .commit assigned } g c) := by
  rcases InvWith.opened h hm hc with ⟨t, ht, hr⟩
  have hlift := InvWith.lift_opened h hm hc
  have hcomm := h.comm
  rw [hm] at hcomm
  have hrun : update (runningOn (c :: assigned) s.current) c none =
      runningOn (c :: assigned) s.current := by
    rw [update_eq_self_iff]
    simp [runningOn]
  set t' : FifoTask C := { t with runState := .queued, prioBoost := true } with ht'
  have hcomm' : InTouch False (update s.tasks g (some t')) s.world := by
    have hchange := hcomm.change ht (fun v hv => hv.rests (.inr (.inl hr)) (.inl rfl))
      (rfl : t'.seqnum = _) rfl
    simpa using hchange
  unfold Fifo.commitFailed
  rw [withTask_eq (by exact ht), enqueue_eq (t := { t with prioBoost := true }) (update_self ..) hr]
  simp only [State.setTask, update_idem]
  exact h.settle hm (by simpa using h.counts.change ht) hcomm'
    (by rw [hrun]; exact put_queued hlift rfl (push_perm ..))

end

/-- A task that was put aside goes back to the run queue. -/
theorem InvWith.requeue {yielding : List G} (h : InvWith cfg s (g :: yielding))
    (hm : s.mode = .commit assigned) :
    InvWith cfg (requeue s g) yielding ∧ (requeue s g).mode = .commit assigned := by
  rcases (Placed.mem_yielding h.placed (fun _ _ hf => hf.yielding_iff) g).mp (by simp) with
    ⟨t, ht, hr⟩
  have hlift := Placed.lift_yielding h.placed (List.Perm.refl _)
  rw [Fifo.requeue, withTask_eq ht, check_of_true (decide_eq_true hr),
    enqueue_eq (update_self ..) rfl]
  simp only [State.setTask, update_idem]
  refine ⟨⟨h.crashed, by simpa using h.counts.change ht, put_queued hlift rfl (push_perm ..), ?_,
    h.nodup, h.assigned, h.not_global, h.global⟩, hm⟩
  exact h.comm.change ht (fun v hv => hv.rests (.inr (.inr hr)) (.inl rfl)) rfl rfl

/-- The tasks that have skipped a round are queued again. -/
theorem Inv.endPass (h : Inv cfg s) (hm : s.mode = .commit []) : Inv cfg (endPass s) := by
  -- one task after the other leaves the list
  have hfold : ∀ (ys : List G) (s : State G C), InvWith cfg s ys → s.mode = .commit [] →
      InvWith cfg (ys.foldl Fifo.requeue s) [] ∧ (ys.foldl Fifo.requeue s).mode = .commit [] := by
    intro ys
    induction ys with
    | nil => exact fun s h hm => ⟨h, hm⟩
    | cons g ys ih =>
      intro s h hm
      rcases h.requeue hm with ⟨h', hm'⟩
      exact ih _ h' hm'
  rcases hfold s.yieldingTasks s h hm with ⟨h', hm'⟩
  unfold Fifo.endPass
  generalize s.yieldingTasks.foldl Fifo.requeue s = s' at h' hm'
  have hplaced := h'.placed
  rw [hm'] at hplaced
  refine ⟨h'.crashed, h'.counts, hplaced, ?_, List.nodup_nil,
    fun c hc => absurd hc List.not_mem_nil, List.not_mem_nil, h'.global⟩
  -- no task is put aside any more
  intro g
  rcases h'.comm g with ⟨v, hv, hf⟩
  refine ⟨v, ?_, hf⟩
  show Allows _ (s'.tasks g) v
  generalize ho : s'.tasks g = o at hv
  cases hv with
  | absent => exact .absent
  | blocked hr => exact .blocked hr
  | resting hr => exact .resting hr
  | waiting hr =>
    have hnot := (Placed.mem_yielding hplaced (fun _ _ hf => hf.yielding_iff) g).not.mp (by simp)
    exact .waiting (hr.imp_right (Or.imp_right fun hy => absurd ⟨_, ho, hy.1⟩ hnot))
  | placed hr hc => exact .placed hr hc

end Pass

/-! ## Every run -/

/-- The kernel does not do a switchto. -/
def NoSwitchto (_ : State G C) : Action G C → Prop
  | .kernel e => e.NoSwitchto
  | _ => True

/-- The numbers of the messages have 32 bits. -/
def Unwrapped (s : State G C) : Action G C → Prop
  | .dispatch _ => ∀ e ∈ s.world.queue.head?, e.seqnum < 2 ^ 32
  | _ => True

theorem Init.inv [DecidableEq G] [DecidableEq C] {cfg : Config C} {s : State G C} (h : Init s) :
    Inv cfg s := by
  have hboard : Board (fun _ => .out) s.runQueue s.yieldingTasks s.current (fun _ : C => none) := by
    rw [h.runQueue, h.yieldingTasks]
    exact ⟨List.nodup_nil, by simp, List.nodup_nil, by simp, by simp [h.current], by simp⟩
  refine ⟨h.crashed, ⟨[], by simp [h.tasks, h.numTasks]⟩, ?_, ?_, ?_, ?_, ?_, h.current _⟩
  · rw [h.mode]
    exact ⟨fun _ => .out, hboard, fun g => by rw [h.tasks]; exact .none⟩
  · intro g
    refine ⟨.absent, by simp only [h.tasks]; exact .absent, ?_⟩
    rw [World.pending, h.queue]
    exact ⟨h.kernel g, fun hne => absurd rfl hne⟩
  · rw [h.mode]
    exact List.nodup_nil
  · rw [h.mode]
    exact fun c hc => absurd hc List.not_mem_nil
  · rw [h.mode]
    exact List.not_mem_nil

section Run

variable [DecidableEq G] [DecidableEq C] {cfg : Config C} {s s' s₀ : State G C}

/-- Every step keeps the invariant. -/
theorem Inv.step {a : Action G C} (h : Inv cfg s) (hok : NoSwitchto s a)
    (hstep : Fifo.step cfg s a = some s') : Inv cfg s' := by
  cases a with
  | kernel e =>
    -- what the agent believes still leads to what the threads do
    rcases Option.map_eq_some_iff.mp hstep with ⟨w, hw, rfl⟩
    exact { h with comm := Comm.step h.comm (World.step_cases hw hok) }
  | dispatch deferrable =>
    simp only [Fifo.step] at hstep
    split at hstep
    · rename_i hd hq
      exact (h.dispatch hd hq (Option.some.inj hstep)).1
    · cases hstep
  | startPass avail expired =>
    simp only [Fifo.step] at hstep
    split at hstep <;> cases hstep
    exact h.startPass ‹_›
  | pick onCpu =>
    simp only [Fifo.step] at hstep
    split at hstep <;> cases hstep
    exact h.pickTask ‹_›
  | endPick =>
    -- there is nothing left on the run queue, or no cpu
    simp only [Fifo.step] at hstep
    split at hstep <;> cases hstep
    rename_i assigned hm
    have hplaced := h.placed
    have hcomm := h.comm
    have hnodup := h.nodup
    have hassigned := h.assigned
    have hglobal := h.not_global
    rw [hm] at hplaced hcomm hnodup hassigned hglobal
    exact ⟨h.crashed, h.counts, hplaced, by simpa using hcomm, hnodup, hassigned, hglobal, h.global⟩
  | commit success lose =>
    simp only [Fifo.step] at hstep
    split at hstep
    · rename_i c assigned hm
      have hassigned := h.assigned
      rw [hm] at hassigned
      split at hstep
      · -- a cpu of the pass has a task
        rename_i hc
        exact absurd hc (hassigned c List.mem_cons_self)
      · rename_i g hc
        split at hstep
        · rcases Option.bind_eq_some_iff.mp hstep with ⟨t, ht, hstep⟩
          rcases Option.map_eq_some_iff.mp hstep with ⟨w, hw, rfl⟩
          exact h.commit hm hc ht hw
        · cases hstep
          exact h.commitFailed hm hc
    · cases hstep
  | endPass =>
    simp only [Fifo.step] at hstep
    split at hstep <;> cases hstep
    exact h.endPass ‹_›

/-! ### The check of the message order -/

omit [DecidableEq G] [DecidableEq C] in
/-- Only `Advance` looks at the order of the messages. -/
theorem withTask_misordered {g : G} {f : FifoTask C → State G C}
    (hf : ∀ t, (f t).misordered = s.misordered) : (s.withTask g f).misordered = s.misordered := by
  unfold State.withTask
  split
  · exact hf _
  · rfl

omit [DecidableEq C] in
theorem enqueue_misordered {g : G} : (enqueue s g).misordered = s.misordered :=
  withTask_misordered fun _ => rfl

omit [DecidableEq C] in
theorem requeue_misordered (ys : List G) : (ys.foldl requeue s).misordered = s.misordered := by
  induction ys generalizing s with
  | nil => rfl
  | cons g ys ih => exact ih.trans (withTask_misordered fun _ => enqueue_misordered)

theorem pickTask_misordered {c : C} {available assigned : List C} {onCpu : Bool} :
    (pickTask s c available assigned onCpu).misordered = s.misordered := by
  have hdequeue : (dequeue s).1.misordered = s.misordered := by
    unfold dequeue
    split
    · rfl
    · exact withTask_misordered fun _ => rfl
  unfold pickTask
  split
  · rename_i heq
    rwa [heq] at hdequeue
  · rename_i s₁ g heq
    rw [heq] at hdequeue
    refine (withTask_misordered fun t => ?_).trans hdequeue
    split
    · exact withTask_misordered fun _ => rfl
    · dsimp only
      split
      · exact enqueue_misordered.trans (withTask_misordered fun _ => rfl)
      · rfl

/-- In one step the `CHECK` of `Task::Advance` fails only for a number of more than 32 bits. -/
theorem step_misordered {a : Action G C} (h : Inv cfg s) (hok : Unwrapped s a)
    (hstep : Fifo.step cfg s a = some s') : s'.misordered = s.misordered := by
  cases a with
  | kernel e =>
    rcases Option.map_eq_some_iff.mp hstep with ⟨w, -, rfl⟩
    rfl
  | dispatch deferrable =>
    simp only [Fifo.step] at hstep
    split at hstep
    · rename_i hd hq
      exact (h.dispatch hd hq (Option.some.inj hstep)).2 (hok _ (by rw [hq]; rfl))
    · cases hstep
  | startPass avail expired | endPick =>
    simp only [Fifo.step] at hstep
    split at hstep <;> cases hstep
    rfl
  | pick onCpu =>
    simp only [Fifo.step] at hstep
    split at hstep <;> cases hstep
    exact pickTask_misordered
  | commit success lose =>
    simp only [Fifo.step] at hstep
    split at hstep
    · split at hstep
      · cases hstep
        rfl
      · split at hstep
        · rcases Option.bind_eq_some_iff.mp hstep with ⟨t, -, hstep⟩
          rcases Option.map_eq_some_iff.mp hstep with ⟨w, -, rfl⟩
          exact withTask_misordered fun _ => rfl
        · cases hstep
          exact enqueue_misordered.trans (withTask_misordered fun _ => rfl)
    · cases hstep
  | endPass =>
    simp only [Fifo.step] at hstep
    split at hstep <;> cases hstep
    exact requeue_misordered s.yieldingTasks

/-- The invariant holds in every state of every run. -/
theorem Inv.of_run (h₀ : Init s₀)
    (h : Transition.StepsWhen NoSwitchto (Fifo.step cfg) s₀ s) : Inv cfg s :=
  h.invariant (fun _ _ _ hs hok hstep => hs.step hok hstep) h₀.inv

/-- A task is on none of the lists and current nowhere. -/
def Nowhere (s : State G C) (g : G) : Prop :=
  g ∉ s.runQueue ∧ g ∉ s.yieldingTasks ∧ ∀ c, s.current c ≠ some g

/-- A task is at the place of its state and at no other. -/
def Located (s : State G C) (g : G) (t : FifoTask C) : Prop :=
  match t.runState with
  | .blocked => Nowhere s g
  | .queued => s.runQueue.count g = 1 ∧ g ∉ s.yieldingTasks ∧ ∀ c, s.current c ≠ some g
  | .yielding => s.yieldingTasks.count g = 1 ∧ g ∉ s.runQueue ∧ ∀ c, s.current c ≠ some g
  | .onCpu =>
    ∃ c, t.cpu = some c ∧ (∀ c', s.current c' = some g ↔ c' = c) ∧ g ∉ s.runQueue ∧
      g ∉ s.yieldingTasks
  | .runnable => False

variable {g : G}

omit [DecidableEq C] in
/-- The place of a task, in the words of its own fields. -/
theorem Settled.located {t : FifoTask C} (h : Settled s) (ht : s.tasks g = some t) :
    Located s g t := by
  have hq : g ∈ s.runQueue ↔ t.runState = .queued := by simp [h.mem_runQueue, ht]
  have hy : g ∈ s.yieldingTasks ↔ t.runState = .yielding := by simp [h.mem_yielding, ht]
  have hc : ∀ c, s.current c = some g ↔ t.runState = .onCpu ∧ t.cpu = some c := by
    intro c
    simp [h.current_iff, ht]
  unfold Located
  rcases h.runState ht with hr | hr | hr | ⟨hr, c, hcpu⟩
  · simp [Nowhere, hq, hy, hc, hr]
  · have hmem : g ∈ s.yieldingTasks := hy.mpr hr
    simp [hq, hc, hr, List.count_eq_one_of_mem (Placed.yielding_nodup h) hmem]
  · have hmem : g ∈ s.runQueue := hq.mpr hr
    simp [hy, hc, hr, List.count_eq_one_of_mem (Placed.queue_nodup h) hmem]
  · simp only [hr]
    refine ⟨c, hcpu, fun c' => ?_, by simp [hq, hr], by simp [hy, hr]⟩
    rw [hc c', hcpu]
    simp [hr, eq_comm]

omit [DecidableEq G] [DecidableEq C] in
/-- A thread without a task is on no list and no cpu. -/
theorem Settled.nowhere (h : Settled s) (ht : s.tasks g = none) : Nowhere s g := by
  simp [Nowhere, h.mem_runQueue, h.mem_yielding, h.current_iff, ht]

/-- No `CHECK` of the scheduler fails, and that of `Task::Advance` does not as long as the
numbers have 32 bits. The tasks are counted. Between the passes each task is at the one place of
its state, and nothing is left of a task that was freed. A thread that can run, and about which
there are no unread messages, has a task that is not blocked. -/
theorem task_places (h₀ : Init s₀) (h : Transition.StepsWhen NoSwitchto (Fifo.step cfg) s₀ s) :
    s.crashed = false ∧
      (Transition.StepsWhen (fun s a => NoSwitchto s a ∧ Unwrapped s a) (Fifo.step cfg) s₀ s →
        s.misordered = false) ∧
      (∃ live : List G, live.Nodup ∧ (∀ g, g ∈ live ↔ s.tasks g ≠ none) ∧
        s.numTasks = live.length) ∧
      (s.mode = .drain → (∀ g t, s.tasks g = some t → Located s g t) ∧
        ∀ g, s.tasks g = none → Nowhere s g) ∧
      ∀ g, (s.world.kernel g).phase ≠ .absent → (s.world.kernel g).phase ≠ .blocked →
        s.world.pending g = [] → ∃ t, s.tasks g = some t ∧ t.runState ≠ .blocked := by
  have hinv : Inv cfg s := Inv.of_run h₀ h
  refine ⟨hinv.crashed, fun hrun => ?_, hinv.counts, fun hd => ?_,
    fun g habsent hblocked hnil => ?_⟩
  · have hboth : Inv cfg s ∧ s.misordered = false := hrun.invariant
      (P := fun s => Inv cfg s ∧ s.misordered = false)
      (fun _ _ _ hs hok hstep => ⟨hs.1.step hok.1 hstep,
        (step_misordered hs.1 hok.2 hstep).trans hs.2⟩) ⟨h₀.inv, h₀.misordered⟩
    exact hboth.2
  · have hsettled := InvWith.settled hinv hd
    exact ⟨fun g t ht => hsettled.located ht, fun g ht => hsettled.nowhere ht⟩
  · rcases hinv.comm g with ⟨v, hv, hf⟩
    rw [hnil] at hf
    generalize s.tasks g = o at hv hf
    cases hv with
    | absent => exact absurd hf.1 habsent
    | blocked => exact absurd hf.1 hblocked
    | resting hr | waiting hr => exact ⟨_, rfl, by rcases hr with hr | hr | hr <;> simp [hr]⟩
    | placed hr => exact ⟨_, rfl, by simp [hr]⟩

end Run

/-! ## A preemption that fails -/

instance {s : State G C} {a : Action G C} : Decidable (NoSwitchto s a) := by
  unfold NoSwitchto
  split <;> infer_instance

/-- Two cpus. The agent is on the first one. -/
def twoCpus : Config Bool := ⟨[true, false], by decide, true, by decide⟩

def noTasks : State Bool Bool :=
  { world := ⟨fun _ => .absent Bool, fun _ => 0, []⟩, tasks := fun _ => none
    current := fun _ => none, runQueue := [], yieldingTasks := [], numTasks := 0
    mode := .drain, crashed := false, misordered := false }

theorem noTasks_init : Init noTasks :=
  ⟨fun _ => rfl, rfl, fun _ => rfl, fun _ => rfl, rfl, rfl, rfl, rfl, rfl, rfl⟩

/-- A thread runs on the other cpu, and a pass tries to replace it by a second one when its time
slice is over. The transaction fails, and the first thread goes on and blocks. -/
def failedPreemption : List (Action Bool Bool) :=
  [.kernel (.thread true (.enter () 1 true)), .dispatch false,
    .startPass (fun _ => true) (fun _ => false), .pick false, .endPick,
    .commit true (fun _ => false), .endPass, .kernel (.thread true .getOnCpu),
    .kernel (.thread false (.enter () 1 true)), .dispatch false,
    .startPass (fun _ => true) (fun _ => true), .pick false, .endPick,
    .commit false (fun _ => false), .endPass, .kernel (.thread true .block), .dispatch false]

def failedState : State Bool Bool :=
  (Transition.exec (step twoCpus) noTasks failedPreemption).getD noTasks

theorem failedPreemption_run : Transition.StepsWhen NoSwitchto (step twoCpus) noTasks failedState :=
  .of_execWhen (fun _ _ h => of_decide_eq_true h) failedPreemption rfl

theorem task_places_failedPreemption :
    failedState.mode = .drain ∧ (failedState.tasks true).map FifoTask.runState = some .blocked ∧
      failedState.runQueue = [false] ∧ ∀ g t, failedState.tasks g = some t →
        Located failedState g t :=
  ⟨rfl, rfl, rfl, ((task_places noTasks_init failedPreemption_run).2.2.2.1 rfl).1⟩

end Fifo
