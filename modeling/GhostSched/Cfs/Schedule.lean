import GhostSched.Cfs.Balance

/-!
# Picking a task

`CfsSchedule` puts the task that was picked before back on its runqueue, or frees
it if it is done, and takes the leftmost task. `Pass` says what has happened so
far, in addition to `Turn`: no task changes its cpu, its affinity or its vruntime.

* `Pass.putBack`, `Pass.free`: the two cases of the previous task.
* `Pass.takeLeftmost`: the next task.
* `Inv.pick`, `Inv.repick`, `Inv.boosted`, `Inv.commit`: the steps.
-/

namespace Cfs

open Kernel Function

variable {G C P : Type*} [DecidableEq G] [DecidableEq C] [LinearOrder P]

structure Pass (cfg : Config C) (a : Action G C P) (c : C) (s s' : State G C P)
    (L L' : Layout C P) : Prop extends Turn cfg c s s' L L' where
  list : L'.moving c = L.moving c
  live : ∀ q, s'.mem q = .live → s.mem q = .live
  cpu : ∀ q, (s'.heap q).cpu = (s.heap q).cpu
  affinity : ∀ q, (s'.heap q).cpuAffinity = (s.heap q).cpuAffinity
  vruntime : ∀ q, (s'.heap q).vruntime = (s.heap q).vruntime
  queued : ∀ q, (s'.heap q).Queued →
    (s.heap q).Queued ∨ (s.heap q).state = .running ∧ a.Passes (s.heap q).cpu
  clean : Sound s → (∀ q ∈ (s.cpus c).current, (s.heap q).state ≠ .done) →
    Sound s' ∧ s'.usedFreed = s.usedFreed

variable {cfg : Config C} {a : Action G C P} {s s₁ s₂ s' : State G C P} {L L₁ L₂ L' : Layout C P}
  {c : C} {p : P} {t : CfsTask G C}

theorem Pass.refl (h : Inv cfg s) (hshape : Shape s L) : Pass cfg a c s s L L where
  core := hshape.toCore
  comm := h.comm
  agents := rfl
  crashed := rfl
  actual _ _ := rfl
  moving _ _ := rfl
  current _ _ := rfl
  others _ _ _ _ := ⟨rfl, rfl⟩
  list := rfl
  live _ := id
  cpu _ := rfl
  affinity _ := rfl
  vruntime _ := rfl
  queued _ := .inl
  clean hs _ := ⟨hs, rfl⟩

/-- Nothing happens to a task or a thread. -/
structure Idles (s s' : State G C P) : Prop where
  heap : s'.heap = s.heap
  mem : s'.mem = s.mem
  alloc : s'.alloc = s.alloc
  kernel : s'.kernel = s.kernel
  channel : s'.channel = s.channel
  queue : s'.queue = s.queue
  agents : s'.agents = s.agents
  crashed : s'.crashed = s.crashed
  clean : Sound s → Sound s' ∧ s'.usedFreed = s.usedFreed

omit [LinearOrder P] in
theorem Comm.idles (h : Comm cfg s) (hidles : Idles s s') : Comm cfg s' := by
  refine ⟨fun g => ?_, ?_, ?_⟩
  · refine h.mail_same (by rw [hidles.kernel]; exact .refl _) (by rw [hidles.channel])
      ?_ fun c => ?_
    · rw [known, known, hidles.alloc, hidles.heap]
    · rw [hidles.queue]
  · rw [hidles.agents, hidles.kernel]
    exact h.free
  · rw [hidles.agents, hidles.queue]
    exact h.quiet

theorem Pass.idles (h : Pass cfg a c s s₁ L L₁) (hidles : Idles s₁ s₂) (harr : Arranged s₂ L₁) :
    Pass cfg a c s s₂ L L₁ :=
  { h with
    core := h.core.same harr hidles.heap hidles.mem hidles.alloc
    comm := h.comm.idles hidles
    agents := hidles.agents.trans h.agents
    crashed := hidles.crashed.trans h.crashed
    others := by
      rw [hidles.mem, hidles.heap]
      exact h.others
    live := fun q hq => h.live q (hidles.mem ▸ hq)
    cpu := fun q => by rw [hidles.heap, h.cpu]
    affinity := fun q => by rw [hidles.heap, h.affinity]
    vruntime := fun q => by rw [hidles.heap, h.vruntime]
    queued := fun q hq => h.queued q (hidles.heap ▸ hq)
    clean := fun hs hdone => by grind [h.clean, hidles.clean] }

/-- Only memory that the queues know about is read. -/
theorem Pass.touch (ps : List P) (h : Pass cfg a c s s₁ L L₁)
    (hps : Sound s₁ → ∀ q ∈ ps, s₁.mem q = .live) : Pass cfg a c s (s₁.touch ps) L L₁ := by
  have harr := h.core.arranged
  exact h.idles ⟨rfl, rfl, rfl, rfl, rfl, rfl, rfl, rfl, fun hs => ⟨hs, touch_of_live (hps hs)⟩⟩
    ⟨harr.at_iff, harr.actual, harr.ordered, harr.size, harr.keys, harr.nodup⟩

theorem Pass.touch_live (h : Pass cfg a c s s₁ L L₁) (hp : s₁.mem p = .live) :
    Pass cfg a c s (s₁.touch [p]) L L₁ :=
  h.touch [p] fun _ _ hq => List.mem_singleton.mp hq ▸ hp

theorem Pass.updateMinVruntime (h : Pass cfg a c s s₁ L L₁) :
    Pass cfg a c s (Rq.updateMinVruntime s₁ c) L L₁ :=
  h.idles ⟨rfl, rfl, rfl, rfl, rfl, rfl, rfl, rfl, fun hs => hs.updateMinVruntime⟩
    h.core.arranged.updateMinVruntime

variable {b : Bool}

theorem Pass.preemptCurr (h : Pass cfg a c s s₁ L L₁) :
    Pass cfg a c s (s₁.setCpu c { s₁.cpus c with preemptCurr := b }) L L₁ := by
  have harr := h.core.arranged
  refine h.idles ⟨rfl, rfl, rfl, rfl, rfl, rfl, rfl, rfl, fun hs => ⟨?_, rfl⟩⟩
    (harr.setCpu_same ⟨rfl, rfl, rfl⟩ rfl rfl rfl (harr.setCpu_current rfl))
  exact forall_setCpu (Q := fun _ cs => (∀ p ∈ cs.rq, s₁.mem p = .live) ∧
    ∀ p ∈ cs.current, s₁.mem p = .live) (hs c) hs

omit [DecidableEq G] [DecidableEq C] in
/-- What does not change about the task at `p` does not change about any task. -/
theorem Does.same {α : Sort*} (h : Does s₁ s₂ L₂ p t) (f : CfsTask G C → α)
    (hf : f t = f (s₁.heap p)) (q : P) : f (s₂.heap q) = f (s₁.heap q) := by
  by_cases hq : q = p
  · rw [hq, h.holds.task, hf]
  · rw [h.frame.heap q hq]

/-- A task of this cpu is not current on another one. -/
theorem Pass.ne_current {c' : C} {q : P} (h : Pass cfg a c s s₁ L L₁) (hp : s₁.mem p = .live)
    (hcpu : (s₁.heap p).cpu = c) (hc : c' ≠ c) (hq : L.current c' = some q) : q ≠ p := by
  rintro rfl
  have hloc := h.core.arranged.current_iff.mp ((h.current c' hc).trans hq)
  exact hc ((h.core.cpu_of_loc hp hloc).symm.trans hcpu)

/-- A task of this cpu moves. -/
theorem Pass.does (h : Pass cfg a c s s₁ L L₁) (hp : s₁.mem p = .live)
    (hcpu : (s₁.heap p).cpu = c) (hdoes : Does s₁ s₂ L₂ p t)
    (hloc : L₂.loc = update L₁.loc p t.home) (hvalid : t.Valid)
    (hactual : L₂.actual = L₁.actual) (hmoving : L₂.moving = L₁.moving)
    (hcurrent : ∀ c', c' ≠ c → L₂.current c' = L₁.current c') (hcpu' : t.cpu = (s₁.heap p).cpu)
    (haff : t.cpuAffinity = (s₁.heap p).cpuAffinity) (hv : t.vruntime = (s₁.heap p).vruntime)
    (hqueued : t.Queued →
      (s.heap p).Queued ∨ (s.heap p).state = .running ∧ a.Passes (s.heap p).cpu)
    (hcomm : Comm cfg s₂) : Pass cfg a c s s₂ L L₂ := by
  have hframe := hdoes.frame
  have htask := hdoes.holds.task
  exact {
    core := h.core.does hp hdoes hloc hvalid
    comm := hcomm
    agents := hframe.agents.trans h.agents
    crashed := hframe.crashed.trans h.crashed
    actual := fun c' hc => by rw [hactual, h.actual c' hc]
    moving := fun c' hc => by rw [hmoving, h.moving c' hc]
    current := fun c' hc => (hcurrent c' hc).trans (h.current c' hc)
    others := fun c' hc q hq => by
      rw [hframe.mem, hframe.heap q (h.ne_current hp hcpu hc hq)]
      exact h.others c' hc q hq
    list := by rw [hmoving, h.list]
    live := fun q hq => h.live q (hframe.mem ▸ hq)
    cpu := fun q => (hdoes.same CfsTask.cpu hcpu' q).trans (h.cpu q)
    affinity := fun q => (hdoes.same CfsTask.cpuAffinity haff q).trans (h.affinity q)
    vruntime := fun q => (hdoes.same CfsTask.vruntime hv q).trans (h.vruntime q)
    queued := fun q hq => by
      by_cases hqp : q = p
      · rw [hqp, htask] at hq
        exact hqp ▸ hqueued hq
      · rw [hframe.heap q hqp] at hq
        exact h.queued q hq
    clean := fun hs hdone => by
      rcases h.clean hs hdone with ⟨hs₁, hu₁⟩
      exact ⟨hframe.sound hs₁ hp, (hframe.clean hs₁ hp).trans hu₁⟩ }

/-! ## The previous task -/

/-- The current task of an agent that has drained its channel is put back. -/
theorem Comm.putBack (h : Comm cfg s) (hcore : Core s L) (hp : s.mem p = .live)
    (hframe : Frame s s' p) (hpast : (s.agents c).Past) (hcpu : (s.heap p).cpu = c)
    (hstate : (s.heap p).state = .running)
    (htask : s'.heap p = { s.heap p with state := .runnable, onRq := .queued }) : Comm cfg s' := by
  have hview : (s.heap p).view = .current c := by
    simp [CfsTask.view, hstate, hcpu]
  refine h.frame hcore hp hframe fun old new hmail => ?_
  have hfollows : Follows (s.kernel (s.heap p).gtid) (.current c) (s.heap p).seqnum
    (old ++ new) := by
    rw [← hview]
    exact hmail.follows
  rw [htask]
  refine hmail.retask rfl (hfollows.unpick (fun x hx => ?_) hmail.new_head
    (h.free c hpast.awake _))
  -- what is pending is on the channel of this agent
  have hmem : x ∈ about (s.heap p).gtid (s.queue c) := by
    have hqueue := hmail.queue_eq c
    rw [if_pos (show c = homeOf cfg (some (s.heap p)) from hcpu.symm)] at hqueue
    rw [hqueue]
    exact List.mem_append_left _ hx
  exact h.quiet c hpast _ _ _ (mem_about.mp hmem)

theorem Pass.putBack (h : Pass cfg a c s s₁ L L₁) (hpast : (s.agents c).Past)
    (hpasses : a.Passes c) (hp : s₁.mem p = .live) (hcur : L₁.current c = some p)
    (hstate : (s₁.heap p).state = .running) (hbefore : s.heap p = s₁.heap p) :
    Pass cfg a c s (Rq.reconcile s₁ c p) L ((L₁.drop c p).put p (some (c, .rq))) := by
  have hloc := h.core.arranged.current_iff.mp hcur
  have hcpu : (s₁.heap p).cpu = c := h.core.cpu_of_loc hp hloc
  have hon : (s₁.heap p).onRq = .dequeued :=
    (h.core.valid p hp).dequeued (by rw [hstate]; exact nofun)
  have hread := (h.core.holds hp).touch_self
  have hdrop : Does s₁ (s₁.touch [p]) (L₁.drop c p) p (s₁.heap p) :=
    ⟨hread.frame, hread.holds.relocate (hread.holds.toArranged.drop hloc) rfl⟩
  have hins := hdrop.next fun h => h.insertTaskIntoRq (c := c) (update_self ..)
    (by rw [hon]; rfl)
  have hset := hins.next fun h => h.setState .runnable (by rw [hstate]; rfl)
  have hrec : Rq.reconcile s₁ c p =
      (Rq.insertTaskIntoRq (s₁.touch [p]) c p).setState p .runnable := by
    unfold Rq.reconcile
    rw [hstate]
    rfl
  rw [hrec]
  refine h.does hp hcpu hset ?_ (.inl rfl) rfl rfl (fun c' hc => update_of_ne hc ..) rfl rfl
    rfl (fun _ => .inr ?_) ?_
  · show update (update L₁.loc p none) p _ = _
    rw [update_idem, home_queued rfl rfl, hcpu]
  · rw [hbefore, hcpu]
    exact ⟨hstate, hpasses⟩
  · exact h.comm.putBack h.core hp hset.frame (by rw [h.agents]; exact hpast) hcpu hstate
      hset.holds.task

/-- A task whose thread has left is freed. -/
theorem Comm.freed (h : Comm cfg s) (hcore : Core s L) (hp : s.mem p = .live)
    (hframe : Frame s s' p) (hview : ¬ (s.heap p).view.Known) : Comm cfg (freeTask s' p) := by
  refine ⟨fun g => ?_, ?_, ?_⟩
  · by_cases hg : g = (s.heap p).gtid
    · subst hg
      have hself : (freeTask s' p).alloc (s.heap p).gtid = none := by
        show update s'.alloc (s'.heap p).gtid none (s.heap p).gtid = none
        rw [hframe.gtid, update_self]
      have hknown : known (freeTask s' p) (s.heap p).gtid = none :=
        congrArg (Option.map s'.heap) hself
      rcases h.mail (s.heap p).gtid with ⟨old, new, hmail⟩
      rw [hcore.known_self hp] at hmail
      refine ⟨[], new, ?_⟩
      rw [hknown]
      show Mail _ _ (s'.kernel _) (s'.channel _) (fun c => about _ (s'.queue c)) _ _
      rw [hframe.kernel, hframe.channel, hframe.queue]
      exact hmail.free hview
    · refine h.mail_same ?_ ?_ (hcore.known_of_ne hframe.heap ?_ hg) fun c => ?_
      · show Silent _ (s'.kernel g)
        rw [hframe.kernel]
        exact .refl _
      · exact congrFun hframe.channel g
      · show update s'.alloc (s'.heap p).gtid none g = _
        rw [hframe.gtid, update_of_ne hg, hframe.alloc]
      · exact congrArg (about g) (congrFun hframe.queue c)
  · show ∀ c, (s'.agents c).Awake → ∀ g, ¬ HasCpu (s'.kernel g) c
    rw [hframe.agents, hframe.kernel]
    exact h.free
  · show ∀ c, (s'.agents c).Past → ∀ g i msg, .task g i msg ∈ s'.queue c → ¬ NeedsCurrent msg
    rw [hframe.agents, hframe.queue]
    exact h.quiet

/-- The current task is done. It stays where it was stored until the agent has a next one. -/
theorem Pass.free (h : Pass cfg a c s s₁ L L₁) (hp : s₁.mem p = .live)
    (hcur : L₁.current c = some p) (hstate : (s₁.heap p).state = .done)
    (hdone : (s.cpus c).current = some p ∧ (s.heap p).state = .done) :
    Pass cfg a c s (Rq.reconcile s₁ c p) L (L₁.drop c p) ∧
      (Rq.reconcile s₁ c p).mem p = .freed ∧
      (Sound s₁ → (Rq.reconcile s₁ c p).usedFreed = s₁.usedFreed) := by
  have hloc := h.core.arranged.current_iff.mp hcur
  have hcpu : (s₁.heap p).cpu = c := h.core.cpu_of_loc hp hloc
  have hread := (h.core.holds hp).touch_self
  have hdeq := hread.next fun h => h.dequeueTask_of_ne (c := c) (by rw [hloc]; simp)
  -- it was current and on no queue
  have hdrop : Does s₁ (Rq.dequeueTask (s₁.touch [p]) c p) (L₁.drop c p) p (s₁.heap p) :=
    ⟨hdeq.frame, hdeq.holds.relocate (hdeq.holds.toArranged.drop hloc) rfl⟩
  -- `Reconcile` frees a task that is done
  have hrec : Rq.reconcile s₁ c p = freeTask (Rq.dequeueTask (s₁.touch [p]) c p) p := by
    unfold Rq.reconcile
    rw [hstate]
  have hcore := h.core.free hp hdrop rfl
  have hcomm := h.comm.freed h.core hp hdrop.frame (by simp [CfsTask.view, hstate, View.Known])
  have hheap := hdrop.same (fun t => t) rfl
  have hframe := hdrop.frame
  rw [hrec]
  generalize Rq.dequeueTask (s₁.touch [p]) c p = s₂ at hframe hheap hcore hcomm
  have hmem : ∀ q, q ≠ p → (freeTask s₂ p).mem q = s₁.mem q := by
    intro q hq
    show update s₂.mem p .freed q = _
    rw [update_of_ne hq, hframe.mem]
  have hfreed : (freeTask s₂ p).mem p = .freed := update_self ..
  refine ⟨{ h with
    core := hcore
    comm := hcomm
    agents := hframe.agents.trans h.agents
    crashed := hframe.crashed.trans h.crashed
    current := fun c' hc => (update_of_ne hc ..).trans (h.current c' hc)
    others := fun c' hc q hq => ?_
    live := fun q hq => ?_
    cpu := fun q => (congrArg CfsTask.cpu (hheap q)).trans (h.cpu q)
    affinity := fun q => (congrArg CfsTask.cpuAffinity (hheap q)).trans (h.affinity q)
    vruntime := fun q => (congrArg CfsTask.vruntime (hheap q)).trans (h.vruntime q)
    queued := fun q hq => h.queued q (hheap q ▸ hq)
    clean := fun _ hnot => absurd hdone.2 (hnot p hdone.1) }, hfreed, fun hs => ?_⟩
  · rw [hmem q (h.ne_current hp hcpu hc hq)]
    exact ⟨(h.others c' hc q hq).1, (hheap q).trans (h.others c' hc q hq).2⟩
  · grind [h.live]
  · have htouch : (freeTask s₂ p).usedFreed = s₂.usedFreed := by
      apply touch_of_live
      intro q hq
      rw [List.mem_singleton.mp hq, hframe.mem]
      exact hp
    exact htouch.trans (hframe.clean hs hp)

/-! ## The next task -/

variable {runtime : UInt64}

omit [DecidableEq G] in
theorem takeLeftmost_nil (h : (s.cpus c).rq = []) :
    Rq.takeLeftmost s c runtime = (Rq.updateMinVruntime s c, none) := by
  unfold Rq.takeLeftmost
  rw [h]

/-- A task that waits is picked. -/
theorem Comm.picked (h : Comm cfg s) (hcore : Core s L) (hp : s.mem p = .live)
    (hframe : Frame s s' p) (hstate : (s.heap p).state = .runnable)
    (hstate' : (s'.heap p).state = .running) (hcpu : (s'.heap p).cpu = (s.heap p).cpu)
    (hseq : (s'.heap p).seqnum = (s.heap p).seqnum) : Comm cfg s' := by
  have hview : (s.heap p).view = .waiting := by
    simp [CfsTask.view, hstate]
  have hview' : (s'.heap p).view = .current (s'.heap p).cpu := by
    simp [CfsTask.view, hstate']
  refine h.frame hcore hp hframe fun old new hmail => hmail.retask hcpu ?_
  have hfollows : Follows (s.kernel (s.heap p).gtid) .waiting (s.heap p).seqnum (old ++ new) := by
    rw [← hview]
    exact hmail.follows
  rw [hview', hseq]
  exact hfollows.pick

theorem Pass.takeLeftmost {rest : List P} (runtime : UInt64) (h : Pass cfg a c s s₁ L L₁)
    (hcur : L₁.current c = none) (hrq : (s₁.cpus c).rq = p :: rest) :
    ∃ s₂ L₂, Rq.takeLeftmost s₁ c runtime = (s₂, some p) ∧ Pass cfg a c s s₂ L L₂ ∧
      L₂.current c = some p ∧ s₂.mem p = .live ∧ (s₂.heap p).state = .running ∧
      ((s.heap p).Queued ∨ (s.heap p).state = .running ∧ a.Passes (s.heap p).cpu) := by
  have hloc : L₁.loc p = some (c, .rq) :=
    h.core.arranged.mem_rq.mp (hrq ▸ List.mem_cons_self)
  have hp : s₁.mem p = .live := h.core.live hloc nofun
  rcases home_eq_rq ((h.core.home p hp).symm.trans hloc) with ⟨hstate, hon, hcpu⟩
  have hdeq : Does s₁ (Rq.dequeueTask s₁ c p) (L₁.put p none) p
      { s₁.heap p with onRq := .dequeued } := (h.core.holds hp).dequeueTask hloc hon
  have hset := hdeq.next fun h => h.setState .running (by rw [hstate]; rfl)
  have hmod := hset.next fun h =>
    h.modify (f := fun t => { t with runtimeAtFirstPick := runtime }) rfl (.inl rfl)
  have hmin := hmod.next fun h => h.updateMinVruntime (c := c)
  have hnone : (L₁.put p none).loc p = none := update_self ..
  have htake := hmin.holds.relocate (hmin.holds.toArranged.take (c := c) hnone hcur) rfl
  have htask := htake.task
  refine ⟨_, (L₁.put p none).take c p, ?_, h.does hp hcpu ⟨hmin.frame, htake⟩ ?_ (.inr rfl) rfl rfl
    (fun c' hc => update_of_ne hc ..) rfl rfl rfl nofun ?_, update_self .., ?_, ?_, ?_⟩
  · unfold Rq.takeLeftmost
    rw [hrq]
  · show update (update L₁.loc p none) p _ = _
    rw [update_idem, home_running rfl, hcpu]
  · refine h.comm.picked h.core hp hmin.frame hstate ?_ ?_ ?_ <;> rw [htask]
  · rw [hmin.frame.mem]
    exact hp
  · rw [htask]
  · exact h.queued p ⟨hstate, by rw [hon]; exact nofun⟩

/-! ## The end of the pass -/

/-- The step ends, with the agent in `x`. -/
theorem Pass.finish (x : Agent G P) (h : Inv cfg s) (hshape : Shape s L)
    (hpass : Pass cfg a c s s' L L') (hmov : x.moving = (s.agents c).moving)
    (hpast : (s.agents c).Past)
    (hstale : ∀ p, L'.current c = some p → s'.mem p ≠ .live → x.Idle)
    (hidle : ∀ p, x.Idle → L'.current c = some p → s'.mem p ≠ .live)
    (htask : ∀ p, x.task = some p → L'.current c = some p ∧ (s'.heap p).state = .running)
    (hopened : ∀ p, x = .opened p → s'.mem p = .live ∧
      ((s.heap p).Queued ∨ (s.heap p).state = .running ∧ a.Passes (s.heap p).cpu))
    (hclean : Sound s → Spares s a →
      Sound (s'.setCurrent c (L'.current c)) ∧ s'.usedFreed = s.usedFreed) :
    Good cfg a s ((s'.setCurrent c (L'.current c)).setAgent c x) := by
  refine hpass.toTurn.finish x h hshape ?_ hstale hidle htask hpast (fun _ q _ => hpass.vruntime q)
    (fun q hq => ⟨hpass.live q hq, .inl (hpass.affinity q), fun hqueued => .inr (.inr
      ⟨hpass.cpu q, hpass.affinity q, hpass.queued q hqueued⟩)⟩) (fun p hp => ?_) hclean
  · rw [hpass.list, hshape.moving, hmov]
  · rcases hopened p hp with ⟨hlive, hbefore⟩
    have hcur := (htask p (by rw [hp]; rfl)).1
    have hloc := hpass.core.arranged.current_iff.mp hcur
    have hcpu : (s.heap p).cpu = c := by
      rw [← hpass.cpu p]
      exact hpass.core.cpu_of_loc hlive hloc
    rw [hcpu] at hbefore
    exact ⟨hpass.affinity p, hpass.live p hlive, hcpu, hbefore⟩

section Ends

variable (h : Inv cfg s) (hshape : Shape s L) (hpass : Pass cfg a c s s' L L')
  (hmov : (s.agents c).moving = []) (hpast : (s.agents c).Past)
  (hspare : Sound s → Spares s a → ∀ q ∈ (s.cpus c).current, (s.heap q).state ≠ .done)
include h hshape hpass hmov hpast hspare

/-- No task was found, and the agent waits. -/
theorem Pass.sleep (hcur : L'.current c = none) : Good cfg a s (setNext s' c none) := by
  have hgood := hpass.finish .asleep h hshape hmov.symm hpast (by rw [hcur]; exact nofun)
    nofun nofun
    nofun fun hs hspares => ?_
  · rw [hcur] at hgood
    exact hgood
  · rcases hpass.clean hs (hspare hs hspares) with ⟨hs', hu⟩
    rw [hcur]
    exact ⟨hs'.setCurrent nofun, hu⟩

/-- A transaction is opened for the next task. -/
theorem Pass.opens (hcur : L'.current c = some p) (hlive : s'.mem p = .live)
    (hstate : (s'.heap p).state = .running)
    (hbefore : (s.heap p).Queued ∨ (s.heap p).state = .running ∧ a.Passes (s.heap p).cpu) :
    Good cfg a s (setNext s' c (some p)) := by
  have hread := hpass.touch_live hlive
  have hgood := hread.finish (.opened p) h hshape hmov.symm hpast (fun q hq hdead => ?_) nofun
    (fun q hq => ?_) (fun q hq => ?_) fun hs hspares => ?_
  · rw [hcur] at hgood
    exact hgood
  · rw [hcur] at hq
    cases hq
    exact absurd hlive hdead
  · cases hq
    exact ⟨hcur, hstate⟩
  · cases hq
    exact ⟨hlive, hbefore⟩
  · rcases hread.clean hs (hspare hs hspares) with ⟨hs', hu⟩
    rw [hcur]
    refine ⟨hs'.setCurrent fun q hq => ?_, hu⟩
    cases hq
    exact hlive

/-- `NewIdleBalance` is next. -/
theorem Pass.balances (hcur : (s'.cpus c).current = L'.current c)
    (hdead : ∀ q, L'.current c = some q → s'.mem q ≠ .live) :
    Good cfg a s (s'.setAgent c .balance) := by
  have hgood := hpass.finish .balance h hshape hmov.symm hpast (fun _ _ _ => trivial)
    (fun q _ => hdead q) nofun nofun fun hs hspares => ?_
  · rw [setCurrent_self hcur] at hgood
    exact hgood
  · rw [setCurrent_self hcur]
    exact hpass.clean hs (hspare hs hspares)

end Ends

/-! ## `PickNextTask` -/

/-- The previous task was freed, but it is still stored. -/
theorem Pass.dangle (h : Pass cfg a c s s₁ L L₁) (hfreed : s₁.mem p = .freed)
    (hloc : L₁.loc p = none) (hcur : L₁.current c = none) : Pass cfg a c s s₁ L (L₁.take c p) := by
  have hne : ∀ {q}, s₁.mem q = .live → q ≠ p := by
    rintro q hq rfl
    rw [hfreed] at hq
    cases hq
  refine { h with
    core := ⟨h.core.arranged.take hloc hcur, h.core.owned, fun q hq => ?_, h.core.valid,
      fun q l hq hl => ?_⟩
    current := fun c' hc => (update_of_ne hc ..).trans (h.current c' hc) }
  · rw [← h.core.home q hq]
    exact update_of_ne (hne hq) ..
  · have hl : update L₁.loc p (some (c, .current)) q = some l := hl
    grind [h.core.gone]

/-- The rest of `PickNextTask`, after the previous task. -/
theorem Inv.pick_next (h : Inv cfg s) (hshape : Shape s L) (hagent : s.agents c = .migrate [])
    (hpass : Pass cfg (.pick c runtime) c s s₁ L L₁) (hcur : L₁.current c = none)
    (hempty : (s₁.cpus c).rq = [] → ∃ L₂, Pass cfg (.pick c runtime) c s s₁ L L₂ ∧
      L₂.current c = (s₁.cpus c).current ∧ ∀ q, L₂.current c = some q → s₁.mem q ≠ .live)
    (hpick : Rq.pickNextTask s c (s.cpus c).current runtime = Rq.takeLeftmost s₁ c runtime) :
    Good cfg (.pick c runtime) s (pick cfg s c runtime) := by
  have hmov : (s.agents c).moving = [] := by
    rw [hagent]
    rfl
  have hpast : (s.agents c).Past := by
    rw [hagent]
    trivial
  have hspare : Sound s → Spares s (.pick c runtime) →
      ∀ q ∈ (s.cpus c).current, (s.heap q).state ≠ .done := fun _ hspares => hspares
  unfold Cfs.pick
  rw [hpick]
  cases hrq : (s₁.cpus c).rq with
  | nil =>
    rw [takeLeftmost_nil hrq]
    show Good _ _ _ (if cfg.idleLoadBalancing then _ else _)
    split
    · rcases hempty hrq with ⟨L₂, hpass₂, hcur₂, hdead⟩
      refine hpass₂.updateMinVruntime.balances h hshape hmov hpast hspare ?_ hdead
      rw [hcur₂]
      simp only [Rq.updateMinVruntime, Rq.setMinVruntime, setCpu_cpu]
      rfl
    · exact hpass.updateMinVruntime.sleep h hshape hmov hpast hspare hcur
  | cons p rest =>
    rcases hpass.takeLeftmost runtime hcur hrq with
      ⟨s₂, L₂, htake, hpass₂, hcur₂, hlive, hstate, hbefore⟩
    rw [htake]
    exact hpass₂.opens h hshape hmov hpast hspare hcur₂ hlive hstate hbefore

theorem Inv.pick (h : Inv cfg s) (hagent : s.agents c = .migrate []) :
    Good cfg (.pick c runtime) s (Cfs.pick cfg s c runtime) := by
  rcases h.shape with ⟨L, hshape⟩
  have hcurrent : (s.cpus c).current = L.current c := by
    rw [hshape.arranged.actual, hshape.settled]
  have hrefl : Pass cfg (.pick c runtime) c s s L L := .refl h hshape
  have hpast : (s.agents c).Past := by
    rw [hagent]
    trivial
  cases hcur : L.current c with
  | none =>
    rw [hcur] at hcurrent
    have hread := hrefl.touch [] fun _ => nofun
    refine h.pick_next hshape hagent (hread.preemptCurr (b := false)) hcur
      (fun _ => ⟨L, hread.preemptCurr, ?_, ?_⟩) ?_
    · rw [hcur, setCpu_cpu]
      exact hcurrent.symm
    · rw [hcur]
      exact nofun
    · rw [hcurrent]
      rfl
  | some p =>
    rw [hcur] at hcurrent
    have hp := hshape.live_of_agent hcur hagent id
    have hloc := hshape.arranged.current_iff.mp hcur
    have hhome := (hshape.home p hp).symm.trans hloc
    have hread := hrefl.touch_live hp
    have hnext := hread.preemptCurr (b := false)
    rcases home_eq_current hhome with ⟨hstate | hstate, hcpu⟩
    · by_cases hpre : (s.cpus c).preemptCurr = false
      · -- it keeps the cpu
        have hpick : Rq.pickNextTask s c (s.cpus c).current runtime = (s.touch [p], some p) := by
          rw [hcurrent]
          exact if_pos (decide_eq_true ⟨hstate, hpre⟩)
        unfold Cfs.pick
        rw [hpick]
        exact hread.opens h hshape (by rw [hagent]; rfl) hpast (fun _ hspares => hspares) hcur hp
          hstate (.inr ⟨hstate, hcpu.symm⟩)
      · -- it is put back, so the runqueue is not empty
        have hback := hnext.putBack hpast rfl hp hcur hstate rfl
        refine h.pick_next hshape hagent hback (update_self ..) (fun hnil => ?_) ?_
        · have hback := (hback.core.arranged.mem_rq (c := c) (q := p)).mpr (update_self ..)
          rw [hnil] at hback
          cases hback
        · rw [hcurrent]
          exact if_neg (fun hkept => hpre (of_decide_eq_true hkept).2)
    · -- it is freed
      rcases hnext.free hp hcur hstate ⟨hcurrent, hstate⟩ with ⟨hfree, hfreed, -⟩
      have hnone : (L.drop c p).current c = none := update_self ..
      refine h.pick_next hshape hagent hfree hnone (fun _ => ⟨_, hfree.dangle hfreed
        (update_self ..) hnone, ?_, fun q hq => ?_⟩) ?_
      · show update (L.drop c p).current c (some p) c = _
        rw [update_self, hfree.core.arranged.actual]
        show _ = L.actual c
        rw [hshape.settled, hcur]
      · have hq : update (L.drop c p).current c (some p) c = some q := hq
        rw [update_self] at hq
        cases hq
        rw [hfreed]
        exact nofun
      · rw [hcurrent]
        refine if_neg fun hkept => ?_
        have hrun : (s.heap p).state = .running := (of_decide_eq_true hkept).1
        rw [hstate] at hrun
        cases hrun

/-- `CfsSchedule` after load balancing. -/
theorem Inv.repick (h : Inv cfg s) (hagent : s.agents c = .repick) :
    Good cfg (.repick c runtime) s (Cfs.repick s c runtime) := by
  rcases h.shape with ⟨L, hshape⟩
  have hmov : (s.agents c).moving = [] := by
    rw [hagent]
    rfl
  have hpast : (s.agents c).Past := by
    rw [hagent]
    trivial
  have hidle : (s.agents c).Idle := by
    rw [hagent]
    trivial
  -- the previous task, if there was one, has been freed
  have hspare : Sound s → Spares s (.repick c runtime) →
      ∀ q ∈ (s.cpus c).current, (s.heap q).state ≠ .done := by
    intro hs _ q hq
    rw [hshape.arranged.actual, hshape.settled] at hq
    refine absurd ((hs c).2 q ?_) (hshape.idle c q hidle hq)
    rw [hshape.arranged.actual, hshape.settled]
    exact hq
  rcases hshape.forget hidle with ⟨L₁, hcore, hactual, hmoving, hcurrent, -⟩
  have hcur : L₁.current c = none := by
    rw [hcurrent, update_self]
  have hforget : Pass cfg (.repick c runtime) c s s L L₁ := { Pass.refl h hshape with
    core := hcore
    actual := fun c' _ => by rw [hactual]
    moving := fun c' _ => by rw [hmoving]
    current := fun c' hc => by rw [hcurrent, update_of_ne hc]
    list := by rw [hmoving] }
  rcases (show ∃ s₁, Rq.pickNextTask s c none runtime = Rq.takeLeftmost s₁ c runtime ∧
      Pass cfg (.repick c runtime) c s s₁ L L₁ from
    ⟨_, rfl, (hforget.touch [] fun _ => nofun).preemptCurr⟩) with ⟨s₁, hpick, hpass⟩
  simp only [Cfs.repick]
  rw [hpick]
  cases hrq : (s₁.cpus c).rq with
  | nil =>
    rw [takeLeftmost_nil hrq]
    exact hpass.updateMinVruntime.sleep h hshape hmov hpast hspare hcur
  | cons p rest =>
    rcases hpass.takeLeftmost runtime hcur hrq with
      ⟨s₂, L₂, htake, hpass₂, hcur₂, hlive, hstate, hbefore⟩
    rw [htake]
    exact hpass₂.opens h hshape hmov hpast hspare hcur₂ hlive hstate hbefore

/-! ## A boosted agent -/

/-- Only the current task of this cpu can have been freed. -/
theorem Turn.sound (hturn : Turn cfg c s s' L L') (hshape : Shape s L) (hs : Sound s)
    (hcur : ∀ q ∈ (s'.cpus c).current, s'.mem q = .live) : Sound s' := by
  refine fun c' => ⟨fun q hq => ?_, fun q hq => ?_⟩
  · exact hturn.core.live (hturn.core.arranged.mem_rq.mp hq) nofun
  · by_cases hc : c' = c
    · subst hc
      exact hcur q hq
    · rw [hturn.core.arranged.actual, hturn.actual c' hc] at hq
      have hstored : q ∈ (s.cpus c').current := by
        rw [hshape.arranged.actual]
        exact hq
      rw [hshape.settled] at hq
      rw [(hturn.others c' hc q hq).1]
      exact (hs c').2 q hstored

/-- The cpu is left without a current task. -/
theorem Pass.clear (h : Pass cfg a c s s₁ L L₁) : Pass cfg a c s
    (s₁.setCpu c { s₁.cpus c with preemptCurr := b, current := none }) L (L₁.store c none) := by
  have hpre := h.preemptCurr (b := b)
  have harr := hpre.core.arranged.store (c := c) (x := none)
  have hset : (s₁.setCpu c { s₁.cpus c with preemptCurr := b }).setCurrent c none =
      s₁.setCpu c { s₁.cpus c with preemptCurr := b, current := none } := by
    simp only [State.setCurrent, State.setCpu, update_self, update_idem]
  rw [← hset]
  generalize s₁.setCpu c { s₁.cpus c with preemptCurr := b } = s₂ at hpre harr
  exact { hpre with
    core := ⟨harr, hpre.core.owned, hpre.core.home, hpre.core.valid, hpre.core.gone⟩
    comm := ⟨hpre.comm.mail, hpre.comm.free, hpre.comm.quiet⟩
    actual := fun c' hc => (update_of_ne hc ..).trans (hpre.actual c' hc)
    clean := fun hs hdone =>
      ⟨(hpre.clean hs hdone).1.setCurrent (by simp), (hpre.clean hs hdone).2⟩ }

theorem Inv.boosted (h : Inv cfg s) (hagent : s.agents c = .migrate []) :
    Good cfg (.boosted c) s (Cfs.boosted s c) := by
  rcases h.shape with ⟨L, hshape⟩
  have hcurrent : (s.cpus c).current = L.current c := by
    rw [hshape.arranged.actual, hshape.settled]
  have hmov : (Agent.asleep : Agent G P).moving = (s.agents c).moving := by
    rw [hagent]
    rfl
  have hpast : (s.agents c).Past := by
    rw [hagent]
    trivial
  have hrefl : Pass cfg (.boosted c) c s s L L := .refl h hshape
  unfold Cfs.boosted
  cases hcur : L.current c with
  | none =>
    rw [hcur] at hcurrent
    have hgood := hrefl.finish .asleep h hshape hmov hpast (by rw [hcur]; simp) (by rintro _ ⟨⟩)
      (by rintro _ ⟨⟩)
      (by simp) fun hs _ => ?_
    · grind [setCurrent_self]
    · rw [hcur, setCurrent_self hcurrent]
      exact ⟨hs, rfl⟩
  | some p =>
    rw [hcur] at hcurrent
    have hp := hshape.live_of_agent hcur hagent id
    have hhome := (hshape.home p hp).symm.trans (hshape.arranged.current_iff.mp hcur)
    -- once the previous task is dealt with
    have hrest : ∀ L₁, Pass cfg (.boosted c) c s (Rq.reconcile s c p) L L₁ → L₁.current c = none →
        (Sound s → (Rq.reconcile s c p).usedFreed = s.usedFreed) →
        let s₁ := (Rq.reconcile s c p).setCpu c
          { (Rq.reconcile s c p).cpus c with preemptCurr := false, current := none }
        Good cfg (.boosted c) s ((Rq.updateMinVruntime s₁ c).setAgent c .asleep) := by
      intro L₁ hpass hnone hused s₁
      have hclear := hpass.clear (b := false)
      have hmin := hclear.updateMinVruntime
      have hsound : Sound s → Sound s₁ := by
        intro hs
        refine hclear.toTurn.sound hshape hs ?_
        rw [setCpu_cpu]
        simp
      have hcur₂ : ((Rq.updateMinVruntime s₁ c).cpus c).current = none := by
        rw [hmin.core.arranged.actual]
        exact update_self ..
      have hgood := hmin.finish .asleep h hshape hmov hpast (by rw [Layout.store, hnone]; simp)
        (by rintro _ ⟨⟩) (by rintro _ ⟨⟩) (by simp) fun hs _ => ?_
      · rw [Layout.store, hnone, setCurrent_self hcur₂] at hgood
        exact hgood
      · rw [Layout.store, hnone, setCurrent_self hcur₂]
        exact ⟨(hsound hs).updateMinVruntime.1, (hsound hs).updateMinVruntime.2.trans (hused hs)⟩
    rw [hcurrent]
    rcases home_eq_current hhome with ⟨hstate | hstate, -⟩
    · have hback := hrefl.putBack hpast rfl hp hcur hstate rfl
      refine hrest _ hback (update_self ..) fun hs => ?_
      grind [cases Cfs.Pass]
    · rcases hrefl.free hp hcur hstate ⟨hcurrent, hstate⟩ with ⟨hfree, -, hused⟩
      exact hrest _ hfree (update_self ..) hused

/-! ## The transaction -/

/-- The thread of a task for which nothing is pending is put on a cpu. -/
theorem Comm.latched {k : G → Kernel.Task C} {x : Agent G P} (h : Comm cfg s) (hcore : Core s L)
    (hp : s.mem p = .live) (hcpu : (s.heap p).cpu = c) (hstate : (s.heap p).state = .running)
    (hno : ∀ x ∈ about (s.heap p).gtid (s.queue cfg.defaultCpu), ¬ IsNew x.2)
    (hk : latch s.kernel (s.heap p).gtid c (s.heap p).seqnum = some k) (hawake : ¬ x.Awake) :
    Comm cfg ({ s with kernel := k }.setAgent c x) := by
  rcases latch_eq_some hk with ⟨hphase, hb, rfl⟩
  have hview : (s.heap p).view = .current c := by
    simp [CfsTask.view, hstate, hcpu]
  refine ⟨fun g => ?_, fun c' hc g hhas => ?_, fun c' hc => ?_⟩
  · by_cases hg : g = (s.heap p).gtid
    · subst hg
      rcases h.mail (s.heap p).gtid with ⟨old, new, hmail⟩
      have hknown := hcore.known_self hp
      -- the sequence number is the barrier, so everything has been handled
      have hnew : new = [] := by
        cases new with
        | nil => rfl
        | cons y rest =>
          grind [hmail.new_head, hmail.queue_eq]
      subst hnew
      have hfollows : Follows (s.kernel (s.heap p).gtid) (.current c) (s.heap p).seqnum
        (old ++ []) := by
        have hf := hmail.follows
        rw [hknown, viewOf, seqnumOf, hview] at hf
        exact hf
      have hnil : old ++ [] = [] := hfollows.caught_up trivial (fun y hy => by
        rw [List.append_nil] at hy
        exact hmail.old_mem y hy) hb.symm
      refine ⟨old, [], ?_⟩
      show Mail _ (known s _) (update s.kernel _ _ _) _ _ _ _
      rw [update_self]
      refine hmail.silent ?_
      rw [hnil] at hfollows ⊢
      rw [hknown, viewOf, seqnumOf, hview]
      exact ⟨.latched c, hfollows.2⟩
    · refine h.mail_same ?_ rfl rfl fun _ => rfl
      show Silent _ (update s.kernel _ _ g)
      rw [update_of_ne hg]
      exact .refl _
  · by_cases hcc : c' = c
    · subst hcc
      rw [setAgent_self] at hc
      exact hawake hc
    · rw [setAgent_of_ne hcc] at hc
      refine h.free c' hc g ?_
      have hhas : HasCpu (update s.kernel (s.heap p).gtid
        { s.kernel (s.heap p).gtid with phase := .latched c } g) c' := hhas
      by_cases hg : g = (s.heap p).gtid
      · grind [Cfs.HasCpu]
      · rw [update_of_ne hg] at hhas
        exact hhas
  · by_cases hcc : c' = c
    · subst hcc
      rw [setAgent_self] at hc
      exact absurd hc.awake hawake
    · rw [setAgent_of_ne hcc] at hc
      exact h.quiet c' hc

/-- `Commit` of the open transaction. -/
theorem Inv.commit {ok : Bool} (h : Inv cfg s) (hagent : s.agents c = .opened p)
    (hno : ok = true → ∀ x ∈ about (s.heap p).gtid (s.queue cfg.defaultCpu), ¬ IsNew x.2)
    (hstep : Cfs.commit s c p ok = some s') : Good cfg (.commit c ok) s s' := by
  rcases h.shape with ⟨L, hshape⟩
  rcases hshape.task c p (by rw [hagent]; rfl) with ⟨hcur, hstate⟩
  have hp := hshape.live_of_agent hcur hagent id
  have hcpu : (s.heap p).cpu = c :=
    (home_cpu (hshape.task_cpu hp (by rw [hagent]; rfl))).symm
  have hread : (s.touch [p]).usedFreed = s.usedFreed := by
    grind [touch_of_live]
  have hdata : SameData s (s.touch [p]) := ⟨rfl, rfl, rfl, rfl, rfl, hread⟩
  have hshape₁ : Shape (s.touch [p]) L := hdata.shape rfl hshape
  have hcomm₁ : Comm cfg (s.touch [p]) := ⟨h.comm.mail, h.comm.free, h.comm.quiet⟩
  have hagent₁ : (s.touch [p]).agents c = .opened p := hagent
  -- the agent goes on, and its transaction is closed
  have hopened : ∀ {s' : State G C P} {x : Agent G P}, s'.agents = s.agents →
      (∀ q, x ≠ .opened q) → ∀ c' q, (s'.setAgent c x).agents c' = .opened q →
      s.agents c' = .opened q := by
    intro s' x hagents hx c' q hq
    grind [setAgent_self, setAgent_of_ne]
  simp only [Cfs.commit] at hstep
  split at hstep
  · rename_i hok
    rcases Option.map_eq_some_iff.mp hstep with ⟨k, hk, hs'⟩
    have hdata' : SameData s s' := by
      subst hs'
      exact ⟨rfl, rfl, rfl, rfl, rfl, hread⟩
    subst hs'
    have hkernel : Shape { s.touch [p] with kernel := k } L :=
      SameData.shape (s := s.touch [p]) ⟨rfl, rfl, rfl, rfl, rfl, rfl⟩ rfl hshape₁
    refine ⟨⟨⟨L, hkernel.setAgent ?_ ?_ ?_⟩, ?_, h.crashed⟩,
      hdata'.moves (hopened rfl (by simp)), fun hs _ => hdata'.clean hs⟩
    · show _ = (s.agents c).moving
      rw [hagent]
      rfl
    · show _ ↔ (s.agents c).Idle
      rw [hagent]
      exact Iff.rfl
    · rintro q hq
      cases hq
      exact ⟨hcur, hstate⟩
    · exact hcomm₁.latched hshape₁.toCore hp hcpu hstate (hno hok) hk id
  · cases hstep
    refine ⟨⟨⟨L, hshape₁.setAgent ?_ ?_ (by rintro _ ⟨⟩)⟩, hcomm₁.setAgent (fun _ => ?_)
      (fun hpast => hpast.elim),
      h.crashed⟩, ?_, fun hs _ => hdata.clean hs⟩
    · rw [hagent₁]
      rfl
    · rw [hagent₁]
      exact Iff.rfl
    · rw [hagent₁]
      trivial
    · have hdata' : SameData s ((s.touch [p]).setAgent c .drain) := ⟨rfl, rfl, rfl, rfl, rfl, hread⟩
      exact hdata'.moves (hopened rfl (by simp))

end Cfs
