import GhostSched.BpfCfs.Counts

/-!
# The handlers of the bpf cfs scheduler

Each handler is looked at once, for the lists and for their counters.

* `Keeps` is what a handler does: the lists stay right, and the counters do as well
  if nothing disturbs them.
* `lists_wellFormed` is the result for runs: the runqueues are well-formed lists
  without a common element, and each element belongs to a thread in ghost.
  `departed_stays_linked` shows what happens otherwise.
* `counters_exact` is the result for the counters; `preempted_twice` shows what a
  thread does that is preempted once.
-/

namespace BpfCfs

open Kernel TailQueue Transition Function

variable {G C : Type*} {s s' : State G C} {lists : C → List ℕ} {und : Prop}

/-- The lists stay right, and so do the counters if nothing disturbs them. -/
abbrev Keeps (s s' : State G C) (lists : C → List ℕ) (und : Prop) : Prop :=
  ∃ lists', Inv s' lists' ∧ (und → ∀ out, Counted s lists out → Counted s' lists' out)

theorem Keeps.after {s₁ : State G C} (h : Keeps s₁ s' lists und)
    (hC : und → ∀ out, Counted s lists out → Counted s₁ lists out) : Keeps s s' lists und := by
  rcases h with ⟨L, hL, hC₁⟩
  exact ⟨L, hL, fun hund out h => hC₁ hund out (hC hund out h)⟩

/-! ## Messages -/

section Messages

variable [DecidableEq G] [DecidableEq C] {g : G} {i n : ℕ} {cpu c : C} {k : Kernel.Task C}
variable {now : UInt64} {wakeup : Bool} (hI : Inv s lists)
include hI

/-- The handler of a new thread, which is already in ghost. -/
theorem Inv.handleNew {r : Bool} (hphase : (s.tasks g).phase = if r then .runnable else .blocked)
    (hnone : gtidToThread s g = none) (hfresh : ∀ g, gtidToThread s g ≠ some i)
    (hfree : ∀ c, (s.pnt c).next ≠ some g) : Keeps s (handleNew s g n i r cpu now) lists und := by
  have hin : (s.tasks g).phase ≠ .absent := by
    rw [hphase]
    split <;> nofun
  have hnot : ∀ c, ¬FromRq s c g := by
    grind [BpfCfs.FromRq]
  simp only [BpfCfs.handleNew]
  split
  · exact ⟨lists, hI, fun _ _ hC => hC⟩
  · have hadd := hI.addSlot (n := s.swCount + 1) hin hnone hfresh
    -- the new entry is not one of a thread that is counted
    have hCadd : ∀ out, Counted s lists out → Counted { s with
        swLookup := update s.swLookup g (some i), swCount := s.swCount + 1 } lists out := by
      intro out hC
      refine hC.frame (fun _ _ => Iff.rfl) ?_ (fun _ => rfl) fun _ => ⟨rfl, rfl⟩
      intro c g' hg'
      have hne : g' ≠ g := by
        rintro rfl
        exact hnot c ((hC.mem c g').mp hg')
      simp only [gtidToThread, update_of_ne hne]
    -- no list has the slot
    have hun : ∀ c, i ∉ lists c := by
      intro c hi
      rcases hI.waiting c i hi with ⟨g', hw⟩
      exact hfresh g' hw.slot
    split
    · exact ⟨lists, hadd, fun _ => hCadd⟩
    · rename_i j hj
      have hji : j = i := by
        simp only [gtidToThread, update_self] at hj
        exact (Option.some.inj (Option.mem_filter_iff.mp hj).1).symm
      subst hji
      have hset := hadd.setThread hun { s.threads j with gtid := some g, taskBarrier := n }
      have hCset out hC :=
        (hCadd out hC).setThread { s.threads j with gtid := some g, taskBarrier := n } rfl
      split
      · rename_i hr
        rw [if_pos hr] at hphase
        exact ⟨_, hset.enqueueTask hj hun hphase hfree,
          fun _ out hC => (hCset out hC).enqueue hset (enqueueTask_spec hj) hj hun hnot⟩
      · exact ⟨lists, hset, fun _ => hCset⟩

/-- A thread that was not waiting becomes runnable and is queued if it is known. -/
theorem Inv.becomeRunnable (hwas : (s.tasks g).phase ≠ .runnable ∧ (s.tasks g).phase ≠ .absent)
    (hrun : k.phase = .runnable) (hoff : und → Off (s.tasks g).phase) :
    Keeps s (BpfCfs.enqueueTask (s.setTask g k) g n wakeup cpu now) lists und := by
  have hset : Inv (s.setTask g k) lists :=
    hI.setTask (.inr ⟨hwas.1, hwas.2, by rw [hrun]; nofun⟩)
  have hCset : und → ∀ out, Counted s lists out → Counted (s.setTask g k) lists out :=
    fun hund out hC => hC.setTask_off (hoff hund) (by simp [Off, hrun])
  cases hslot : gtidToThread s g with
  | none =>
    rw [enqueueTask_of_none (s := s.setTask g k) hslot]
    exact ⟨lists, hset, hCset⟩
  | some i =>
    have hun : ∀ c, i ∉ lists c := fun c => hI.unlinked hslot fun h => absurd h hwas.1
    refine ⟨_, hset.enqueueTask hslot hun (State.setTask_self.trans hrun)
      (hI.free hwas.2 hwas.1), fun hund out hC => ?_⟩
    refine (hCset hund out hC).enqueue hset (enqueueTask_spec hslot) hslot hun fun c hfrom => ?_
    grind [hI.free, BpfCfs.FromRq]

/-- A thread stops on a cpu and is runnable. -/
theorem Inv.handleStopped (hwas : (s.tasks g).phase ≠ .runnable ∧ (s.tasks g).phase ≠ .absent)
    (hrun : k.phase = .runnable) (hoff : und → Off (s.tasks g).phase) :
    Keeps s (handleStopped (s.setTask g k) g n c cpu now) lists und := by
  unfold BpfCfs.handleStopped
  split
  · have hstop : taskStopped (s.setTask g k) c =
        { taskStopped s c with tasks := update (taskStopped s c).tasks g k } := rfl
    have hI' : Inv (taskStopped s c) lists := hI.setCurrent
    rw [hstop]
    exact (hI'.becomeRunnable hwas hrun hoff).after fun _ _ hC => hC.setCurrent
  · exact ⟨lists, hI.setTask (.inr ⟨hwas.1, hwas.2, by rw [hrun]; nofun⟩),
      fun hund out hC => hC.setTask_off (hoff hund) (by simp [Off, hrun])⟩

/-- The state in which the handler looks for the thread that departs: the thread
is not in ghost any more, but else `s₂` is like `s`. -/
theorem Inv.removes {current : Option (C × Bool)} (s₂ : State G C)
    (hunlinks : MsgUnlinks s g cpu (.departed current))
    (habs : (s₂.tasks g).phase = .absent) (htasks : ∀ g' ≠ g, s₂.tasks g' = s.tasks g')
    (hlookup : s₂.swLookup = s.swLookup) (hthreads : s₂.threads = s.threads)
    (hpnt : s₂.pnt = s.pnt) (hq : Queues s₂ lists)
    (hfind : ∀ i, findInRq s₂ cpu i = findInRq s cpu i)
    (hund : und → ∀ out, Counted s lists out → Counted s₂ lists out ∧ (∀ c, ¬FromRq s c g) ∧
      ∀ t, gtidToThread s g = some t → (s.tasks g).phase = .runnable → findInRq s cpu t = some t) :
    Keeps s (match gtidToThread s₂ g with
      | none => s₂
      | some i => forget (removeTaskFromRq s₂ cpu i) g) lists und := by
  have hslots : ∀ g, gtidToThread s₂ g = gtidToThread s g := by
    intro g
    rw [gtidToThread, gtidToThread, hlookup]
  rw [hslots g]
  cases hslot : gtidToThread s g with
  | none =>
    refine ⟨lists, hI.leave hq ?_ hthreads hpnt habs htasks ((hslots g).trans hslot)
      fun g' _ => hslots g', fun hu out hC => (hund hu out hC).1⟩
    exact fun c t ht => ⟨ht, by simp [hslot]⟩
  | some t =>
    show Keeps s (forget (removeTaskFromRq s₂ cpu t) g) lists und
    -- if the thread is on a list, it is what the handler finds
    have hfound : ∀ c, t ∈ lists c → findInRq s₂ cpu t = some t := by
      intro c ht
      rw [hfind]
      exact hunlinks t hslot ⟨c, hI.onRq.mpr ht⟩
    have hother : ∀ g' ≠ g, ∀ s₃ : State G C, s₃.swLookup = s₂.swLookup →
        gtidToThread (forget s₃ g) g' = gtidToThread s₂ g' := by
      intro g' hne s₃ hsame
      rw [gtidToThread_forget_of_ne hne, gtidToThread, gtidToThread, hsame]
    have hne : und → ∀ out, Counted s lists out → ∀ c, ∀ g' ∈ out c, g' ≠ g := by
      rintro hu out hC c g' hg' rfl
      exact (hund hu out hC).2.1 c ((hC.mem c g').mp hg')
    unfold removeTaskFromRq
    split
    · rename_i hnone
      refine ⟨lists, hI.leave hq ?_ hthreads hpnt habs htasks gtidToThread_forget_self
        fun g' hne => (hother g' hne s₂ rfl).trans (hslots g'), fun hu out hC => ?_⟩
      · refine fun c x hx => ⟨hx, fun hx' => ?_⟩
        rw [hslot] at hx'
        cases hx'
        cases hnone.symm.trans (hfound c hx)
      · refine (hund hu out hC).1.frame (fun _ _ => Iff.rfl) ?_ (fun _ => rfl) fun _ => ⟨rfl, rfl⟩
        exact fun c g' hg' => hother g' (hne hu out hC c g' hg') s₂ rfl
    · rename_i r hr
      have hmem : r ∈ lists cpu := hq.mem_of_findInRq hr
      refine ⟨withoutThread lists cpu r, hI.leave (hq.unlink hmem).uncount ?_ hthreads hpnt habs
        htasks gtidToThread_forget_self fun g' hne => (hother g' hne _ rfl).trans (hslots g'),
        fun hu out hC => ?_⟩
      · intro c x hx
        grind [mem_withoutThread]
      · rcases hund hu out hC with ⟨hC₂, _, hsame⟩
        rw [hfind] at hr
        -- what is found is the thread itself
        have hrt : r = t := by
          grind [hI.unlinked, hC.findInRq_eq_none]
        subst hrt
        refine hC₂.remove hmem (fun _ _ => Iff.rfl) ?_ rfl ?_ ?_
        · exact fun c g' hg' => hother g' (hne hu out hC c g' hg') _ rfl
        · simp [forget, uncount, unlink, updateRqOnTaskDead]
        · intro c hc
          simp [forget, uncount, unlink, hc]

/-- The handler of a thread that departs. -/
theorem Inv.handleDeparted {current : Option (C × Bool)}
    (hunlinks : MsgUnlinks s g cpu (.departed current)) (habs : k.phase = .absent)
    (hund : und → ∀ out, Counted s lists out → (∀ c, ¬FromRq s c g) ∧
      ∀ t, gtidToThread s g = some t → (s.tasks g).phase = .runnable → findInRq s cpu t = some t) :
    Keeps s (handleDeparted (s.setTask g k) g current cpu) lists und := by
  have hgone := (State.setTask_self (s := s) (g := g)).trans habs
  have hset : und → ∀ out, Counted s lists out → Counted (s.setTask g k) lists out := by
    intro hu out hC
    refine hC.setTask fun c => iff_of_false ?_ fun h => (hund hu out hC).1 c (.inr h)
    rw [habs]
    nofun
  cases current with
  | none =>
    exact hI.removes _ hunlinks hgone (fun _ => State.setTask_of_ne) rfl rfl rfl hI.queues
      (fun _ => rfl) fun hu out hC => ⟨hset hu out hC, hund hu out hC⟩
  | some x =>
    refine hI.removes (taskStopped (s.setTask g k) x.1) hunlinks hgone
      (fun _ => State.setTask_of_ne) rfl rfl rfl ?_ (fun _ => findInRq_setCurrent)
      fun hu out hC => ⟨(hset hu out hC).setCurrent, hund hu out hC⟩
    exact Queues.setCurrent (s := s.setTask g k) hI.queues

/-- The handler of a message about the thread itself. -/
theorem Inv.sends {msg : Msg C ℕ} (now : UInt64) (hsends : Sends (s.tasks g) msg k)
    (hallowed : ∀ index r, msg = .new index r → ∀ g, gtidToThread s g ≠ some index)
    (hunlinks : MsgUnlinks s g cpu msg) :
    Keeps s (cfsMsgSend (s.setTask g k) g k.barrier cpu now msg) lists
      (MsgUndisturbed s g cpu msg) := by
  -- the step of the kernel alone, for a thread that does not wait
  have hset : (s.tasks g).phase ≠ .runnable ∧ (s.tasks g).phase ≠ .absent → k.phase ≠ .absent →
      Inv (s.setTask g k) lists :=
    fun hwas hk => hI.setTask (.inr ⟨hwas.1, hwas.2, hk⟩)
  have hoff : Off (s.tasks g).phase → Off k.phase → ∀ out, Counted s lists out →
      Counted (s.setTask g k) lists out :=
    fun hoff hoff' out hC => hC.setTask_off hoff hoff'
  cases hsends with
  | new index barrier r habs =>
    have hnone := hI.gone g habs
    -- first the thread is in ghost, then the scheduler hears of it
    have henter : ∀ k : Kernel.Task C, k.phase ≠ .absent → Inv (s.setTask g k) lists :=
      fun k hk => hI.setPhase (fun c t _ => by simp [hnone]) hunlinks hk
    refine ((henter _ ?_).handleNew State.setTask_self hnone (hallowed index r rfl) hunlinks).after
      fun _ => hoff (by simp [Off, habs]) ?_
    · split <;> simp
    · split <;> simp [Off]
  | onCpu c hp =>
    have hset := hset (by simp [hp]) (by simp)
    have hmove out (hC : Counted s lists out) := hC.setTask (g := g)
      (k := ⟨.running c false, true, (s.tasks g).barrier + 1⟩) fun c' => by simp [hp]
    simp only [cfsMsgSend, handleOnCpu]
    split
    · exact ⟨lists, hset, fun _ => hmove⟩
    · rename_i i hi
      have hun : ∀ c, i ∉ lists c := fun c => hI.unlinked hi (by simp [hp])
      exact ⟨lists, (hset.setThread hun _).setCurrent, fun _ out hC =>
        ((hmove out hC).setThread { s.threads i with ranAt := now } rfl).setCurrent⟩
  | blocked c sw hp =>
    have hset := hset (by simp [hp]) (by simp)
    have hoff (hsw : sw = true) := hoff (by simp [Off, hp, hsw]) (by simp [Off])
    simp only [cfsMsgSend, handleBlocked]
    split
    · exact ⟨lists, hset.setCurrent, fun hsw out hC => (hoff hsw out hC).setCurrent⟩
    · exact ⟨lists, hset, hoff⟩
  | wakeup hp =>
    have hwas : Off (s.tasks g).phase := by simp [Off, hp]
    simp only [cfsMsgSend, handleWakeup]
    split
    · exact hI.becomeRunnable (by simp [hp]) rfl fun _ => hwas
    · exact ⟨lists, hset (by simp [hp]) (by simp), fun _ => hoff hwas (by simp [Off])⟩
  | preempt c sw hp | yield c sw hp =>
    exact hI.handleStopped (by simp [hp]) rfl fun (hsw : sw = true) => by simp [Off, hp, hsw]
  | unlatch c hp => exact hI.handleStopped (by simp [hp]) rfl nofun
  | affinityChanged hp | prioChanged hp =>
    exact ⟨lists, hI.setTask (.inl rfl), fun _ _ hC => hC.setTask fun c => Iff.rfl⟩
  | dead hp =>
    refine ⟨lists, hI.handleDead hp rfl, fun hnone => ?_⟩
    have hnone : gtidToThread
        (s.setTask g ⟨.absent, (s.tasks g).onCpu, (s.tasks g).barrier + 1⟩) g = none :=
      hnone
    simp only [cfsMsgSend, BpfCfs.handleDead, hnone]
    exact hoff (by simp [Off, hp]) (by simp [Off])
  | departed c sw hp =>
    refine hI.handleDeparted hunlinks rfl fun (hsw : sw = true) out hC => ⟨?_, ?_⟩
    · grind [hI.free, BpfCfs.FromRq]
    · intro t _ hrun
      cases hp.symm.trans hrun
  | left hp =>
    refine hI.handleDeparted hunlinks rfl fun hfound out hC => ⟨?_, hfound⟩
    rintro c (h | h | h)
    · -- PNT does not have a thread that is on a list
      rcases Option.isSome_iff_exists.mp (hC.known c g ((hC.mem c g).mpr (.inl h))) with ⟨t, ht⟩
      have hrun : (s.tasks g).phase = .runnable := by
        grind [hI.free]
      exact hI.unlinked ht (fun _ => ⟨c, h⟩) (hI.queues.mem_of_findInRq (hfound t ht hrun))
    all_goals rcases hp with hp | hp <;> cases hp.symm.trans h

end Messages

/-! ## Runs -/

section Run

variable [DecidableEq G] [DecidableEq C] {a : Action G C}

/-- What a step does. PNT takes threads from the lists, so others are counted after it. -/
abbrev StepKeeps (s s' : State G C) (lists : C → List ℕ) (a : Action G C) : Prop :=
  ∃ lists', Inv s' lists' ∧
    (Undisturbed s a → ∀ out, Counted s lists out → ∃ out', Counted s' lists' out')

theorem Inv.pntStep {res : RunResult} {cpu : C} {now : UInt64} (hI : Inv s lists)
    (hstep : pntStep s cpu res now = some s') : StepKeeps s s' lists (.pnt cpu res now) := by
  unfold BpfCfs.pntStep at hstep
  split at hstep
  · split at hstep
    · cases hstep
    · rename_i hidle _ s₁ next hpick
      rcases cfsPickNextTask_spec hI.queues hpick with ⟨t, ht, rfl, rfl⟩
      rcases hI.waiting cpu t ht with ⟨g, hw⟩
      rw [hw.gtid] at hstep
      cases hstep
      exact ⟨_, hI.pick hw ht, fun _ out hC => ⟨_, hC.pick hw ht hidle⟩⟩
  · -- bpf_ghost_run_gtid
    rename_i g n hrun
    have hheld : (s.pnt cpu).next = some g := by rw [hrun]; rfl
    have hok : Undisturbed s (.pnt cpu res now) → res = .ok := by simp [Undisturbed, hrun]
    cases res with
    | ok =>
      rcases Option.map_eq_some_iff.mp hstep with ⟨k, hk, rfl⟩
      exact ⟨lists, hI.latch hheld hk, fun _ out hC => ⟨out, hC.latch hI hheld hk⟩⟩
    | enoent | estale =>
      rcases Option.ite_none_right_eq_some.mp hstep with ⟨_, hs⟩
      cases hs
      exact ⟨lists, hI.setIdle, fun hund => by cases hok hund⟩
    | ebusy | other =>
      cases hstep
      exact ⟨lists, hI.setPnt fun g' hg' => hheld.trans hg', fun hund => by cases hok hund⟩
  · -- the thread is put back, unless it departed
    rename_i g n hput
    have hheld : (s.pnt cpu).next = some g := by rw [hput]; rfl
    have hnot : ¬Undisturbed s (.pnt cpu res now) := by simp [Undisturbed, hput]
    cases hstep
    rw [enqueueTask_setPnt]
    cases hslot : gtidToThread s g with
    | none =>
      rw [enqueueTask_of_none (s := s.setPnt cpu .idle) hslot]
      exact ⟨lists, hI.setIdle, fun hund => absurd hund hnot⟩
    | some i =>
      have hin : (s.tasks g).phase ≠ .absent := by
        intro h
        cases (hI.gone g h).symm.trans hslot
      refine ⟨_, hI.setIdle.enqueueTask hslot ?_ ((hI.held cpu g hheld).resolve_right hin)
        (hI.not_held hheld), fun hund => absurd hund hnot⟩
      exact fun c => hI.unlinked hslot fun _ => ⟨cpu, hheld⟩

omit [DecidableEq C] in
/-- Without a message no thread comes or goes that was taken from a runqueue. -/
theorem alike_of_silent {g g' : G} {e : Event G ℕ} {k : G → Kernel.Task C}
    (hk : Kernel.step true s.tasks g e = some (k, none)) :
    Alike (k g').phase (s.tasks g').phase := by
  cases step_cases hk with
  | getOnCpu c hreport => cases hreport
  | next target c hp hne ht =>
    -- neither of the two threads was taken from a runqueue
    intro c'
    by_cases htarget : g' = target
    · subst htarget
      rw [switch_target]
      simp [ht]
    · by_cases hg : g' = g
      · subst hg
        rw [switch_self hne]
        simp [hp]
      · rw [switch_of_ne hg htarget]
  | leaveCpu hp =>
    intro c'
    by_cases hg : g' = g
    · subst hg
      rw [update_self]
    · rw [update_of_ne hg]

theorem Inv.step (hI : Inv s lists) (hallowed : Allowed s a) (hunlinks : Unlinks s a)
    (hstep : step s a = some s') : StepKeeps s s' lists a := by
  cases a with
  | pnt cpu res now => exact hI.pntStep hstep
  | kernel g e cpu now =>
    simp only [BpfCfs.step] at hstep
    simp only [Allowed, sent] at hallowed
    -- a step that the scheduler does not act on
    have hquiet : ∀ k : G → Kernel.Task C, (∀ g', Quiet (s.tasks g') (k g')) →
        Inv { s with tasks := k } lists := by
      intro k hq
      refine hI.frame hI.queues (fun _ _ _ => rfl) (fun _ => rfl) rfl fun g' => ?_
      grind [cases Kernel.Quiet]
    split at hstep <;> cases hstep
    · rename_i k hk
      rcases (step_cases hk).sends_or_quiet with ⟨_, _, _, hmsg, _⟩ | ⟨_, hq⟩
      · cases hmsg
      · refine ⟨lists, hquiet k hq, fun _ out hC => ⟨out, ?_⟩⟩
        exact hC.frame (fun c g => or_congr_right (alike_of_silent hk c)) (fun _ _ _ => rfl)
          (fun _ => rfl) fun _ => ⟨rfl, rfl⟩
    · rename_i k msg hk
      have hsent : msg ∈ sent s (.kernel g e cpu now) := by simp [sent, hk]
      simp only [hk, Option.bind_some] at hallowed
      rcases (step_cases hk).sends_or_quiet with ⟨_, t, hsends, hmsg, rfl⟩ | ⟨hmsg, hq⟩
      · cases hmsg
        rw [update_self]
        refine (hI.sends now hsends ?_ (hunlinks msg hsent)).imp fun L hL => ?_
        · intro index r hnew
          subst hnew
          exact hallowed
        · exact ⟨hL.1, fun hund out hC => ⟨out, hL.2 (hund msg hsent).2 out hC⟩⟩
      · -- the start of a switchto chain
        rcases hmsg msg rfl with ⟨c, rfl⟩
        exact ⟨lists, hquiet k hq, fun hund => (hund _ hsent).2.elim⟩

/-- In every run that meets the conditions at each step, the runqueues are
well-formed lists, no element is on two of them, and each element belongs to a
thread that is in ghost and waits. -/
theorem lists_wellFormed
    (hrun : StepsWhen (fun s a => Allowed s a ∧ Unlinks s a) step (State.init G C) s) :
    ∃ lists : C → List ℕ, AreQueues (fun c => (s.rqs c).rqRoot) s.links lists ∧
      ∀ c, ∀ t ∈ lists c, ∃ g, (s.threads t).gtid = some g ∧ gtidToThread s g = some t ∧
        (s.tasks g).phase = .runnable := by
  rcases hrun.invariant (P := fun s => ∃ lists, Inv s lists)
    (fun _ _ _ ⟨_, hI⟩ hok hstep => (hI.step hok.1 hok.2 hstep).imp fun _ h => h.1)
    ⟨_, inv_init⟩ with ⟨lists, hI⟩
  refine ⟨lists, hI.queues, fun c t ht => ?_⟩
  rcases hI.waiting c t ht with ⟨g, hw⟩
  exact ⟨g, hw.gtid, hw.slot, hw.runnable⟩

omit [DecidableEq C] in
theorem Undisturbed.unlinks (h : Undisturbed s a) : Unlinks s a := by
  cases a with
  | pnt => trivial
  | kernel g e cpu now =>
    intro msg hmsg
    exact (h msg hmsg).1

theorem counted_run
    (hrun : StepsWhen (fun s a => Allowed s a ∧ Undisturbed s a) step (State.init G C) s) :
    ∃ lists out, Inv s lists ∧ Counted s lists out := by
  refine hrun.invariant (P := fun s => ∃ lists out, Inv s lists ∧ Counted s lists out) ?_
    ⟨_, _, inv_init, counted_init⟩
  rintro s a s' ⟨lists, out, hI, hC⟩ ⟨hallowed, hund⟩ hstep
  rcases hI.step hallowed hund.unlinks hstep with ⟨lists', hI', hcounts⟩
  rcases hcounts hund out hC with ⟨out', hC'⟩
  exact ⟨lists', out', hI', hC'⟩

/-- In every run that meets the conditions at each step, the counters of a runqueue
are the number and the weight of the threads on its list and of those that its cpu
has taken from it. -/
theorem counters_exact
    (hrun : StepsWhen (fun s a => Allowed s a ∧ Undisturbed s a) step (State.init G C) s) :
    ∃ (lists : C → List ℕ) (out : C → List G), AreQueues (fun c => (s.rqs c).rqRoot) s.links lists ∧
      (∀ c, (out c).Nodup ∧ ∀ g, g ∈ out c ↔ FromRq s c g) ∧
      ∀ c, (s.rqs c).nrRunning.toNat = (lists c).length + (out c).length ∧
        (s.rqs c).weight.toNat = ((lists c).map fun t => (s.threads t).weight.toNat).sum +
          ((out c).map (weightOf s)).sum := by
  rcases counted_run hrun with ⟨lists, out, hI, hC⟩
  refine ⟨lists, out, hI.queues, fun c => ⟨hC.nodup c, hC.mem c⟩, fun c => ?_⟩
  exact ⟨hC.toNat_nrRunning hI, hC.toNat_weight hI⟩

end Run

/-! ### Two threads and two cpus -/

/-- A thread departs where it is queued, and the next one gets its slot. -/
def reused : List (Action Bool Bool) :=
  [.kernel false (.enter 0 1 true) false 0, .kernel false .depart false 0,
    .kernel true (.enter 0 1 true) true 0]

def afterReuse : State Bool Bool := (exec step (.init _ _) reused).getD (.init _ _)

theorem lists_wellFormed_reused : OnRq afterReuse true 0 ∧ ∃ lists : Bool → List ℕ,
    AreQueues (fun c => (afterReuse.rqs c).rqRoot) afterReuse.links lists ∧
      ∀ c, ∀ t ∈ lists c, ∃ g, (afterReuse.threads t).gtid = some g ∧
        gtidToThread afterReuse g = some t ∧ (afterReuse.tasks g).phase = .runnable := by
  have hrun : StepsWhen (fun s a => Allowed s a ∧ Unlinks s a) step (.init _ _) afterReuse :=
    .of_execWhen (fun _ _ h => of_decide_eq_true h) reused rfl
  exact ⟨by decide, lists_wellFormed hrun⟩

/-- The message of the thread that departs is handled on another cpu. -/
def strayed : List (Action Bool Bool) :=
  [.kernel false (.enter 0 1 true) false 0, .kernel false .depart true 0]

def afterStray : State Bool Bool := (exec step (.init _ _) strayed).getD (.init _ _)

/-- The next thread gets the slot. -/
def afterStrayReuse : State Bool Bool :=
  (step afterStray (.kernel true (.enter 0 1 true) true 0)).getD (.init _ _)

/-- A thread that departs on another cpu stays on its runqueue. Once its slot is
used again, the slot is on two runqueues. -/
theorem departed_stays_linked : StepsWhen Allowed step (.init _ _) afterStray ∧
    (afterStray.tasks false).phase = .absent ∧ OnRq afterStray false 0 ∧
    StepsWhen Allowed step afterStray afterStrayReuse ∧
    OnRq afterStrayReuse false 0 ∧ OnRq afterStrayReuse true 0 := by
  have hstray : StepsWhen Allowed step (.init _ _) afterStray :=
    .of_execWhen (fun _ _ h => of_decide_eq_true h) strayed rfl
  have hreuse : StepsWhen Allowed step afterStray afterStrayReuse :=
    .of_execWhen (fun _ _ h => of_decide_eq_true h) [.kernel true (.enter 0 1 true) true 0] rfl
  exact ⟨hstray, by decide, by decide, hreuse, by decide, by decide⟩

/-! ### One thread on one cpu -/

/-- The thread is queued, and PNT takes it and latches it. -/
def picked : List (Action Unit Unit) :=
  [.kernel () (.enter 0 1 true) () 0, .pnt () .ok 0, .pnt () .ok 0, .kernel () .getOnCpu () 0]

def running : State Unit Unit := (exec step (.init _ _) picked).getD (.init _ _)

theorem counters_exact_running : (running.tasks ()).phase = .running () false ∧
    ∃ (lists : Unit → List ℕ) (out : Unit → List Unit),
      AreQueues (fun c => (running.rqs c).rqRoot) running.links lists ∧
      (∀ c, (out c).Nodup ∧ ∀ g, g ∈ out c ↔ FromRq running c g) ∧
      ∀ c, (running.rqs c).nrRunning.toNat = (lists c).length + (out c).length ∧
        (running.rqs c).weight.toNat =
          ((lists c).map fun t => (running.threads t).weight.toNat).sum +
          ((out c).map (weightOf running)).sum := by
  have hrun : StepsWhen (fun s a => Allowed s a ∧ Undisturbed s a) step (.init _ _) running :=
    .of_execWhen (fun _ _ h => of_decide_eq_true h) picked rfl
  exact ⟨rfl, counters_exact hrun⟩

/-- The thread that runs is preempted. -/
def stopped : State Unit Unit := (step running (.kernel () .preempt () 0)).getD (.init _ _)

/-- A runqueue whose only thread was preempted once counts two threads. -/
theorem preempted_twice : StepsWhen Allowed step (.init _ _) stopped ∧
    (stopped.rqs ()).nrRunning = 2 ∧ (stopped.rqs ()).weight = 2048 ∧
    walk stopped.links maxGtids (stopped.rqs ()).rqRoot.first = [0] ∧
    (stopped.tasks ()).phase = .runnable ∧ stopped.pnt () = .idle := by
  have hrun : StepsWhen Allowed step (.init _ _) stopped :=
    .of_execWhen (fun _ _ h => of_decide_eq_true h) (picked ++ [.kernel () .preempt () 0]) rfl
  exact ⟨hrun, by decide, by decide, by decide, by decide, rfl⟩

end BpfCfs
