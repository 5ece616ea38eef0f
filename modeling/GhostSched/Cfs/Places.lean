import GhostSched.Cfs.Runqueue

/-!
# Where the tasks are

A `Layout` gives every task a place: the runqueue or the migration queue of a
cpu, the current task of a cpu, or the list that an agent holds between
`DetachTasks` and `AttachTasks`. `Arranged` says that the queues agree with it.

`PickNextTask` puts the previous task back before `CfsSchedule` has set the new
current one, so for a while the current task of a cpu is out of date. A layout
therefore has the current tasks twice: the ones that count, and the `actual` ones
that are stored.

Every function of the runqueues moves one task.

* `Holds s L p t`: the layout is `L`, and the task at `p` is `t`.
* `Frame s s' p`: only the task at `p` and the queues changed.
* `Does s s' L p t`: both, after a function. `Does.next` is the rule for one
  function after another.
-/

namespace Cfs

open Function

variable {G C P : Type*}

/-! ## Layouts -/

inductive Place where
  | rq
  | mq
  | current
  /-- In the list of the agent. -/
  | moving
  deriving DecidableEq

structure Layout (C P : Type*) where
  /-- What `current` of each cpu is. -/
  actual : C → Option P
  /-- What `current` of each cpu is going to be. -/
  current : C → Option P
  moving : C → List P
  loc : P → Option (C × Place)

/-- A task in another place. -/
def Layout.put [DecidableEq P] (L : Layout C P) (p : P) (l : Option (C × Place)) : Layout C P :=
  { L with loc := update L.loc p l }

variable {l : Option (C × Place)} {L : Layout C P} {p : P}

/-- The last place counts. -/
theorem Layout.put_put [DecidableEq P] {l' : Option (C × Place)} :
    (L.put p l).put p l' = L.put p l' := by
  simp only [Layout.put, update_idem]

/-- A task that stays. -/
theorem Layout.put_self [DecidableEq P] (h : L.loc p = l) : L.put p l = L := by
  subst h
  rw [Layout.put, update_eq_self]

section Layout

variable [DecidableEq C] [DecidableEq P]

/-- A task is not going to be the current one of a cpu. -/
def Layout.drop (L : Layout C P) (c : C) (p : P) : Layout C P :=
  { L with current := update L.current c none, loc := update L.loc p none }

/-- A task is going to be the current one of a cpu. -/
def Layout.take (L : Layout C P) (c : C) (p : P) : Layout C P :=
  { L with
    current := update L.current c (some p)
    loc := update L.loc p (some (c, .current)) }

/-- `current` of a cpu is set. -/
def Layout.store (L : Layout C P) (c : C) (x : Option P) : Layout C P :=
  { L with actual := update L.actual c x }

/-- A task joins the list of an agent. -/
def Layout.detach (L : Layout C P) (c : C) (p : P) : Layout C P :=
  { L with
    moving := update L.moving c (L.moving c ++ [p])
    loc := update L.loc p (some (c, .moving)) }

/-- A task leaves the list of an agent, which is now `ps`. -/
def Layout.attach (L : Layout C P) (c : C) (p : P) (ps : List P) : Layout C P :=
  { L with moving := update L.moving c ps, loc := update L.loc p none }

end Layout

/-- A task is found in a place. -/
def State.At (s : State G C P) (L : Layout C P) (c : C) : Place → P → Prop
  | .rq, p => p ∈ (s.cpus c).rq
  | .mq, p => p ∈ (s.cpus c).mq.map Prod.snd
  | .current, p => L.current c = some p
  | .moving, p => p ∈ L.moving c

/-- No place, or a queue of the cpu. -/
def Local (c : C) (l : Option (C × Place)) : Prop :=
  l = none ∨ l = some (c, .rq) ∨ l = some (c, .mq)

/-- Every task on a runqueue and every current one is live. -/
def Sound (s : State G C P) : Prop :=
  ∀ c, (∀ p ∈ (s.cpus c).rq, s.mem p = .live) ∧ ∀ p ∈ (s.cpus c).current, s.mem p = .live

/-- Only the task at `p` and the queues changed, and what joined a queue is `p`. -/
structure Frame (s s' : State G C P) (p : P) : Prop where
  heap : ∀ q, q ≠ p → s'.heap q = s.heap q
  gtid : (s'.heap p).gtid = (s.heap p).gtid
  mem : s'.mem = s.mem
  alloc : s'.alloc = s.alloc
  kernel : s'.kernel = s.kernel
  channel : s'.channel = s.channel
  queue : s'.queue = s.queue
  agents : s'.agents = s.agents
  crashed : s'.crashed = s.crashed
  rq : ∀ c, ∀ q ∈ (s'.cpus c).rq, q = p ∨ q ∈ (s.cpus c).rq
  current : ∀ c, ∀ q ∈ (s'.cpus c).current, q = p ∨ q ∈ (s.cpus c).current
  /-- No memory that was freed is read. -/
  clean : Sound s → s.mem p = .live → s'.usedFreed = s.usedFreed

variable {s : State G C P}

/-- Only a live task and what the queues hold is touched. -/
theorem Frame.sound {s' : State G C P} (h : Frame s s' p) (hs : Sound s) (hp : s.mem p = .live) :
    Sound s' := by
  refine fun c => ⟨fun q hq => ?_, fun q hq => ?_⟩
  · rw [h.mem]
    rcases h.rq c q hq with rfl | hq
    · exact hp
    · exact (hs c).1 q hq
  · rw [h.mem]
    rcases h.current c q hq with rfl | hq
    · exact hp
    · exact (hs c).2 q hq

variable {s₁ s₂ : State G C P}

/-- One write after the other. -/
theorem Frame.trans (h₁ : Frame s s₁ p) (h₂ : Frame s₁ s₂ p) : Frame s s₂ p where
  heap q hq := (h₂.heap q hq).trans (h₁.heap q hq)
  gtid := h₂.gtid.trans h₁.gtid
  mem := h₂.mem.trans h₁.mem
  alloc := h₂.alloc.trans h₁.alloc
  kernel := h₂.kernel.trans h₁.kernel
  channel := h₂.channel.trans h₁.channel
  queue := h₂.queue.trans h₁.queue
  agents := h₂.agents.trans h₁.agents
  crashed := h₂.crashed.trans h₁.crashed
  rq c q hq := (h₂.rq c q hq).elim .inl (h₁.rq c q)
  current c q hq := (h₂.current c q hq).elim .inl (h₁.current c q)
  clean hs hp :=
    (h₂.clean (h₁.sound hs hp) (h₁.mem ▸ hp)).trans (h₁.clean hs hp)

section Frame

variable {s : State G C P} {p : P} {c : C}

theorem Frame.refl : Frame s s p where
  heap _ _ := rfl
  gtid := rfl
  mem := rfl
  alloc := rfl
  kernel := rfl
  channel := rfl
  queue := rfl
  agents := rfl
  crashed := rfl
  rq _ _ hq := .inr hq
  current _ _ hq := .inr hq
  clean _ _ := rfl

variable {ps : List P}

/-- Live tasks may be touched. -/
theorem touch_of_live (h : ∀ q ∈ ps, s.mem q = .live) : (s.touch ps).usedFreed = s.usedFreed := by
  have hany : (ps.any fun q => s.mem q != .live) = false := by
    rw [List.any_eq_false]
    intro q hq
    rw [h q hq]
    decide
  rw [State.touch, hany, Bool.or_false]

/-- What the queues hold may be touched. -/
theorem touch_frame (hps : ∀ q ∈ ps, q = p ∨ ∃ c, q ∈ (s.cpus c).rq ∨
    q ∈ (s.cpus c).current) : Frame s (s.touch ps) p :=
  { Frame.refl with clean := fun hs hp => by grind [touch_of_live, Sound] }

variable [DecidableEq C]

variable {cs : CpuState G P}

theorem setCpu_cpu : (s.setCpu c cs).cpus c = cs := update_self ..

variable {c' : C}

theorem setCpu_of_ne (hne : c' ≠ c) : (s.setCpu c cs).cpus c' = s.cpus c' :=
  update_of_ne hne ..

/-- What holds of the new state of the cpu, and of the states that the others have. -/
theorem forall_setCpu {Q : C → CpuState G P → Prop} (hself : Q c cs)
    (hother : ∀ c', Q c' (s.cpus c'))
    (c' : C) : Q c' ((s.setCpu c cs).cpus c') :=
  (forall_update_iff s.cpus Q).mpr ⟨hself, fun c' _ => hother c'⟩ c'

/-- The queues of a cpu may lose tasks and get this one. -/
theorem setCpu_frame (hrq : ∀ q ∈ cs.rq, q = p ∨ q ∈ (s.cpus c).rq)
    (hcur : ∀ q ∈ cs.current, q = p ∨ q ∈ (s.cpus c).current) : Frame s (s.setCpu c cs) p :=
  { Frame.refl (s := s) with
    rq := forall_setCpu (Q := fun c' cs => ∀ q ∈ cs.rq, q = p ∨ q ∈ (s.cpus c').rq) hrq
      fun _ _ => .inr
    current := forall_setCpu (Q := fun c' cs => ∀ q ∈ cs.current, q = p ∨ q ∈ (s.cpus c').current)
      hcur fun _ _ => .inr }

/-- The queues of another cpu. -/
theorem at_setCpu_of_ne {place : Place} {q : P} (hne : c' ≠ c) :
    (s.setCpu c cs).At L c' place q ↔ s.At L c' place q := by
  cases place with
  | rq =>
    show q ∈ ((s.setCpu c cs).cpus c').rq ↔ _
    rw [setCpu_of_ne hne]
    rfl
  | mq =>
    grind [setCpu_of_ne, State.At]
  | current | moving => exact Iff.rfl

end Frame

section Arranged

variable [LinearOrder P]

/-- The queues are in order and agree with the layout. -/
structure Arranged (s : State G C P) (L : Layout C P) : Prop where
  at_iff : ∀ c place p, s.At L c place p ↔ L.loc p = some (c, place)
  actual : ∀ c, (s.cpus c).current = L.actual c
  ordered : ∀ c, Ordered s.heap (s.cpus c).rq
  size : ∀ c, (s.cpus c).rqSize = (s.cpus c).rq.length
  keys : ∀ c, ∀ e ∈ (s.cpus c).mq, e.1 = (s.heap e.2).gtid
  nodup : ∀ c, (L.moving c).Nodup

/-- The task at `p` is `t`, and no other task of its thread is on a migration queue. -/
structure Holds (s : State G C P) (L : Layout C P) (p : P) (t : CfsTask G C) : Prop
    extends Arranged s L where
  task : s.heap p = t
  key : ∀ q c, L.loc q = some (c, .mq) → (s.heap q).gtid = t.gtid → q = p

/-- What a function did to the task at `p`. -/
structure Does (s s' : State G C P) (L : Layout C P) (p : P) (t : CfsTask G C) : Prop where
  frame : Frame s s' p
  holds : Holds s' L p t

/-- One function after another. -/
theorem Does.next {L₁ L₂ : Layout C P} {t₁ t₂ : CfsTask G C} (h₁ : Does s s₁ L₁ p t₁)
    (h₂ : Holds s₁ L₁ p t₁ → Does s₁ s₂ L₂ p t₂) : Does s s₂ L₂ p t₂ :=
  ⟨h₁.frame.trans (h₂ h₁.holds).frame, (h₂ h₁.holds).holds⟩

variable {s : State G C P} {L : Layout C P} {p : P} {t : CfsTask G C} {c : C}

variable {q : P}

/-- The runqueue holds the tasks that are there. -/
theorem Arranged.mem_rq (h : Arranged s L) :
    q ∈ (s.cpus c).rq ↔ L.loc q = some (c, .rq) := h.at_iff c .rq q

/-- The migration queue holds the tasks that are there. -/
theorem Arranged.mem_mq (h : Arranged s L) :
    q ∈ (s.cpus c).mq.map Prod.snd ↔ L.loc q = some (c, .mq) := h.at_iff c .mq q

/-- The current task is the task that is there. -/
theorem Arranged.current_iff (h : Arranged s L) :
    L.current c = some q ↔ L.loc q = some (c, .current) := h.at_iff c .current q

/-- The agent's list holds the tasks that are there. -/
theorem Arranged.mem_moving (h : Arranged s L) :
    q ∈ L.moving c ↔ L.loc q = some (c, .moving) := h.at_iff c .moving q

theorem Holds.refl (h : Holds s L p t) : Does s s L p t := ⟨.refl, h⟩

/-! ## Writes to a task -/

section

variable (h : Holds s L p t)
include h

/-- A read of the task, or of one on a queue. -/
theorem Holds.touch {ps : List P}
    (hps : ∀ q ∈ ps, q = p ∨ ∃ c, q ∈ (s.cpus c).rq ∨ q ∈ (s.cpus c).current) :
    Does s (s.touch ps) L p t :=
  ⟨touch_frame hps, ⟨⟨h.at_iff, h.actual, h.ordered, h.size, h.keys, h.nodup⟩, h.task, h.key⟩⟩

theorem Holds.touch_self : Does s (s.touch [p]) L p t :=
  h.touch fun _ hq => .inl (List.mem_singleton.mp hq)

/-- Another task is stored at `p`; if it is on a runqueue, its vruntime must not change. -/
theorem Holds.setTask {t' : CfsTask G C} (hg : t'.gtid = t.gtid)
    (hv : t'.vruntime = t.vruntime ∨ ∀ c, L.loc p ≠ some (c, .rq)) :
    Does s (s.setTask p t') L p t' := by
  have hgtid : ∀ q, ((s.setTask p t').heap q).gtid = (s.heap q).gtid := by
    intro q
    by_cases hq : q = p
    · subst hq
      show (update s.heap q t' q).gtid = _
      rw [update_self, h.task, hg]
    · exact congrArg CfsTask.gtid (update_of_ne hq ..)
  refine ⟨?_, ⟨⟨h.at_iff, h.actual, fun c => ?_, h.size, ?_, h.nodup⟩, ?_, ?_⟩⟩
  · exact { Frame.refl (s := s) with heap := fun q hq => update_of_ne hq .., gtid := hgtid p }
  · refine (h.ordered c).congr fun q hq => ?_
    by_cases hqp : q = p
    · subst hqp
      show (update s.heap q t' q).vruntime = _
      rw [update_self, h.task]
      exact hv.resolve_right fun hne => hne c (h.mem_rq.mp hq)
    · exact congrArg CfsTask.vruntime (update_of_ne hqp ..)
  · intro c e he
    rw [hgtid]
    exact h.keys c e he
  · exact update_self ..
  · intro q c hq hqt
    rw [hgtid, hg] at hqt
    exact h.key q c hq hqt

/-- A write to a task keeps the order, unless the task is queued and its vruntime changes. -/
theorem Holds.modify {f : CfsTask G C → CfsTask G C} (hg : (f t).gtid = t.gtid)
    (hv : (f t).vruntime = t.vruntime ∨ ∀ c, L.loc p ≠ some (c, .rq)) :
    Does s (s.modify p f) L p (f t) := by
  rw [State.modify, h.task]
  exact h.touch_self.next fun h => h.setTask hg hv

/-- A transition that the table of the states allows. -/
theorem Holds.setState (state : RunState) (hfrom : state.from.contains t.state = true) :
    Does s (s.setState p state) L p { t with state := state } := by
  rw [State.setState, check_of_true s (h.task ▸ hfrom)]
  exact h.modify rfl (.inl rfl)

/-- A transition that the table of `OnRq` allows. -/
theorem Holds.setOnRq (onRq : OnRq) (hfrom : onRq.from.contains t.onRq = true) :
    Does s (s.setOnRq p onRq) L p { t with onRq := onRq } := by
  rw [State.setOnRq, check_of_true s (h.task ▸ hfrom)]
  exact h.modify rfl (.inl rfl)

end

/-! ## Writes to the queues of a cpu -/

variable [DecidableEq C]

variable {cs : CpuState G P} {L' : Layout C P}

/-- The queues of a cpu stay as they are. -/
theorem Arranged.setCpu_same (h : Arranged s L)
    (hL : L'.current = L.current ∧ L'.moving = L.moving ∧ L'.loc = L.loc)
    (hrq : cs.rq = (s.cpus c).rq) (hsize : cs.rqSize = (s.cpus c).rqSize)
    (hmq : cs.mq = (s.cpus c).mq) (hcur : ∀ c', ((s.setCpu c cs).cpus c').current = L'.actual c') :
    Arranged (s.setCpu c cs) L' := by
  have hcpu := forall_setCpu (s := s) (Q := fun c' cs => cs.rq = (s.cpus c').rq ∧
    cs.rqSize = (s.cpus c').rqSize ∧ cs.mq = (s.cpus c').mq) ⟨hrq, hsize, hmq⟩
      fun _ => ⟨rfl, rfl, rfl⟩
  refine ⟨fun c' place q => ?_, hcur, fun c' => ?_, fun c' => ?_, fun c' => ?_, ?_⟩
  · rw [hL.2.2, ← h.at_iff c' place q]
    cases place with
    | rq => exact iff_of_eq (congrArg (q ∈ ·) (hcpu c').1)
    | mq => exact iff_of_eq (congrArg (fun mq => q ∈ List.map Prod.snd mq) (hcpu c').2.2)
    | current =>
      show L'.current c' = some q ↔ _
      rw [hL.1]
      rfl
    | moving =>
      show q ∈ L'.moving c' ↔ _
      rw [hL.2.1]
      rfl
  · rw [(hcpu c').1]
    exact h.ordered c'
  · rw [(hcpu c').1, (hcpu c').2.1]
    exact h.size c'
  · rw [(hcpu c').2.2]
    exact h.keys c'
  · rw [hL.2.1]
    exact h.nodup

theorem Arranged.setCpu_current (h : Arranged s L) (hcur : cs.current = (s.cpus c).current)
    (c' : C) :
    ((s.setCpu c cs).cpus c').current = L.actual c' :=
  forall_setCpu (Q := fun c' cs => cs.current = L.actual c') (hcur.trans (h.actual c)) h.actual c'

/-- The queues of the cpu change, and so does the place of the task at `p`. -/
theorem Holds.setCpu (h : Holds s L p t) (hfrom : Local c (L.loc p)) (hto : Local c l)
    (hrq : ∀ q, q ∈ cs.rq ↔ if q = p then l = some (c, .rq) else q ∈ (s.cpus c).rq)
    (hmq : ∀ q, q ∈ cs.mq.map Prod.snd ↔
      if q = p then l = some (c, .mq) else q ∈ (s.cpus c).mq.map Prod.snd)
    (hcur : cs.current = (s.cpus c).current) (hord : Ordered s.heap cs.rq)
    (hsize : cs.rqSize = cs.rq.length) (hkeys : ∀ e ∈ cs.mq, e.1 = (s.heap e.2).gtid) :
    Does s (s.setCpu c cs) (L.put p l) p t := by
  have hlocal : ∀ {l : Option (C × Place)} {c' : C} {place : Place}, Local c l →
      c' ≠ c ∨ place = .current ∨ place = .moving → l ≠ some (c', place) := by
    rintro l c' place (rfl | rfl | rfl) hne heq <;> cases heq <;> simp at hne
  refine ⟨setCpu_frame (fun q hq => ?_) (fun q hq => ?_), ⟨⟨fun c' place q => ?_, ?_, ?_, ?_, ?_,
    h.nodup⟩, h.task, fun q c' hq hqt => ?_⟩⟩
  · have hq := (hrq q).mp hq
    split at hq
    · exact .inl ‹_›
    · exact .inr hq
  · exact .inr (hcur ▸ hq)
  · -- only the queues of this cpu can have the task, before and after
    show _ ↔ update L.loc p l q = some (c', place)
    rw [update_apply]
    split_ifs with hqp
    · subst hqp
      have hold := h.at_iff c' place q
      by_cases hc : c' = c
      · cases place with
        | rq | mq =>
          grind [setCpu_cpu, Cfs.State.At]
        | current =>
          exact iff_of_false (fun hat => hlocal hfrom (.inr (.inl rfl)) (hold.mp hat))
            (hlocal hto (.inr (.inl rfl)))
        | moving =>
          exact iff_of_false (fun hat => hlocal hfrom (.inr (.inr rfl)) (hold.mp hat))
            (hlocal hto (.inr (.inr rfl)))
      · have hnot : ¬ s.At L c' place q := fun hat => hlocal hfrom (.inl hc) (hold.mp hat)
        exact iff_of_false (fun hat => hnot ((at_setCpu_of_ne hc).mp hat)) (hlocal hto (.inl hc))
    · rw [← h.at_iff c' place q]
      by_cases hc : c' = c
      · cases place with
        | rq | mq =>
          grind [setCpu_cpu, Cfs.State.At]
        | current | moving => exact Iff.rfl
      · exact at_setCpu_of_ne hc
  · exact h.setCpu_current hcur
  · exact forall_setCpu (Q := fun _ cs => Ordered s.heap cs.rq) hord h.ordered
  · exact forall_setCpu (Q := fun _ cs => cs.rqSize = cs.rq.length) hsize h.size
  · exact forall_setCpu (Q := fun _ cs => ∀ e ∈ cs.mq, e.1 = (s.heap e.2).gtid) hkeys h.keys
  · by_cases hqp : q = p
    · exact hqp
    · have hloc : update L.loc p l q = some (c', .mq) := hq
      rw [update_of_ne hqp] at hloc
      exact h.key q c' hloc hqt

/-- What a cpu has besides its queues changes. -/
theorem Holds.setCpu_same (h : Holds s L p t) (hrq : cs.rq = (s.cpus c).rq)
    (hsize : cs.rqSize = (s.cpus c).rqSize) (hmq : cs.mq = (s.cpus c).mq)
    (hcur : cs.current = (s.cpus c).current) : Does s (s.setCpu c cs) L p t :=
  ⟨setCpu_frame (fun _ hq => .inr (hrq ▸ hq)) (fun _ hq => .inr (hcur ▸ hq)),
    h.toArranged.setCpu_same ⟨rfl, rfl, rfl⟩ hrq hsize hmq (h.setCpu_current hcur), h.task, h.key⟩

/-! ## The runqueue -/

section

variable (h : Holds s L p t)
include h

omit [DecidableEq C] in
/-- A task that neither was on the runqueue nor gets there. -/
theorem Holds.rq_same (hfrom : L.loc p ≠ some (c, .rq)) (hto : l ≠ some (c, .rq)) (q : P) :
    q ∈ (s.cpus c).rq ↔ if q = p then l = some (c, .rq) else q ∈ (s.cpus c).rq := by
  split
  · grind [h.mem_rq]
  · exact Iff.rfl

omit [DecidableEq C] in
/-- A task that neither was on the migration queue nor gets there. -/
theorem Holds.mq_same (hfrom : L.loc p ≠ some (c, .mq)) (hto : l ≠ some (c, .mq)) (q : P) :
    q ∈ (s.cpus c).mq.map Prod.snd ↔
      if q = p then l = some (c, .mq) else q ∈ (s.cpus c).mq.map Prod.snd := by
  split
  · grind [h.mem_mq]
  · exact Iff.rfl

/-- `InsertTaskIntoRq`, of a task that is nowhere. -/
theorem Holds.insertTaskIntoRq (hloc : L.loc p = none)
    (hon : OnRq.queued.from.contains t.onRq = true) :
    Does s (Rq.insertTaskIntoRq s c p) (L.put p (some (c, .rq))) p { t with onRq := .queued } := by
  have hset : Does s (s.setOnRq p .queued) L p { t with onRq := .queued } := h.setOnRq .queued hon
  have htouch : Does s ((s.setOnRq p .queued).touch (s.cpus c).rq) L p { t with onRq := .queued } :=
    hset.next fun h => h.touch fun q hq => .inr ⟨c, .inl hq⟩
  have hstore : ∀ s₁ : State G C P, Holds s₁ L p { t with onRq := .queued } →
      Does s₁ (Rq.store s₁ c (Rq.insert s₁.heap p (s₁.cpus c).rq)) (L.put p (some (c, .rq))) p
        { t with onRq := .queued } := by
    intro s₁ h
    refine h.setCpu (.inl hloc) (.inr (.inl rfl)) (fun q => ?_)
      (h.mq_same (by rw [hloc]; simp) (by simp)) rfl (h.ordered c).insert rfl (h.keys c)
    rw [mem_insert]
    split
    · rename_i hq
      exact iff_of_true (.inl hq) rfl
    · rename_i hq
      exact ⟨fun hmem => hmem.resolve_left hq, .inr⟩
  exact (htouch.next (hstore _)).next fun h => h.setCpu_same rfl rfl rfl rfl

/-- A task that is enqueued starts from the clock of the runqueue. -/
theorem Holds.enqueueTask (hloc : L.loc p = none) (hon : OnRq.queued.from.contains t.onRq = true) :
    Does s (Rq.enqueueTask s c p) (L.put p (some (c, .rq))) p
      { t with vruntime := max (s.cpus c).minVruntime t.vruntime, onRq := .queued } := by
  have hset : Does s
      (s.modify p fun t => { t with vruntime := max (s.cpus c).minVruntime t.vruntime }) L p
      { t with vruntime := max (s.cpus c).minVruntime t.vruntime } :=
    h.modify rfl (.inr fun c => by rw [hloc]; simp)
  exact hset.next fun h => h.insertTaskIntoRq hloc hon

/-- A task is taken off the runqueue. -/
theorem Holds.eraseTask (hloc : L.loc p = some (c, .rq)) :
    Does s (Rq.store s c ((s.cpus c).rq.erase p)) (L.put p none) p t := by
  refine h.setCpu (.inr (.inl hloc)) (.inl rfl) (fun q => ?_)
    (h.mq_same (by rw [hloc]; simp) (by simp)) rfl (h.ordered c).erase rfl (h.keys c)
  rw [(h.ordered c).nodup.mem_erase_iff]
  split
  · rename_i hq
    exact iff_of_false (fun hmem => hmem.1 hq) (by simp)
  · rename_i hq
    exact ⟨fun hmem => hmem.2, fun hmem => ⟨hq, hmem⟩⟩

/-- `DequeueTask`, of a task that is there. -/
theorem Holds.dequeueTask (hloc : L.loc p = some (c, .rq)) (hon : t.onRq = .queued) :
    Does s (Rq.dequeueTask s c p) (L.put p none) p { t with onRq := .dequeued } := by
  have htouch : Does s (s.touch (p :: (s.cpus c).rq)) L p t := by
    grind [h.touch]
  have hmem : p ∈ ((s.touch (p :: (s.cpus c).rq)).cpus c).rq := h.mem_rq.mpr hloc
  simp only [Rq.dequeueTask]
  rw [if_pos hmem]
  have hset : Does s ((s.touch (p :: (s.cpus c).rq)).setOnRq p .dequeued) L p
      { t with onRq := .dequeued } := htouch.next fun h => h.setOnRq .dequeued (by rw [hon]; rfl)
  exact hset.next fun h => h.eraseTask hloc

/-- Nothing happens to a task that is not on the runqueue. -/
theorem Holds.dequeueTask_of_ne (hloc : L.loc p ≠ some (c, .rq)) :
    Does s (Rq.dequeueTask s c p) L p t := by
  have hmem : p ∉ ((s.touch (p :: (s.cpus c).rq)).cpus c).rq := fun hmem => hloc (h.mem_rq.mp hmem)
  grind [Rq.dequeueTask, h.touch]

end

omit [DecidableEq C] [LinearOrder P] in
/-- `UpdateMinVruntime` reads the leftmost task and the current one. -/
theorem updateMinVruntime_reads (hq : q ∈ (s.cpus c).rq.head?.toList ++ (s.cpus c).current.toList) :
    q ∈ (s.cpus c).rq ∨ q ∈ (s.cpus c).current := by
  rcases List.mem_append.mp hq with hq | hq
  · exact .inl (List.mem_of_mem_head? (Option.mem_toList.mp hq))
  · exact .inr (Option.mem_toList.mp hq)

omit [LinearOrder P] in
/-- The minimum depends on tasks that are live. -/
theorem Sound.updateMinVruntime (h : Sound s) : Sound (Rq.updateMinVruntime s c) ∧
    (Rq.updateMinVruntime s c).usedFreed = s.usedFreed := by
  refine ⟨?_, touch_of_live fun q hq => ?_⟩
  · exact forall_setCpu (Q := fun _ cs => (∀ p ∈ cs.rq, s.mem p = .live) ∧
      ∀ p ∈ cs.current, s.mem p = .live) (h c) h
  · exact (updateMinVruntime_reads hq).elim ((h c).1 q) ((h c).2 q)

/-- `UpdateMinVruntime` moves no task. -/
theorem Arranged.updateMinVruntime (h : Arranged s L) : Arranged (Rq.updateMinVruntime s c) L := by
  have htouch : Arranged (s.touch ((s.cpus c).rq.head?.toList ++ (s.cpus c).current.toList)) L :=
    ⟨h.at_iff, h.actual, h.ordered, h.size, h.keys, h.nodup⟩
  exact htouch.setCpu_same ⟨rfl, rfl, rfl⟩ rfl rfl rfl (htouch.setCpu_current rfl)

theorem Holds.updateMinVruntime (h : Holds s L p t) : Does s (Rq.updateMinVruntime s c) L p t := by
  have htouch : Does s (s.touch ((s.cpus c).rq.head?.toList ++ (s.cpus c).current.toList)) L p t :=
    h.touch fun q hq => .inr ⟨c, updateMinVruntime_reads hq⟩
  exact htouch.next fun h => h.setCpu_same rfl rfl rfl rfl

/-! ## The current task and the list of an agent -/

section

variable (h : Arranged s L)
include h

/-- A store to the current task of a cpu moves no task. -/
theorem Arranged.store {x : Option P} : Arranged (s.setCurrent c x) (L.store c x) := by
  refine h.setCpu_same ⟨rfl, rfl, rfl⟩ rfl rfl rfl fun c' => ?_
  show _ = update L.actual c x c'
  by_cases hc : c' = c
  · subst hc
    rw [setCpu_cpu, update_self]
  · rw [setCpu_of_ne hc, update_of_ne hc]
    exact h.actual c'

omit [DecidableEq C] in
/-- Only the place of the task at `p` changes in the layout. -/
theorem Arranged.relocate (hact : L'.actual = L.actual) (hloc : L'.loc = update L.loc p l)
    (hself : ∀ c place, s.At L' c place p ↔ l = some (c, place))
    (hcur : ∀ c, ∀ q, q ≠ p → (L'.current c = some q ↔ L.current c = some q))
    (hmov : ∀ c, ∀ q, q ≠ p → (q ∈ L'.moving c ↔ q ∈ L.moving c))
    (hnodup : ∀ c, (L'.moving c).Nodup) : Arranged s L' := by
  refine ⟨fun c place q => ?_, fun c => ?_, h.ordered, h.size, h.keys, hnodup⟩
  · rw [hloc]
    rw [update_apply]
    split_ifs with hq
    · subst hq
      exact hself c place
    · rw [← h.at_iff c place q]
      cases place with
      | rq | mq => exact Iff.rfl
      | current => exact hcur c q hq
      | moving => exact hmov c q hq
  · rw [hact]
    exact h.actual c

omit [DecidableEq C] in
/-- A task that has a place is not in another one. -/
theorem Arranged.not_at {l : C × Place} (hloc : L.loc p = some l) (c' : C) (place : Place)
    (hne : l ≠ (c', place)) : ¬ s.At L c' place p := by
  intro hat
  rw [h.at_iff, hloc] at hat
  exact hne (Option.some.inj hat)

omit [DecidableEq C] in
/-- A task that is nowhere is at no place. -/
theorem Arranged.not_at_none (hloc : L.loc p = none) (c' : C) (place : Place) :
    ¬ s.At L c' place p := by
  intro hat
  rw [h.at_iff, hloc] at hat
  cases hat

/-- The current task leaves the cpu. -/
theorem Arranged.drop (hloc : L.loc p = some (c, .current)) : Arranged s (L.drop c p) := by
  have hcurrent : L.current c = some p := h.current_iff.mpr hloc
  refine h.relocate rfl rfl (fun c' place => iff_of_false ?_ nofun) (fun c' q hq => ?_)
    (fun _ _ _ => Iff.rfl) h.nodup
  · cases place with
    | rq => exact h.not_at hloc c' .rq (by simp)
    | mq => exact h.not_at hloc c' .mq (by simp)
    | current =>
      show update L.current c none c' ≠ some p
      rw [update_apply]
      split_ifs with hc
      · exact nofun
      · exact h.not_at hloc c' .current (by simp [Ne.symm hc])
    | moving => exact h.not_at hloc c' .moving (by simp)
  · show update L.current c none c' = some q ↔ _
    by_cases hc : c' = c
    · subst hc
      rw [update_self, hcurrent]
      exact iff_of_false nofun fun heq => hq (Option.some.inj heq).symm
    · rw [update_of_ne hc]

/-- A task that is nowhere becomes current. -/
theorem Arranged.take (hloc : L.loc p = none) (hcurrent : L.current c = none) :
    Arranged s (L.take c p) := by
  refine h.relocate rfl rfl (fun c' place => ?_) (fun c' q hq => ?_) (fun _ _ _ => Iff.rfl) h.nodup
  · cases place with
    | rq => exact iff_of_false (h.not_at_none hloc _ .rq) (by simp)
    | mq => exact iff_of_false (h.not_at_none hloc _ .mq) (by simp)
    | current =>
      show update L.current c (some p) c' = some p ↔ _
      rw [update_apply]
      split_ifs with hc
      · subst hc
        exact iff_of_true rfl rfl
      · exact iff_of_false (h.not_at_none hloc _ .current) (by simp [Ne.symm hc])
    | moving => exact iff_of_false (h.not_at_none hloc _ .moving) (by simp)
  · show update L.current c (some p) c' = some q ↔ _
    by_cases hc : c' = c
    · subst hc
      rw [update_self, hcurrent]
      exact iff_of_false (fun heq => hq (Option.some.inj heq).symm) nofun
    · rw [update_of_ne hc]

/-- A task that is nowhere goes to the agent's list. -/
theorem Arranged.detach (hloc : L.loc p = none) : Arranged s (L.detach c p) := by
  have hnew : p ∉ L.moving c := h.not_at_none hloc _ .moving
  have hmem : ∀ c' q, q ∈ (L.detach c p).moving c' ↔ q ∈ L.moving c' ∨ c' = c ∧ q = p := by
    intro c' q
    show q ∈ update L.moving c (L.moving c ++ [p]) c' ↔ _
    rw [update_apply]
    split_ifs with hc
    · subst hc
      rw [List.mem_append, List.mem_singleton]
      simp
    · simp [hc]
  refine h.relocate rfl rfl (fun c' place => ?_) (fun _ _ _ => Iff.rfl) (fun c' q hq => ?_)
    (fun c' => ?_)
  · cases place with
    | rq => exact iff_of_false (h.not_at_none hloc _ .rq) (by simp)
    | mq => exact iff_of_false (h.not_at_none hloc _ .mq) (by simp)
    | current => exact iff_of_false (h.not_at_none hloc _ .current) (by simp)
    | moving =>
      refine (hmem c' p).trans ⟨fun hp => ?_, fun hp => ?_⟩
      · rcases hp with hp | ⟨rfl, -⟩
        · exact absurd hp (h.not_at_none hloc _ .moving)
        · rfl
      · cases hp
        exact .inr ⟨rfl, rfl⟩
  · rw [hmem]
    simp [hq]
  · show (update L.moving c (L.moving c ++ [p]) c').Nodup
    grind [h.nodup]

/-- The first task leaves the agent's list. -/
theorem Arranged.attach {ps : List P} (hmoving : L.moving c = p :: ps) :
    Arranged s (L.attach c p ps) := by
  have hnodup : (p :: ps).Nodup := hmoving ▸ h.nodup c
  have hloc : L.loc p = some (c, .moving) :=
    h.mem_moving.mp (hmoving ▸ List.mem_cons_self)
  refine h.relocate rfl rfl (fun c' place => iff_of_false ?_ nofun) (fun _ _ _ => Iff.rfl)
    (fun c' q hq => ?_) (fun c' => ?_)
  · cases place with
    | rq => exact h.not_at hloc c' .rq (by simp)
    | mq => exact h.not_at hloc c' .mq (by simp)
    | current => exact h.not_at hloc c' .current (by simp)
    | moving =>
      show p ∉ update L.moving c ps c'
      rw [update_apply]
      split_ifs with hc
      · exact (List.nodup_cons.mp hnodup).1
      · exact h.not_at hloc c' .moving (by simp [Ne.symm hc])
  · show q ∈ update L.moving c ps c' ↔ _
    by_cases hc : c' = c
    · subst hc
      rw [update_self, hmoving, List.mem_cons]
      exact ⟨.inr, fun hmem => hmem.resolve_left hq⟩
    · rw [update_of_ne hc]
  · show (update L.moving c ps c').Nodup
    grind [h.nodup]

end

/-! ## The migration queue -/

variable [DecidableEq G]

omit [LinearOrder P] [DecidableEq C] in
theorem mem_erase_iff {g : G} {mq : List (G × P)} {e : G × P} :
    e ∈ Mq.erase g mq ↔ e ∈ mq ∧ e.1 ≠ g := by
  unfold Mq.erase
  rw [List.mem_filter, decide_eq_true_iff]

section

variable (h : Holds s L p t)
include h

omit [DecidableEq C] in
/-- The entries of a migration queue but for the one of the task. -/
theorem Holds.mem_mqErase :
    q ∈ (Mq.erase t.gtid (s.cpus c).mq).map Prod.snd ↔ q ≠ p ∧ q ∈ (s.cpus c).mq.map Prod.snd := by
  constructor
  · intro hq
    rcases List.mem_map.mp hq with ⟨e, he, rfl⟩
    rcases mem_erase_iff.mp he with ⟨he, hne⟩
    refine ⟨fun heq => hne ?_, List.mem_map_of_mem he⟩
    rw [h.keys c e he, heq, h.task]
  · rintro ⟨hne, hq⟩
    rcases List.mem_map.mp hq with ⟨e, he, rfl⟩
    refine List.mem_map_of_mem (mem_erase_iff.mpr ⟨he, fun hg => hne ?_⟩)
    exact h.key e.2 c (h.mem_mq.mp hq) (h.keys c e he ▸ hg)

/-- `EnqueueTask` of the migration queue. -/
theorem Holds.mqEnqueueTask (hloc : L.loc p = none) :
    Does s (Mq.enqueueTask s c p) (L.put p (some (c, .mq))) p t := by
  unfold Mq.enqueueTask
  rw [h.task]
  refine h.touch_self.next fun h => h.setCpu (.inl hloc) (.inr (.inr rfl))
    (h.rq_same (by rw [hloc]; simp) (by simp)) (fun q => ?_) rfl (h.ordered c) (h.size c)
    (fun e he => ?_)
  · rw [List.map_cons, List.mem_cons]
    split
    · rename_i hq
      exact iff_of_true (.inl hq) rfl
    · rename_i hq
      refine ⟨fun hmem => ?_, fun hmem => .inr ?_⟩
      · exact (h.mem_mqErase.mp (hmem.resolve_left hq)).2
      · exact h.mem_mqErase.mpr ⟨hq, hmem⟩
  · rcases List.mem_cons.mp he with rfl | he
    · exact congrArg CfsTask.gtid h.task.symm
    · exact h.keys c e (mem_erase_iff.mp he).1

/-- `DequeueTask` of the migration queue. -/
theorem Holds.mqDequeueTask (hloc : L.loc p = some (c, .mq)) :
    Does s (Mq.dequeueTask s c p) (L.put p none) p t := by
  unfold Mq.dequeueTask
  rw [h.task]
  refine h.touch_self.next fun h => h.setCpu (.inr (.inr hloc)) (.inl rfl)
    (h.rq_same (by rw [hloc]; simp) (by simp)) (fun q => ?_) rfl (h.ordered c) (h.size c)
    (fun e he => h.keys c e (mem_erase_iff.mp he).1)
  refine h.mem_mqErase.trans ?_
  split
  · rename_i hq
    exact iff_of_false (fun hmem => hmem.1 hq) (by simp)
  · rename_i hq
    exact ⟨fun hmem => hmem.2, fun hmem => ⟨hq, hmem⟩⟩

/-- Nothing happens to a task that is not on the migration queue. -/
theorem Holds.mqDequeueTask_of_ne (hloc : L.loc p ≠ some (c, .mq)) :
    Does s (Mq.dequeueTask s c p) L p t := by
  have hsame : Mq.erase t.gtid (s.cpus c).mq = (s.cpus c).mq := by
    refine List.filter_eq_self.mpr fun e he => decide_eq_true fun hg => hloc ?_
    have hmem : e.2 ∈ (s.cpus c).mq.map Prod.snd := List.mem_map_of_mem he
    have hp : e.2 = p := h.key e.2 c (h.mem_mq.mp hmem) (h.keys c e he ▸ hg)
    exact h.mem_mq.mp (hp ▸ hmem)
  have htouch : Does s (s.touch [p]) L p t := h.touch fun q hq => .inl (List.mem_singleton.mp hq)
  unfold Mq.dequeueTask
  rw [h.task, hsame]
  exact htouch.next fun h => h.setCpu_same rfl rfl rfl rfl

end

end Arranged

end Cfs
