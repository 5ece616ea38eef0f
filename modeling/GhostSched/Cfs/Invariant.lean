import GhostSched.Cfs.Handlers

/-!
# The invariant

* `Core`: the tasks that are live are the ones that the allocator knows, and each
  is where its state says.
* `Shape`: in addition, what an agent is doing agrees with the layout.
* `Comm`: the messages lead from what is known about the threads to what they do.
* `Inv`: all of it, and no check has failed.

`Moves` is what a step does to the vruntimes and affinities of the tasks, for the
results that need to know. `Good` has both, and says when a step does not read
memory that was freed. There is one theorem for each kind of step; this module
has the steps of the kernel and the handling of a message.
-/

namespace Cfs

open Kernel Function

variable {G C P : Type*}

/-! ## The agents -/

/-- Between the two calls of `PickNextTask`. -/
def Agent.Idle : Agent G P → Prop
  | .balance | .attach _ | .repick => True
  | _ => False

/-- The agent has its cpu. -/
def Agent.Awake : Agent G P → Prop
  | .asleep | .committed _ => False
  | _ => True

/-- The agent has drained its channel. -/
def Agent.Past : Agent G P → Prop
  | .asleep | .committed _ | .drain => False
  | _ => True

variable {a : Agent G P}

theorem Agent.Past.awake (h : a.Past) : a.Awake := by
  cases a <;> first | exact h | exact trivial

/-- The task of a transaction. -/
def Agent.task : Agent G P → Option P
  | .committed p | .opened p => some p
  | _ => none

def Agent.moving : Agent G P → List P
  | .attach ps => ps
  | _ => []

/-! ## Tasks and places -/

section Shape

variable [LinearOrder P]

structure Core (s : State G C P) (L : Layout C P) : Prop where
  arranged : Arranged s L
  owned : ∀ g p, s.alloc g = some p ↔ s.mem p = .live ∧ (s.heap p).gtid = g
  home : ∀ p, s.mem p = .live → L.loc p = (s.heap p).home
  valid : ∀ p, s.mem p = .live → (s.heap p).Valid
  gone : ∀ p l, s.mem p ≠ .live → L.loc p = some l → l.2 = .current ∧ s.mem p = .freed

structure Shape (s : State G C P) (L : Layout C P) : Prop extends Core s L where
  settled : L.actual = L.current
  moving : ∀ c, L.moving c = (s.agents c).moving
  /-- The current task is live unless the agent is going to replace it. -/
  stale : ∀ c p, L.current c = some p → s.mem p ≠ .live → (s.agents c).Idle
  idle : ∀ c p, (s.agents c).Idle → L.current c = some p → s.mem p ≠ .live
  task : ∀ c p, (s.agents c).task = some p → L.current c = some p ∧ (s.heap p).state = .running

variable {s s' : State G C P} {L L' : Layout C P} {c : C} {p : P} {t : CfsTask G C}

variable {l : C × Place}

omit [LinearOrder P] in
theorem home_cpu (h : t.home = some l) : l.1 = t.cpu := by
  unfold CfsTask.home at h
  split at h <;> cases h <;> rfl

/-- A task on a queue is live. -/
theorem Core.live (h : Core s L) (hloc : L.loc p = some l) (hne : l.2 ≠ .current) :
    s.mem p = .live := by
  by_contra hdead
  exact hne (h.gone p l hdead hloc).1

theorem Core.cpu_of_loc (h : Core s L) (hp : s.mem p = .live) (hloc : L.loc p = some l) :
    (s.heap p).cpu = l.1 :=
  (home_cpu ((h.home p hp).symm.trans hloc)).symm

theorem Core.holds (h : Core s L) (hp : s.mem p = .live) : Holds s L p (s.heap p) := by
  refine ⟨h.arranged, rfl, fun q c hq hqt => ?_⟩
  have hlive : s.mem q = .live := h.live hq nofun
  have hallocq : s.alloc (s.heap q).gtid = some q := (h.owned _ _).mpr ⟨hlive, rfl⟩
  have hallocp : s.alloc (s.heap p).gtid = some p := (h.owned _ _).mpr ⟨hp, rfl⟩
  rw [hqt, hallocp] at hallocq
  exact (Option.some.inj hallocq).symm

/-- A function moved one task to where its new state says. -/
theorem Core.does (h : Core s L) (hp : s.mem p = .live) (hdoes : Does s s' L' p t)
    (hloc : L'.loc = update L.loc p t.home) (hvalid : t.Valid) : Core s' L' := by
  have hframe := hdoes.frame
  have hgtid : ∀ q, (s'.heap q).gtid = (s.heap q).gtid := by
    intro q
    by_cases hq : q = p
    · rw [hq, hframe.gtid]
    · rw [hframe.heap q hq]
  refine ⟨hdoes.holds.toArranged, fun g q => ?_, fun q hq => ?_, fun q hq => ?_,
    fun q l hq hl => ?_⟩
  · rw [hframe.alloc, hframe.mem, hgtid]
    exact h.owned g q
  · rw [hframe.mem] at hq
    by_cases hqp : q = p
    · rw [hqp, hloc, update_self, hdoes.holds.task]
    · rw [hloc, update_of_ne hqp, hframe.heap q hqp]
      exact h.home q hq
  · rw [hframe.mem] at hq
    by_cases hqp : q = p
    · rw [hqp, hdoes.holds.task]
      exact hvalid
    · rw [hframe.heap q hqp]
      exact h.valid q hq
  · rw [hframe.mem] at hq ⊢
    have hqp : q ≠ p := fun heq => hq (heq ▸ hp)
    rw [hloc, update_of_ne hqp] at hl
    exact h.gone q l hq hl

/-- Only what the places do not depend on changes. -/
theorem Core.same (h : Core s L) (ha : Arranged s' L) (hheap : s'.heap = s.heap)
    (hmem : s'.mem = s.mem) (halloc : s'.alloc = s.alloc) : Core s' L := by
  refine ⟨ha, ?_, ?_, ?_, ?_⟩
  · rw [halloc, hmem, hheap]
    exact h.owned
  · rw [hmem, hheap]
    exact h.home
  · rw [hmem, hheap]
    exact h.valid
  · rw [hmem]
    exact h.gone

/-- The current task is live while the agent is not going to replace it. -/
theorem Shape.live_of_agent {x : Agent G P} (h : Shape s L) (hcur : L.current c = some p)
    (hagent : s.agents c = x) (hx : ¬ x.Idle) : s.mem p = .live := by
  by_contra hdead
  exact hx (hagent ▸ h.stale c p hcur hdead)

/-- A function moved one task, which has no transaction. -/
theorem Shape.does (h : Shape s L) (hp : s.mem p = .live) (hdoes : Does s s' L' p t)
    (hloc : L'.loc = update L.loc p t.home) (hvalid : t.Valid)
    (hset : L'.actual = L'.current) (hmov : L'.moving = L.moving)
    (htask : ∀ c, (s.agents c).task ≠ some p)
    (hidle : ∀ c, t.home = some (c, .current) → ¬ (s.agents c).Idle) : Shape s' L' := by
  have hframe := hdoes.frame
  have hcore := h.toCore.does hp hdoes hloc hvalid
  have hcurrent : ∀ c q, q ≠ p → (L'.current c = some q ↔ L.current c = some q) := by
    intro c q hq
    rw [hcore.arranged.current_iff, h.arranged.current_iff, hloc, update_of_ne hq]
  refine ⟨hcore, hset, ?_, fun c q hq hdead => ?_, fun c q hi hq => ?_, fun c q hq => ?_⟩
  · rw [hmov, hframe.agents]
    exact h.moving
  · rw [hframe.mem] at hdead
    rw [hframe.agents]
    grind [h.stale]
  · rw [hframe.agents] at hi
    rw [hframe.mem]
    have hqp : q ≠ p := by
      rintro rfl
      rw [hcore.arranged.current_iff, hloc, update_self] at hq
      exact hidle c hq hi
    exact h.idle c q hi ((hcurrent c q hqp).mp hq)
  · rw [hframe.agents] at hq
    have hqp : q ≠ p := fun heq => htask c (heq ▸ hq)
    grind [h.task, hframe.heap]

/-- The task of a transaction is the current one, so it is on the cpu of the agent. -/
theorem Shape.task_cpu (h : Shape s L) (hp : s.mem p = .live) (htask : (s.agents c).task = some p) :
    (s.heap p).home = some (c, .current) := by
  rw [← h.home p hp]
  exact h.arranged.current_iff.mp (h.task c p htask).1

/-- A task that is live is current on its cpu only. -/
theorem Shape.task_ne (h : Shape s L) (hp : s.mem p = .live) (hcpu : (s.heap p).cpu = c)
    (hagent : (s.agents c).task = none) (c' : C) : (s.agents c').task ≠ some p := by
  intro htask
  have hc : c' = (s.heap p).cpu := home_cpu (h.task_cpu hp htask)
  rw [hc, hcpu, hagent] at htask
  cases htask

/-- The agent goes on, and no task moves. -/
theorem Shape.setAgent [DecidableEq C] (h : Shape s L) (hmov : a.moving = (s.agents c).moving)
    (hidle : a.Idle ↔ (s.agents c).Idle)
    (htask : ∀ p, a.task = some p → L.current c = some p ∧ (s.heap p).state = .running) :
    Shape (s.setAgent c a) L := by
  have ha := h.arranged
  have hself : (s.setAgent c a).agents c = a := update_self ..
  have hne : ∀ {c'}, c' ≠ c → (s.setAgent c a).agents c' = s.agents c' :=
    fun hc => update_of_ne hc ..
  refine ⟨⟨⟨ha.at_iff, ha.actual, ha.ordered, ha.size, ha.keys, ha.nodup⟩, h.owned, h.home, h.valid,
    h.gone⟩, h.settled, ?_, fun c' p hp hdead => ?_, fun c' p hi hp => ?_, fun c' p hp => ?_⟩
  · intro c'
    rw [h.moving]
    by_cases hc : c' = c
    · subst hc
      rw [hself, hmov]
    · rw [hne hc]
  · by_cases hc : c' = c
    · subst hc
      rw [hself, hidle]
      exact h.stale c' p hp hdead
    · rw [hne hc]
      exact h.stale c' p hp hdead
  · by_cases hc : c' = c
    · subst hc
      rw [hself, hidle] at hi
      exact h.idle c' p hi hp
    · rw [hne hc] at hi
      exact h.idle c' p hi hp
  · by_cases hc : c' = c
    · subst hc
      rw [hself] at hp
      exact htask p hp
    · rw [hne hc] at hp
      exact h.task c' p hp

variable [DecidableEq G]

/-- A task that is nowhere is freed. -/
theorem Core.free (h : Core s L) (hp : s.mem p = .live) (hdoes : Does s s' L' p t)
    (hloc : L'.loc = update L.loc p none) : Core (freeTask s' p) L' := by
  have hframe := hdoes.frame
  have hmem : ∀ q, q ≠ p → (freeTask s' p).mem q = s.mem q := by
    intro q hq
    rw [← hframe.mem]
    exact update_of_ne hq ..
  have hfreed : (freeTask s' p).mem p = .freed := update_self ..
  have ha := hdoes.holds.toArranged
  refine ⟨⟨ha.at_iff, ha.actual, ha.ordered, ha.size, ha.keys, ha.nodup⟩, fun g q => ?_,
    fun q hq => ?_, fun q hq => ?_, fun q l hq hl => ?_⟩
  · show update s'.alloc (s'.heap p).gtid none g = some q ↔ _ ∧ (s'.heap q).gtid = g
    rw [hframe.gtid, hframe.alloc]
    by_cases hqp : q = p
    · grind [h.owned]
    · rw [hmem q hqp, hframe.heap q hqp, ← h.owned g q]
      by_cases hgp : g = (s.heap p).gtid
      · subst hgp
        rw [update_self, (h.owned _ p).mpr ⟨hp, rfl⟩]
        exact iff_of_false nofun fun heq => hqp (Option.some.inj heq).symm
      · rw [update_of_ne hgp]
  · have hqp : q ≠ p := by
      rintro rfl
      rw [hfreed] at hq
      cases hq
    rw [hmem q hqp] at hq
    show L'.loc q = (s'.heap q).home
    rw [hloc, update_of_ne hqp, hframe.heap q hqp]
    exact h.home q hq
  · have hqp : q ≠ p := by
      rintro rfl
      rw [hfreed] at hq
      cases hq
    rw [hmem q hqp] at hq
    show (s'.heap q).Valid
    rw [hframe.heap q hqp]
    exact h.valid q hq
  · rw [hloc] at hl
    grind [h.gone]

/-- A thread gets a task. -/
theorem Core.alloc {g : G} (h : Core s L) (hp : s.mem p = .unused) (hg : s.alloc g = none) :
    Core (allocTask s g c p) L ∧ L.loc p = none := by
  -- memory that was never used is at no place
  have hloc : L.loc p = none := by
    cases hl : L.loc p with
    | none => rfl
    | some l =>
      grind [h.gone]
  have hheap : ∀ q, q ≠ p → (allocTask s g c p).heap q = s.heap q :=
    fun q hq => update_of_ne hq ..
  have hmem : ∀ q, q ≠ p → (allocTask s g c p).mem q = s.mem q :=
    fun q hq => update_of_ne hq ..
  have htask : (allocTask s g c p).heap p =
      ⟨g, 0, .blocked, .dequeued, c, fun _ => false, 0, 0, 0⟩ := update_self ..
  have hne : ∀ {q : P} {l : C × Place}, L.loc q = some l → q ≠ p := by
    rintro q l hl rfl
    rw [hloc] at hl
    cases hl
  have ha := h.arranged
  refine ⟨⟨⟨ha.at_iff, ha.actual, fun c => ?_, ha.size, fun c e he => ?_, ha.nodup⟩, fun g' q => ?_,
    fun q hq => ?_, fun q hq => ?_, fun q l hq hl => ?_⟩, hloc⟩
  · refine (ha.ordered c).congr fun q hq => ?_
    rw [hheap q (hne (ha.mem_rq.mp hq))]
  · have hmq : e.2 ∈ (s.cpus c).mq.map Prod.snd := List.mem_map_of_mem he
    rw [hheap e.2 (hne (ha.mem_mq.mp hmq))]
    exact ha.keys c e he
  · -- the allocator finds the new task and the old ones
    show update s.alloc g (some p) g' = some q ↔ _
    by_cases hqp : q = p
    · subst hqp
      rw [htask]
      have hlive : (allocTask s g c q).mem q = .live := update_self ..
      grind [h.owned]
    · grind [h.owned]
  · -- a new task is blocked
    by_cases hqp : q = p
    · rw [hqp, htask, hloc]
      rfl
    · rw [hmem q hqp] at hq
      rw [hheap q hqp]
      exact h.home q hq
  · by_cases hqp : q = p
    · rw [hqp, htask]
      exact .inr rfl
    · rw [hmem q hqp] at hq
      rw [hheap q hqp]
      exact h.valid q hq
  · grind [h.gone]

end Shape

/-! ## Messages and steps -/

/-- The task of a thread. -/
def known (s : State G C P) (g : G) : Option (CfsTask G C) := (s.alloc g).map s.heap

/-- The data of the scheduler stays as it is. -/
structure SameData (s s' : State G C P) : Prop where
  heap : s'.heap = s.heap
  mem : s'.mem = s.mem
  alloc : s'.alloc = s.alloc
  cpus : s'.cpus = s.cpus
  crashed : s'.crashed = s.crashed
  usedFreed : s'.usedFreed = s.usedFreed

section Data

variable {s s' : State G C P} {L : Layout C P} {p : P} {g : G}

theorem SameData.clean (h : SameData s s') (hs : Sound s) :
    Sound s' ∧ s'.usedFreed = s.usedFreed := by
  refine ⟨fun c => ?_, h.usedFreed⟩
  rw [h.cpus, h.mem]
  exact hs c

theorem SameData.known (h : SameData s s') (g : G) : known s' g = known s g := by
  rw [Cfs.known, Cfs.known, h.alloc, h.heap]

variable [LinearOrder P]

theorem SameData.arranged (h : SameData s s') (ha : Arranged s L) : Arranged s' L := by
  rcases ha with ⟨hat, hact, hord, hsize, hkeys, hnodup⟩
  refine ⟨fun c place p => ?_, ?_, ?_, ?_, ?_, hnodup⟩
  · rw [← hat c place p, State.At.eq_def, State.At.eq_def, h.cpus]
  · rw [h.cpus]
    exact hact
  · rw [h.cpus, h.heap]
    exact hord
  · rw [h.cpus]
    exact hsize
  · rw [h.cpus, h.heap]
    exact hkeys

theorem SameData.shape (h : SameData s s') (hagents : s'.agents = s.agents) (hs : Shape s L) :
    Shape s' L where
  toCore := hs.toCore.same (h.arranged hs.arranged) h.heap h.mem h.alloc
  settled := hs.settled
  moving := by
    rw [hagents]
    exact hs.moving
  stale := by
    rw [hagents, h.mem]
    exact hs.stale
  idle := by
    rw [hagents, h.mem]
    exact hs.idle
  task := by
    rw [hagents, h.heap]
    exact hs.task

theorem Core.known_self (h : Core s L) (hp : s.mem p = .live) :
    known s (s.heap p).gtid = some (s.heap p) := by
  rw [known, (h.owned _ p).mpr ⟨hp, rfl⟩]
  rfl

theorem Core.known_of_ne (h : Core s L)
    (hheap : ∀ q, q ≠ p → s'.heap q = s.heap q) (halloc : s'.alloc g = s.alloc g)
    (hg : g ≠ (s.heap p).gtid) : known s' g = known s g := by
  rw [known, known, halloc]
  cases hq : s.alloc g with
  | none => rfl
  | some q =>
    have hgtid := ((h.owned g q).mp hq).2
    have hqp : q ≠ p := fun heq => hg (heq ▸ hgtid.symm)
    exact congrArg some (hheap q hqp)

end Data

section Channel

variable [DecidableEq G] {cfg : Config C} {g : G} {msg : Msg C Unit} {channel : G → C}

theorem channelFor_of_ne {g' : G} (hne : g' ≠ g) :
    channelFor cfg channel g msg g' = channel g' := by
  unfold channelFor
  split
  · exact update_of_ne hne ..
  · rfl

theorem channelFor_of_not_new (hnew : ¬ IsNew msg) : channelFor cfg channel g msg = channel := by
  unfold channelFor
  split
  · exact absurd trivial hnew
  · rfl

theorem channelFor_new (hnew : IsNew msg) : channelFor cfg channel g msg g = cfg.defaultCpu := by
  unfold channelFor
  split
  · exact update_self ..
  · grind [IsNew]

end Channel

section Inv

variable [DecidableEq G] [DecidableEq C]

structure Comm (cfg : Config C) (s : State G C P) : Prop where
  mail : ∀ g, ∃ old new, Mail cfg (known s g) (s.kernel g) (s.channel g)
    (fun c => about g (s.queue c)) old new
  /-- No thread has the cpu of an agent that is awake. -/
  free : ∀ c, (s.agents c).Awake → ∀ g, ¬ HasCpu (s.kernel g) c
  /-- After its channel has been drained, an agent is not told about a task that had the cpu. -/
  quiet : ∀ c, (s.agents c).Past → ∀ g i msg, .task g i msg ∈ s.queue c → ¬ NeedsCurrent msg

structure Inv [LinearOrder P] (cfg : Config C) (s : State G C P) : Prop where
  shape : ∃ L, Shape s L
  comm : Comm cfg s
  crashed : s.crashed = false

/-- The step is the start of `CfsSchedule` on a cpu. -/
def Action.Passes : Action G C P → C → Prop
  | .boosted c, c' => c = c'
  | .pick c _, c' => c = c'
  | _, _ => False

/-- A task changes, and gets on a runqueue only if its affinity lets it, if no cpu does, or if
`CfsSchedule` puts it back. -/
structure Change (cfg : Config C) (a : Action G C P) (t t' : CfsTask G C) : Prop where
  affinity : t'.cpuAffinity = t.cpuAffinity ∨
    ∃ c input, a = .dispatch c input ∧ t'.cpuAffinity = readAffinity cfg input
  queued : t'.Queued → t'.cpuAffinity t'.cpu = true ∨ (∀ c ∈ cfg.cpus, t'.cpuAffinity c = false) ∨
    t'.cpu = t.cpu ∧ t'.cpuAffinity = t.cpuAffinity ∧
      (t.Queued ∨ t.state = .running ∧ a.Passes t.cpu)

structure Moves (cfg : Config C) (a : Action G C P) (s s' : State G C P) : Prop where
  /-- The vruntime of a task on a runqueue does not change. -/
  vruntime : ∀ c, ∀ p ∈ (s.cpus c).rq, (s'.heap p).vruntime = (s.heap p).vruntime
  change : ∀ p, s'.mem p = .live → s.mem p = .live → Change cfg a (s.heap p) (s'.heap p)
  fresh : ∀ p, s'.mem p = .live → s.mem p ≠ .live → ¬ (s'.heap p).Queued ∧
    ∃ c input, a = .dispatch c input ∧ (s'.heap p).cpuAffinity = readAffinity cfg input
  /-- A transaction is opened for a task that was on the runqueue, or was current. -/
  opened : ∀ c p, s'.agents c = .opened p → s.agents c = .opened p ∧ s'.heap p = s.heap p ∨
    (s'.heap p).cpuAffinity = (s.heap p).cpuAffinity ∧ s.mem p = .live ∧ (s.heap p).cpu = c ∧
      ((s.heap p).Queued ∨ (s.heap p).state = .running ∧ a.Passes c)

/-- The step does not free the current task while `PickNextTask` still needs it. -/
def Spares (s : State G C P) : Action G C P → Prop
  | .pick c _ => ∀ p ∈ (s.cpus c).current, (s.heap p).state ≠ .done
  | _ => True

structure Good [LinearOrder P] (cfg : Config C) (a : Action G C P) (s s' : State G C P) : Prop where
  inv : Inv cfg s'
  moves : Moves cfg a s s'
  clean : Sound s → Spares s a → Sound s' ∧ s'.usedFreed = s.usedFreed

variable {cfg : Config C} {a : Action G C P} {s s' : State G C P} {g : G}

omit [DecidableEq G] in
theorem Change.refl (t : CfsTask G C) : Change cfg a t t :=
  ⟨.inl rfl, fun h => .inr (.inr ⟨rfl, rfl, .inl h⟩)⟩

/-- Nothing about the thread has changed. -/
theorem Comm.mail_same (h : Comm cfg s) (hk : Silent (s.kernel g) (s'.kernel g))
    (hchannel : s'.channel g = s.channel g) (hknown : known s' g = known s g)
    (hqueue : ∀ c, about g (s'.queue c) = about g (s.queue c)) :
    ∃ old new, Mail cfg (known s' g) (s'.kernel g) (s'.channel g)
      (fun c => about g (s'.queue c)) old new := by
  rcases h.mail g with ⟨old, new, hmail⟩
  refine ⟨old, new, ?_⟩
  rw [hchannel, hknown, funext hqueue]
  exact hmail.silent (hmail.follows.silent hk.barrier hk.agrees)

variable {L : Layout C P} {p : P}

/-- Only the task at `p` changes, and not what is known about its thread. -/
theorem Comm.frame [LinearOrder P] (h : Comm cfg s) (hcore : Core s L) (hp : s.mem p = .live)
    (hf : Frame s s' p)
    (hmail : ∀ old new, Mail cfg (some (s.heap p)) (s.kernel (s.heap p).gtid)
      (s.channel (s.heap p).gtid) (fun c => about (s.heap p).gtid (s.queue c)) old new →
      Mail cfg (some (s'.heap p)) (s.kernel (s.heap p).gtid) (s.channel (s.heap p).gtid)
        (fun c => about (s.heap p).gtid (s.queue c)) old new) : Comm cfg s' := by
  refine ⟨fun g => ?_, ?_, ?_⟩
  · by_cases hg : g = (s.heap p).gtid
    · subst hg
      have hknown : known s' (s.heap p).gtid = some (s'.heap p) := by
        rw [known, hf.alloc, (hcore.owned _ p).mpr ⟨hp, rfl⟩]
        rfl
      rcases h.mail (s.heap p).gtid with ⟨old, new, hold⟩
      rw [hcore.known_self hp] at hold
      rw [hknown, hf.kernel, hf.channel, hf.queue]
      exact ⟨old, new, hmail old new hold⟩
    · refine h.mail_same (by rw [hf.kernel]; exact .refl _) (by rw [hf.channel]) ?_
        fun _ => by rw [hf.queue]
      exact hcore.known_of_ne hf.heap (by rw [hf.alloc]) hg
  · rw [hf.agents, hf.kernel]
    exact h.free
  · rw [hf.agents, hf.queue]
    exact h.quiet

/-- The view does not change. -/
theorem Comm.frame_same [LinearOrder P] (h : Comm cfg s) (hcore : Core s L) (hp : s.mem p = .live)
    (hf : Frame s s' p) (hcpu : (s'.heap p).cpu = (s.heap p).cpu)
    (hseq : (s'.heap p).seqnum = (s.heap p).seqnum) (hview : (s'.heap p).view = (s.heap p).view) :
    Comm cfg s' := by
  refine h.frame hcore hp hf fun old new hmail => hmail.retask hcpu ?_
  rw [hview, hseq]
  exact hmail.follows

omit [DecidableEq G] in
/-- Only the task at `p` changes. -/
theorem Moves.one (hheap : ∀ q, q ≠ p → s'.heap q = s.heap q) (hmem : s'.mem = s.mem)
    (hv : (∀ c, p ∉ (s.cpus c).rq) ∨ (s'.heap p).vruntime = (s.heap p).vruntime)
    (hchange : Change cfg a (s.heap p) (s'.heap p))
    (hopened : ∀ c q, s'.agents c = .opened q → q ≠ p ∧ s.agents c = .opened q) :
    Moves cfg a s s' where
  vruntime c q hq := by
    by_cases hqp : q = p
    · subst hqp
      exact hv.resolve_left fun hnot => hnot c hq
    · rw [hheap q hqp]
  change q _ _ := by
    by_cases hqp : q = p
    · rw [hqp]
      exact hchange
    · rw [hheap q hqp]
      exact .refl _
  fresh q hq hnot := absurd (hmem ▸ hq) hnot
  opened c q hq := by
    rcases hopened c q hq with ⟨hqp, hq⟩
    exact .inl ⟨hq, hheap q hqp⟩

/-! ## The kernel -/

omit [DecidableEq G] in
theorem SameData.moves (h : SameData s s')
    (hopened : ∀ c p, s'.agents c = .opened p → s.agents c = .opened p) :
    Moves cfg a s s' where
  vruntime _ _ _ := by rw [h.heap]
  change p _ _ := by
    rw [h.heap]
    exact .refl _
  fresh p hp hnot := absurd (h.mem ▸ hp) hnot
  opened c p hp := .inl ⟨hopened c p hp, by rw [h.heap]⟩

variable {msg : Msg C Unit}

/-- The message of a thread goes to the end of its mail. -/
theorem Comm.mail_tells {k : Kernel.Task C} (h : Comm cfg s) (htells : Tells (s.kernel g) msg k) :
    ∃ old new, Mail cfg (known s g) k (channelFor cfg s.channel g msg g)
      (update (fun c => about g (s.queue c)) (channelFor cfg s.channel g msg g)
        (about g (s.queue (channelFor cfg s.channel g msg g)) ++ [(k.barrier, msg)])) old new := by
  rcases h.mail g with ⟨old, new, hmail⟩
  have happend := hmail.follows.append htells.next
  have hassoc : old ++ new ++ [(k.barrier, msg)] = old ++ (new ++ [(k.barrier, msg)]) :=
    List.append_assoc ..
  by_cases hnew : IsNew msg
  · refine ⟨old, new ++ [(k.barrier, msg)], ?_⟩
    rw [channelFor_new hnew]
    exact hmail.send_new (.inr hnew) (hassoc ▸ happend)
  · rw [channelFor_of_not_new hnew]
    by_cases hnil : new = []
    · subst hnil
      cases hknown : known s g with
      | some t =>
        rw [hknown] at hmail happend
        rw [List.append_nil] at happend
        exact ⟨_, [], hmail.send_old hnew happend⟩
      | none =>
        -- a thread that is not in ghost can only enter it
        rw [hknown] at hmail
        have hold := hmail.unknown rfl
        subst hold
        rcases htells.next .absent hmail.follows.1 with ⟨v', hv', -⟩
        exact absurd (hv'.isNew id).1 hnew
    · refine ⟨old, new ++ [(k.barrier, msg)], ?_⟩
      rw [hmail.channel_new hnil]
      exact hmail.send_new (.inl hnil) (hassoc ▸ happend)

variable {c : C}

/-- A message about a task that has a cpu goes to the channel of that cpu. -/
theorem Comm.channel_of_hasCpu (h : Comm cfg s) (hcpu : HasCpu (s.kernel g) c) :
    s.channel g = c := by
  rcases h.mail g with ⟨old, new, hmail⟩
  rcases hmail.follows.hasCpu hcpu with ⟨hview, hnew⟩
  have hnil : new = [] := by
    cases new with
    | nil => rfl
    | cons x rest =>
      grind [hmail.new_head]
  cases hknown : known s g with
  | none =>
    rw [hknown] at hview
    cases hview
  | some t =>
    rw [hmail.channel_old hnil t hknown]
    rw [hknown] at hview
    exact (view_eq_current hview).2

theorem Comm.tells {k : G → Kernel.Task C} (h : Comm cfg s)
    (htells : Tells (s.kernel g) msg (k g)) (hothers : ∀ g' ≠ g, Silent (s.kernel g') (k g')) :
    Comm cfg { s with
      kernel := k
      channel := channelFor cfg s.channel g msg
      queue := update s.queue (channelFor cfg s.channel g msg g)
        (s.queue (channelFor cfg s.channel g msg g) ++ [.task g (k g).barrier msg]) } := by
  refine ⟨fun g' => ?_, fun c hc g' hcpu => ?_, fun c hc g' i msg' hmem hneeds => ?_⟩
  · by_cases hg : g' = g
    · subst hg
      rw [about_append_self]
      exact h.mail_tells htells
    · exact h.mail_same (hothers g' hg) (channelFor_of_ne hg) rfl
        fun c => about_append_of_ne (Ne.symm hg)
  · by_cases hg : g' = g
    · subst hg
      exact h.free c hc g' (htells.hasCpu c hcpu)
    · exact h.free c hc g' ((hothers g' hg).hasCpu c hcpu)
  · have hnew : Message.task g' i msg' ∈ s.queue c ∨
        msg' = msg ∧ c = channelFor cfg s.channel g msg g := by
      by_cases hch : c = channelFor cfg s.channel g msg g
      · subst hch
        have hmem : Message.task g' i msg' ∈
            s.queue (channelFor cfg s.channel g msg g) ++ [.task g (k g).barrier msg] := by
          simpa using hmem
        rcases List.mem_append.mp hmem with hmem | hmem
        · exact .inl hmem
        · cases List.mem_singleton.mp hmem
          exact .inr ⟨rfl, rfl⟩
      · exact .inl (by simpa [hch] using hmem)
    rcases hnew with hmem | ⟨rfl, hch⟩
    · exact h.quiet c hc g' i msg' hmem hneeds
    · -- its cpu is the one of the agent, but the agent has it
      rcases htells.needs hneeds with ⟨c', hcpu⟩
      have hnew : ¬ IsNew msg' := by
        intro hnew
        cases msg' <;> first | exact hneeds | exact hnew
      rw [channelFor_of_not_new hnew, h.channel_of_hasCpu hcpu] at hch
      subst hch
      exact h.free c hc.awake g hcpu

/-- An event of a thread. -/
theorem Inv.kernelStep [LinearOrder P] {e : Event G Unit} (h : Inv cfg s)
    (hstep : kernelStep cfg s g e = some s') : Good cfg (.kernel g e) s s' := by
  rcases h.shape with ⟨L, hshape⟩
  unfold Cfs.kernelStep at hstep
  split at hstep
  · cases hstep
  · rename_i k hk
    cases hstep
    rcases step_tells (step_cases hk) with ⟨hothers, hself, -⟩
    have hdata : SameData s { s with kernel := k } := ⟨rfl, rfl, rfl, rfl, rfl, rfl⟩
    have hsilent : ∀ g', Silent (s.kernel g') (k g') := by
      intro g'
      by_cases hg : g' = g
      · exact hg ▸ hself rfl
      · exact hothers g' hg
    refine ⟨⟨⟨L, hdata.shape rfl hshape⟩, ⟨fun g' => ?_, fun c hc g' hcpu => ?_, h.comm.quiet⟩,
      h.crashed⟩, hdata.moves fun _ _ => id, fun hs _ => hdata.clean hs⟩
    · exact h.comm.mail_same (hsilent g') rfl rfl fun _ => rfl
    · exact h.comm.free c hc g' ((hsilent g').hasCpu c hcpu)
  · rename_i k msg hk
    have hdata : SameData s s' := by
      cases hstep
      exact ⟨rfl, rfl, rfl, rfl, rfl, rfl⟩
    cases hstep
    rcases step_tells (step_cases hk) with ⟨hothers, -, htells⟩
    exact ⟨⟨⟨L, hdata.shape rfl hshape⟩, h.comm.tells (htells msg rfl) hothers, h.crashed⟩,
      hdata.moves fun _ _ => id, fun hs _ => hdata.clean hs⟩

/-- A `CPU_TICK` is about no thread. -/
theorem Inv.tick [LinearOrder P] (h : Inv cfg s)
    (hs' : s' = { s with queue := update s.queue c (s.queue c ++ [.cpuTick]) }) :
    Good cfg (.tick c) s s' := by
  rcases h.shape with ⟨L, hshape⟩
  have hdata : SameData s s' := by
    subst hs'
    exact ⟨rfl, rfl, rfl, rfl, rfl, rfl⟩
  have hqueue : ∀ c', s'.queue c' = s.queue c' ∨ s'.queue c' = s.queue c' ++ [.cpuTick] := by
    intro c'
    subst hs'
    by_cases hc : c' = c
    · subst hc
      exact .inr (update_self ..)
    · exact .inl (update_of_ne hc ..)
  subst hs'
  refine ⟨⟨⟨L, hdata.shape rfl hshape⟩, ⟨fun g => ?_, h.comm.free, fun c' hc g i msg hmem => ?_⟩,
    h.crashed⟩, hdata.moves fun _ _ => id, fun hs _ => hdata.clean hs⟩
  · refine h.comm.mail_same (.refl _) rfl rfl fun c' => ?_
    rcases hqueue c' with hq | hq
    · rw [hq]
    · rw [hq, about_append, about_tick]
      exact List.append_nil _
  · grind [h.comm.quiet]

/-! ## The agent gets its cpu -/

omit [DecidableEq G] in
/-- A task keeps its cpu, its affinity and its state. -/
theorem Change.same {t t' : CfsTask G C} (hcpu : t'.cpu = t.cpu)
    (haff : t'.cpuAffinity = t.cpuAffinity) (hqueued : t'.Queued → t.Queued) :
    Change cfg a t t' :=
  ⟨.inl haff, fun h => .inr (.inr ⟨hcpu, haff, .inl (hqueued h)⟩)⟩

/-- An agent without a transaction works on a task of its cpu. -/
theorem Inv.works [LinearOrder P] {s₁ : State G C P} {L' : Layout C P} {t : CfsTask G C}
    (h : Inv cfg s) (hdata : SameData s s₁) (hshape : Shape s₁ L)
    (hopened : ∀ c' q, s₁.agents c' = .opened q → s.agents c' = .opened q) (hp : s.mem p = .live)
    (hcpu : (s.heap p).cpu = c) (hnone : (s₁.agents c).task = none) (hawake : ¬ (s₁.agents c).Idle)
    (hdoes : Does s₁ s' L' p t) (hloc : L'.loc = update L.loc p t.home) (hvalid : t.Valid)
    (hset : L'.actual = L'.current) (hmov : L'.moving = L.moving)
    (hhome : ∀ c', t.home = some (c', .current) → c' = c)
    (hv : (∀ c, p ∉ (s.cpus c).rq) ∨ t.vruntime = (s.heap p).vruntime)
    (hchange : Change cfg a (s.heap p) t) (hcomm : Comm cfg s') : Good cfg a s s' := by
  have hframe := hdoes.frame
  have htask := hdoes.holds.task
  have hp₁ : s₁.mem p = .live := hdata.mem ▸ hp
  have hne := hshape.task_ne hp₁ (by rw [hdata.heap, hcpu]) hnone
  refine ⟨⟨⟨L', ?_⟩, hcomm, hframe.crashed.trans (hdata.crashed.trans h.crashed)⟩, ?_,
    fun hs _ => ?_⟩
  · refine hshape.does hp₁ hdoes hloc hvalid hset hmov hne fun c' hc => ?_
    rw [hhome c' hc]
    exact hawake
  · refine .one (p := p) (fun q hq => by rw [hframe.heap q hq, hdata.heap])
      (hframe.mem.trans hdata.mem) (by rw [htask]; exact hv) (by rw [htask]; exact hchange)
      fun c' q hq => ?_
    rw [hframe.agents] at hq
    refine ⟨?_, hopened c' q hq⟩
    rintro rfl
    exact hne c' (by rw [hq]; rfl)
  · have hsound := hdata.clean hs
    exact ⟨hframe.sound hsound.1 hp₁, (hframe.clean hsound.1 hp₁).trans hsound.2⟩

theorem Inv.wake [LinearOrder P] {runtime : UInt64} (h : Inv cfg s)
    (hlatched : ∀ g, (s.kernel g).phase ≠ .latched c) (hstep : wake cfg s c runtime = some s') :
    Good cfg (.wake c runtime) s s' := by
  rcases h.shape with ⟨L, hshape⟩
  -- the agent takes the cpu
  set s₁ := { s with kernel := takeCpu s.kernel c }.setAgent c .drain with hs₁
  have hawake : (s.agents c = .asleep ∨ ∃ p, s.agents c = .committed p) →
      Shape s₁ L ∧ Comm cfg s₁ := by
    intro hagent
    have hmov : (s.agents c).moving = [] := by
      rcases hagent with hagent | ⟨p, hagent⟩ <;> rw [hagent] <;> rfl
    have hidle : ¬ (s.agents c).Idle := by
      rcases hagent with hagent | ⟨p, hagent⟩ <;> rw [hagent] <;> exact id
    have hkernel : Shape { s with kernel := takeCpu s.kernel c } L :=
      SameData.shape (s := s) ⟨rfl, rfl, rfl, rfl, rfl, rfl⟩ rfl hshape
    refine ⟨hkernel.setAgent hmov.symm (iff_of_false id hidle) nofun, fun g => ?_,
      fun c' hc g hcpu => ?_, fun c' hc => ?_⟩
    · exact h.comm.mail_same (takeCpu_silent s.kernel c g) rfl rfl fun _ => rfl
    · by_cases hcc : c' = c
      · subst hcc
        exact takeCpu_free (hlatched g) hcpu
      · have hc : (s.agents c').Awake := by
          simpa [hs₁, State.setAgent, hcc] using hc
        exact h.comm.free c' hc g ((takeCpu_silent s.kernel c g).hasCpu c' hcpu)
    · by_cases hcc : c' = c
      · subst hcc
        simp [hs₁, State.setAgent, Agent.Past] at hc
      · have hc : (s.agents c').Past := by
          simpa [hs₁, State.setAgent, hcc] using hc
        exact h.comm.quiet c' hc
  have hdata : SameData s s₁ := ⟨rfl, rfl, rfl, rfl, rfl, rfl⟩
  have hopened : ∀ c' q, s₁.agents c' = .opened q → c' ≠ c ∧ s.agents c' = .opened q := by
    intro c' q hq
    by_cases hc : c' = c
    · subst hc
      simp [hs₁, State.setAgent] at hq
    · exact ⟨hc, by simpa [hs₁, State.setAgent, hc] using hq⟩
  simp only [Cfs.wake] at hstep
  split at hstep
  · rename_i hagent
    rcases Option.ite_none_right_eq_some.mp hstep with ⟨-, hs⟩
    cases hs
    rcases hawake (.inl hagent) with ⟨hshape', hcomm⟩
    exact ⟨⟨⟨L, hshape'⟩, hcomm, h.crashed⟩, hdata.moves fun c' q hq => (hopened c' q hq).2,
      fun hs _ => hdata.clean hs⟩
  · -- the task that ran is charged
    rename_i p hagent
    cases hstep
    rcases hawake (.inr ⟨p, hagent⟩) with ⟨hshape', hcomm⟩
    have hcur := (hshape.task c p (by rw [hagent]; rfl)).1
    have hp := hshape.live_of_agent hcur hagent id
    have hloc : L.loc p = some (c, .current) := hshape.arranged.current_iff.mp hcur
    have hcpu : (s.heap p).cpu = c := hshape.cpu_of_loc hp hloc
    have hdrain : s₁.agents c = .drain := update_self ..
    show Good cfg _ s (charge s₁ p runtime)
    clear_value s₁
    have hp₁ : s₁.mem p = .live := hdata.mem ▸ hp
    have hcharge : Does s₁ (charge s₁ p runtime) L p { s₁.heap p with
          vruntime := (s₁.heap p).vruntime +
            (s₁.heap p).inverseWeight * runtime.toNat / 2 ^ 22 % 2 ^ 64 } :=
      (hshape'.holds hp₁).modify rfl (.inr fun c' => by rw [hloc]; simp)
    have htask := hcharge.holds.task
    refine h.works hdata hshape' (fun c' q hq => (hopened c' q hq).2) hp hcpu (by rw [hdrain]; rfl)
      (by rw [hdrain]; exact id) hcharge ?_ (hshape'.valid p hp₁) hshape'.settled rfl ?_
      (.inl fun c' hmem => ?_) (.same ?_ ?_ ?_) ?_
    · exact (update_eq_self_iff.mpr (hshape'.home p hp₁).symm).symm
    · intro c' hhome
      exact (home_cpu hhome).trans (by rw [hdata.heap, hcpu])
    · rw [hshape.arranged.mem_rq, hloc] at hmem
      simp at hmem
    · rw [hdata.heap]
    · rw [hdata.heap]
    · rw [hdata.heap]
      exact id
    · exact hcomm.frame_same hshape'.toCore hp₁ hcharge.frame (by rw [htask]) (by rw [htask])
        (by rw [htask]; rfl)
  · cases hstep

theorem Inv.drained [LinearOrder P] (h : Inv cfg s) (hagent : s.agents c = .drain)
    (hqueue : s.queue c = []) {todo : List G} :
    Good cfg (.drained c) s (s.setAgent c (.migrate todo)) := by
  rcases h.shape with ⟨L, hshape⟩
  have hdata : SameData s (s.setAgent c (.migrate todo)) := ⟨rfl, rfl, rfl, rfl, rfl, rfl⟩
  have hagents : ∀ c', (s.setAgent c (.migrate todo)).agents c' = s.agents c' ∨ c' = c := by
    intro c'
    by_cases hc : c' = c
    · exact .inr hc
    · exact .inl (update_of_ne hc ..)
  refine ⟨⟨⟨L, ?_⟩, ⟨fun g => ?_, fun c' hc => ?_, fun c' hc => ?_⟩, h.crashed⟩,
    hdata.moves fun c' p hp => ?_, fun hs _ => hdata.clean hs⟩
  · exact hshape.setAgent (by rw [hagent]; rfl) (iff_of_false id (by rw [hagent]; exact id)) nofun
  · exact h.comm.mail_same (.refl _) rfl rfl fun _ => rfl
  · rcases hagents c' with heq | rfl
    · rw [heq] at hc
      exact h.comm.free c' hc
    · exact h.comm.free c' (by rw [hagent]; trivial)
  · rcases hagents c' with heq | rfl
    · rw [heq] at hc
      exact h.comm.quiet c' hc
    · intro g i msg hmem
      have hmem : Message.task g i msg ∈ s.queue c' := hmem
      rw [hqueue] at hmem
      cases hmem
  · rcases hagents c' with heq | rfl
    · rw [← heq]
      exact hp
    · simp [State.setAgent] at hp

end Inv

end Cfs
