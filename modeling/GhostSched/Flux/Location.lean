import GhostSched.Flux.Kernel

/-!
# Where a thread is

Every step of the system keeps the invariant of `Ball.lean`, so it holds in every
state of every run. What a reader wants to know of it is the location of a
thread: on biff's runqueue, marked as pending, or with the kernel, but never on
the runqueue and in one of the other places.

* `Allowed` is what the kernel guarantees when a thread enters ghost.
* `Inv.step` puts the lemmas about handlers, PNT and the kernel together.
* `thread_location` is the result for runs; `preempted_on_cpu` shows how far it
  goes.
-/

namespace Flux

open Transition Function

variable {G T K : Type*} {s s' s₀ : State G T K} {g : G} {t : T} {c : K}

/-! ## What the kernel guarantees -/

/-- Nobody refers to a status word index. -/
structure Unused (s : State G T K) (idx : T) : Prop where
  swLookup : ∀ g, s.swLookup g ≠ some idx
  pnt : ∀ c, (s.pnt c).thread ≠ some idx
  rq : idx ∉ s.rq
  handlers : ∀ g h, s.handlers g = some h → h.thread ≠ some idx ∧ ∀ r, .insert idx r ∉ h.todo

/-- The kernel does not reuse a status word index that is referred to, nor the
seqnums that a cpu in PNT still has of an earlier stay of the thread. -/
def Allowed (s : State G T K) : Action G T K → Prop
  | .kernel g (.enter idx barrier _) => Unused s idx ∧
    ∀ c t n, (s.pnt c).Attempt t n → (s.threads t).gtid = g → n ≤ barrier
  | _ => True

variable {idx : T}

theorem Unused.fresh (hu : Unused s idx) : Fresh s g idx :=
  ⟨hu.swLookup, hu.pnt, hu.rq, fun g' h hh =>
    ⟨(hu.handlers g' h hh).1, fun _ => (hu.handlers g' h hh).2⟩⟩

/-! ## Steps -/

section Step

variable [DecidableEq G]

omit [DecidableEq G] in
/-- Attempts to latch a thread in ghost are not ahead of its barrier. -/
theorem Inv.attempt_le (hI : Inv s) {n : ℕ} (hatt : (s.pnt c).Attempt t n)
    (hg : (s.threads t).gtid = g) : n ≤ (s.tasks g).barrier :=
  hg ▸ ((hI.pnt c).attempt t n hatt).1

variable {caller : Option K} {msg : Msg T}

/-- A message about a thread in ghost. -/
theorem Inv.send (hI : Inv s) (f : Task → Task) (hfree : s.TaskLockFree g)
    (hbar : (f (s.tasks g)).barrier = (s.tasks g).barrier) (hph : msg.Phase (f (s.tasks g)).phase)
    (hf : msg.Follows (s.tasks g).phase (f (s.tasks g)).phase)
    (hins : ∀ idx r, .insert idx r ∉ msg.handler) :
    Inv ((s.setTask g f).send g msg caller) := by
  have hlt : (s.tasks g).barrier < (f (s.tasks g)).barrier + 1 := by
    rw [hbar]
    exact Nat.lt_succ_self _
  have hm : Sent s ((s.setTask g f).send g msg caller) g
      { f (s.tasks g) with barrier := (f (s.tasks g)).barrier + 1 } msg caller := by
    refine ⟨hfree, ?_, ?_, rfl, rfl, rfl, rfl, rfl, rfl, ?_, fun _ => hlt, hph, fun _ => hf,
      fun idx r hin => absurd hin (hins idx r)⟩
    · simp [State.send, State.setTask, State.setHandler]
    · simp [State.send, State.setTask, State.setHandler]
    · exact fun c j n hatt hg => (hI.attempt_le hatt hg).trans_lt hlt
  exact hI.sent hm

/-- A message that does not change the state of the thread. -/
theorem Inv.notify (hI : Inv s) (hfree : s.TaskLockFree g) (hph : msg.Phase (s.tasks g).phase)
    (henq : .enqueue ∉ msg.handler) (habs : (s.tasks g).phase ≠ .absent)
    (hins : ∀ idx r, .insert idx r ∉ msg.handler) :
    Inv (s.send g msg caller) := by
  have hid : s.setTask g id = s := by simp [State.setTask]
  have hI' : Inv ((s.setTask g id).send g msg caller) := hI.send id hfree rfl hph
    ⟨fun hin => absurd hin henq, .inr, fun hr _ => hr, fun ha => absurd ha habs⟩ hins
  rw [hid] at hI'
  exact hI'

/-- A thread enters ghost. -/
theorem Inv.enter (hI : Inv s) {barrier : ℕ} {r : Bool} (hfree : s.TaskLockFree g)
    (habs : (s.tasks g).phase = .absent) (hok : Allowed s (.kernel g (.enter idx barrier r)))
    (b : Bool) : Inv ((s.setTask g fun _ =>
      ⟨if r then .runnable else .blocked, false, b, barrier⟩).send g (.new idx r) none) := by
  have hm : Sent s ((s.setTask g fun _ =>
      ⟨if r then .runnable else .blocked, false, b, barrier⟩).send g (.new idx r) none) g
      ⟨if r then .runnable else .blocked, false, b, barrier + 1⟩ (.new idx r) none := by
    refine ⟨hfree, ?_, ?_, rfl, rfl, rfl, rfl, rfl, rfl, ?_, fun hne => absurd habs hne, rfl,
      fun hne => absurd habs hne, ?_⟩
    · simp [State.send, State.setTask, State.setHandler]
    · simp [State.send, State.setTask, State.setHandler]
    · exact fun c j n hatt hg => Nat.lt_succ_of_le (hok.2 c j n hatt hg)
    · intro idx' r' hin
      have hidx : idx' = idx := by
        cases r <;> simp only [Msg.handler] at hin <;> simp at hin <;> exact hin.1
      rw [hidx]
      exact ⟨habs, hok.1.fresh⟩
  exact hI.sent hm

omit [DecidableEq G] in
/-- What a message of the kernel does about the ball. -/
theorem KernelMsg.follows {k k' : Task} (hk : KernelMsg k msg k') :
    msg.Phase k'.phase ∧ msg.Follows k.phase k'.phase ∧ k'.barrier = k.barrier ∧
      ∀ idx r, .insert idx r ∉ msg.handler := by
  cases hk with
  | changeAffinity hp | changePrio hp =>
    exact ⟨hp, by constructor <;> simp [Msg.handler, hp], rfl, by simp [Msg.handler]⟩
  | preempt hp | yield hp =>
    refine ⟨rfl, by constructor <;> simp [Msg.handler, hp], rfl, ?_⟩
    cases k.inSwitchto <;> simp [Msg.handler]
  | depart hp => exact ⟨rfl, by constructor <;> simp [Msg.handler], rfl, by simp [Msg.handler]⟩
  | _ hp => exact ⟨rfl, by constructor <;> simp [Msg.handler, hp], rfl, by simp [Msg.handler]⟩

/-- The kernel keeps the ball of both threads of a switch. -/
theorem Inv.switch {target : G} (hI : Inv s) (hfree : s.TaskLockFree g)
    (hp : (s.tasks g).phase = .running) (hne : target ≠ g) (hft : s.TaskLockFree target)
    (hpt : (s.tasks target).phase = .blocked) : Inv (s.switch g target) := by
  have htask : (s.setTask g fun k => { k with phase := .blocked }).tasks target =
      s.tasks target := update_of_ne hne ..
  refine Inv.setTask (hI.setTask _ rfl (.inr ⟨hfree, ?_, ?_⟩)) _ rfl (.inr ⟨hft, ?_, ?_⟩)
  · simp [hp]
  · simp [hp]
  · simp [htask, hpt]
  · simp [htask, hpt]

/-- The kernel keeps the invariant. -/
theorem Inv.kernelStep {e : KernelEvent G T} (hI : Inv s) (hok : Allowed s (.kernel g e))
    (hs : Flux.kernelStep s g e = some s') : Inv s' := by
  rcases kernelStep_cases hs with ⟨hfree, hcase⟩
  rcases hcase with ⟨idx, barrier, r, he, habs, hs'⟩ | ⟨msg, k, hk, -, hs'⟩ |
    ⟨target, hp, hne, hft, hpt, hs'⟩ | hs'
  · rw [hs']
    rw [he] at hok
    exact hI.enter hfree habs hok _
  · rw [hs']
    rcases hk.follows with ⟨hph, hf, hbar, hins⟩
    exact hI.send _ hfree hbar hph hf hins
  · have hI' := hI.switch hfree hp hne hft hpt
    rw [hs']
    split
    · exact hI'
    · -- the start of a chain
      have hblocked : ((s.switch g target).tasks g).phase = .blocked := by
        simp [State.switch, State.setTask, Ne.symm hne]
      exact hI'.notify hfree hblocked (by simp [Msg.handler]) (by simp [hblocked])
        (by simp [Msg.handler])
  · rw [hs']
    exact hI.setTask _ rfl (.inl rfl)

variable [DecidableEq T] [DecidableEq K]

/-- A cpu in PNT keeps the invariant. -/
theorem Inv.pntStep {ok : Bool} (hI : Inv s) (hs : Flux.pntStep s c ok = some s') : Inv s' := by
  unfold Flux.pntStep at hs
  split at hs
  · -- __biff_pick_first_to_run
    split at hs
    · split at hs <;> cases hs
      exact hI.pop ‹_› ‹_› ‹_›
    · cases hs
  · cases hs
    exact hI.readSeqnum ‹_›
  · cases hs
    exact hI.setPending ‹_›
  · cases hs
    exact hI.incref ‹_›
  · cases hs
    exact hI.unlock ‹_›
  · -- bpf_ghost_run_gtid
    rename_i t n hpc
    dsimp only at hs
    split at hs
    · rename_i hfree
      split at hs
      · split at hs <;> cases hs
        rename_i hrun
        exact hI.latched ⟨hpc, hfree, hrun.1, rfl, rfl, rfl, rfl, rfl, rfl, rfl, rfl⟩
      · split at hs <;> cases hs
        · exact hI.giveUp (by simp [hpc]) (by simp [hpc]) (.inr rfl)
        · rename_i hin
          have hI' : Inv (s.send (s.threads t).gtid .latchFailure (some c)) :=
            hI.notify hfree hin (by simp [Msg.handler]) hin (by simp [Msg.handler])
          have hpc' : (s.send (s.threads t).gtid .latchFailure (some c)).pnt c = .run t n := hpc
          exact hI'.giveUp (by simp [hpc']) (by simp [hpc']) (.inl rfl)
    · cases hs
  · cases hs
    exact hI.clearPending ‹_›
  · cases hs
    exact hI.wonDecref ‹_›
  · -- the table still has its reference
    rename_i t hpc
    have htr := ((hI.pnt c).won t (by simp [hpc])).2.1
    have hd : Deleter s t (.inl c) := by
      change (s.pnt c).Deletes t
      simp [hpc]
    exact absurd htr.2 ((hI.refs t).deleter _ hd).2.1
  · cases hs
    exact hI.wonReturn ‹_›
  · rename_i t hpc
    split at hs
    · split at hs <;> cases hs
      exact hI.giveUp (by simp [hpc]) (by simp [hpc]) (.inr rfl)
    · cases hs
      exact hI.giveUp (by simp [hpc]) (by simp [hpc]) (.inr rfl)
  · cases hs
    exact hI.failedDecref ‹_›
  · cases hs
    exact hI.failedDelete ‹_›

/-- Every step of the system keeps the invariant. -/
theorem Inv.step {a : Action G T K} (hI : Inv s) (hok : Allowed s a)
    (hs : Flux.step s a = some s') : Inv s' := by
  cases a with
  | kernel g e => exact hI.kernelStep hok hs
  | handler g => exact hI.handlerStep hs
  | pnt c ok => exact hI.pntStep hs

end Step

/-! ## Runs -/

/-- Flux has just been loaded: its maps are zero, and no thread is in ghost. -/
structure Init (s : State G T K) : Prop where
  rq : s.rq = []
  biffLock : s.biffLock = none
  nrCpusWanted : s.nrCpusWanted = 0
  threads : ∀ t, (s.threads t).enqueued = false ∧ (s.threads t).refcnt = 0
  swLookup : ∀ g, s.swLookup g = none
  pnt : ∀ c, s.pnt c = .idle
  handlers : ∀ g, s.handlers g = none
  latchedBy : ∀ g, s.latchedBy g = none
  tasks : ∀ g, (s.tasks g).phase = .absent

theorem Init.inv (h₀ : Init s) : Inv s := by
  have htr : ∀ t, ¬ Tracked s t := by
    intro t htr
    have hl := htr.1
    rw [h₀.swLookup] at hl
    cases hl
  constructor
  · intro c
    simp [h₀.biffLock, h₀.pnt]
  · intro t
    simp [h₀.rq, (h₀.threads t).1]
  · simp [h₀.rq]
  · simp [h₀.rq]
  · simp [h₀.swLookup]
  · exact fun t ht => absurd ht (htr t)
  · intro c
    constructor <;> simp [h₀.pnt]
  · simp [h₀.handlers]
  · intro t
    refine ⟨fun ht => absurd ht (htr t), fun _ => (h₀.threads t).2.le, ?_⟩
    intro a ha
    cases a with
    | inl c =>
      change (s.pnt c).Deletes t at ha
      simp [h₀.pnt] at ha
    | inr g =>
      rcases ha with ⟨h, hh, -⟩
      simp [h₀.handlers] at hh

section Runs

variable [DecidableEq G] [DecidableEq T] [DecidableEq K]

theorem Init.reachable_inv (h₀ : Init s₀) (h : StepsWhen Allowed step s₀ s) : Inv s :=
  h.invariant (fun _ _ _ hI hok hs => hI.step hok hs) h₀.inv

/-- The location of a thread, in every state of every run. The `enqueued` flag says
whether it is on the runqueue, where it is at most once, and not while it is
marked as pending. A thread on the runqueue is runnable in the kernel, and so
neither latched nor running, or is leaving ghost and will be dequeued. -/
theorem thread_location (h₀ : Init s₀) (h : StepsWhen Allowed step s₀ s) :
    (∀ t, (s.threads t).enqueued = true ↔ t ∈ s.rq) ∧ s.rq.Nodup ∧
    (∀ t, (s.threads t).pendingLatch = true → t ∉ s.rq) ∧
    ∀ t ∈ s.rq, (s.tasks (s.threads t).gtid).phase = .runnable ∨
      (s.tasks (s.threads t).gtid).phase = .absent ∧ Has s (s.threads t).gtid .dequeue := by
  have hI := h₀.reachable_inv h
  refine ⟨hI.enqueued, hI.nodup, ?_, ?_⟩
  · intro t hp hin
    rw [((hI.thread t (hI.queued t hin)).queued hin).1] at hp
    cases hp
  · intro t hin
    have hok := hI.thread t (hI.queued t hin)
    by_contra hne
    rw [not_or] at hne
    by_cases habs : (s.tasks (s.threads t).gtid).phase = .absent
    · rcases (hok.leaving habs).2.2 with hdq | ⟨hnot, -⟩
      · exact hne.2 ⟨habs, hdq⟩
      · exact hnot hin
    · exact (hok.kernel hne.1 habs).1 hin

/-- References in every state of every run. A thread of biff has one for the table and one for each
cpu that has taken it and not yet let go. The cpu that latches it is the only one, and still finds
its entry. An entry is gone only when the count is used up, and one party at most is about to
delete it. -/
theorem references_exact (h₀ : Init s₀) (h : StepsWhen Allowed step s₀ s) (t : T) :
    (Tracked s t → ∃ F : Finset K, (∀ c, c ∈ F ↔ (s.pnt c).HoldsRef t) ∧
      (s.threads t).refcnt = F.card + 1) ∧
    (∀ c, (s.pnt c).Won t → s.swLookup (s.threads t).gtid = some t ∧
      ∀ c', (s.pnt c').Won t → c' = c) ∧
    (s.swLookup (s.threads t).gtid ≠ some t → (s.threads t).refcnt ≤ 0) ∧
    ∀ a, Deleter s t a → (s.threads t).refcnt ≤ 0 ∧ s.swLookup (s.threads t).gtid = some t ∧
      ∀ b, Deleter s t b → b = a := by
  have hI := h₀.reachable_inv h
  have hr := hI.refs t
  refine ⟨hr.tracked, ?_, hr.deleted, ?_⟩
  · intro c hc
    rcases (hI.pnt c).won t hc with ⟨hl, htr, -⟩
    refine ⟨htr.1, fun c' hc' => ?_⟩
    -- the kernel knows who has latched the thread
    exact Option.some.inj (((hI.pnt c').won t hc').1.symm.trans hl)
  · intro a ha
    rcases hr.deleter a ha with ⟨hle, -, hl, huniq⟩
    exact ⟨hle, hl, huniq⟩

/-- At most one cpu at a time can latch a thread, and only while nobody else has it. -/
theorem latch_exclusive (h₀ : Init s₀) (h : StepsWhen Allowed step s₀ s) (c : K) (t : T)
    (hc : (s.pnt c).Attempt t (s.tasks (s.threads t).gtid).barrier) :
    (s.tasks (s.threads t).gtid).phase = .runnable ∧ (s.threads t).pendingLatch = true ∧
    t ∉ s.rq ∧ ¬ Has s (s.threads t).gtid .enqueue ∧
    ∀ c', (s.pnt c').Attempt t (s.tasks (s.threads t).gtid).barrier → c' = c := by
  have hI := h₀.reachable_inv h
  have htr : Tracked s t :=
    not_not.mp fun hno => lt_irrefl _ (((hI.pnt c).attempt t _ hc).2 hno)
  have hok := hI.thread t htr
  have hno : ¬ NoFresh s t := fun hno => lt_irrefl _ (hno c _ hc)
  rcases hok.fresh c _ hc rfl with ⟨hp, huniq⟩
  refine ⟨?_, hp, fun hin => hno (hok.queued hin).2.2, fun ho => hno (hok.owes ho).2.2.2.1,
    fun c' hc' => huniq c' _ hc' rfl⟩
  by_contra hph
  by_cases habs : (s.tasks (s.threads t).gtid).phase = .absent
  · exact hno (hok.leaving habs).1
  · exact hno (hok.kernel hph habs).2.2.1

end Runs

/-! ## A thread that is preempted -/

/-- One thread, one status word, one cpu, before the thread enters ghost. -/
def booted : State Unit Unit Unit where
  rq := []
  biffLock := none
  nrCpusWanted := 0
  threads := fun _ => ⟨(), 0, 0, .none, false, false, false, false⟩
  swLookup := fun _ => none
  pnt := fun _ => .idle
  handlers := fun _ => none
  latchedBy := fun _ => none
  tasks := fun _ => ⟨.absent, false, false, 0⟩

theorem booted_init : Init booted := by
  constructor <;> simp [booted]

theorem booted_allowed (barrier : ℕ) (r : Bool) :
    Allowed booted (.kernel () (.enter () barrier r)) := by
  refine ⟨?_, by simp [booted]⟩
  constructor <;> simp [booted]

/-- Steps that are allowed in any state. -/
def Action.alwaysAllowed : Action G T K → Bool
  | .kernel _ (.enter _ _ _) => false
  | _ => true

theorem allowed_of_always (s : State G T K) (a : Action G T K) (h : a.alwaysAllowed = true) :
    Allowed s a := by
  unfold Action.alwaysAllowed at h
  split at h
  · cases h
  · rename_i hne
    unfold Allowed
    split
    · exact absurd rfl (hne _ _ _ _)
    · trivial

/-- The thread has entered ghost. It is enqueued, latched and on its cpu when the
kernel preempts it. The handler enqueues it at once. -/
def preemption : List (Action Unit Unit Unit) :=
  List.replicate 7 (.handler ()) ++ List.replicate 9 (.pnt () true) ++
    [.kernel () .getOnCpu] ++ List.replicate 4 (.handler ()) ++
    [.kernel () .preempt, .handler (), .handler ()]

/-- The thread is on the runqueue while its old cpu is still leaving it. -/
theorem preempted_on_cpu : ∃ s₀ s : State Unit Unit Unit, Init s₀ ∧ StepsWhen Allowed step s₀ s ∧
    ∃ t ∈ s.rq, (s.tasks (s.threads t).gtid).onCpu = true ∧ (s.threads t).onCpu = true :=
  ⟨booted, _, booted_init, .head (booted_allowed 0 true)
    rfl (.of_execWhen allowed_of_always preemption rfl),
    (), by decide, rfl, rfl⟩

/-- In that state the kernel has the thread as runnable. -/
theorem thread_location_preempted : ∃ s : State Unit Unit Unit, () ∈ s.rq ∧
    ((s.threads ()).enqueued = true ↔ () ∈ s.rq) ∧
    ((s.tasks (s.threads ()).gtid).phase = .runnable ∨
      (s.tasks (s.threads ()).gtid).phase = .absent ∧ Has s (s.threads ()).gtid .dequeue) := by
  have hrun : StepsWhen Allowed step booted _ :=
    .head (booted_allowed 0 true) rfl (.of_execWhen allowed_of_always preemption rfl)
  have hloc := thread_location booted_init hrun
  exact ⟨_, by decide, hloc.1 (), hloc.2.2.2 () (by decide)⟩

/-- The cpu has taken the thread and is about to latch it. -/
def taken : State Unit Unit Unit :=
  (exec step booted (.kernel () (.enter () 0 true) :: preemption.take 11)).getD booted

theorem taken_reachable : StepsWhen Allowed step booted taken :=
  .head (booted_allowed 0 true) rfl (.of_execWhen allowed_of_always (preemption.take 11) rfl)

theorem references_exact_taken : (taken.threads ()).refcnt = 2 ∧
    ∃ F : Finset Unit, (∀ c, c ∈ F ↔ (taken.pnt c).HoldsRef ()) ∧
      (taken.threads ()).refcnt = F.card + 1 :=
  ⟨rfl, (references_exact booted_init taken_reachable ()).1 ⟨rfl, rfl⟩⟩

theorem latch_exclusive_taken : (taken.threads ()).pendingLatch = true ∧ () ∉ taken.rq := by
  have hl := latch_exclusive booted_init taken_reachable () () ⟨rfl, rfl⟩
  exact ⟨hl.2.1, hl.2.2.1⟩

end Flux
