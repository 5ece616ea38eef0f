import GhostSched.Kernel
import Mathlib.Data.List.Basic

/-!
# Schedulers with one global agent

A global agent reads the messages about all threads from one channel and commits
tasks to the other cpus. While it does so the kernel goes on, so what the agent
believes about a thread is behind by the messages it has not read yet.

* `World` is the kernel's side with the channel. `World.step` is an event of the
  kernel, `World.commit` a transaction that succeeds.
* `View` is what the agent may believe about a thread, and `Next` what a message
  makes of it: a message that has no `Next` is one the agent cannot get.
* `Follows` says that the unread messages lead from what the agent believes to
  what the thread is doing. It holds along every run: `Follows.sends`,
  `Follows.commit` and `Follows.vacate` are the steps, and `Comm` is the same for
  all threads.

A status word belongs to one stay of a thread in ghost. A thread that leaves and
comes back has a new one with its own barrier, which may be one that the agent
has seen before. So a transaction that was opened for the old stay can put the
new one on a cpu; the part of `Follows` after the thread has left is therefore
looser than the part before.
-/

namespace Central

open Kernel Function

/-! ## The kernel and the channel -/

/-- A message with the barrier and the runtime of its thread. -/
structure Entry (G C I : Type*) where
  gtid : G
  msg : Msg C I
  seqnum : ℕ
  runtime : ℕ

structure World (G C I : Type*) where
  kernel : G → Kernel.Task C
  /-- The cumulative runtime of a thread. -/
  runtime : G → ℕ
  queue : List (Entry G C I)

inductive Event (G C I : Type*) where
  | thread (g : G) (e : Kernel.Event G I)
  /-- A thread that is running on a cpu enters ghost. -/
  | enterRunning (g : G) (info : I) (barrier : ℕ) (cpu : C)
  | run (g : G) (duration : ℕ)

/-- The thread runs on the cpu or is about to. -/
def OnCpu (c : C) : Phase C → Prop
  | .latched c' => c' = c
  | .running c' _ => c' = c
  | _ => False

instance {C : Type*} [DecidableEq C] (c : C) (p : Phase C) : Decidable (OnCpu c p) := by
  unfold OnCpu
  split <;> infer_instance

namespace World

variable {G C I : Type*} [DecidableEq G]

def step (w : World G C I) : Event G C I → Option (World G C I)
  | .thread g e =>
    (Kernel.step false w.kernel g e).map fun (k, msg) =>
      { w with
        kernel := k
        queue := w.queue ++ (msg.map fun m => ⟨g, m, (k g).barrier, w.runtime g⟩).toList }
  | .enterRunning g info barrier c =>
    match (w.kernel g).phase with
    | .absent =>
      some { w with
        kernel := update w.kernel g ⟨.running c false, true, barrier⟩
        queue := w.queue ++ [⟨g, .new info true, barrier, w.runtime g⟩] }
    | _ => none
  | .run g duration =>
    match (w.kernel g).phase with
    | .running _ _ =>
      some { w with runtime := update w.runtime g (w.runtime g + duration) }
    | _ => none

/-- The threads on a cpu that lose it to a transaction without a message. -/
def vacate [DecidableEq C] (w : World G C I) (c : C) (lose : G → Bool) : World G C I :=
  { w with
    kernel := fun g =>
      if lose g = true ∧ OnCpu c (w.kernel g).phase then { w.kernel g with phase := .runnable }
      else w.kernel g }

/-- A transaction that puts a thread on a cpu. -/
def commit [DecidableEq C] (w : World G C I) (c : C) (g : G) (barrier : ℕ) (lose : G → Bool) :
    Option (World G C I) :=
  (Kernel.latch w.kernel g c barrier).map fun k =>
    { w with kernel := k }.vacate c fun g' => lose g' && decide (g' ≠ g)

/-- The unread messages about a thread. -/
def pending (w : World G C I) (g : G) : List (Entry G C I) :=
  w.queue.filter fun e => e.gtid = g

end World

variable {G C I : Type*}

/-- The message is the last one about a stay in ghost. -/
def Entry.last (e : Entry G C I) : Bool :=
  match e.msg with
  | .dead | .departed _ => true
  | _ => false

/-- The message says that the thread does not run any more. -/
def Entry.stop (e : Entry G C I) : Bool :=
  match e.msg with
  | .blocked _ _ | .preempt _ _ | .yield _ _ => true
  | _ => false

/-- The barrier in the status word of the oldest stay whose messages are unread. -/
def barrierOf (now : ℕ) : List (Entry G C I) → ℕ
  | [] => now
  | e :: es => if e.last then e.seqnum else barrierOf now es

/-- The status word of the task that the agent knows. -/
def World.barrier [DecidableEq G] (w : World G C I) (g : G) : ℕ :=
  barrierOf (w.kernel g).barrier (w.pending g)

/-! ## What the agent believes -/

/-- What the agent may believe about a thread. -/
inductive View (C : Type*) where
  | absent
  | blocked
  /-- It is runnable and on no cpu. -/
  | resting
  /-- It is runnable, and it may be on a cpu. -/
  | waiting
  /-- It is on the cpu that the agent put it on. -/
  | placed (cpu : C)
  deriving DecidableEq

/-- What a thread is doing if a belief is right. -/
def Agrees : View C → Phase C → Prop
  | .absent, p => p = .absent
  | .blocked, p => p = .blocked
  | .resting, p => p = .runnable
  | .waiting, p => p ≠ .absent ∧ p ≠ .blocked
  | .placed c, p => OnCpu c p

/-- The thread may be on a cpu. -/
def View.MayRun : View C → Prop
  | .waiting | .placed _ => True
  | _ => False

/-- What a message makes of a belief. A strict successor knows that a thread
which stopped does not run before it is put on a cpu again. -/
inductive Next (strict : Bool) : View C → Msg C I → View C → Prop where
  | new (info : I) : Next strict .absent (.new info true) .resting
  | newRunning (info : I) : Next strict .absent (.new info true) .waiting
  | newBlocked (info : I) : Next strict .absent (.new info false) .blocked
  | wakeup : Next strict .blocked .wakeup .resting
  | wakeupLoose : strict = false → Next strict .blocked .wakeup .waiting
  | blocked (v : View C) (c : C) (sw : Bool) : v.MayRun → Next strict v (.blocked c sw) .blocked
  | preempt (v : View C) (c : C) (sw : Bool) : v.MayRun → Next strict v (.preempt c sw) .resting
  | preemptLoose (c : C) (sw : Bool) : strict = false →
    Next strict .waiting (.preempt c sw) .waiting
  | yield (v : View C) (c : C) (sw : Bool) : v.MayRun → Next strict v (.yield c sw) .resting
  | yieldLoose (c : C) (sw : Bool) : strict = false → Next strict .waiting (.yield c sw) .waiting
  | dead : Next strict .blocked .dead .absent
  | departed (v : View C) (current : Option (C × Bool)) : v ≠ .absent →
    Next strict v (.departed current) .absent
  | onCpu (v : View C) (c : C) : v ≠ .absent → Next strict v (.onCpu c) v
  | affinityChanged (v : View C) : v ≠ .absent → Next strict v .affinityChanged v
  | prioChanged (v : View C) : v ≠ .absent → Next strict v .prioChanged v

/-- The unread messages lead from a belief, with the number of the last message
read, to what the thread is doing. -/
def Follows (strict : Bool) (v : View C) (seqnum : ℕ) : List (Entry G C I) → Kernel.Task C → Prop
  | [], t => Agrees v t.phase ∧ (v ≠ .absent → t.barrier = seqnum)
  | e :: es, t =>
    (v ≠ .absent → e.seqnum = seqnum + 1) ∧
      ∃ v', Next strict v e.msg v' ∧ Follows (strict && decide (e.last = false)) v' e.seqnum es t

section Views

variable {strict : Bool} {v v' : View C} {p : Phase C} {t t' : Kernel.Task C} {m : Msg C I} {c : C}

theorem Agrees.absent (h : Agrees v .absent) : v = .absent := by
  cases v with
  | absent => rfl
  | blocked | resting => cases h
  | waiting => exact absurd rfl h.1
  | placed => exact h.elim

theorem Agrees.blocked (h : Agrees v .blocked) : v = .blocked := by
  cases v with
  | blocked => rfl
  | absent | resting => cases h
  | waiting => exact absurd rfl h.2
  | placed => exact h.elim

theorem Agrees.mayRun (h : Agrees v p) (hp : OnCpu c p) : v.MayRun := by
  cases v with
  | absent | blocked | resting =>
    rw [show p = _ from h] at hp
    exact hp.elim
  | waiting | placed => trivial

theorem Agrees.ne_absent (h : Agrees v p) (hp : p ≠ .absent) : v ≠ .absent := by
  rintro rfl
  exact hp h

theorem mayRun_waiting : (View.waiting : View C).MayRun := trivial

theorem View.MayRun.ne_absent (h : v.MayRun) : v ≠ .absent := by
  rintro rfl
  exact h

/-- A thread that a transaction put on a cpu starts to run. -/
theorem Agrees.getOnCpu (h : Agrees v (.latched c)) : Agrees v (.running c false) := by
  cases v with
  | absent | blocked | resting => cases h
  | waiting => exact ⟨by simp, by simp⟩
  | placed => exact h

/-- A message takes a belief that is right to one that is right. -/
theorem Agrees.sends (strict : Bool) (h : Agrees v t.phase) (hs : Sends t m t') :
    ∃ v', Next strict v m v' ∧ Agrees v' t'.phase := by
  cases hs with
  | new info barrier runnable hp =>
    rw [hp] at h
    rw [h.absent]
    cases runnable with
    | true => exact ⟨.resting, .new info, rfl⟩
    | false => exact ⟨.blocked, .newBlocked info, rfl⟩
  | onCpu c' hp =>
    rw [hp] at h
    exact ⟨v, .onCpu _ _ (h.ne_absent (by simp)), h.getOnCpu⟩
  | blocked c' sw hp => exact ⟨.blocked, .blocked _ _ _ (h.mayRun (c := c') (by rw [hp]; rfl)), rfl⟩
  | wakeup hp =>
    rw [hp] at h
    rw [h.blocked]
    exact ⟨.resting, .wakeup, rfl⟩
  | preempt c' sw hp | unlatch c' hp =>
      exact ⟨.resting, .preempt _ _ _ (h.mayRun (c := c') (by rw [hp]; rfl)), rfl⟩
  | yield c' sw hp => exact ⟨.resting, .yield _ _ _ (h.mayRun (c := c') (by rw [hp]; rfl)), rfl⟩
  | affinityChanged hp => exact ⟨v, .affinityChanged _ (h.ne_absent hp), h⟩
  | prioChanged hp => exact ⟨v, .prioChanged _ (h.ne_absent hp), h⟩
  | dead hp =>
    rw [hp] at h
    rw [h.blocked]
    exact ⟨.absent, .dead, rfl⟩
  | departed c' sw hp => exact ⟨.absent, .departed _ _ (h.ne_absent (by simp [hp])), rfl⟩
  | left hp =>
    refine ⟨.absent, .departed _ _ (h.ne_absent fun heq => ?_), rfl⟩
    rw [heq] at hp
    rcases hp with hp | hp <;> cases hp

/-- A thread does something and the agent is told. -/
structure Reports (t : Kernel.Task C) (m : Msg C I) (t' : Kernel.Task C) : Prop where
  next : ∀ strict v, Agrees v t.phase → ∃ v', Next strict v m v' ∧ Agrees v' t'.phase
  barrier : t.phase ≠ .absent → t'.barrier = t.barrier + 1

theorem reports_of_sends (hs : Sends t m t') : Reports t m t' where
  next strict _ h := h.sends strict hs
  barrier hp := by
    -- only a new status word has another barrier than the next one
    cases hs with
    | new _ _ _ habs => exact absurd habs hp
    | _ => rfl

theorem reports_enterRunning {info : I} {barrier : ℕ} (hp : t.phase = .absent) :
    Reports t (.new info true) ⟨.running c false, true, barrier⟩ where
  next strict v h := by
    rw [hp] at h
    rw [h.absent]
    exact ⟨.waiting, .newRunning info, by simp, by simp⟩
  barrier hne := absurd hp hne

/-- Only a task that the agent put on a cpu is believed to be there. -/
theorem Next.placed (h : Next strict v m (.placed c)) : v = .placed c := by
  cases h <;> rfl

theorem Next.loosen (h : Next strict v m v') : Next false v m v' := by
  cases h with
  | new => exact .new _
  | newRunning => exact .newRunning _
  | newBlocked => exact .newBlocked _
  | wakeup => exact .wakeup
  | wakeupLoose => exact .wakeupLoose rfl
  | blocked _ _ _ hv => exact .blocked _ _ _ hv
  | preempt _ _ _ hv => exact .preempt _ _ _ hv
  | preemptLoose => exact .preemptLoose _ _ rfl
  | yield _ _ _ hv => exact .yield _ _ _ hv
  | yieldLoose => exact .yieldLoose _ _ rfl
  | dead => exact .dead
  | departed _ _ hv => exact .departed _ _ hv
  | onCpu _ _ hv => exact .onCpu _ _ hv
  | affinityChanged _ hv => exact .affinityChanged _ hv
  | prioChanged _ hv => exact .prioChanged _ hv

/-- The message is the last one about a stay exactly if there is no task after it. -/
theorem Next.last {e : Entry G C I} (h : Next strict v e.msg v') :
    e.last = true ↔ v' = .absent := by
  rcases e with ⟨g, msg, n, r⟩
  cases h <;> simp_all [Entry.last]

/-- A thread that is put on a cpu while the agent may not know it. -/
def View.up : View C → View C
  | .resting => .waiting
  | v => v

/-- The messages that lead to a thread on no cpu also lead to one that was put on a
cpu since. -/
theorem Next.up (h : Next strict v m v') (hv : ∀ c, v ≠ .placed c) : Next false v.up m v'.up := by
  cases h with
  | new | newRunning => exact .newRunning _
  | newBlocked => exact .newBlocked _
  | wakeup | wakeupLoose => exact .wakeupLoose rfl
  | blocked _ _ _ hrun =>
    cases v with
    | waiting => exact .blocked _ _ _ trivial
    | placed c => exact absurd rfl (hv c)
    | absent | blocked | resting => exact hrun.elim
  | preempt _ _ _ hrun =>
    cases v with
    | waiting => exact .preemptLoose _ _ rfl
    | placed c => exact absurd rfl (hv c)
    | absent | blocked | resting => exact hrun.elim
  | preemptLoose => exact .preemptLoose _ _ rfl
  | yield _ _ _ hrun =>
    cases v with
    | waiting => exact .yieldLoose _ _ rfl
    | placed c => exact absurd rfl (hv c)
    | absent | blocked | resting => exact hrun.elim
  | yieldLoose => exact .yieldLoose _ _ rfl
  | dead => exact .dead
  | departed _ _ hne => exact .departed _ _ (by cases v <;> simp_all [View.up])
  | onCpu _ _ hne => exact .onCpu _ _ (by cases v <;> simp_all [View.up])
  | affinityChanged _ hne => exact .affinityChanged _ (by cases v <;> simp_all [View.up])
  | prioChanged _ hne => exact .prioChanged _ (by cases v <;> simp_all [View.up])

end Views

/-! ## The unread messages about a thread -/

section Follows

variable {strict : Bool} {v v' : View C} {q : ℕ} {es : List (Entry G C I)} {t t' : Kernel.Task C}
  {c : C}

section

variable (h : Follows strict v q es t)
include h

theorem Follows.loosen : Follows false v q es t := by
  induction es generalizing strict v q with
  | nil => exact h
  | cons e es ih =>
    rcases h with ⟨hseq, v', hnext, h⟩
    exact ⟨hseq, v', hnext.loosen, by simpa using ih h⟩

/-- One more message. -/
theorem Follows.reports {e : Entry G C I} (hs : Reports t e.msg t') (hseq : e.seqnum = t'.barrier) :
    Follows strict v q (es ++ [e]) t' := by
  induction es generalizing strict v q with
  | nil =>
    rcases h with ⟨hagrees, hbarrier⟩
    rcases hs.next strict v hagrees with ⟨v', hnext, hagrees'⟩
    refine ⟨fun hv => ?_, v', hnext, hagrees', fun _ => hseq.symm⟩
    have hp : t.phase ≠ .absent := by
      intro hp
      rw [hp] at hagrees
      exact hv hagrees.absent
    rw [hseq, hs.barrier hp, hbarrier hv]
  | cons e' es ih =>
    rcases h with ⟨hseq', v', hnext, h⟩
    exact ⟨hseq', v', hnext, ih h⟩

/-- A thread that does something the agent is not told about. -/
theorem Follows.quiet (hbarrier : t'.barrier = t.barrier)
    (hphase : ∀ u, Agrees u t.phase → (∀ c, u = .placed c → v = .placed c) → Agrees u t'.phase) :
    Follows strict v q es t' := by
  induction es generalizing strict v q with
  | nil => exact ⟨hphase v h.1 fun _ => id, fun hv => hbarrier.trans (h.2 hv)⟩
  | cons e es ih =>
    rcases h with ⟨hseq, v', hnext, h⟩
    refine ⟨hseq, v', hnext, ih h fun u hu hplaced => hphase u hu fun c hc => ?_⟩
    have hv' := hplaced c hc
    rw [hv'] at hnext
    exact hnext.placed

/-- A thread on a cpu loses it to a transaction. The agent, which made the
transaction, does not believe that it is still there. -/
theorem Follows.vacate (hv : v ≠ .placed c) (hp : OnCpu c t.phase) :
    Follows strict v q es { t with phase := .runnable } := by
  refine h.quiet rfl fun u hu hplaced => ?_
  cases u with
  | absent | blocked | resting =>
    rw [show t.phase = _ from hu] at hp
    exact hp.elim
  | waiting => exact ⟨by simp, by simp⟩
  | placed c' =>
    have hc : c' = c := by
      cases hphase : t.phase <;> rw [hphase] at hp hu <;> simp_all [OnCpu, Agrees]
    exact absurd (hplaced c' rfl) (hc ▸ hv)

/-- A thread on no cpu is put on one, by a transaction for an earlier stay if the
agent has unread messages. -/
theorem Follows.up (hv : ∀ c, v ≠ .placed c) (hp : t.phase = .runnable) :
    Follows false v.up q es { t with phase := .latched c } := by
  induction es generalizing strict v q with
  | nil =>
    rcases h with ⟨hagrees, hbarrier⟩
    rw [hp] at hagrees
    cases v with
    | absent | blocked => cases hagrees
    | resting | waiting => exact ⟨⟨by simp, by simp⟩, fun _ => hbarrier (by simp)⟩
    | placed c => exact absurd rfl (hv c)
  | cons e es ih =>
    rcases h with ⟨hseq, v', hnext, h⟩
    have hv' : ∀ c, v' ≠ .placed c := by
      intro c hc
      rw [hc] at hnext
      exact hv c hnext.placed
    refine ⟨fun hne => hseq fun habs => hne (by rw [habs]; rfl), v'.up, hnext.up hv, ?_⟩
    simpa using ih h hv'

end

/-- The unread messages about the stay of a task that the agent puts on a cpu are
those about a task on the cpu. -/
theorem Next.place {m : Msg C I} {u : View C} (h : Next true v m v') (hv : v ≠ .absent)
    (hu : u = v ∨ u = .placed c ∧ (v = .resting ∨ v = .waiting)) :
    ∃ u', Next true u m u' ∧ (u' = v' ∨ u' = .placed c ∧ (v' = .resting ∨ v' = .waiting)) := by
  rcases hu with rfl | ⟨rfl, hv'⟩
  · exact ⟨v', h, .inl rfl⟩
  · have hne : (View.placed c : View C) ≠ .absent := by simp
    cases h with
    | new | newRunning | newBlocked => exact absurd rfl hv
    | wakeup | dead => rcases hv' with hv' | hv' <;> cases hv'
    | wakeupLoose hs | preemptLoose _ _ hs | yieldLoose _ _ hs => cases hs
    | blocked => exact ⟨.blocked, .blocked _ _ _ trivial, .inl rfl⟩
    | preempt => exact ⟨.resting, .preempt _ _ _ trivial, .inl rfl⟩
    | yield => exact ⟨.resting, .yield _ _ _ trivial, .inl rfl⟩
    | departed => exact ⟨.absent, .departed _ _ hne, .inl rfl⟩
    | onCpu => exact ⟨.placed c, .onCpu _ _ hne, .inr ⟨rfl, hv'⟩⟩
    | affinityChanged => exact ⟨.placed c, .affinityChanged _ hne, .inr ⟨rfl, hv'⟩⟩
    | prioChanged => exact ⟨.placed c, .prioChanged _ hne, .inr ⟨rfl, hv'⟩⟩

/-- A transaction that succeeds although there are unread messages has put a later
stay of the thread on the cpu. -/
theorem Follows.place {u : View C} (h : Follows true v q es t) (hv : v ≠ .absent)
    (hu : u = v ∨ u = .placed c ∧ (v = .resting ∨ v = .waiting)) (hq : t.barrier < q + es.length)
    (hp : t.phase = .runnable) : Follows true u q es { t with phase := .latched c } := by
  induction es generalizing v q u with
  | nil =>
    have hbarrier := h.2 hv
    simp only [List.length_nil] at hq
    omega
  | cons e es ih =>
    rcases h with ⟨hseq, v', hnext, h⟩
    rcases hnext.place hv hu with ⟨u', hnext', hu'⟩
    refine ⟨fun _ => hseq hv, u', hnext', ?_⟩
    by_cases hlast : e.last = true
    · -- the rest is about later stays
      have habs := hnext.last.mp hlast
      subst habs
      have hu'' : u' = .absent := by
        rcases hu' with hu' | ⟨-, hu' | hu'⟩
        · exact hu'
        · cases hu'
        · cases hu'
      subst hu''
      simp only [hlast] at h ⊢
      exact h.up (by simp) hp
    · grind [hnext.last]

/-- A transaction succeeds for a task that the agent believes to be runnable. -/
theorem Follows.commit (h : Follows true v q es t) (hv : v = .resting ∨ v = .waiting)
    (hp : t.phase = .runnable) (hq : t.barrier = q) :
    Follows true (.placed c) q es { t with phase := .latched c } := by
  have hne : v ≠ .absent := by rcases hv with rfl | rfl <;> simp
  cases es with
  | nil => exact ⟨rfl, fun _ => hq⟩
  | cons e es => exact h.place hne (.inr ⟨rfl, hv⟩) (by simp only [List.length_cons]; omega) hp

/-- The agent takes a task off the cpu it put it on. -/
theorem Follows.displace (h : Follows strict (.placed c) q es t) :
    Follows false .waiting q es t := by
  induction es generalizing strict q with
  | nil =>
    rcases h with ⟨hagrees, hbarrier⟩
    refine ⟨⟨fun hp => ?_, fun hp => ?_⟩, fun _ => hbarrier (by simp)⟩
    · rw [hp] at hagrees
      exact hagrees
    · rw [hp] at hagrees
      exact hagrees
  | cons e es ih =>
    rcases h with ⟨hseq, v', hnext, h⟩
    by_cases hv' : v' = .placed c
    · subst hv'
      refine ⟨fun _ => hseq (by simp), .waiting, ?_, by simpa using ih h⟩
      have hmsg : e.msg = .affinityChanged ∨ e.msg = .prioChanged ∨ ∃ c, e.msg = .onCpu c := by
        generalize e.msg = m at hnext
        cases hnext <;> simp
      rcases hmsg with hmsg | hmsg | ⟨c', hmsg⟩ <;> rw [hmsg]
      · exact .affinityChanged _ (by simp)
      · exact .prioChanged _ (by simp)
      · exact .onCpu _ _ (by simp)
    · refine ⟨fun _ => hseq (by simp), v', ?_, by simpa using h.loosen⟩
      generalize e.msg = m at hnext
      cases hnext with
      | blocked => exact .blocked _ _ _ trivial
      | preempt => exact .preempt _ _ _ trivial
      | yield => exact .yield _ _ _ trivial
      | departed => exact .departed _ _ (by simp)
      | onCpu | affinityChanged | prioChanged => exact absurd rfl hv'

theorem Follows.absent {q' : ℕ} (h : Follows strict .absent q es t) :
    Follows strict .absent q' es t := by
  cases es with
  | nil => exact ⟨h.1, fun hv => absurd rfl hv⟩
  | cons e es => exact ⟨fun hv => absurd rfl hv, h.2⟩

/-- The barrier in the status word of a task tells whether there are unread messages
about it. -/
theorem Follows.eq_nil (h : Follows strict v q es t) (hv : v ≠ .absent)
    (hq : barrierOf t.barrier es ≤ q) : es = [] := by
  suffices ∀ es strict v q, Follows strict v q es t → v ≠ .absent →
      q + (if es = [] then 0 else 1) ≤ barrierOf t.barrier es by
    by_contra hne
    have hle := this es strict v q h hv
    rw [if_neg hne] at hle
    omega
  intro es
  induction es with
  | nil =>
    intro strict v q h hv
    exact Nat.le_of_eq (h.2 hv).symm
  | cons e es ih =>
    intro strict v q h hv
    rcases h with ⟨hseq, v', hnext, h⟩
    have hseq := hseq hv
    simp only [barrierOf, reduceCtorEq, if_false]
    by_cases hlast : e.last = true
    · simp [hlast, hseq]
    · grind [hnext.last]

end Follows

/-! ## All threads -/

/-- The events that a scheduler which ignores `TASK_SWITCHTO` can cope with. -/
def Event.NoSwitchto : Event G C I → Prop
  | .thread _ (.switchto _) => False
  | _ => True

instance {e : Event G C I} : Decidable e.NoSwitchto := by
  unfold Event.NoSwitchto
  split <;> infer_instance

/-- What the agent may believe about each thread leads to what the thread is doing. -/
def Comm [DecidableEq G] (allows : G → View C → Prop) (seqnum : G → ℕ) (strict : G → Bool)
    (w : World G C I) : Prop :=
  ∀ g, ∃ v, allows g v ∧ Follows (strict g) v (seqnum g) (w.pending g) (w.kernel g)

section Comm

variable [DecidableEq G] {w w' : World G C I} {allows allows' : G → View C → Prop}
  {seqnum seqnum' : G → ℕ} {strict strict' : G → Bool} {g : G}

/-- What a step of the kernel can be. -/
inductive World.Step (w : World G C I) : World G C I → Prop where
  | reports (g : G) (m : Msg C I) (t : Kernel.Task C) : Reports (w.kernel g) m t →
    Step w { w with
      kernel := update w.kernel g t
      queue := w.queue ++ [⟨g, m, t.barrier, w.runtime g⟩] }
  | quiet (g : G) (t : Kernel.Task C) : t.barrier = (w.kernel g).barrier →
    (∀ v, Agrees v (w.kernel g).phase → Agrees v t.phase) →
    Step w { w with kernel := update w.kernel g t }
  | run (g : G) (duration : ℕ) (c : C) (sw : Bool) : (w.kernel g).phase = .running c sw →
    Step w { w with runtime := update w.runtime g (w.runtime g + duration) }

theorem World.step_cases {e : Event G C I} (h : w.step e = some w') (he : e.NoSwitchto) :
    w.Step w' := by
  cases e with
  | thread g e =>
    rcases Option.map_eq_some_iff.mp h with ⟨⟨k, msg⟩, hk, rfl⟩
    have hne : ∀ target, e ≠ .switchto target := by
      rintro target rfl
      exact he
    cases ownStep_cases hk hne with
    | sends m t hs =>
      have hstep := World.Step.reports (w := w) g m t (reports_of_sends hs)
      simpa using hstep
    | getOnCpu c _ hp =>
      have hstep := World.Step.quiet (w := w) g ⟨.running c false, true, (w.kernel g).barrier⟩ rfl
        (by rw [hp]; exact fun v hv => hv.getOnCpu)
      simpa using hstep
    | leaveCpu hp =>
      grind [World.Step.quiet]
  | enterRunning g info barrier c =>
    simp only [World.step] at h
    split at h <;> cases h
    rename_i hp
    exact .reports g _ ⟨.running c false, true, barrier⟩ (reports_enterRunning hp)
  | run g duration =>
    simp only [World.step] at h
    split at h <;> cases h
    rename_i c sw hp
    exact .run g duration c sw hp

theorem pending_append {e : Entry G C I} {k : G → Kernel.Task C} :
    { w with kernel := k, queue := w.queue ++ [e] }.pending g =
      w.pending g ++ if e.gtid = g then [e] else [] := by
  unfold World.pending
  rw [List.filter_append]
  congr 1
  by_cases hg : e.gtid = g <;> simp [hg]

section

variable (h : Comm allows seqnum strict w)
include h

/-- The kernel goes on. -/
theorem Comm.step (hstep : w.Step w') : Comm allows seqnum strict w' := by
  intro g
  rcases h g with ⟨v, hv, hf⟩
  refine ⟨v, hv, ?_⟩
  cases hstep with
  | reports g' m t hr =>
    grind [pending_append, hf.reports]
  | quiet g' t hb hp =>
    by_cases hg : g' = g
    · subst hg
      show Follows _ _ _ _ (update w.kernel g' t g')
      rw [update_self]
      exact hf.quiet hb fun u hu _ => hp u hu
    · show Follows _ _ _ _ (update w.kernel g' t g)
      rw [update_of_ne (Ne.symm hg)]
      exact hf
  | run => exact hf

/-- What the agent does to one task. -/
theorem Comm.update
    (hothers : ∀ g' ≠ g, (∀ v, allows g' v → allows' g' v) ∧ seqnum' g' = seqnum g' ∧
      (strict' g' = true → strict g' = true))
    (hg : ∃ v, allows' g v ∧ Follows (strict' g) v (seqnum' g) (w.pending g) (w.kernel g)) :
    Comm allows' seqnum' strict' w := by
  intro g'
  by_cases hne : g' = g
  · subst hne
    exact hg
  · rcases hothers g' hne with ⟨hallows, hseq, hstrict⟩
    rcases h g' with ⟨v, hv, hf⟩
    refine ⟨v, hallows v hv, ?_⟩
    rw [hseq]
    cases hs : strict' g' with
    | true => exact hstrict hs ▸ hf
    | false => exact hf.loosen

/-- The agent reads a message. -/
theorem Comm.read {e : Entry G C I} {rest : List (Entry G C I)} (hq : w.queue = e :: rest) :
    ∃ v v', allows e.gtid v ∧ (v ≠ .absent → e.seqnum = seqnum e.gtid + 1) ∧
      Next (strict e.gtid) v e.msg v' ∧
      ∀ (allows' : G → View C → Prop) (seqnum' : G → ℕ) (strict' : G → Bool),
        (∀ g ≠ e.gtid, (∀ v, allows g v → allows' g v) ∧ seqnum' g = seqnum g ∧
          (strict' g = true → strict g = true)) →
        allows' e.gtid v' → (v' ≠ .absent → seqnum' e.gtid = e.seqnum) →
        (strict' e.gtid = true → strict e.gtid = true ∧ v' ≠ .absent) →
        Comm allows' seqnum' strict' { w with queue := rest } := by
  have hpending : w.pending e.gtid = e :: { w with queue := rest }.pending e.gtid := by
    simp [World.pending, hq]
  rcases h e.gtid with ⟨v, hv, hf⟩
  rw [hpending] at hf
  rcases hf with ⟨hseq, v', hnext, hf⟩
  refine ⟨v, v', hv, hseq, hnext, fun allows' seqnum' strict' hothers hv' hseq' hstrict' => ?_⟩
  have hcomm : Comm (fun g u => if g = e.gtid then u = v' else allows g u)
      (fun g => if g = e.gtid then e.seqnum else seqnum g)
      (fun g => if g = e.gtid then strict g && decide (e.last = false) else strict g)
      { w with queue := rest } := by
    intro g
    by_cases hg : g = e.gtid
    · subst hg
      exact ⟨v', by simp, by simpa using hf⟩
    · rcases h g with ⟨u, hu, hfg⟩
      grind [World.pending]
  refine hcomm.update (g := e.gtid) (fun g hg => ?_) ⟨v', hv', ?_⟩
  · simpa [hg] using hothers g hg
  · have hf' : Follows (strict' e.gtid) v' e.seqnum
        ({ w with queue := rest }.pending e.gtid) (w.kernel e.gtid) := by
      cases hs : strict' e.gtid with
      | false => exact hf.loosen
      | true =>
        grind [hnext.last]
    by_cases habs : v' = .absent
    · subst habs
      exact hf'.absent
    · rw [hseq' habs]
      exact hf'

end

variable [DecidableEq C] {c : C} {lose : G → Bool}

/-- Threads lose a cpu on which the agent does not believe them to be. -/
theorem Comm.vacate (h : Comm allows seqnum strict w)
    (hlose : ∀ g, lose g = true → ¬ allows g (.placed c)) :
    Comm allows seqnum strict (w.vacate c lose) := by
  intro g
  rcases h g with ⟨v, hv, hf⟩
  refine ⟨v, hv, ?_⟩
  by_cases hg : lose g = true ∧ OnCpu c (w.kernel g).phase
  · rw [show (w.vacate c lose).kernel g = { w.kernel g with phase := .runnable } from if_pos hg]
    exact hf.vacate (fun heq => hlose g hg.1 (heq ▸ hv)) hg.2
  · rw [show (w.vacate c lose).kernel g = w.kernel g from if_neg hg]
    exact hf

/-- A transaction succeeds. -/
theorem Comm.commit (h : Comm allows seqnum strict w)
    (hcommit : w.commit c g (seqnum g) lose = some w') (hstrict : strict g = true)
    (hview : ∀ v, allows g v → v = .resting ∨ v = .waiting)
    (hothers : ∀ g' ≠ g, ¬ allows g' (.placed c)) :
    Comm (fun g' v => if g' = g then v = .placed c else allows g' v) seqnum strict w' := by
  rcases Option.map_eq_some_iff.mp hcommit with ⟨k, hk, rfl⟩
  rcases latch_eq_some hk with ⟨hp, hb, rfl⟩
  apply Comm.vacate
  · intro g'
    by_cases hg : g' = g
    · subst hg
      rcases h g' with ⟨v, hv, hf⟩
      rw [hstrict] at hf
      refine ⟨.placed c, by simp, ?_⟩
      rw [hstrict]
      show Follows _ _ _ (w.pending g') (Function.update w.kernel g' _ g')
      rw [update_self]
      exact hf.commit (hview v hv) hp hb
    · rcases h g' with ⟨v, hv, hf⟩
      refine ⟨v, by simpa [hg] using hv, ?_⟩
      show Follows _ _ _ (w.pending g') (Function.update w.kernel g _ g')
      rw [update_of_ne hg]
      exact hf
  · intro g' hlose
    rcases (Bool.and_eq_true _ _).mp hlose with ⟨-, hne⟩
    have hne : g' ≠ g := of_decide_eq_true hne
    simpa [hne] using hothers g' hne

end Comm

end Central
