import Mathlib.Logic.Function.Basic
import GhostSched.Lib.Transition

/-!
# Notifications

A notification is one word that says whether somebody waits and whether it was notified.
`Notify` wakes the waiters with a futex only if the word said that there are some.

* `step` is one access to the word, or one thing that the kernel does in a futex call.
* `Inv` is about all positions of the notifier and of the waiters. A waiter sleeps only
  while the word is `kWaiter`, or the notifier is about to wake it.
* `no_lost_wakeup` is the result for all interleavings.
-/

namespace Notification

open Transition Function

/-! ## Model -/

inductive NotifiedState where
  | noWaiter
  | waiter
  | notified
  deriving DecidableEq

/-- Where the caller of `Notify` is. -/
inductive NotifierPc where
  | outside
  | load
  /-- At the `CHECK`, with the value that was loaded. -/
  | check (v : NotifiedState)
  | exchange (v : NotifiedState)
  /-- Before `Futex::Wake`. -/
  | wake
  | done
  | crashed
  deriving DecidableEq

/-- Where a caller of `WaitForNotification` is. -/
inductive WaiterPc where
  | outside
  | load
  /-- At the exchange, after it has loaded `kNoWaiter`. -/
  | exchange
  /-- Before the system call in `Futex::Wait`. -/
  | futex
  | asleep
  /-- The system call has returned zero. -/
  | reload
  | returned
  | crashed
  deriving DecidableEq

/-- How the system call returns. -/
inductive Futex where
  | zero
  | eagain
  | eintr
  /-- No step produces it: `FUTEX_WAIT` on an aligned word that is mapped, without a timeout, is
  assumed to fail with `EAGAIN` and `EINTR` only. -/
  | otherError
  deriving DecidableEq

/-- What `Futex::Wait` does then. -/
def Futex.next : Futex → WaiterPc
  | .zero => .reload
  | .eagain => .returned
  | .eintr => .futex
  | .otherError => .crashed

structure State (W : Type*) where
  word : NotifiedState
  notifier : NotifierPc
  waiters : W → WaiterPc

inductive Action (W : Type*) where
  | callNotify
  | loadWord
  | checkNotified
  /-- A weak exchange may fail for no reason. -/
  | setNotified (spurious : Bool)
  | wakeAll
  | callWait (w : W)
  | load (w : W)
  | setWaiter (w : W) (spurious : Bool)
  | futexWait (w : W)
  /-- The kernel ends the sleep of a waiter that nobody has woken. -/
  | rouse (w : W) (interrupted : Bool)
  | reload (w : W)
  deriving DecidableEq

/-- The waiter that an action belongs to. -/
def Action.waiter {W : Type*} : Action W → Option W
  | .callWait w | .load w | .setWaiter w _ | .futexWait w | .rouse w _ | .reload w => some w
  | _ => none

variable {W : Type*} [DecidableEq W]

def State.goto (s : State W) (w : W) (pc : WaiterPc) : State W :=
  { s with waiters := update s.waiters w pc }

def step (s : State W) : Action W → Option (State W)
  | .callNotify => if s.notifier = .outside then some { s with notifier := .load } else none
  | .loadWord =>
    if s.notifier = .load then some { s with notifier := .check s.word } else none
  | .checkNotified =>
    match s.notifier with
    | .check v =>
      some { s with notifier := if s.word = .notified then .crashed else .exchange v }
    | _ => none
  | .setNotified spurious =>
    match s.notifier with
    | .exchange v =>
      if s.word = v ∧ spurious = false then
        some { s with word := .notified, notifier := if v = .waiter then .wake else .done }
      else some { s with notifier := .load }
    | _ => none
  | .wakeAll =>
    if s.notifier = .wake then
      some { s with
        notifier := .done
        waiters := fun w => if s.waiters w = .asleep then Futex.next .zero else s.waiters w }
    else none
  | .callWait w => if s.waiters w = .outside then some (s.goto w .load) else none
  | .load w =>
    if s.waiters w = .load then
      some (s.goto w (match s.word with
        | .notified => .returned
        | .noWaiter => .exchange
        | .waiter => .futex))
    else none
  | .setWaiter w spurious =>
    if s.waiters w = .exchange then
      if s.word = .noWaiter ∧ spurious = false then
        some ({ s with word := .waiter }.goto w .load)
      else some (s.goto w .load)
    else none
  | .futexWait w =>
    if s.waiters w = .futex then
      some (s.goto w (if s.word = .waiter then .asleep else Futex.next .eagain))
    else none
  | .rouse w interrupted =>
    if s.waiters w = .asleep then
      some (s.goto w (Futex.next (if interrupted then .eintr else .zero)))
    else none
  | .reload w =>
    if s.waiters w = .reload then
      some (s.goto w (if s.word = .waiter then .futex else .returned))
    else none

structure Init (s : State W) : Prop where
  word : s.word = .noWaiter
  notifier : s.notifier = .outside
  waiters : ∀ w, s.waiters w = .outside

/-! ## Invariant -/

/-- What the notifier knows about the word. -/
def NotifierOk (word : NotifiedState) : NotifierPc → Prop
  | .outside | .load => word ≠ .notified
  | .check v | .exchange v => word ≠ .notified ∧ v ≠ .notified
  | .wake | .done => word = .notified
  | .crashed => False

/-- What a waiter knows about the word and the notifier. -/
def WaiterOk (word : NotifiedState) (notifier : NotifierPc) : WaiterPc → Prop
  | .outside | .load | .exchange => True
  | .futex | .reload => word ≠ .noWaiter
  | .asleep => word = .waiter ∨ notifier = .wake
  | .returned => word = .notified
  | .crashed => False

structure Inv (s : State W) : Prop where
  notifier : NotifierOk s.word s.notifier
  waiters : ∀ w, WaiterOk s.word s.notifier (s.waiters w)

section Steps

variable {s s' : State W} {w : W} {pc : WaiterPc}

/-- One waiter moves on. The word changes only from `kNoWaiter` to `kWaiter`. -/
theorem Inv.goto (h : Inv s) (hpc : WaiterOk s.word s.notifier pc) : Inv (s.goto w pc) where
  notifier := h.notifier
  waiters w' := by
    by_cases hw : w' = w
    · subst hw
      simpa [State.goto] using hpc
    · simpa [State.goto, hw] using h.waiters w'

omit [DecidableEq W] in
/-- A waiter does not notice that the word goes from `kNoWaiter` to something else. -/
theorem WaiterOk.mono {word word' : NotifiedState} {notifier notifier' : NotifierPc}
    (h : WaiterOk word notifier pc) (hnotified : word = .notified → word' = .notified)
    (hword : word' = .noWaiter → word = .noWaiter)
    (hwake : pc = .asleep → word = .waiter ∨ notifier = .wake →
      word' = .waiter ∨ notifier' = .wake) :
    WaiterOk word' notifier' pc := by
  cases pc with
  | outside | load | exchange => trivial
  | futex | reload => exact fun heq => h (hword heq)
  | asleep => exact hwake rfl h
  | returned => exact hnotified h
  | crashed => exact h

omit [DecidableEq W] in
theorem eq_notified {word : NotifiedState} (hnone : word ≠ .noWaiter) (hword : word ≠ .waiter) :
    word = .notified := by
  cases word with
  | noWaiter => exact absurd rfl hnone
  | waiter => exact absurd rfl hword
  | notified => rfl

theorem Inv.step {a : Action W} (h : Inv s) (hs : step s a = some s') : Inv s' := by
  have hn := h.notifier
  cases a with
  | callNotify =>
    obtain ⟨hpc, hs⟩ := Option.ite_none_right_eq_some.mp hs
    cases hs
    rw [hpc] at hn
    exact ⟨hn, fun w => (h.waiters w).mono id id (by simp [hpc])⟩
  | loadWord =>
    obtain ⟨hpc, hs⟩ := Option.ite_none_right_eq_some.mp hs
    cases hs
    rw [hpc] at hn
    exact ⟨⟨hn, hn⟩, fun w => (h.waiters w).mono id id (by simp [hpc])⟩
  | checkNotified =>
    simp only [Notification.step] at hs
    split at hs <;> cases hs
    rename_i v hpc
    rw [hpc] at hn
    rw [if_neg hn.1]
    exact ⟨hn, fun w => (h.waiters w).mono id id (by simp [hpc])⟩
  | setNotified spurious =>
    simp only [Notification.step] at hs
    split at hs
    · rename_i v hpc
      rw [hpc] at hn
      split at hs <;> cases hs
      · rename_i heq
        refine ⟨by dsimp only; split <;> rfl, fun w => (h.waiters w).mono (fun _ => rfl) nofun ?_⟩
        -- nobody sleeps unless the word was kWaiter, and then the wake-up is to come
        rintro - (hwaiter | hwake)
        · exact .inr (if_pos (heq.1.symm.trans hwaiter))
        · cases hpc.symm.trans hwake
      · exact ⟨hn.1, fun w => (h.waiters w).mono id id (by simp [hpc])⟩
    · cases hs
  | wakeAll =>
    obtain ⟨hpc, hs⟩ := Option.ite_none_right_eq_some.mp hs
    cases hs
    rw [hpc] at hn
    have hword : s.word = .notified := hn
    refine ⟨hn, fun w => ?_⟩
    dsimp only
    split
    · exact fun heq => by cases hword.symm.trans heq
    · rename_i hne
      exact (h.waiters w).mono id id fun heq => absurd heq hne
  | callWait w =>
    obtain ⟨-, hs⟩ := Option.ite_none_right_eq_some.mp hs
    cases hs
    exact h.goto trivial
  | load w =>
    obtain ⟨-, hs⟩ := Option.ite_none_right_eq_some.mp hs
    cases hs
    apply h.goto
    split
    · assumption
    · trivial
    · rename_i hword
      simp [WaiterOk, hword]
  | setWaiter w spurious =>
    obtain ⟨-, hs⟩ := Option.ite_none_right_eq_some.mp hs
    split at hs <;> cases hs
    · rename_i hword
      have hok : NotifierOk .waiter s.notifier := by
        rw [hword.1] at hn
        generalize s.notifier = pc at hn
        cases pc <;> simp_all [NotifierOk]
      refine Inv.goto (s := { s with word := .waiter }) ⟨hok, fun w' => ?_⟩ trivial
      refine (h.waiters w').mono ?_ ?_ ?_ <;> simp [hword.1]
    · exact h.goto trivial
  | futexWait w =>
    obtain ⟨hpc, hs⟩ := Option.ite_none_right_eq_some.mp hs
    cases hs
    have hw := h.waiters w
    rw [hpc] at hw
    apply h.goto
    split
    · exact .inl ‹_›
    · rename_i hword
      exact eq_notified hw hword
  | rouse w interrupted =>
    obtain ⟨hpc, hs⟩ := Option.ite_none_right_eq_some.mp hs
    cases hs
    have hw := h.waiters w
    rw [hpc] at hw
    -- the word was kWaiter when it fell asleep
    have hword : s.word ≠ .noWaiter := by
      rcases hw with hw | hw
      · simp [hw]
      · rw [hw] at hn
        simp [show s.word = .notified from hn]
    cases interrupted <;> exact h.goto hword
  | reload w =>
    obtain ⟨hpc, hs⟩ := Option.ite_none_right_eq_some.mp hs
    cases hs
    have hw := h.waiters w
    rw [hpc] at hw
    apply h.goto
    split
    · exact hw
    · rename_i hword
      exact eq_notified hw hword

omit [DecidableEq W] in
theorem Init.inv (h : Init s) : Inv s where
  notifier := by simp [h.word, h.notifier, NotifierOk]
  waiters w := by
    rw [h.waiters]
    trivial

/-! ## After the notification -/

/-- How many steps a waiter still needs. -/
def WaiterPc.rank : WaiterPc → ℕ
  | .outside => 3
  | .exchange => 2
  | .load | .futex | .reload => 1
  | .asleep | .returned | .crashed => 0

/-- `Notify` has returned, and a waiter that has not returned is not asleep. -/
structure Notified (s : State W) : Prop where
  inv : Inv s
  done : s.notifier = .done

omit [DecidableEq W] in
theorem Notified.word (h : Notified s) : s.word = .notified := by
  have hn := h.inv.notifier
  rwa [h.done] at hn

omit [DecidableEq W] in
theorem Notified.awake (h : Notified s) (w : W) : s.waiters w ≠ .asleep := by
  intro hw
  have hok := h.inv.waiters w
  rw [hw] at hok
  rcases hok with hword | hwake
  · cases h.word.symm.trans hword
  · cases h.done.symm.trans hwake

/-- A step takes the waiter that it belongs to further, and leaves the others where they are. -/
theorem Notified.step {a : Action W} (h : Notified s) (hs : step s a = some s') (w : W) :
    Notified s' ∧
      (s'.waiters w).rank + (if a.waiter = some w then 1 else 0) ≤ (s.waiters w).rank := by
  have hword := h.word
  have hmove : ∀ v pc, pc.rank < (s.waiters v).rank →
      ((s.goto v pc).waiters w).rank + (if some v = some w then 1 else 0) ≤ (s.waiters w).rank := by
    intro v pc hpc
    by_cases hv : w = v
    · subst hv
      simpa [State.goto] using Nat.succ_le_of_lt hpc
    · simp [State.goto, hv, Ne.symm hv]
  refine ⟨⟨h.inv.step hs, ?_⟩, ?_⟩
  · cases a <;> simp only [Notification.step, h.done] at hs <;> grind [State.goto, h.done]
  · cases a with
    | callNotify | loadWord | wakeAll | checkNotified | setNotified =>
        simp [Notification.step, h.done] at hs
    | callWait v =>
      obtain ⟨hpc, hs⟩ := Option.ite_none_right_eq_some.mp hs
      cases hs
      exact hmove v _ (by rw [hpc]; decide)
    | load v =>
      obtain ⟨hpc, hs⟩ := Option.ite_none_right_eq_some.mp hs
      cases hs
      rw [hword]
      exact hmove v _ (by rw [hpc]; decide)
    | setWaiter v spurious =>
      obtain ⟨hpc, hs⟩ := Option.ite_none_right_eq_some.mp hs
      rw [if_neg (by simp [hword])] at hs
      cases hs
      exact hmove v _ (by rw [hpc]; decide)
    | futexWait v | reload v =>
      obtain ⟨hpc, hs⟩ := Option.ite_none_right_eq_some.mp hs
      cases hs
      rw [if_neg (by simp [hword])]
      exact hmove v _ (by rw [hpc]; decide)
    | rouse v interrupted =>
      obtain ⟨hpc, hs⟩ := Option.ite_none_right_eq_some.mp hs
      exact absurd hpc (h.awake v)

/-- After at most three steps of its own, a waiter has returned. -/
theorem Notified.exec {as : List (Action W)} (h : Notified s)
    (hs : exec Notification.step s as = some s')
    (w : W) : Notified s' ∧
      (s'.waiters w).rank + as.countP (·.waiter = some w) ≤ (s.waiters w).rank := by
  induction as generalizing s with
  | nil =>
    obtain rfl : s = s' := by simpa [Transition.exec] using hs
    exact ⟨h, by simp⟩
  | cons a as ih =>
    obtain ⟨s₁, hs₁, hs⟩ := Option.bind_eq_some_iff.mp hs
    have hstep := h.step hs₁ w
    have hrest := ih hstep.1 hs
    refine ⟨hrest.1, ?_⟩
    rw [List.countP_cons]
    simp only [decide_eq_true_eq]
    omega

/-- A waiter that has not returned can take a step, unless it sleeps. -/
theorem exists_step (hw : s.waiters w ≠ .returned) (hcrashed : s.waiters w ≠ .crashed)
    (hawake : s.waiters w ≠ .asleep) : ∃ a s', a.waiter = some w ∧ step s a = some s' := by
  cases hpc : s.waiters w with
  | outside => exact ⟨.callWait w, _, rfl, if_pos hpc⟩
  | load => exact ⟨.load w, _, rfl, if_pos hpc⟩
  | exchange => exact ⟨.setWaiter w true, s.goto w .load, rfl, by simp [step, hpc]⟩
  | futex => exact ⟨.futexWait w, _, rfl, if_pos hpc⟩
  | reload => exact ⟨.reload w, _, rfl, if_pos hpc⟩
  | asleep => exact absurd hpc hawake
  | returned => exact absurd hpc hw
  | crashed => exact absurd hpc hcrashed

end Steps

/-- No waiter returns before the word says that it was notified, no check fails, and once
`Notify` has returned no waiter is stuck: it is not asleep, it can take a step, and it returns at
the latest with its third one. -/
theorem no_lost_wakeup {s₀ s : State W} (h : Init s₀) (hrun : Steps step s₀ s) :
    (∀ w, s.waiters w = .returned → s.word = .notified) ∧
      s.notifier ≠ .crashed ∧ (∀ w, s.waiters w ≠ .crashed) ∧
      (s.notifier = .done → ∀ w, s.waiters w ≠ .asleep ∧ (s.waiters w ≠ .returned →
        (∃ a s', a.waiter = some w ∧ step s a = some s') ∧
          ∀ as s', exec step s as = some s' → 3 ≤ as.countP (·.waiter = some w) →
            s'.waiters w = .returned)) := by
  have hinv : Inv s := hrun.invariant (fun _ _ _ hs hstep => hs.step hstep) h.inv
  have hcrashed : ∀ w, s.waiters w ≠ .crashed := by
    intro w hw
    have hok := hinv.waiters w
    rw [hw] at hok
    exact hok
  refine ⟨fun w hw => ?_, fun hn => ?_, hcrashed, fun hdone w => ?_⟩
  · have hok := hinv.waiters w
    rwa [hw] at hok
  · have hok := hinv.notifier
    rw [hn] at hok
    exact hok
  · have hnotified : Notified s := ⟨hinv, hdone⟩
    refine ⟨hnotified.awake w, fun hw => ⟨exists_step hw (hcrashed w) (hnotified.awake w),
      fun as s' hexec hcount => ?_⟩⟩
    have hend := hnotified.exec hexec w
    have hok := hend.1.inv.waiters w
    have hawake := hend.1.awake w
    have hle : (s.waiters w).rank ≤ 3 := by cases s.waiters w <;> decide
    have hrank : (s'.waiters w).rank = 0 := by omega
    generalize s'.waiters w = pc at hok hawake hrank
    cases pc <;> simp_all [WaiterPc.rank, WaiterOk]

def idle : State Unit := ⟨.noWaiter, .outside, fun _ => .outside⟩

/-- A waiter falls asleep and is woken up. -/
def sleepAndWake : List (Action Unit) :=
  [.callWait (), .load (), .setWaiter () false, .load (), .futexWait (), .callNotify, .loadWord,
    .checkNotified, .setNotified false, .wakeAll]

theorem no_lost_wakeup_asleep : ∃ s, exec step idle sleepAndWake = some s ∧
    s.waiters () = .reload ∧ ∀ as s', exec step s as = some s' →
      3 ≤ as.countP (·.waiter = some ()) → s'.waiters () = .returned :=
  ⟨_, rfl, rfl, (((no_lost_wakeup ⟨rfl, rfl, fun _ => rfl⟩
    (.of_exec (show exec step idle sleepAndWake = _ from rfl))).2.2.2 rfl ()).2 (by decide)).2⟩

end Notification
