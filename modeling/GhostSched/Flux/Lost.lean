import GhostSched.Flux.Account

/-!
# Threads that get lost

A runnable thread that nobody works on is on the runqueue or marked as pending, in
every run in which no `TASK_NEW` finds an entry for its gtid in `sw_lookup`
(`runnable_not_lost`).

`handle_new` takes such an entry as a sign that it knows the thread. But the entry
goes only with the last reference, which a cpu in PNT can hold longer than the
thread stays in ghost. A thread that comes back meanwhile is ignored, and lost when
the cpu drops its reference (`reentered_lost`).
-/

namespace Flux

open Transition

variable {G T K : Type*} [DecidableEq G] [DecidableEq T] [DecidableEq K] {s s₀ : State G T K}

/-! ## Runs in which every new thread is noticed -/

/-- What the kernel guarantees, and that no new thread is ignored. -/
def AllowedNoticed (s : State G T K) (a : Action G T K) : Prop := Allowed s a ∧ Noticed s a

theorem Init.reachable_settled (h₀ : Init s₀) (h : StepsWhen AllowedNoticed step s₀ s) :
    Inv s ∧ Settled s :=
  h.invariant (P := fun s => Inv s ∧ Settled s)
    (fun _ _ _ hI hok hs => ⟨hI.1.step hok.1 hs, hI.2.step hI.1 hok.2 hs⟩)
    ⟨h₀.inv, h₀.settled⟩

/-- Flux does not lose a runnable thread: when neither a handler nor a cpu in PNT works
on it, it is on the runqueue or marked as pending. -/
theorem runnable_not_lost (h₀ : Init s₀) (h : StepsWhen AllowedNoticed step s₀ s) (g : G)
    (hrun : (s.tasks g).phase = .runnable) (hh : s.handlers g = none)
    (hpnt : ∀ c t, (s.pnt c).thread = some t → (s.threads t).gtid ≠ g) :
    ∃ t, s.swLookup g = some t ∧ (s.threads t).gtid = g ∧
      (t ∈ s.rq ∨ (s.threads t).pendingLatch = true) := by
  rcases h₀.reachable_settled h with ⟨hI, hS⟩
  have hidle : s.todo g = [] := by
    unfold State.todo
    rw [hh]
    rfl
  have hflag : s.rqFlag g = some true := by
    rw [hS.idle hidle, Task.flag, hrun]
  rcases hI.tracked_of_rqFlag hflag with ⟨t, htr, hg, -⟩
  refine ⟨t, hg ▸ htr.1, hg, ?_⟩
  have hno : ¬ Has s (s.threads t).gtid .enqueue := by
    intro hhas
    rcases hhas with ⟨h, hh', -⟩
    rw [hg, hh] at hh'
    cases hh'
  rcases (hI.thread t htr).biff (by rw [hg, hrun]) hno with hrq | ⟨c, hpop⟩ | hpend
  · exact .inl hrq
  · exact absurd hg (hpnt c t hpop.thread)
  · exact .inr hpend

/-! ## A thread that stays -/

/-- No `TASK_NEW` is about to be ignored. -/
def noticed (s : State G T K) : Action G T K → Bool
  | .kernel _ (.enter _ _ _) => false
  | .handler g =>
    match s.todo g with
    | .insert _ _ :: _ => (s.swLookup g).isNone
    | _ => true
  | _ => true

omit [DecidableEq G] [DecidableEq T] [DecidableEq K] in
theorem allowedNoticed_of_noticed (s : State G T K) (a : Action G T K) (h : noticed s a = true) :
    AllowedNoticed s a := by
  constructor
  · apply allowed_of_always
    unfold noticed at h
    unfold Action.alwaysAllowed
    split at h
    · cases h
    · rfl
    · rename_i hne _
      split
      · exact absurd rfl (hne _ _ _ _)
      · rfl
  · cases a with
    | handler g =>
      intro k idx r rest hk htodo
      have htd : s.todo g = .insert idx r :: rest := (todo_eq hk).trans htodo
      simp only [noticed, htd] at h
      exact Option.isNone_iff_eq_none.mp h
    | _ => trivial

/-- A thread that has entered ghost, with its handler done. -/
theorem runnable_not_lost_new : ∃ s : State Unit Unit Unit, (s.tasks ()).phase = .runnable ∧
    ∃ t, s.swLookup () = some t ∧ (s.threads t).gtid = () ∧
      (t ∈ s.rq ∨ (s.threads t).pendingLatch = true) := by
  have hrun : StepsWhen AllowedNoticed step booted _ :=
    .head ⟨booted_allowed 0 true, trivial⟩ rfl
      (.of_execWhen allowedNoticed_of_noticed (List.replicate 7 (.handler ())) rfl)
  exact ⟨_, rfl, runnable_not_lost booted_init hrun () rfl rfl fun _ _ hp => by cases hp⟩

/-! ## A thread that comes back -/

/-- One thread, two status words, one cpu. -/
def bootedTwo : State Unit Bool Unit where
  rq := []
  biffLock := none
  nrCpusWanted := 0
  threads := fun _ => ⟨(), 0, 0, .none, false, false, false, false⟩
  swLookup := fun _ => none
  pnt := fun _ => .idle
  handlers := fun _ => none
  latchedBy := fun _ => none
  tasks := fun _ => ⟨.absent, false, false, 0⟩

/-- The thread is enqueued, a cpu in PNT takes it and gets a reference, and the
thread departs. -/
def firstStay : List (Action Unit Bool Unit) :=
  List.replicate 7 (.handler ()) ++ List.replicate 5 (.pnt () false) ++ [.kernel () .depart] ++
    List.replicate 7 (.handler ())

/-- The `TASK_NEW` of the second stay is ignored. The latch fails, and the cpu drops
the last reference to the first stay. -/
def secondStay : List (Action Unit Bool Unit) :=
  List.replicate 2 (.handler ()) ++ [.pnt () false] ++ List.replicate 6 (.handler ()) ++
    List.replicate 3 (.pnt () false)

/-- The state between the two stays. -/
def departed : State Unit Bool Unit :=
  ((step bootedTwo (.kernel () (.enter false 0 true))).bind
    fun s => exec step s firstStay).getD bootedTwo

/-- The state after the second stay has begun. -/
def reentered : State Unit Bool Unit :=
  ((step departed (.kernel () (.enter true 2 true))).bind
    fun s => exec step s secondStay).getD departed

theorem departed_reachable : StepsWhen Allowed step bootedTwo departed := by
  refine .head (a := .kernel () (.enter false 0 true)) ⟨?_, ?_⟩ rfl
    (.of_execWhen allowed_of_always firstStay rfl)
  · constructor <;> simp [bootedTwo]
  · simp [bootedTwo]

theorem reentered_reachable : StepsWhen Allowed step bootedTwo reentered := by
  refine departed_reachable.trans (.head (a := .kernel () (.enter true 2 true)) ⟨?_, ?_⟩ rfl
    (.of_execWhen allowed_of_always secondStay rfl))
  · -- the index of the first stay is still in use, the other one is not
    constructor
    · exact fun _ hl => by cases hl
    · exact fun _ hp => by cases hp
    · exact fun hin => by cases hin
    · exact fun _ _ hh => by cases hh
  · intro c t n hatt _
    have hpc : departed.pnt c = .run false 1 := rfl
    rw [hpc] at hatt
    rw [← hatt.2]
    decide

/-- After the thread has come back it is runnable, but on no runqueue, not marked, and
unknown to flux, with nothing in flight. -/
theorem reentered_lost : ∃ s₀ s : State Unit Bool Unit, Init s₀ ∧ StepsWhen Allowed step s₀ s ∧
    ∃ g, (s.tasks g).phase = .runnable ∧ s.handlers g = none ∧ (∀ c, s.pnt c = .idle) ∧
      s.swLookup g = none ∧ s.rq = [] ∧ ∀ t, (s.threads t).pendingLatch = false := by
  refine ⟨bootedTwo, reentered, ?_, reentered_reachable, (), rfl, rfl, fun _ => rfl, rfl, rfl, ?_⟩
  · constructor <;> simp [bootedTwo]
  · intro t
    cases t <;> rfl

end Flux
