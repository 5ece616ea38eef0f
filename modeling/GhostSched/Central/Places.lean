import Mathlib.Data.List.Nodup
import Mathlib.Data.List.Perm.Basic
import Mathlib.Logic.Function.Basic

/-!
# Where a global agent keeps its tasks

A task is on the run queue, on the list of tasks that skip a round, current on a
cpu, picked for a cpu by the pass that is under way, or nowhere.

* `Placed` says that each task is at one place, and that it is the one its state
  `fits`.
* A handler takes a task from its place and puts it to another one. `Lifted` is
  the state between the two: the task is nowhere, whatever its state says. The
  lemmas `Placed.lift_*` lead into it and the lemmas `Lifted.put_*` out of it.
-/

namespace Central

open Function

inductive Place (C : Type*) where
  | out
  | queued
  | yielding
  | onCpu (cpu : C)
  | picked (cpu : C)
  deriving DecidableEq

/-- The places of all tasks. -/
structure Board {G C : Type*} (place : G → Place C) (queue yielding : List G)
    (current next : C → Option G) : Prop where
  queue_nodup : queue.Nodup
  mem_queue : ∀ g, g ∈ queue ↔ place g = .queued
  yielding_nodup : yielding.Nodup
  mem_yielding : ∀ g, g ∈ yielding ↔ place g = .yielding
  current : ∀ c g, current c = some g ↔ place g = .onCpu c
  next : ∀ c g, next c = some g ↔ place g = .picked c

/-- Each task is at one place, which its state fits. -/
def Placed {G C T : Type*} (fits : T → Place C → Prop) (tasks : G → T) (queue yielding : List G)
    (current next : C → Option G) : Prop :=
  ∃ place, Board place queue yielding current next ∧ ∀ g, fits (tasks g) (place g)

/-- One task is nowhere, and the other ones are where their states fit. -/
def Lifted {G C T : Type*} (g : G) (fits : T → Place C → Prop) (tasks : G → T)
    (queue yielding : List G) (current next : C → Option G) : Prop :=
  ∃ place, Board place queue yielding current next ∧ place g = .out ∧
    ∀ g' ≠ g, fits (tasks g') (place g')

variable {G C T : Type*} {fits : T → Place C → Prop} {tasks : G → T}
  {queue queue' yielding yielding' : List G} {current next : C → Option G} {g : G} {c : C}
  {place : G → Place C}

/-! ## One task goes to another place -/

namespace Board

/-- A place stands for a list of tasks. -/
def Lists (place : G → Place C) (q : Place C) (l : List G) : Prop :=
  l.Nodup ∧ ∀ x, x ∈ l ↔ place x = q

/-- A family of places stands for a slot of each cpu. -/
def Slots (place : G → Place C) (q : C → Place C) (slot : C → Option G) : Prop :=
  ∀ c x, slot c = some x ↔ place x = q c

variable {p q : Place C} {l l' : List G} {qs : C → Place C} {slot : C → Option G}

/-- The run queue is the list of its place. -/
theorem lists_queue (h : Board place queue yielding current next) : Lists place .queued queue :=
  ⟨h.queue_nodup, h.mem_queue⟩

/-- The yielding tasks are the list of their place. -/
theorem lists_yielding (h : Board place queue yielding current next) :
    Lists place .yielding yielding :=
  ⟨h.yielding_nodup, h.mem_yielding⟩

/-- Two lists and two slots for each cpu make a board. -/
theorem of_lists (hqueue : Lists place .queued queue) (hyielding : Lists place .yielding yielding)
    (hcurrent : Slots place .onCpu current) (hnext : Slots place .picked next) :
    Board place queue yielding current next :=
  ⟨hqueue.1, hqueue.2, hyielding.1, hyielding.2, hcurrent, hnext⟩

variable [DecidableEq G]

/-- The task neither was on the list nor gets there. -/
theorem Lists.other (h : Lists place q l) (hold : place g ≠ q) (hnew : p ≠ q) :
    Lists (update place g p) q l := by
  refine ⟨h.1, (forall_update_iff place fun x y => x ∈ l ↔ y = q).mpr ⟨?_, fun x _ => h.2 x⟩⟩
  rw [h.2]
  exact iff_of_false hold hnew

/-- The task goes to the list. -/
theorem Lists.add (h : Lists place q l) (hold : place g ≠ q) (hl : l'.Perm (g :: l)) :
    Lists (update place g q) q l' := by
  refine ⟨hl.nodup_iff.mpr (List.nodup_cons.mpr ⟨mt (h.2 g).mp hold, h.1⟩), fun x => ?_⟩
  rw [hl.mem_iff, List.mem_cons]
  by_cases hx : x = g
  · simp [hx]
  · rw [update_of_ne hx, h.2]
    exact or_iff_right hx

/-- The task leaves the list. -/
theorem Lists.remove (h : Lists place q l) (hl : l.Perm (g :: l')) (hnew : p ≠ q) :
    Lists (update place g p) q l' := by
  rcases List.nodup_cons.mp (hl.nodup_iff.mp h.1) with ⟨hnot, hnodup⟩
  refine ⟨hnodup, fun x => ?_⟩
  rw [update_apply]
  split_ifs with hx
  · -- it was there once
    subst hx
    exact iff_of_false hnot hnew
  · rw [← h.2, hl.mem_iff, List.mem_cons, or_iff_right hx]

/-- The task neither was in a slot nor gets there. -/
theorem Slots.other (h : Slots place qs slot) (hold : ∀ c, place g ≠ qs c)
    (hnew : ∀ c, p ≠ qs c) : Slots (update place g p) qs slot := by
  intro c x
  rw [update_apply]
  split_ifs with hx
  · subst hx
    rw [h c x]
    exact iff_of_false (hold c) (hnew c)
  · exact h c x

variable [DecidableEq C]

/-- The task takes a free slot. -/
theorem Slots.add (qs : C → Place C) (h : Slots place qs slot) (hfree : slot c = none)
    (hold : ∀ c', place g ≠ qs c') (hinj : ∀ c', qs c = qs c' → c = c') :
    Slots (update place g (qs c)) qs (update slot c (some g)) := by
  intro c' x
  by_cases hx : x = g
  · subst hx
    -- the task is in its new slot and in no other one
    rw [update_self]
    by_cases hc : c' = c
    · subst hc
      simp
    · rw [update_of_ne hc, h c' x]
      exact iff_of_false (hold c') fun heq => hc (hinj c' heq).symm
  · rw [update_of_ne hx]
    rw [update_apply]
    split_ifs with hc
    · subst hc
      rw [← h c' x, hfree]
      exact iff_of_false (fun heq => hx (Option.some.inj heq).symm) (by simp)
    · exact h c' x

/-- The task leaves its slot. -/
theorem Slots.remove (h : Slots place qs slot) (hat : place g = qs c)
    (hinj : ∀ c', qs c = qs c' → c = c') (hnew : ∀ c', p ≠ qs c') :
    Slots (update place g p) qs (update slot c none) := by
  intro c' x
  by_cases hc : c' = c
  · subst hc
    rw [update_self]
    rw [update_apply]
    split_ifs with hx
    · exact iff_of_false (by simp) (hnew c')
    · -- the slot was taken by the task that leaves
      rw [← h c' x, (h c' g).mpr hat]
      exact iff_of_false (by simp) fun heq => hx (Option.some.inj heq).symm
  · rw [update_of_ne hc]
    rw [update_apply]
    split_ifs with hx
    · subst hx
      rw [h c' x]
      exact iff_of_false (fun heq => hc (hinj c' (hat ▸ heq)).symm) (hnew c')
    · exact h c' x

end Board

/-! ## Taking a task from its place -/

section Lift

section

variable (h : Placed fits tasks queue yielding current next)
include h

variable {P : T → Prop}

/-- What a state says about the run queue. -/
theorem Placed.mem_queue (hP : ∀ o p, fits o p → (p = .queued ↔ P o)) (g : G) :
    g ∈ queue ↔ P (tasks g) := by
  rcases h with ⟨place, hb, hfits⟩
  exact (hb.mem_queue g).trans (hP _ _ (hfits g))

/-- What a state says about the yielding tasks. -/
theorem Placed.mem_yielding (hP : ∀ o p, fits o p → (p = .yielding ↔ P o)) (g : G) :
    g ∈ yielding ↔ P (tasks g) := by
  rcases h with ⟨place, hb, hfits⟩
  exact (hb.mem_yielding g).trans (hP _ _ (hfits g))

/-- What a state says about the task of a cpu. -/
theorem Placed.current_iff (hP : ∀ o p, fits o p → (p = .onCpu c ↔ P o)) (g : G) :
    current c = some g ↔ P (tasks g) := by
  rcases h with ⟨place, hb, hfits⟩
  exact (hb.current c g).trans (hP _ _ (hfits g))

/-- What a state says about the task that is picked for a cpu. -/
theorem Placed.next_iff (hP : ∀ o p, fits o p → (p = .picked c ↔ P o)) (g : G) :
    next c = some g ↔ P (tasks g) := by
  rcases h with ⟨place, hb, hfits⟩
  exact (hb.next c g).trans (hP _ _ (hfits g))

/-- A task that is picked for a cpu. -/
theorem Placed.next_some (hc : next c = some g) : fits (tasks g) (.picked c) := by
  rcases h with ⟨place, hb, hfits⟩
  exact (hb.next c g).mp hc ▸ hfits g

theorem Placed.queue_nodup : queue.Nodup := by
  rcases h with ⟨place, hb, -⟩
  exact hb.queue_nodup

theorem Placed.yielding_nodup : yielding.Nodup := by
  rcases h with ⟨place, hb, -⟩
  exact hb.yielding_nodup

/-- A task stays where it is. -/
theorem Placed.retask [DecidableEq G] {o : T} (hg : ∀ p, fits (tasks g) p → fits o p) :
    Placed fits (update tasks g o) queue yielding current next := by
  rcases h with ⟨place, hb, hfits⟩
  exact ⟨place, hb, (forall_update_iff tasks fun g' o => fits o (place g')).mpr
    ⟨hg _ (hfits g), fun g' _ => hfits g'⟩⟩

/-- A task that is out is nowhere already. -/
theorem Placed.lift_out (hg : ∀ p, fits (tasks g) p → p = .out) :
    Lifted g fits tasks queue yielding current next := by
  rcases h with ⟨place, hb, hfits⟩
  exact ⟨place, hb, hg _ (hfits g), fun g' _ => hfits g'⟩

end

variable [DecidableEq G]

/-- The other tasks stay where they are. -/
theorem lifted_of_update {current' next' : C → Option G}
    (hb : Board (update place g .out) queue' yielding' current' next')
    (hfits : ∀ g', fits (tasks g') (place g')) :
    Lifted g fits tasks queue' yielding' current' next' :=
  ⟨_, hb, update_self .., fun g' hg' => by
    rw [update_of_ne hg']; exact hfits g'⟩

section

variable (h : Placed fits tasks queue yielding current next)
include h

/-- From the run queue. -/
theorem Placed.lift_queue (hq : queue.Perm (g :: queue')) :
    Lifted g fits tasks queue' yielding current next := by
  rcases h with ⟨place, hb, hfits⟩
  have hg : place g = .queued := (hb.mem_queue g).mp (hq.mem_iff.mpr (by simp))
  -- the run queue is shorter, and the rest is as before
  refine lifted_of_update (.of_lists ?_ ?_ ?_ ?_) hfits
  · exact hb.lists_queue.remove hq (by simp)
  · exact hb.lists_yielding.other (by simp [hg]) (by simp)
  · exact Board.Slots.other hb.current (by simp [hg]) (by simp)
  · exact Board.Slots.other hb.next (by simp [hg]) (by simp)

/-- From the tasks that skip a round. -/
theorem Placed.lift_yielding (hy : yielding.Perm (g :: yielding')) :
    Lifted g fits tasks queue yielding' current next := by
  rcases h with ⟨place, hb, hfits⟩
  have hg : place g = .yielding := (hb.mem_yielding g).mp (hy.mem_iff.mpr (by simp))
  refine lifted_of_update (.of_lists ?_ ?_ ?_ ?_) hfits
  · exact hb.lists_queue.other (by simp [hg]) (by simp)
  · exact hb.lists_yielding.remove hy (by simp)
  · exact Board.Slots.other hb.current (by simp [hg]) (by simp)
  · exact Board.Slots.other hb.next (by simp [hg]) (by simp)

variable [DecidableEq C]

/-- From its cpu. -/
theorem Placed.lift_current (hc : current c = some g) :
    Lifted g fits tasks queue yielding (update current c none) next := by
  rcases h with ⟨place, hb, hfits⟩
  have hg : place g = .onCpu c := (hb.current c g).mp hc
  -- the cpu is free, and the rest is as before
  refine lifted_of_update (.of_lists ?_ ?_ ?_ ?_) hfits
  · exact hb.lists_queue.other (by simp [hg]) (by simp)
  · exact hb.lists_yielding.other (by simp [hg]) (by simp)
  · exact Board.Slots.remove hb.current hg (by simp) (by simp)
  · exact Board.Slots.other hb.next (by simp [hg]) (by simp)

/-- From the cpu that it is picked for. -/
theorem Placed.lift_next (hc : next c = some g) :
    Lifted g fits tasks queue yielding current (update next c none) := by
  rcases h with ⟨place, hb, hfits⟩
  have hg : place g = .picked c := (hb.next c g).mp hc
  refine lifted_of_update (.of_lists ?_ ?_ ?_ ?_) hfits
  · exact hb.lists_queue.other (by simp [hg]) (by simp)
  · exact hb.lists_yielding.other (by simp [hg]) (by simp)
  · exact Board.Slots.other hb.current (by simp [hg]) (by simp)
  · exact Board.Slots.remove hb.next hg (by simp) (by simp)

end

end Lift

/-! ## Putting it to another one -/

section Put

/-- The state of the task that is nowhere does not matter. -/
theorem Lifted.retask [DecidableEq G] (h : Lifted g fits tasks queue yielding current next)
    (o : T) : Lifted g fits (update tasks g o) queue yielding current next := by
  rcases h with ⟨place, hb, hout, hothers⟩
  refine ⟨place, hb, hout, fun g' hg' => ?_⟩
  rw [update_of_ne hg']
  exact hothers g' hg'

/-- To no place at all. -/
theorem Lifted.put_out (h : Lifted g fits tasks queue yielding current next)
    (hg : fits (tasks g) .out) :
    Placed fits tasks queue yielding current next := by
  classical
  rcases h with ⟨place, hb, hout, hothers⟩
  refine ⟨place, hb, fun g' => ?_⟩
  by_cases hne : g' = g
  · subst hne
    -- it stays where it is
    rw [hout]
    exact hg
  · exact hothers g' hne

variable [DecidableEq G]

/-- The other tasks stay where they are. -/
theorem placed_of_update {p : Place C} {current' next' : C → Option G}
    (hb : Board (update place g p) queue' yielding' current' next')
    (hothers : ∀ g' ≠ g, fits (tasks g') (place g')) (hg : fits (tasks g) p) :
    Placed fits tasks queue' yielding' current' next' :=
  ⟨_, hb, (forall_update_iff place fun g' p => fits (tasks g') p).mpr ⟨hg, hothers⟩⟩

section

variable (h : Lifted g fits tasks queue yielding current next)
include h

/-- To the run queue. -/
theorem Lifted.put_queue (hg : fits (tasks g) .queued) (hq : queue'.Perm (g :: queue)) :
    Placed fits tasks queue' yielding current next := by
  rcases h with ⟨place, hb, hout, hothers⟩
  -- the run queue is longer, and the rest is as before
  refine placed_of_update (.of_lists ?_ ?_ ?_ ?_) hothers hg
  · exact hb.lists_queue.add (by simp [hout]) hq
  · exact hb.lists_yielding.other (by simp [hout]) (by simp)
  · exact Board.Slots.other hb.current (by simp [hout]) (by simp)
  · exact Board.Slots.other hb.next (by simp [hout]) (by simp)

/-- To the tasks that skip a round. -/
theorem Lifted.put_yielding (hg : fits (tasks g) .yielding) (hy : yielding'.Perm (g :: yielding)) :
    Placed fits tasks queue yielding' current next := by
  rcases h with ⟨place, hb, hout, hothers⟩
  refine placed_of_update (.of_lists ?_ ?_ ?_ ?_) hothers hg
  · exact hb.lists_queue.other (by simp [hout]) (by simp)
  · exact hb.lists_yielding.add (by simp [hout]) hy
  · exact Board.Slots.other hb.current (by simp [hout]) (by simp)
  · exact Board.Slots.other hb.next (by simp [hout]) (by simp)

variable [DecidableEq C]

/-- To a cpu that is free. -/
theorem Lifted.put_current (hg : fits (tasks g) (.onCpu c)) (hc : current c = none) :
    Placed fits tasks queue yielding (update current c (some g)) next := by
  rcases h with ⟨place, hb, hout, hothers⟩
  -- the cpu is taken, and the rest is as before
  refine placed_of_update (.of_lists ?_ ?_ ?_ ?_) hothers hg
  · exact hb.lists_queue.other (by simp [hout]) (by simp)
  · exact hb.lists_yielding.other (by simp [hout]) (by simp)
  · exact Board.Slots.add .onCpu hb.current hc (by simp [hout]) (by simp)
  · exact Board.Slots.other hb.next (by simp [hout]) (by simp)

/-- To a cpu that no task is picked for. -/
theorem Lifted.put_next (hg : fits (tasks g) (.picked c)) (hc : next c = none) :
    Placed fits tasks queue yielding current (update next c (some g)) := by
  rcases h with ⟨place, hb, hout, hothers⟩
  refine placed_of_update (.of_lists ?_ ?_ ?_ ?_) hothers hg
  · exact hb.lists_queue.other (by simp [hout]) (by simp)
  · exact hb.lists_yielding.other (by simp [hout]) (by simp)
  · exact Board.Slots.other hb.current (by simp [hout]) (by simp)
  · exact Board.Slots.add .picked hb.next hc (by simp [hout]) (by simp)

end

end Put

end Central
