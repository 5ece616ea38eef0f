import GhostSched.Cfs.Model

/-!
# The order of a runqueue

The tasks of a runqueue are ordered by `Less`, and inserting and erasing keep
that order.
-/

namespace Cfs

open Function

variable {G C P : Type*}

/-! ## The order -/

section Order

variable [LinearOrder P] {heap heap' : P → CfsTask G C} {p q r : P} {rq : List P}

/-- By vruntime, then by address. -/
theorem Less.trans (hpq : Less heap p q) (hqr : Less heap q r) : Less heap p r := by
  rcases hpq with hpq | ⟨hpq, hlt⟩
  · rcases hqr with hqr | ⟨hqr, -⟩
    · exact .inl (hpq.trans hqr)
    · exact .inl (hqr ▸ hpq)
  · rcases hqr with hqr | ⟨hqr, hlt'⟩
    · exact .inl (hpq ▸ hqr)
    · exact .inr ⟨hpq.trans hqr, hlt.trans hlt'⟩

/-- No task is before itself. -/
theorem Less.irrefl : ¬ Less heap p p := by
  rintro (h | ⟨-, h⟩) <;> exact lt_irrefl _ h

/-- Any two tasks are ordered. -/
theorem less_of_not_less (hne : p ≠ q) (h : ¬ Less heap p q) : Less heap q p := by
  rcases lt_trichotomy (heap p).vruntime (heap q).vruntime with hlt | heq | hgt
  · exact absurd (.inl hlt) h
  · rcases lt_or_gt_of_ne hne with hlt | hgt
    · exact absurd (.inr ⟨heq, hlt⟩) h
    · exact .inr ⟨heq.symm, hgt⟩
  · exact .inl hgt

/-- The order agrees with the vruntimes. -/
theorem Less.le (h : Less heap p q) : (heap p).vruntime ≤ (heap q).vruntime :=
  h.elim le_of_lt fun h => h.1.le

/-- The order depends on the vruntimes only. -/
theorem Less.congr (hp : (heap' p).vruntime = (heap p).vruntime)
    (hq : (heap' q).vruntime = (heap q).vruntime) (h : Less heap p q) : Less heap' p q := by
  unfold Less
  rw [hp, hq]
  exact h

/-- A runqueue in order. -/
def Ordered (heap : P → CfsTask G C) (rq : List P) : Prop := rq.Pairwise (Less heap)

/-- The order depends on the vruntimes only. -/
theorem Ordered.congr (h : Ordered heap rq)
    (hv : ∀ q ∈ rq, (heap' q).vruntime = (heap q).vruntime) : Ordered heap' rq :=
  List.Pairwise.imp_of_mem (fun hp hq hless => hless.congr (hv _ hp) (hv _ hq)) h

/-- A runqueue holds a task once. -/
theorem Ordered.nodup (h : Ordered heap rq) : rq.Nodup := by
  apply List.Pairwise.imp _ h
  intro p q hless heq
  exact Less.irrefl (heq ▸ hless)

/-- `rq_.erase` keeps the order. -/
theorem Ordered.erase (h : Ordered heap rq) : Ordered heap (rq.erase p) :=
  List.Pairwise.sublist List.erase_sublist h

/-- `LeftmostRqTask` has the least vruntime. -/
theorem Ordered.leftmost_le (h : Ordered heap (p :: rq)) (hq : q ∈ p :: rq) :
    (heap p).vruntime ≤ (heap q).vruntime := by
  rcases List.mem_cons.mp hq with rfl | hq
  · exact le_refl _
  · exact (List.rel_of_pairwise_cons h hq).le

/-- `rq_.insert` adds the task. -/
theorem mem_insert : q ∈ Rq.insert heap p rq ↔ q = p ∨ q ∈ rq := by
  unfold Rq.insert
  split
  · rename_i hmem
    exact ⟨.inr, fun h => h.elim (fun heq => heq ▸ hmem) id⟩
  · exact List.mem_orderedInsert (Less heap)

/-- A new task goes to its place. -/
theorem ordered_orderedInsert (h : Ordered heap rq) (hp : p ∉ rq) :
    Ordered heap (rq.orderedInsert (Less heap) p) := by
  induction rq with
  | nil => exact List.pairwise_singleton _ _
  | cons q rq ih =>
    rcases List.pairwise_cons.mp h with ⟨hfirst, hrest⟩
    rcases not_or.mp (mt List.mem_cons.mpr hp) with ⟨hne, hnot⟩
    rw [List.orderedInsert_cons]
    split
    · rename_i hless
      refine List.pairwise_cons.mpr ⟨fun r hr => ?_, h⟩
      rcases List.mem_cons.mp hr with rfl | hr
      · exact hless
      · exact hless.trans (hfirst r hr)
    · rename_i hless
      refine List.pairwise_cons.mpr ⟨fun r hr => ?_, ih hrest hnot⟩
      rcases (List.mem_orderedInsert _).mp hr with rfl | hr
      · exact less_of_not_less hne hless
      · exact hfirst r hr

/-- `rq_.insert` keeps the order, also if the task is there already. -/
theorem Ordered.insert (h : Ordered heap rq) : Ordered heap (Rq.insert heap p rq) := by
  unfold Rq.insert
  split
  · exact h
  · exact ordered_orderedInsert h ‹_›

theorem insert_ne_nil : Rq.insert heap p rq ≠ [] :=
  List.ne_nil_of_mem (mem_insert.mpr (.inl rfl))

end Order

/-! ## A cpu with one task more or less -/

/-- A check that succeeds does nothing. -/
theorem check_of_true (s : State G C P) {b : Bool} (h : b = true) : s.check b = s := by
  subst h
  simp [State.check]

section Rq

variable [LinearOrder P]

/-- The runqueue with one more task, which is `t` now. -/
def CpuState.queued (cs : CpuState G P) (heap : P → CfsTask G C) (p : P) (t : CfsTask G C) :
    CpuState G P :=
  let rq := Rq.insert (update heap p t) p cs.rq
  { cs with
    rq := rq
    rqSize := rq.length
    minVruntime := (rq.head?.map fun q => (update heap p t q).vruntime).getD 0 }

/-- The runqueue with one task less. -/
def CpuState.unqueued (cs : CpuState G P) (p : P) : CpuState G P :=
  { cs with rq := cs.rq.erase p, rqSize := (cs.rq.erase p).length }

end Rq

end Cfs
