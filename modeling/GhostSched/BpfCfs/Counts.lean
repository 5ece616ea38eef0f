import GhostSched.BpfCfs.Lists
import Mathlib.Algebra.BigOperators.Group.List.Basic
import Mathlib.Algebra.Group.Action.Defs
import Mathlib.Algebra.Order.BigOperators.Group.List
import Mathlib.Algebra.Order.Ring.Nat

/-!
# The counters of a runqueue

A runqueue counts its threads and adds up their weights. A thread that PNT takes
from the runqueue is still counted, while it is latched and while it runs. When it
stops, it is counted again if it is queued, and it is not counted less otherwise.

* `FromRq` are the threads that a cpu has taken from its runqueue.
* `Undisturbed` is when the counters are right: every thread that PNT takes is
  latched and never stops again, and no known thread dies.
* `Counted` is the invariant, with one lemma for each change of the state.
-/

namespace BpfCfs

open Kernel TailQueue Transition Function

variable {G C : Type*}

/-- The thread was taken from the runqueue of the cpu, and it is in the hands of
PNT, latched or running there. A thread that got the cpu by a switchto was not. -/
def FromRq (s : State G C) (c : C) (g : G) : Prop :=
  (s.pnt c).next = some g ∨ (s.tasks g).phase = .latched c ∨ (s.tasks g).phase = .running c false

/-- A thread that is not latched and does not run, unless by a switchto. -/
def Off (p : Phase C) : Prop := ∀ c, p ≠ .latched c ∧ p ≠ .running c false

/-- A cpu has the one taken from its runqueue if and only if it has the other. -/
def Alike (p q : Phase C) : Prop :=
  ∀ c, (p = .latched c ∨ p = .running c false) ↔ (q = .latched c ∨ q = .running c false)

/-- The weight of a thread. -/
def weightOf (s : State G C) (g : G) : ℕ :=
  match gtidToThread s g with
  | none => 0
  | some t => (s.threads t).weight.toNat

/-! ## The condition -/

/-- The messages after which the counters are still right. -/
def MsgUndisturbed (s : State G C) (g : G) (cpu : C) : Msg C ℕ → Prop
  | .blocked _ sw | .preempt _ sw | .yield _ sw => sw = true
  | .departed (some (_, sw)) => sw = true
  | .departed none =>
    ∀ t ∈ gtidToThread s g, (s.tasks g).phase = .runnable → findInRq s cpu t = some t
  | .switchto _ => False
  | .dead => gtidToThread s g = none
  | _ => True

def Undisturbed [DecidableEq G] (s : State G C) : Action G C → Prop
  | .kernel g e cpu now =>
    ∀ msg ∈ sent s (.kernel g e cpu now), MsgUnlinks s g cpu msg ∧ MsgUndisturbed s g cpu msg
  | .pnt cpu res _ =>
    match s.pnt cpu with
    | .idle => True
    | .run _ _ => res = .ok
    | .enqueue _ _ => False

section Decidable

variable [DecidableEq G] [DecidableEq C] [Fintype C]

instance (s : State G C) (g : G) (cpu : C) (msg : Msg C ℕ) :
    Decidable (MsgUndisturbed s g cpu msg) :=
  match msg with
  | .blocked _ sw | .preempt _ sw | .yield _ sw | .departed (some (_, sw)) =>
    inferInstanceAs (Decidable (sw = true))
  | .departed none => inferInstanceAs (Decidable (∀ t ∈ gtidToThread s g, _ = _ → _ = _))
  | .dead => inferInstanceAs (Decidable (gtidToThread s g = none))
  | .switchto _ => .isFalse id
  | .new _ _ | .onCpu _ | .wakeup | .affinityChanged | .prioChanged => .isTrue trivial

instance (s : State G C) (a : Action G C) : Decidable (Undisturbed s a) := by
  unfold Undisturbed
  split
  · infer_instance
  · split <;> infer_instance

end Decidable

/-! ## The invariant -/

/-- The counters of the runqueues, for their lists and the threads they gave away. -/
structure Counted (s : State G C) (lists : C → List ℕ) (out : C → List G) : Prop where
  nodup : ∀ c, (out c).Nodup
  mem : ∀ c g, g ∈ out c ↔ FromRq s c g
  known : ∀ c, ∀ g ∈ out c, (gtidToThread s g).isSome
  weights : ∀ t, (s.threads t).weight = 0 ∨ (s.threads t).weight = nice0Load
  nrRunning : ∀ c, (s.rqs c).nrRunning = UInt64.ofNat ((lists c).length + (out c).length)
  weight : ∀ c, (s.rqs c).weight = UInt64.ofNat
    (((lists c).map fun t => (s.threads t).weight.toNat).sum + ((out c).map (weightOf s)).sum)

theorem counted_init : Counted (State.init G C) (fun _ => []) fun _ => [] where
  nodup _ := List.nodup_nil
  mem _ _ := ⟨nofun, fun h => by rcases h with h | h | h <;> cases h⟩
  known := nofun
  weights _ := .inl rfl
  nrRunning _ := rfl
  weight _ := rfl

variable {s s' : State G C} {lists : C → List ℕ} {out : C → List G} {g : G} {t i n : ℕ} {cpu c : C}

section

variable (hC : Counted s lists out)
include hC

/-- Nothing that is counted changes. -/
theorem Counted.frame (hfrom : ∀ c g, FromRq s' c g ↔ FromRq s c g)
    (hslot : ∀ c, ∀ g ∈ out c, gtidToThread s' g = gtidToThread s g)
    (hweight : ∀ t, (s'.threads t).weight = (s.threads t).weight)
    (hrqs : ∀ c, (s'.rqs c).nrRunning = (s.rqs c).nrRunning ∧
      (s'.rqs c).weight = (s.rqs c).weight) :
    Counted s' lists out where
  nodup := hC.nodup
  mem c g := (hC.mem c g).trans (hfrom c g).symm
  known c g hg := by
    rw [hslot c g hg]
    exact hC.known c g hg
  weights t := by
    rw [hweight t]
    exact hC.weights t
  nrRunning c := (hrqs c).1.trans (hC.nrRunning c)
  weight c := by
    have hout : (out c).map (weightOf s') = (out c).map (weightOf s) := by
      refine List.map_congr_left fun g hg => ?_
      simp only [weightOf, hslot c g hg, hweight]
    rw [(hrqs c).2, hC.weight c, hout]
    simp only [hweight]

/-- The threads that are counted have different slots. -/
theorem Counted.length_le (hI : Inv s lists) : (lists c).length + (out c).length ≤ maxGtids := by
  let slot (g : G) : ℕ := (gtidToThread s g).getD 0
  have hslot : ∀ g ∈ out c, gtidToThread s g = some (slot g) := by
    intro g hg
    rcases Option.isSome_iff_exists.mp (hC.known c g hg) with ⟨t, ht⟩
    simp [slot, ht]
  have hnodup : (lists c ++ (out c).map slot).Nodup := by
    refine List.nodup_append.mpr ⟨(hI.queues.queue c).nodup, ?_, ?_⟩
    · refine (hC.nodup c).map_on fun g hg g' hg' heq => ?_
      exact hI.inj g g' _ (hslot g hg) (heq ▸ hslot g' hg')
    · -- a thread that was taken from the list is not on it
      intro t ht t' ht' heq
      rcases List.mem_map.mp ht' with ⟨g, hg, rfl⟩
      subst heq
      refine hI.unlinked (c := c) (hslot g hg) (fun hrun => ?_) ht
      rcases (hC.mem c g).mp hg with h | h | h
      · exact ⟨c, h⟩
      · cases hrun.symm.trans h
      · cases hrun.symm.trans h
  have hsub : lists c ++ (out c).map slot ⊆ List.range maxGtids := by
    have hlt : ∀ g t, gtidToThread s g = some t → t ∈ List.range maxGtids := by
      intro g t ht
      exact List.mem_range.mpr (of_decide_eq_true (Option.mem_filter_iff.mp ht).2)
    intro t ht
    rcases List.mem_append.mp ht with ht | ht
    · rcases hI.waiting c t ht with ⟨g, hw⟩
      exact hlt g t hw.slot
    · rcases List.mem_map.mp ht with ⟨g, hg, rfl⟩
      exact hlt g _ (hslot g hg)
  have hlen := (List.subperm_of_subset hnodup hsub).length_le
  rwa [List.length_range, List.length_append, List.length_map] at hlen

/-- The counter does not wrap around. -/
theorem Counted.toNat_nrRunning (hI : Inv s lists) :
    (s.rqs c).nrRunning.toNat = (lists c).length + (out c).length := by
  rw [hC.nrRunning c]
  exact UInt64.toNat_ofNat_of_lt' (Nat.lt_of_le_of_lt (hC.length_le hI) (by decide))

theorem Counted.weight_le (t : ℕ) : (s.threads t).weight.toNat ≤ 1024 := by
  rcases hC.weights t with h | h
  · rw [h]
    decide
  · rw [h]
    decide

/-- The weight does not wrap around. -/
theorem Counted.toNat_weight (hI : Inv s lists) :
    (s.rqs c).weight.toNat = ((lists c).map fun t => (s.threads t).weight.toNat).sum +
      ((out c).map (weightOf s)).sum := by
  have hlists := List.sum_le_card_nsmul ((lists c).map fun t => (s.threads t).weight.toNat)
    1024 <| by
    intro w hw
    rcases List.mem_map.mp hw with ⟨t, _, rfl⟩
    exact hC.weight_le t
  have hout := List.sum_le_card_nsmul ((out c).map (weightOf s)) 1024 <| by
    intro w hw
    rcases List.mem_map.mp hw with ⟨g, _, rfl⟩
    unfold weightOf
    split
    · exact Nat.zero_le _
    · exact hC.weight_le _
  have hlen := hC.length_le hI (c := c)
  rw [List.length_map, smul_eq_mul] at hlists hout
  rw [hC.weight c]
  apply UInt64.toNat_ofNat_of_lt'
  -- the array has room for few enough threads
  have hsize : maxGtids * 1024 < UInt64.size := by decide
  omega

/-- A thread that is not on the list of a cpu is not found there. -/
theorem Counted.findInRq_eq_none (hI : Inv s lists) (ht : t ∉ lists cpu) :
    findInRq s cpu t = none := by
  have hlen : (lists cpu).length ≤ (s.rqs cpu).nrRunning.toNat := by
    rw [hC.toNat_nrRunning hI]
    exact Nat.le_add_right _ _
  simp only [findInRq]
  split
  · -- the loop sees the whole list
    rw [(hI.queues.queue cpu).foreach, List.take_of_length_le hlen,
      List.getElem?_eq_none hlen, Option.or_none]
    refine List.find?_eq_none.mpr fun x hx => ?_
    simpa using ne_of_mem_of_not_mem hx ht
  · rfl

end

/-! ### The lists change -/

variable [DecidableEq C]

variable {wakeup : Bool}

omit [DecidableEq C] in
theorem Enqueued.slots (he : Enqueued s s' g i wakeup cpu) (g' : G) :
    gtidToThread s' g' = gtidToThread s g' := by
  rw [gtidToThread, gtidToThread, he.swLookup]

omit [DecidableEq C] in
theorem Enqueued.fromRq (he : Enqueued s s' g i wakeup cpu) (c : C) (g' : G) :
    FromRq s' c g' ↔ FromRq s c g' := by
  unfold FromRq
  rw [he.pnt, he.tasks]

/-- A thread is queued that the runqueue does not count. -/
theorem Counted.enqueue (hC : Counted s lists out) (hI : Inv s lists)
    (he : Enqueued s s' g i wakeup cpu) (hslot : gtidToThread s g = some i)
    (hun : ∀ c, i ∉ lists c) (hnot : ∀ c, ¬FromRq s c g) :
    Counted s' (withThread lists cpu wakeup i) out := by
  -- the weights of all other threads are as before
  have hlists : ∀ c, (lists c).map (fun t => (s'.threads t).weight.toNat) =
      (lists c).map fun t => (s.threads t).weight.toNat := by
    refine fun c => List.map_congr_left fun t ht => ?_
    rw [(he.threads t (ne_of_mem_of_not_mem ht (hun c))).2.2]
  have hout : ∀ c, (out c).map (weightOf s') = (out c).map (weightOf s) := by
    refine fun c => List.map_congr_left fun g' hg' => ?_
    unfold weightOf
    rw [he.slots g']
    cases ht : gtidToThread s g' with
    | none => rfl
    | some t =>
      have hne : t ≠ i := by
        rintro rfl
        rw [hI.inj g' g t ht hslot] at hg'
        exact hnot c ((hC.mem c g).mp hg')
      exact congrArg UInt64.toNat (he.threads t hne).2.2
  refine ⟨hC.nodup, fun c g' => (hC.mem c g').trans (he.fromRq c g').symm, ?_, ?_, ?_, ?_⟩
  · intro c g' hg'
    rw [he.slots g']
    exact hC.known c g' hg'
  · intro t
    by_cases ht : t = i
    · subst ht
      rw [he.weight]
      rcases hC.weights t with h | h
      · exact .inr (if_pos h)
      · exact .inr (by rw [h]; rfl)
    · rw [(he.threads t ht).2.2]
      exact hC.weights t
  · intro c
    by_cases hc : c = cpu
    · subst hc
      rw [he.nrRunning, hC.nrRunning c, withThread_self.length_eq, List.length_cons,
        Nat.add_right_comm, UInt64.ofNat_add _ 1]
      rfl
    · rw [he.rqs c hc, hC.nrRunning c, withThread, Function.update_of_ne hc]
  · intro c
    rw [hout c]
    by_cases hc : c = cpu
    · subst hc
      rw [he.rqWeight, hC.weight c, (withThread_self.map _).sum_eq, List.map_cons, List.sum_cons,
        hlists c, Nat.add_assoc, UInt64.ofNat_add (s'.threads i).weight.toNat, UInt64.ofNat_toNat,
        UInt64.add_comm]
    · rw [he.rqs c hc, hC.weight c, withThread, Function.update_of_ne hc, hlists c]

/-- A thread is taken off its runqueue and not counted any more. -/
theorem Counted.remove (hC : Counted s lists out) (ht : t ∈ lists cpu)
    (hfrom : ∀ c g, FromRq s' c g ↔ FromRq s c g)
    (hslot : ∀ c, ∀ g ∈ out c, gtidToThread s' g = gtidToThread s g)
    (hthreads : s'.threads = s.threads)
    (hrq : s'.rqs cpu = updateRqOnTaskDead { s.rqs cpu with rqRoot := (s'.rqs cpu).rqRoot }
      (s.threads t))
    (hrqs : ∀ c ≠ cpu, s'.rqs c = s.rqs c) : Counted s' (withoutThread lists cpu t) out := by
  have hout : ∀ c, (out c).map (weightOf s') = (out c).map (weightOf s) := by
    refine fun c => List.map_congr_left fun g hg => ?_
    simp only [weightOf, hslot c g hg, hthreads]
  have hperm := withoutThread_self ht
  refine ⟨hC.nodup, fun c g => (hC.mem c g).trans (hfrom c g).symm, ?_, ?_, ?_, ?_⟩
  · intro c g hg
    rw [hslot c g hg]
    exact hC.known c g hg
  · intro x
    rw [hthreads]
    exact hC.weights x
  · intro c
    by_cases hc : c = cpu
    · subst hc
      have hlen := hperm.length_eq
      rw [List.length_cons] at hlen
      rw [hrq]
      show (s.rqs c).nrRunning - 1 = _
      rw [hC.nrRunning c, ← hlen, Nat.add_right_comm, UInt64.ofNat_add _ 1]
      exact UInt64.add_sub_cancel _ _
    · rw [hrqs c hc, hC.nrRunning c, withoutThread, update_of_ne hc]
  · intro c
    rw [hout c, hthreads]
    by_cases hc : c = cpu
    · subst hc
      have hsum := (hperm.map fun t => (s.threads t).weight.toNat).sum_eq
      rw [List.map_cons, List.sum_cons] at hsum
      rw [hrq]
      show (s.rqs c).weight - (s.threads t).weight = _
      rw [hC.weight c, ← hsum, Nat.add_assoc, UInt64.ofNat_add (s.threads t).weight.toNat,
        UInt64.ofNat_toNat, UInt64.add_comm, UInt64.add_sub_cancel]
    · rw [hrqs c hc, hC.weight c, withoutThread, update_of_ne hc]

/-- PNT takes a thread off its runqueue, and the thread is still counted. -/
theorem Counted.pick (hC : Counted s lists out) (hw : Waiting s g t) (ht : t ∈ lists cpu)
    (hidle : s.pnt cpu = .idle) :
    Counted ((unlink s cpu t).setPnt cpu (.run g n)) (withoutThread lists cpu t)
      (update out cpu (g :: out cpu)) := by
  have hself : ((unlink s cpu t).setPnt cpu (.run g n)).pnt cpu = .run g n :=
    update_self ..
  have hother : ∀ c ≠ cpu, ((unlink s cpu t).setPnt cpu (.run g n)).pnt c = s.pnt c :=
    fun c hc => update_of_ne hc ..
  have hrq : ((unlink s cpu t).setPnt cpu (.run g n)).rqs cpu =
      { s.rqs cpu with rqRoot := (TailQueue.remove (s.rqs cpu).rqRoot s.links t).1 } :=
    update_self ..
  have hrqs : ∀ c ≠ cpu, ((unlink s cpu t).setPnt cpu (.run g n)).rqs c = s.rqs c :=
    fun c hc => update_of_ne hc ..
  -- the thread was on the list, so no cpu had taken it
  have hnot : ∀ c, ¬FromRq s c g := by
    grind [hw.free, hw.runnable, BpfCfs.FromRq]
  have hperm := withoutThread_self ht
  refine ⟨?_, ?_, ?_, hC.weights, ?_, ?_⟩
  · grind [hC.mem, hC.nodup]
  · intro c g'
    rw [update_apply]
    split_ifs with hc
    · subst hc
      rw [List.mem_cons, hC.mem c g']
      unfold FromRq
      rw [hself, hidle]
      simp [Pnt.next, eq_comm]
      rfl
    · rw [hC.mem c g']
      unfold FromRq
      rw [hother c hc]
      rfl
  · intro c g' hg'
    rw [update_apply] at hg'
    split_ifs at hg' with hc
    · subst hc
      rw [List.mem_cons] at hg'
      rcases hg' with rfl | hg'
      · exact Option.isSome_of_eq_some hw.slot
      · exact hC.known c g' hg'
    · exact hC.known c g' hg'
  · intro c
    by_cases hc : c = cpu
    · grind [hperm.length_eq, hC.nrRunning]
    · rw [hrqs c hc, hC.nrRunning c, withoutThread, update_of_ne hc, update_of_ne hc]
  · intro c
    have hsame : weightOf ((unlink s cpu t).setPnt cpu (.run g n)) = weightOf s := rfl
    have hthreads : ((unlink s cpu t).setPnt cpu (.run g n)).threads = s.threads := rfl
    rw [hsame, hthreads]
    by_cases hc : c = cpu
    · have hsum := (hperm.map fun t => (s.threads t).weight.toNat).sum_eq
      have hg : weightOf s g = (s.threads t).weight.toNat := by
        simp only [weightOf, hw.slot]
      rw [List.map_cons, List.sum_cons] at hsum
      grind [hC.weight]
    · rw [hrqs c hc, hC.weight c, withoutThread, update_of_ne hc, update_of_ne hc]

/-! ### Kernel steps -/

section Kernel

variable {k : Kernel.Task C}

omit [DecidableEq C] in
/-- An element of the array changes, but not its weight. -/
theorem Counted.setThread (hC : Counted s lists out) (x : Thread G)
    (hx : x.weight = (s.threads i).weight) :
    Counted { s with threads := update s.threads i x } lists out := by
  refine hC.frame (fun _ _ => Iff.rfl) (fun _ _ _ => rfl) (fun t => ?_) fun _ => ⟨rfl, rfl⟩
  by_cases ht : t = i
  · subst ht
    have hself : update s.threads t x t = x := update_self ..
    exact (congrArg Thread.weight hself).trans hx
  · exact congrArg Thread.weight (update_of_ne ht ..)

theorem Counted.setCurrent {current : Option G} (hC : Counted s lists out) :
    Counted (s.setCurrent cpu current) lists out := by
  refine hC.frame (fun _ _ => Iff.rfl) (fun _ _ _ => rfl) (fun _ => rfl) fun c => ?_
  by_cases hc : c = cpu
  · subst hc
    have hself : (s.setCurrent c current).rqs c = { s.rqs c with current := current } :=
      update_self ..
    rw [hself]
    exact ⟨rfl, rfl⟩
  · have hsame : (s.setCurrent cpu current).rqs c = s.rqs c := update_of_ne hc ..
    rw [hsame]
    exact ⟨rfl, rfl⟩

variable [DecidableEq G]

omit [DecidableEq C] in
/-- Only the phase of one thread changes, and not whether a cpu has taken it. -/
theorem fromRq_setTask (hk : Alike k.phase (s.tasks g).phase) (c : C) (g' : G) :
    FromRq (s.setTask g k) c g' ↔ FromRq s c g' := by
  unfold FromRq
  by_cases hg : g' = g
  · subst hg
    simp only [update_self, hk c]
  · simp only [update_of_ne hg]

omit [DecidableEq C] in
theorem Counted.setTask (hC : Counted s lists out) (hk : Alike k.phase (s.tasks g).phase) :
    Counted (s.setTask g k) lists out :=
  hC.frame (fromRq_setTask hk) (fun _ _ _ => rfl) (fun _ => rfl) fun _ => ⟨rfl, rfl⟩

omit [DecidableEq C] in
/-- A thread that no cpu has taken goes to a phase in which none has. -/
theorem Counted.setTask_off (hC : Counted s lists out) (hoff : Off (s.tasks g).phase)
    (hoff' : Off k.phase) : Counted (s.setTask g k) lists out :=
  hC.setTask fun c => iff_of_false (not_or.mpr (hoff' c)) (not_or.mpr (hoff c))

/-- The kernel latches the thread that PNT has. -/
theorem Counted.latch {k : G → Kernel.Task C} (hC : Counted s lists out) (hI : Inv s lists)
    (hheld : (s.pnt cpu).next = some g) (hk : latch s.tasks g cpu n = some k) :
    Counted ({ s with tasks := k }.setPnt cpu .idle) lists out := by
  rcases latch_eq_some hk with ⟨hrun, _, rfl⟩
  refine hC.frame ?_ (fun _ _ _ => rfl) (fun _ => rfl) fun _ => ⟨rfl, rfl⟩
  intro c g'
  by_cases hg : g' = g
  · subst hg
    have hself : update s.tasks g' { s.tasks g' with phase := .latched cpu } g' =
        { s.tasks g' with phase := .latched cpu } := update_self ..
    constructor
    · rintro (h | h | h)
      · exact absurd h (hI.not_held hheld c)
      · cases (congrArg Kernel.Task.phase hself).symm.trans h
        exact .inl hheld
      · cases (congrArg Kernel.Task.phase hself).symm.trans h
    · rintro (h | h | h)
      · rw [hI.once c cpu g' h hheld]
        exact .inr (.inl (congrArg _ hself))
      · cases hrun.symm.trans h
      · cases hrun.symm.trans h
  · have hphase : update s.tasks g { s.tasks g with phase := .latched cpu } g' =
        s.tasks g' := update_of_ne hg ..
    have hnext : ((s.setPnt cpu .idle).pnt c).next = some g' ↔ (s.pnt c).next = some g' := by
      by_cases hc : c = cpu
      · subst hc
        have hidle : (s.setPnt c .idle).pnt c = .idle := update_self ..
        rw [hidle, hheld]
        exact iff_of_false nofun fun h => hg (Option.some.inj h).symm
      · have hsame : (s.setPnt cpu .idle).pnt c = s.pnt c := update_of_ne hc ..
        rw [hsame]
    show _ ∨ (update s.tasks g { s.tasks g with phase := .latched cpu } g').phase = _ ∨
      (update s.tasks g { s.tasks g with phase := .latched cpu } g').phase = _ ↔ _
    rw [hphase]
    exact or_congr_left hnext

end Kernel

end BpfCfs
