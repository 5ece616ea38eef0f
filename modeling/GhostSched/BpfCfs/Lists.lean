import GhostSched.BpfCfs.Runqueue
import Mathlib.Data.Fintype.Basic
import Mathlib.Data.List.Perm.Subperm

/-!
# The runqueues stay lists

A thread that leaves ghost has to be taken off the runqueue it waits on, because
its element of the array is reused for the next thread with the same status word.
The handlers look for it on one runqueue only.

* `Allowed` is what the kernel guarantees: no two threads have one status word.
* `Unlinks` is when the handlers get it right: a thread that departs while it waits
  is found, and no thread comes back while PNT has it in its hands.
* `Inv` is the invariant, with one lemma for each change of the state.
-/

namespace BpfCfs

open Kernel TailQueue Transition Function

variable {G C : Type*}

/-! ## Conditions -/

/-- The thread is on the runqueue of the cpu; no list is longer than the array. -/
def OnRq (s : State G C) (cpu : C) (t : ℕ) : Prop :=
  t ∈ walk s.links maxGtids (s.rqs cpu).rqRoot.first

/-- The kernel changes the state of a thread. -/
abbrev State.setTask [DecidableEq G] (s : State G C) (g : G) (k : Kernel.Task C) : State G C :=
  { s with tasks := update s.tasks g k }

theorem State.setTask_self [DecidableEq G] {s : State G C} {g : G} {k : Kernel.Task C} :
    ((s.setTask g k).tasks g).phase = k.phase :=
  congrArg _ (update_self ..)

theorem State.setTask_of_ne [DecidableEq G] {s : State G C} {k : Kernel.Task C} {g g' : G}
    (hne : g' ≠ g) : (s.setTask g k).tasks g' = s.tasks g' :=
  update_of_ne hne ..

/-- The message that a step sends. -/
def sent [DecidableEq G] (s : State G C) : Action G C → Option (Msg C ℕ)
  | .kernel g e _ _ => (Kernel.step true s.tasks g e).bind Prod.snd
  | .pnt _ _ _ => none

/-- A new thread does not get the status word of another one. -/
def Allowed [DecidableEq G] (s : State G C) (a : Action G C) : Prop :=
  match sent s a with
  | some (.new index _) => ∀ g, gtidToThread s g ≠ some index
  | _ => True

/-- A thread that departs is found if it is on a runqueue, and a thread does not
enter ghost while PNT still has it. -/
def MsgUnlinks (s : State G C) (g : G) (cpu : C) : Msg C ℕ → Prop
  | .new _ _ => ∀ c, (s.pnt c).next ≠ some g
  | .departed _ => ∀ t ∈ gtidToThread s g, (∃ c, OnRq s c t) → findInRq s cpu t = some t
  | _ => True

def Unlinks [DecidableEq G] (s : State G C) : Action G C → Prop
  | .kernel g e cpu now => ∀ msg ∈ sent s (.kernel g e cpu now), MsgUnlinks s g cpu msg
  | .pnt _ _ _ => True

section Decidable

variable [DecidableEq G] [Fintype G] [Fintype C]

instance (s : State G C) (a : Action G C) : Decidable (Allowed s a) := by
  unfold Allowed
  split <;> infer_instance

instance (s : State G C) (c : C) (t : ℕ) : Decidable (OnRq s c t) :=
  inferInstanceAs (Decidable (t ∈ walk _ _ _))

instance (s : State G C) (g : G) (cpu : C) (msg : Msg C ℕ) : Decidable (MsgUnlinks s g cpu msg) :=
  match msg with
  | .new _ _ => inferInstanceAs (Decidable (∀ c, (s.pnt c).next ≠ some g))
  | .departed _ => inferInstanceAs (Decidable (∀ t ∈ gtidToThread s g, (∃ c, OnRq s c t) → _ = _))
  | .onCpu _ | .blocked _ _ | .wakeup | .preempt _ _ | .yield _ _ | .switchto _
  | .affinityChanged | .prioChanged | .dead => .isTrue trivial

instance (s : State G C) (a : Action G C) : Decidable (Unlinks s a) :=
  match a with
  | .kernel g e cpu now =>
    inferInstanceAs (Decidable (∀ msg ∈ sent s (.kernel g e cpu now), MsgUnlinks s g cpu msg))
  | .pnt _ _ _ => .isTrue trivial

end Decidable

/-! ## The invariant -/

/-- A thread that waits on a runqueue. -/
structure Waiting (s : State G C) (g : G) (t : ℕ) : Prop where
  gtid : (s.threads t).gtid = some g
  slot : gtidToThread s g = some t
  runnable : (s.tasks g).phase = .runnable
  free : ∀ c, (s.pnt c).next ≠ some g

structure Inv (s : State G C) (lists : C → List ℕ) : Prop where
  queues : Queues s lists
  waiting : ∀ c, ∀ t ∈ lists c, ∃ g, Waiting s g t
  gone : ∀ g, (s.tasks g).phase = .absent → gtidToThread s g = none
  inj : ∀ g g' t, gtidToThread s g = some t → gtidToThread s g' = some t → g = g'
  held : ∀ c g, (s.pnt c).next = some g →
    (s.tasks g).phase = .runnable ∨ (s.tasks g).phase = .absent
  once : ∀ c c' g, (s.pnt c).next = some g → (s.pnt c').next = some g → c = c'

theorem inv_init : Inv (State.init G C) fun _ => [] where
  queues := ⟨fun _ => isQueue_empty _, nofun⟩
  waiting := nofun
  gone _ _ := rfl
  inj := nofun
  held := nofun
  once := nofun

variable {s s' : State G C} {lists lists' : C → List ℕ} {g : G} {t i n : ℕ} {cpu c : C}

/-- A thread that does not wait, or that PNT has, is on no list. -/
theorem Inv.unlinked (hI : Inv s lists) (hslot : gtidToThread s g = some t)
    (h : (s.tasks g).phase = .runnable → ∃ c, (s.pnt c).next = some g) : t ∉ lists c := by
  intro ht
  rcases hI.waiting c t ht with ⟨g', hw⟩
  have hg : g = g' := hI.inj g g' t hslot hw.slot
  subst hg
  rcases h hw.runnable with ⟨c', hc'⟩
  exact hw.free c' hc'

/-- A thread in ghost that does not wait is in no PNT. -/
theorem Inv.free (hI : Inv s lists) (hin : (s.tasks g).phase ≠ .absent)
    (hrun : (s.tasks g).phase ≠ .runnable) (c : C) : (s.pnt c).next ≠ some g := by
  intro hc
  rcases hI.held c g hc with h | h
  · exact hrun h
  · exact hin h

/-- A list is not longer than the array. -/
theorem Inv.length_le (hI : Inv s lists) : (lists c).length ≤ maxGtids := by
  have hsub : lists c ⊆ List.range maxGtids := by
    intro t ht
    rcases hI.waiting c t ht with ⟨g, hw⟩
    have hlt := (Option.mem_filter_iff.mp hw.slot).2
    exact List.mem_range.mpr (of_decide_eq_true hlt)
  have hlen := (List.subperm_of_subset (hI.queues.queue c).nodup hsub).length_le
  rwa [List.length_range] at hlen

theorem Inv.onRq (hI : Inv s lists) : OnRq s c t ↔ t ∈ lists c := by
  unfold OnRq
  rw [(hI.queues.queue c).walk_eq hI.length_le]

/-! ### Steps that do not change the lists -/

/-- The lists, the slots and PNT stay, and so does every waiting thread. -/
theorem Inv.frame (hI : Inv s lists) (hq : Queues s' lists)
    (hgtid : ∀ c, ∀ t ∈ lists c, (s'.threads t).gtid = (s.threads t).gtid)
    (hslot : ∀ g, gtidToThread s' g = gtidToThread s g) (hpnt : s'.pnt = s.pnt)
    (hphase : ∀ g, (s'.tasks g).phase = (s.tasks g).phase ∨
      ((s.tasks g).phase ≠ .runnable ∧ (s.tasks g).phase ≠ .absent ∧
        (s'.tasks g).phase ≠ .absent)) : Inv s' lists where
  queues := hq
  waiting c t ht := by
    rcases hI.waiting c t ht with ⟨g, hw⟩
    refine ⟨g, (hgtid c t ht).trans hw.gtid, (hslot g).trans hw.slot, ?_, hpnt ▸ hw.free⟩
    grind [hw.runnable]
  gone g hg := by
    grind [hI.gone]
  inj g g' t := by
    rw [hslot g, hslot g']
    exact hI.inj g g' t
  held c g hc := by
    rw [hpnt] at hc
    grind [hI.held]
  once := hpnt ▸ hI.once

/-- An element of the array that is on no list changes. -/
theorem Inv.setThread (hI : Inv s lists) (hun : ∀ c, i ∉ lists c) (x : Thread G) :
    Inv { s with threads := update s.threads i x } lists := by
  refine hI.frame hI.queues ?_ (fun _ => rfl) rfl fun _ => .inl rfl
  intro c t ht
  exact congrArg Thread.gtid (update_of_ne (ne_of_mem_of_not_mem ht (hun c)) ..)

/-! ### A thread leaves ghost -/

/-- A thread leaves ghost and is on no list. -/
theorem Inv.leave (hI : Inv s lists) (hq : Queues s' lists')
    (hsub : ∀ c, ∀ t ∈ lists' c, t ∈ lists c ∧ gtidToThread s g ≠ some t)
    (hthreads : s'.threads = s.threads) (hpnt : s'.pnt = s.pnt)
    (habs : (s'.tasks g).phase = .absent) (htasks : ∀ g' ≠ g, s'.tasks g' = s.tasks g')
    (hslot : gtidToThread s' g = none)
    (hslots : ∀ g' ≠ g, gtidToThread s' g' = gtidToThread s g') : Inv s' lists' := by
  refine ⟨hq, ?_, ?_, ?_, ?_, hpnt ▸ hI.once⟩
  · intro c t ht
    rcases hsub c t ht with ⟨hold, hnot⟩
    rcases hI.waiting c t hold with ⟨g', hw⟩
    have hne : g' ≠ g := by
      rintro rfl
      exact hnot hw.slot
    refine ⟨g', ?_, (hslots g' hne).trans hw.slot, ?_, hpnt ▸ hw.free⟩
    · rw [hthreads]
      exact hw.gtid
    · rw [htasks g' hne]
      exact hw.runnable
  · intro g' hg'
    by_cases hne : g' = g
    · subst hne
      exact hslot
    · rw [hslots g' hne]
      rw [htasks g' hne] at hg'
      exact hI.gone g' hg'
  · intro g₁ g₂ t h₁ h₂
    have hne₁ : g₁ ≠ g := fun h => nomatch (h ▸ hslot).symm.trans h₁
    grind [hI.inj]
  · intro c g' hc
    rw [hpnt] at hc
    by_cases hne : g' = g
    · subst hne
      exact .inr habs
    · rw [htasks g' hne]
      exact hI.held c g' hc

/-! ### PNT and the thread that runs -/

variable [DecidableEq C]

/-- The thread that runs on a cpu is no concern of the lists. -/
theorem Inv.setCurrent {current : Option G} (hI : Inv s lists) :
    Inv (s.setCurrent cpu current) lists :=
  hI.frame hI.queues.setCurrent (fun _ _ _ => rfl) (fun _ => rfl) rfl fun _ => .inl rfl

/-- PNT does not take a thread that it did not have. -/
theorem Inv.setPnt {p : Pnt G} (hI : Inv s lists)
    (hp : ∀ g, p.next = some g → (s.pnt cpu).next = some g) : Inv (s.setPnt cpu p) lists := by
  have hsub : ∀ c g, ((s.setPnt cpu p).pnt c).next = some g → (s.pnt c).next = some g := by
    intro c g hc
    by_cases hne : c = cpu
    · subst hne
      have hself : (s.setPnt c p).pnt c = p := update_self ..
      rw [hself] at hc
      exact hp g hc
    · have hsame : (s.setPnt cpu p).pnt c = s.pnt c := update_of_ne hne ..
      rwa [hsame] at hc
  refine ⟨hI.queues, ?_, hI.gone, hI.inj, ?_, ?_⟩
  · intro c t ht
    rcases hI.waiting c t ht with ⟨g, hw⟩
    exact ⟨g, hw.gtid, hw.slot, hw.runnable, fun c hc => hw.free c (hsub c g hc)⟩
  · exact fun c g hc => hI.held c g (hsub c g hc)
  · exact fun c c' g hc hc' => hI.once c c' g (hsub c g hc) (hsub c' g hc')

theorem Inv.setIdle (hI : Inv s lists) : Inv (s.setPnt cpu .idle) lists := hI.setPnt nofun

/-- No other PNT has the thread. -/
theorem Inv.not_held (hI : Inv s lists) (hheld : (s.pnt cpu).next = some g) (c : C) :
    ((s.setPnt cpu .idle).pnt c).next ≠ some g := by
  intro hc
  by_cases hne : c = cpu
  · subst hne
    have hidle : (s.setPnt c .idle).pnt c = .idle := update_self ..
    rw [hidle] at hc
    cases hc
  · have hsame : (s.setPnt cpu .idle).pnt c = s.pnt c := update_of_ne hne ..
    rw [hsame] at hc
    exact hne (hI.once c cpu g hc hheld)

/-! ### A thread is queued -/

section Enqueue

variable [DecidableEq G] {now : UInt64} {wakeup : Bool}

theorem enqueueTask_setPnt {p : Pnt G} : (enqueueTask s g n wakeup cpu now).setPnt c p =
      enqueueTask (s.setPnt c p) g n wakeup cpu now := by
  have hslot : gtidToThread (s.setPnt c p) g = gtidToThread s g := rfl
  cases hg : gtidToThread s g with
  | none => rw [enqueueTask_of_none hg, enqueueTask_of_none (hslot.trans hg)]
  | some i =>
    simp only [enqueueTask, hslot, hg]
    rfl

/-- A runnable thread that is on no list and in no PNT is queued. -/
theorem Inv.enqueueTask (hI : Inv s lists) (hslot : gtidToThread s g = some i)
    (hun : ∀ c, i ∉ lists c) (hrun : (s.tasks g).phase = .runnable)
    (hfree : ∀ c, (s.pnt c).next ≠ some g) :
    Inv (enqueueTask s g n wakeup cpu now) (withThread lists cpu wakeup i) := by
  have he : Enqueued s (BpfCfs.enqueueTask s g n wakeup cpu now) g i wakeup cpu :=
    enqueueTask_spec hslot
  generalize BpfCfs.enqueueTask s g n wakeup cpu now = s' at he ⊢
  have hslots : ∀ g, gtidToThread s' g = gtidToThread s g := by
    intro g
    rw [gtidToThread, gtidToThread, he.swLookup]
  refine ⟨he.queues hI.queues hun, ?_, ?_, ?_, ?_, ?_⟩
  · intro c t ht
    rcases mem_withThread.mp ht with ht | ⟨_, rfl⟩
    · rcases hI.waiting c t ht with ⟨g', hw⟩
      have hne : t ≠ i := ne_of_mem_of_not_mem ht (hun c)
      refine ⟨g', (he.threads t hne).1.trans hw.gtid, (hslots g').trans hw.slot, ?_, ?_⟩
      · rw [he.tasks]
        exact hw.runnable
      · rw [he.pnt]
        exact hw.free
    · refine ⟨g, he.gtid, (hslots g).trans hslot, ?_, ?_⟩
      · rw [he.tasks]
        exact hrun
      · rw [he.pnt]
        exact hfree
  · intro g'
    rw [he.tasks, hslots]
    exact hI.gone g'
  · intro g₁ g₂ t
    rw [hslots, hslots]
    exact hI.inj g₁ g₂ t
  · rw [he.pnt, he.tasks]
    exact hI.held
  · rw [he.pnt]
    exact hI.once

end Enqueue

/-! ### A thread enters ghost -/

section Enter

variable [DecidableEq G]

omit [DecidableEq C] in
/-- A thread that is on no list and in no PNT goes to any phase in ghost. -/
theorem Inv.setPhase {k : Kernel.Task C} (hI : Inv s lists)
    (hun : ∀ c, ∀ t ∈ lists c, gtidToThread s g ≠ some t) (hfree : ∀ c, (s.pnt c).next ≠ some g)
    (hk : k.phase ≠ .absent) : Inv (s.setTask g k) lists := by
  refine ⟨hI.queues, ?_, ?_, hI.inj, ?_, hI.once⟩
  · intro c t ht
    rcases hI.waiting c t ht with ⟨g', hw⟩
    have hne : g' ≠ g := by
      rintro rfl
      exact hun c t ht hw.slot
    exact ⟨g', hw.gtid, hw.slot, (congrArg _ (State.setTask_of_ne hne)).trans hw.runnable, hw.free⟩
  · intro g' hg'
    by_cases hne : g' = g
    · subst hne
      exact absurd (State.setTask_self.symm.trans hg') hk
    · exact hI.gone g' ((congrArg _ (State.setTask_of_ne hne)).symm.trans hg')
  · grind [hI.held]

omit [DecidableEq C] in
/-- A thread gets an entry with a slot that no other thread has. -/
theorem Inv.addSlot (hI : Inv s lists) (hin : (s.tasks g).phase ≠ .absent)
    (hnone : gtidToThread s g = none) (hfresh : ∀ g, gtidToThread s g ≠ some i) :
    let s' := { s with swLookup := update s.swLookup g (some i), swCount := n }
    Inv s' lists := by
  intro s'
  -- the entry says nothing if the index is too large
  have hself : ∀ t, gtidToThread s' g = some t → t = i := by
    intro t ht
    simp only [s', gtidToThread, update_self] at ht
    exact (Option.some.inj (Option.mem_filter_iff.mp ht).1).symm
  have hother : ∀ g' ≠ g, gtidToThread s' g' = gtidToThread s g' := by
    intro g' hne
    simp only [s', gtidToThread, update_of_ne hne]
  refine ⟨hI.queues, ?_, ?_, ?_, hI.held, hI.once⟩
  · intro c t ht
    rcases hI.waiting c t ht with ⟨g', hw⟩
    have hne : g' ≠ g := by
      rintro rfl
      cases hnone.symm.trans hw.slot
    exact ⟨g', hw.gtid, (hother g' hne).trans hw.slot, hw.runnable, hw.free⟩
  · grind [hI.gone]
  · intro g₁ g₂ t h₁ h₂
    by_cases hg₁ : g₁ = g <;> by_cases hg₂ : g₂ = g
    · exact hg₁.trans hg₂.symm
    · subst hg₁
      rw [hself t h₁, hother g₂ hg₂] at h₂
      exact absurd h₂ (hfresh g₂)
    · subst hg₂
      rw [hself t h₂, hother g₁ hg₁] at h₁
      exact absurd h₁ (hfresh g₁)
    · grind [hI.inj]

end Enter

/-! ### Messages -/

section Messages

variable [DecidableEq G] {k : Kernel.Task C}

omit [DecidableEq C] in
/-- A thread in ghost goes to another phase, or stays in its own. -/
theorem Inv.setTask (hI : Inv s lists) (hphase : k.phase = (s.tasks g).phase ∨
      ((s.tasks g).phase ≠ .runnable ∧ (s.tasks g).phase ≠ .absent ∧ k.phase ≠ .absent)) :
    Inv (s.setTask g k) lists := by
  refine hI.frame hI.queues (fun _ _ _ => rfl) (fun _ => rfl) rfl fun g' => ?_
  by_cases hne : g' = g
  · subst hne
    rw [← State.setTask_self (s := s) (g := g')] at hphase
    exact hphase
  · exact .inl (congrArg _ (State.setTask_of_ne hne))

omit [DecidableEq C] in
theorem gtidToThread_forget_self : gtidToThread (forget s g) g = none := by
  simp [gtidToThread, forget]

omit [DecidableEq C] in
theorem gtidToThread_forget_of_ne {g' : G} (hne : g' ≠ g) :
    gtidToThread (forget s g) g' = gtidToThread s g' := by
  simp only [gtidToThread, forget, update_of_ne hne]

/-- A thread that dies blocked before, so it is on no list. -/
theorem Inv.handleDead (hI : Inv s lists) (hwas : (s.tasks g).phase = .blocked)
    (habs : k.phase = .absent) :
    Inv (handleDead (s.setTask g k) g cpu) lists := by
  have hsub : ∀ c, ∀ t ∈ lists c, t ∈ lists c ∧ gtidToThread s g ≠ some t := by
    grind [hI.unlinked]
  unfold BpfCfs.handleDead
  split
  · rename_i hnone
    exact hI.leave (g := g) hI.queues hsub rfl rfl (State.setTask_self.trans habs)
      (fun _ => State.setTask_of_ne) hnone fun _ _ => rfl
  · refine hI.leave (g := g) ?_ hsub rfl rfl (State.setTask_self.trans habs)
      (fun _ => State.setTask_of_ne) gtidToThread_forget_self
        fun g' hne => gtidToThread_forget_of_ne hne
    exact Queues.uncount (s := s.setTask g k) hI.queues

end Messages

/-! ### PNT -/

section Pnt

/-- PNT takes a thread from the list of its cpu. -/
theorem Inv.pick (hI : Inv s lists) (hw : Waiting s g t) (ht : t ∈ lists cpu) :
    Inv ((unlink s cpu t).setPnt cpu (.run g n)) (withoutThread lists cpu t) := by
  have hself : ((unlink s cpu t).setPnt cpu (.run g n)).pnt cpu = .run g n :=
    update_self ..
  have hother : ∀ c ≠ cpu, ((unlink s cpu t).setPnt cpu (.run g n)).pnt c = s.pnt c :=
    fun c hc => update_of_ne hc ..
  -- what a PNT has now
  have hnext : ∀ c g', (((unlink s cpu t).setPnt cpu (.run g n)).pnt c).next = some g' →
      (c = cpu ∧ g' = g) ∨ (s.pnt c).next = some g' := by
    intro c g' hc
    by_cases hne : c = cpu
    · subst hne
      rw [hself] at hc
      exact .inl ⟨rfl, (Option.some.inj hc).symm⟩
    · rw [hother c hne] at hc
      exact .inr hc
  refine ⟨hI.queues.unlink ht, ?_, hI.gone, hI.inj, ?_, ?_⟩
  · intro c x hx
    rcases (mem_withoutThread hI.queues ht).mp hx with ⟨hx, hne⟩
    rcases hI.waiting c x hx with ⟨g', hw'⟩
    refine ⟨g', hw'.gtid, hw'.slot, hw'.runnable, fun c' hc' => ?_⟩
    grind [hw'.slot, hw.slot, hw'.free]
  · intro c g' hc
    rcases hnext c g' hc with ⟨_, rfl⟩ | hold
    · exact .inl hw.runnable
    · exact hI.held c g' hold
  · grind [hw.free, hI.once]

/-- The kernel latches the thread that PNT has. -/
theorem Inv.latch [DecidableEq G] {k : G → Kernel.Task C} (hI : Inv s lists)
    (hheld : (s.pnt cpu).next = some g)
    (hk : latch s.tasks g cpu n = some k) :
    Inv ({ s with tasks := k }.setPnt cpu .idle) lists := by
  rcases latch_eq_some hk with ⟨_, _, rfl⟩
  refine Inv.setPhase (s := s.setPnt cpu .idle) hI.setIdle ?_ (hI.not_held hheld) nofun
  intro c t ht hslot
  exact hI.unlinked hslot (fun _ => ⟨cpu, hheld⟩) ht

end Pnt

end BpfCfs
