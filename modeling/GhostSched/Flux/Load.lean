import GhostSched.Lib.Total
import GhostSched.Flux.Lost

/-!
# Biff's load

Biff asks for as many cpus as it has threads that want one. It counts with the
`on_rq` flag, which is off for a thread that runs in a switchto chain: the cpu of the
chain was asked for by the thread that started it.

* `State.credit` is what a gtid contributes to `nr_cpus_wanted`: a cpu if the thread
  wants one, less what its handler will still ask for.
* `nr_cpus_wanted` is the total of the credits, in every run in which no thread
  departs while it runs in a chain (`load_exact`).
* A thread that departs from a chain takes no cpu off the count (`departed_from_chain`).
-/

namespace Flux

open Transition Lib Function

variable {G T K : Type*} {s s' s₀ : State G T K} {g : G}

/-! ## Credits -/

/-- The thread is runnable or running in the kernel. -/
def Task.Wants (k : Task) : Prop := k.phase = .runnable ∨ k.phase = .latched ∨ k.phase = .running

instance (k : Task) : Decidable k.Wants := inferInstanceAs (Decidable (_ ∨ _))

/-- How many cpus a thread wants. -/
def Task.wanted (k : Task) : ℤ := if k.Wants then 1 else 0

/-- What a gtid contributes to `nr_cpus_wanted`. -/
def State.credit (s : State G T K) (g : G) : ℤ :=
  (s.tasks g).wanted - owed (s.rqFlag g) (s.todo g)

/-- `nr_cpus_wanted` is the total of the credits. -/
def Balanced (s : State G T K) : Prop := IsTotal s.credit s.nrCpusWanted

/-- A thread that runs in a chain does not depart. -/
def ChainKept (s : State G T K) : Action G T K → Prop
  | .kernel g .depart => ¬ ((s.tasks g).phase = .running ∧ (s.tasks g).inSwitchto = true)
  | _ => True

theorem KernelMsg.wanted {k k' : Task} {msg : Msg T} (hk : KernelMsg k msg k')
    (hkeep : msg = .departed → ¬ (k.phase = .running ∧ k.inSwitchto = true)) :
    k'.wanted - owed k.flag msg.handler = k.wanted := by
  cases hk with
  | preempt hp | yield hp =>
    cases hb : k.inSwitchto <;>
      simp [Task.wanted, Task.Wants, Task.flag, hp, hb, Msg.handler, owed, MicroOp.charge]
  | depart hp =>
    have hkeep := hkeep rfl
    rcases hp with hp | hp | hp
    · simp [Task.wanted, Task.Wants, Task.flag, hp, Msg.handler, owed, MicroOp.flag, MicroOp.charge]
    · simp [Task.wanted, Task.Wants, Task.flag, hp, Msg.handler, owed, MicroOp.flag, MicroOp.charge]
    · have hb : k.inSwitchto = false := eq_false_of_ne_true fun hb => hkeep ⟨hp, hb⟩
      simp [Task.wanted, Task.Wants, Task.flag, hp, hb, Msg.handler, owed, MicroOp.flag,
        MicroOp.charge]
  | changeAffinity hp | changePrio hp =>
    simp [Msg.handler, owed, MicroOp.charge]
  | _ hp =>
    simp [Task.wanted, Task.Wants, Task.flag, hp, Msg.handler, owed, MicroOp.flag, MicroOp.charge]

/-! ## Steps -/

theorem Balanced.move (hB : Balanced s) (hm : AccountMove s s' g) : Balanced s' := by
  have hne : ∀ g', g' ≠ g → s'.credit g' = s.credit g' := by
    intro g' hg
    unfold State.credit
    rw [hm.tasks, (hm.other g' hg).1, (hm.other g' hg).2]
  have hup := hB.update hne
  have heq : s.nrCpusWanted + (s'.credit g - s.credit g) = s'.nrCpusWanted := by
    have hw := hm.wanted
    unfold State.credit
    rw [hm.tasks]
    omega
  rw [heq] at hup
  exact hup

theorem AccountEvent.credit_ne (he : AccountEvent s s' g) {g' : G} (hg : g' ≠ g) :
    s'.credit g' = s.credit g' := by
  unfold State.credit
  rw [he.rqFlag, he.todo g' hg, he.tasks g' hg]

/-- What a gtid contributes before and after an event. -/
theorem AccountEvent.credit_self (he : AccountEvent s s' g) (hS : Settled s) :
    s.credit g = (s.tasks g).wanted ∧
      s'.credit g = (s'.tasks g).wanted - owed (s.tasks g).flag (s'.todo g) := by
  have hidle := hS.idle he.idle
  refine ⟨?_, ?_⟩
  · unfold State.credit
    rw [he.idle, owed, sub_zero]
  · unfold State.credit
    rw [he.rqFlag, hidle]

theorem Balanced.event (hB : Balanced s) (hS : Settled s) (he : AccountEvent s s' g)
    (hw : (s'.tasks g).wanted - owed (s.tasks g).flag (s'.todo g) = (s.tasks g).wanted) :
    Balanced s' := by
  unfold Balanced
  rw [he.wanted]
  refine hB.congr ?_
  intro g'
  by_cases hg : g' = g
  · rw [hg, (he.credit_self hS).1, (he.credit_self hS).2, hw]
  · exact he.credit_ne hg

theorem balanced_congr {s₁ : State G T K} (hB : Balanced s₁) (hf : ∀ g, s'.rqFlag g = s₁.rqFlag g)
    (hn : s'.nrCpusWanted = s₁.nrCpusWanted) (ht : s'.tasks = s₁.tasks)
    (hh : s'.handlers = s₁.handlers) : Balanced s' := by
  unfold Balanced
  rw [hn]
  refine hB.congr ?_
  intro g
  unfold State.credit
  rw [hf, ht, todo_congr (s := s₁) (by rw [hh])]

variable [DecidableEq G]

theorem Balanced.setTask (hB : Balanced s) (hS : Settled s) (f : Task → Task)
    (hidle : s.todo g = []) (hw : (f (s.tasks g)).wanted = (s.tasks g).wanted) :
    Balanced (s.setTask g f) := by
  have htask : (s.setTask g f).tasks g = f (s.tasks g) := update_self ..
  refine hB.event hS (.of_setTask f hidle) ?_
  rw [htask, hw, show (s.setTask g f).todo g = [] from hidle]
  exact sub_zero _

theorem Balanced.send (hB : Balanced s) (hS : Settled s) (f : Task → Task) (msg : Msg T)
    (caller : Option K) (hidle : s.todo g = [])
    (hw : (f (s.tasks g)).wanted - owed (s.tasks g).flag msg.handler = (s.tasks g).wanted) :
    Balanced ((s.setTask g f).send g msg caller) := by
  have htask : ((s.setTask g f).send g msg caller).tasks g =
      { f (s.tasks g) with barrier := (f (s.tasks g)).barrier + 1 } := by
    simp [State.send, State.setTask, State.setHandler]
  refine hB.event hS (.of_send f msg caller hidle) ?_
  rw [htask, todo_send]
  exact hw

/-- A switch moves the cpu from one thread to the other. -/
theorem Balanced.switch {target : G} (hB : Balanced s) (hS : Settled s) (hfree : s.TaskLockFree g)
    (hp : (s.tasks g).phase = .running) (hne : target ≠ g) (hft : s.TaskLockFree target)
    (hpt : (s.tasks target).phase = .blocked) :
    Balanced (if (s.tasks g).inSwitchto then s.switch g target
      else (s.switch g target).send g .switchto none) := by
  -- the thread that is switched to comes first, as in `Settled.switch`
  set s₁ := s.setTask target fun k =>
    { k with phase := .running, inSwitchto := true, onCpu := true }
  set s' := if (s.tasks g).inSwitchto then s.switch g target
    else (s.switch g target).send g .switchto none with hs'
  have he₁ : AccountEvent s s₁ target := .of_setTask _ (todo_of_free hft)
  have hS₁ : Settled s₁ := hS.setTask _ (todo_of_free hft) (by simp [Task.flag, hpt])
  have hcomm : s.switch g target = s₁.setTask g fun k => { k with phase := .blocked } := by
    simp [s₁, State.switch, State.setTask, hne, Ne.symm hne, update_comm hne]
  have hidle : s₁.todo g = [] := todo_of_free hfree
  have he₂ : AccountEvent s₁ s' g := by
    rw [hs', hcomm]
    split
    · exact .of_setTask _ hidle
    · exact .of_send _ .switchto none hidle
  have hg : s₁.tasks g = s.tasks g := update_of_ne (Ne.symm hne) ..
  have hup := (hB.update fun g' hg' => he₁.credit_ne hg').update fun g' hg' => he₂.credit_ne hg'
  have hgain : s₁.credit target - s.credit target = 1 := by
    have htask : s₁.tasks target = { s.tasks target with
        phase := .running, inSwitchto := true, onCpu := true } := update_self ..
    rw [(he₁.credit_self hS).1, (he₁.credit_self hS).2, htask,
      show s₁.todo target = [] from todo_of_free hft]
    simp [Task.wanted, Task.Wants, hpt, owed]
  have hloss : s'.credit g - s₁.credit g = -1 := by
    rw [(he₂.credit_self hS₁).1, (he₂.credit_self hS₁).2, hg]
    have hw : (s.tasks g).wanted = 1 := by simp [Task.wanted, Task.Wants, hp]
    have hphase : (s'.tasks g).phase = .blocked := by
      rw [hs', hcomm]
      split <;> simp [State.send, State.setTask, State.setHandler]
    have howed : owed (s.tasks g).flag (s'.todo g) = 0 := by
      rw [hs', hcomm]
      split
      · rw [show State.todo (s₁.setTask g _) g = [] from hidle]
        rfl
      · rw [todo_send]
        simp [Msg.handler, owed, MicroOp.charge]
    rw [hw, howed]
    simp [Task.wanted, Task.Wants, hphase]
  rw [hgain, hloss] at hup
  unfold Balanced
  rw [he₂.wanted, he₁.wanted]
  simpa using hup

variable [DecidableEq T] [DecidableEq K]

/-- Every step keeps the balance, when no thread departs from a chain and no `TASK_NEW`
is ignored. -/
theorem Balanced.step {a : Action G T K} (hB : Balanced s) (hS : Settled s) (hI : Inv s)
    (hn : Noticed s a) (hc : ChainKept s a) (hs : Flux.step s a = some s') : Balanced s' := by
  cases a with
  | handler g => exact hB.move (handlerStep_account hI hs hn)
  | pnt c ok =>
    rcases pntStep_account hI hs with ⟨hflag, hwanted, hcase⟩
    rcases hcase with ⟨ht, hh⟩ | ⟨g, hfree, hp, hh, ht⟩ | ⟨g, hfree, hin, hh, ht⟩
    · exact balanced_congr hB hflag hwanted ht hh
    · have hB₁ : Balanced (s.setTask g fun k => { k with phase := .latched }) :=
        hB.setTask hS _ (todo_of_free hfree) (by simp [Task.wanted, Task.Wants, hp])
      exact balanced_congr hB₁ hflag hwanted ht hh
    · have hid : s.setTask g id = s := by simp [State.setTask]
      have hB₁ : Balanced ((s.setTask g id).send g .latchFailure (some c)) := by
        refine hB.send hS id .latchFailure (some c) (todo_of_free hfree) ?_
        simp [Msg.handler, owed, MicroOp.charge]
      rw [hid] at hB₁
      exact balanced_congr hB₁ hflag hwanted ht hh
  | kernel g e =>
    rcases kernelStep_cases hs with ⟨hfree, hcase⟩
    have hidle := todo_of_free hfree
    rcases hcase with ⟨idx, barrier, r, -, habs, hs'⟩ | ⟨msg, k, hk, hdep, hs'⟩ |
      ⟨target, hp, hne, hft, hpt, hs'⟩ | hs'
    · rw [hs']
      refine hB.send hS _ _ none hidle ?_
      cases r <;> simp [Task.wanted, Task.Wants, Task.flag, habs, owed, Msg.handler, MicroOp.flag,
        MicroOp.charge]
    · rw [hs']
      refine hB.send hS _ _ none hidle (hk.wanted ?_)
      intro hmsg
      rw [hdep hmsg] at hc
      exact hc
    · rw [hs']
      exact hB.switch hS hfree hp hne hft hpt
    · rw [hs']
      exact hB.setTask hS _ hidle rfl

omit [DecidableEq G] [DecidableEq T] [DecidableEq K] in
theorem Init.balanced (h₀ : Init s) : Balanced s := by
  unfold Balanced
  rw [h₀.nrCpusWanted]
  refine isTotal_zero ?_
  intro g
  simp [State.credit, State.todo, Task.wanted, Task.Wants, h₀.handlers, h₀.tasks, owed]

/-! ## Runs -/

/-- What the kernel guarantees, that no new thread is ignored, and that no thread departs
from a chain. -/
def AllowedBalanced (s : State G T K) (a : Action G T K) : Prop :=
  Allowed s a ∧ Noticed s a ∧ ChainKept s a

/-- Whenever no handler is in progress, `nr_cpus_wanted` is the number of threads that are
runnable or running in the kernel; so it is zero when there are none. -/
theorem load_exact (h₀ : Init s₀) (h : StepsWhen AllowedBalanced step s₀ s)
    (hidle : ∀ g, s.handlers g = none) :
    {g | (s.tasks g).Wants}.Finite ∧ s.nrCpusWanted = {g | (s.tasks g).Wants}.ncard ∧
      ((∀ g, (s.tasks g).phase = .blocked ∨ (s.tasks g).phase = .absent) → s.nrCpusWanted = 0) := by
  have hB : Inv s ∧ Settled s ∧ Balanced s :=
    h.invariant (P := fun s => Inv s ∧ Settled s ∧ Balanced s)
      (fun _ _ _ hI hok hs => ⟨hI.1.step hok.1 hs, hI.2.1.step hI.1 hok.2.1 hs,
        hI.2.2.step hI.2.1 hI.1 hok.2.1 hok.2.2 hs⟩)
      ⟨h₀.inv, h₀.settled, h₀.balanced⟩
  have hcount : IsTotal (fun g => if (s.tasks g).Wants then (1 : ℤ) else 0) s.nrCpusWanted := by
    refine hB.2.2.congr ?_
    intro g
    have htodo : s.todo g = [] := by
      unfold State.todo
      rw [hidle g]
      rfl
    unfold State.credit
    rw [htodo, owed, sub_zero]
    rfl
  rcases hcount.ncard with ⟨hfin, hcard⟩
  refine ⟨hfin, hcard, ?_⟩
  intro hnone
  have hempty : {g | (s.tasks g).Wants} = ∅ := by
    ext g
    rcases hnone g with hp | hp <;> simp [Task.Wants, hp]
  rw [hcard, hempty, Set.ncard_empty]
  rfl

/-! ## One thread -/

/-- A step of a handler that does not ignore a new thread. -/
def noticedHandler (s : State G T K) : Action G T K → Bool
  | .handler g => noticed s (.handler g)
  | _ => false

omit [DecidableEq G] [DecidableEq T] [DecidableEq K] in
theorem allowedBalanced_of_noticedHandler (s : State G T K) (a : Action G T K)
    (h : noticedHandler s a = true) : AllowedBalanced s a := by
  cases a with
  | handler g =>
    have hok := allowedNoticed_of_noticed s (.handler g) h
    exact ⟨hok.1, hok.2, trivial⟩
  | _ => cases h

/-- A thread that has entered ghost wants one cpu. -/
theorem load_exact_new : ∃ s : State Unit Unit Unit, s.nrCpusWanted = 1 ∧
    s.nrCpusWanted = {g | (s.tasks g).Wants}.ncard := by
  have hrun : StepsWhen AllowedBalanced step booted _ :=
    .head ⟨booted_allowed 0 true, trivial, trivial⟩ rfl
      (.of_execWhen allowedBalanced_of_noticedHandler (List.replicate 7 (.handler ())) rfl)
  exact ⟨_, rfl, (load_exact booted_init hrun fun _ => rfl).2.1⟩

/-! ## A thread that departs from a chain -/

/-- Two threads, two status words, one cpu. -/
def bootedPair : State Bool Bool Unit where
  rq := []
  biffLock := none
  nrCpusWanted := 0
  threads := fun _ => ⟨false, 0, 0, .none, false, false, false, false⟩
  swLookup := fun _ => none
  pnt := fun _ => .idle
  handlers := fun _ => none
  latchedBy := fun _ => none
  tasks := fun _ => ⟨.absent, false, false, 0⟩

/-- The first thread has entered ghost, runnable. -/
def oneEntered : State Bool Bool Unit :=
  ((step bootedPair (.kernel false (.enter false 0 true))).bind
    fun s => exec step s (List.replicate 7 (.handler false))).getD bootedPair

/-- The second thread has entered ghost, blocked. The first one gets the cpu and switches
to it, and it departs. -/
def chain : List (Action Bool Bool Unit) :=
  List.replicate 5 (.handler true) ++ List.replicate 9 (.pnt () true) ++
    [.kernel false .getOnCpu] ++ List.replicate 4 (.handler false) ++
    [.kernel false (.switchto true)] ++ List.replicate 5 (.handler false) ++
    [.kernel true .depart] ++ List.replicate 8 (.handler true)

/-- The state in which one thread is blocked and the other one is gone. -/
def chainDeparted : State Bool Bool Unit :=
  ((step oneEntered (.kernel true (.enter true 0 false))).bind
    fun s => exec step s chain).getD oneEntered

theorem chainDeparted_reachable : StepsWhen Allowed step bootedPair chainDeparted := by
  have hone : StepsWhen Allowed step bootedPair oneEntered := by
    refine .head (a := .kernel false (.enter false 0 true)) ⟨?_, ?_⟩ rfl
      (.of_execWhen allowed_of_always (List.replicate 7 (.handler false)) rfl)
    · constructor <;> simp [bootedPair]
    · simp [bootedPair]
  refine hone.trans (.head (a := .kernel true (.enter true 0 false)) ⟨?_, ?_⟩ rfl
    (.of_execWhen allowed_of_always chain rfl))
  · constructor
    · intro g hl
      cases g <;> cases hl
    · exact fun _ hp => by cases hp
    · decide
    · intro g _ hh
      cases g <;> cases hh
  · exact fun _ _ _ hatt => by cases hatt

/-- No thread wants a cpu, and no handler is in progress, but biff still asks for one. -/
theorem departed_from_chain : ∃ s₀ s : State Bool Bool Unit, Init s₀ ∧
    StepsWhen Allowed step s₀ s ∧ (∀ g, s.handlers g = none) ∧
    (∀ g, (s.tasks g).phase = .blocked ∨ (s.tasks g).phase = .absent) ∧ s.nrCpusWanted = 1 := by
  refine ⟨bootedPair, chainDeparted, ?_, chainDeparted_reachable, ?_, ?_, rfl⟩
  · constructor <;> simp [bootedPair]
  · intro g
    cases g <;> rfl
  · intro g
    cases g
    · exact .inl rfl
    · exact .inr rfl

end Flux
