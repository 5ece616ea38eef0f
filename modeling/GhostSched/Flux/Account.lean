import GhostSched.Flux.Location

/-!
# What biff knows of a thread

Biff keeps an `on_rq` flag for each of its threads, and asks for cpus according to
it. This file follows the flag of a gtid through the handlers.

* `State.rqFlag` is the flag, if biff has a thread for the gtid.
* `flagAfter` and `owed` run the rest of a handler on the flag alone: what it
  will be in the end, and how many cpus the handler will still ask for.
* An access of a handler does what they say (`handlerStep_account`), and PNT does
  not interfere (`pntStep_account`), unless a `TASK_NEW` finds an old entry for its
  gtid. `Noticed` rules that out.
* In every run without it, the flag after the handler in progress is the one that
  the state of the thread in the kernel calls for (`Settled`).
-/

namespace Flux

open Transition Function

variable {G T K : Type*} {s s' s₀ : State G T K} {g g' : G} {t : T} {c : K} {h : Handler T K}

/-! ## The account of a gtid -/

/-- The `on_rq` flag of biff's thread for the gtid. -/
def State.rqFlag (s : State G T K) (g : G) : Option Bool :=
  (s.swLookup g).bind fun t => if (s.threads t).sched = .biff then some (s.threads t).onRq else none

/-- What the handler in progress still has to do. -/
def State.todo (s : State G T K) (g : G) : List (MicroOp T) :=
  (s.handlers g).elim [] Handler.todo

/-- What an access does to the flag. -/
def MicroOp.flag (b : Option Bool) : MicroOp T → Option Bool
  | .insert _ r => some r
  | .setOnRq r => b.map fun _ => r
  | .setSchedNone => none
  | _ => b

/-- How many cpus an access asks for. -/
def MicroOp.charge (b : Option Bool) : MicroOp T → ℤ
  | .request n => if b.isSome then n else 0
  | .requestIfOnRq n => if b = some true then n else 0
  | _ => 0

/-- The flag when the handler returns. -/
def flagAfter : Option Bool → List (MicroOp T) → Option Bool
  | b, [] => b
  | b, op :: rest => flagAfter (op.flag b) rest

/-- How many cpus the handler will still ask for. -/
def owed : Option Bool → List (MicroOp T) → ℤ
  | _, [] => 0
  | b, op :: rest => op.charge b + owed (op.flag b) rest

/-- Without a thread there is nothing to do but to insert one. -/
theorem account_none {todo : List (MicroOp T)} (h : ∀ idx r, .insert idx r ∉ todo) :
    flagAfter none todo = none ∧ owed none todo = 0 := by
  induction todo with
  | nil => exact ⟨rfl, rfl⟩
  | cons op rest ih =>
    have hrest := ih fun idx r hin => h idx r (List.mem_cons_of_mem op hin)
    cases op with
    | insert idx r => exact absurd List.mem_cons_self (h idx r)
    | _ => simpa [flagAfter, owed, MicroOp.flag, MicroOp.charge] using hrest

theorem rqFlag_congr (hl : s'.swLookup g = s.swLookup g)
    (ht : ∀ t, s.swLookup g = some t → (s'.threads t).sched = (s.threads t).sched ∧
      (s'.threads t).onRq = (s.threads t).onRq) : s'.rqFlag g = s.rqFlag g := by
  unfold State.rqFlag
  rw [hl]
  cases hs : s.swLookup g with
  | none => rfl
  | some t =>
    change (if (s'.threads t).sched = .biff then some (s'.threads t).onRq else none) =
      if (s.threads t).sched = .biff then some (s.threads t).onRq else none
    rw [(ht t hs).1, (ht t hs).2]

/-- The flag is that of the thread which a handler found. -/
theorem rqFlag_eq (hl : s.swLookup g = some t ∨ s.swLookup g = none ∧ (s.threads t).sched ≠ .biff) :
    s.rqFlag g = if (s.threads t).sched = .biff then some (s.threads t).onRq else none := by
  unfold State.rqFlag
  rcases hl with hl | ⟨hl, hs⟩
  · rw [hl]
    rfl
  · rw [hl, if_neg hs]
    rfl

theorem todo_eq (hh : s.handlers g = some h) : s.todo g = h.todo := by
  unfold State.todo
  rw [hh]
  rfl

theorem todo_congr (hh : s'.handlers g = s.handlers g) : s'.todo g = s.todo g := by
  unfold State.todo
  rw [hh]

/-- A thread that biff has is tracked. -/
theorem Inv.tracked_of_rqFlag (hI : Inv s) {b : Bool} (hb : s.rqFlag g = some b) :
    ∃ t, Tracked s t ∧ (s.threads t).gtid = g ∧ (s.threads t).onRq = b := by
  rcases Option.bind_eq_some_iff.mp hb with ⟨t, hl, hif⟩
  grind [hI.lookup, Flux.Tracked]

/-! ## Accesses -/

/-- A step for one gtid that does what the rest of its handler says. -/
structure AccountMove (s s' : State G T K) (g : G) : Prop where
  other : ∀ g', g' ≠ g → s'.rqFlag g' = s.rqFlag g' ∧ s'.todo g' = s.todo g'
  tasks : s'.tasks = s.tasks
  flag : flagAfter (s'.rqFlag g) (s'.todo g) = flagAfter (s.rqFlag g) (s.todo g)
  wanted : s'.nrCpusWanted + owed (s'.rqFlag g) (s'.todo g) =
    s.nrCpusWanted + owed (s.rqFlag g) (s.todo g)

/-- No `TASK_NEW` finds an entry for its gtid. -/
def Noticed (s : State G T K) : Action G T K → Prop
  | .handler g => ∀ h idx r rest, s.handlers g = some h → h.todo = .insert idx r :: rest →
    s.swLookup g = none
  | _ => True

variable [DecidableEq G]

theorem todo_setHandler (o : Option (Handler T K)) :
    (s.setHandler g o).todo g = o.elim [] Handler.todo := by
  simp [State.todo, State.setHandler]

theorem todo_resume (rest : List (MicroOp T)) : (s.resume g h rest).todo g = rest :=
  todo_setHandler _

/-- The entry of a thread that biff does not have goes. -/
theorem rqFlag_deleteEntry (hoff : (s.threads t).sched ≠ .biff)
    (hl : s.swLookup (s.threads t).gtid = some t) (g' : G) :
    (s.deleteEntry (s.threads t).gtid).rqFlag g' = s.rqFlag g' := by
  by_cases hg : g' = (s.threads t).gtid
  · have hnone : (s.deleteEntry (s.threads t).gtid).swLookup g' = none := by
      rw [hg]
      exact update_self ..
    rw [rqFlag_eq (.inr ⟨hnone, hoff⟩), rqFlag_eq (.inl (hg ▸ hl))]
    rfl
  · exact rqFlag_congr (update_of_ne hg ..) fun _ _ => ⟨rfl, rfl⟩

variable {rest : List (MicroOp T)} {op : MicroOp T} {x : Thread G}

section Steps

variable [DecidableEq T]

/-- The frame of an access to the thread of the handler. -/
theorem AccountMove.of_access {h' : Handler T K} (hI : Inv s) (hm : HandlerMove s s' g t x h h')
    (htodo : h.todo = op :: rest) (hsched : x.sched = .biff → (s.threads t).sched = .biff)
    (hflag : (if x.sched = .biff then some x.onRq else none) = op.flag (s.rqFlag g))
    (hrest : flagAfter (op.flag (s.rqFlag g)) h'.todo = flagAfter (op.flag (s.rqFlag g)) rest ∧
      owed (op.flag (s.rqFlag g)) h'.todo = owed (op.flag (s.rqFlag g)) rest)
    (hnr : s'.nrCpusWanted = s.nrCpusWanted + op.charge (s.rqFlag g)) : AccountMove s s' g := by
  have hlook := hm.lookup hI
  have hself : s'.rqFlag g = op.flag (s.rqFlag g) := by
    rw [← hflag, rqFlag_eq (t := t) (by
      rw [hm.swLookup, hm.thread_self]
      exact hlook.2.imp_right fun hl => ⟨hl.1, mt hsched hl.2⟩), hm.thread_self]
  have htd : s'.todo g = h'.todo := todo_eq hm.handler_self
  constructor
  · intro g' hg
    refine ⟨rqFlag_congr (by rw [hm.swLookup]) ?_, todo_congr (hm.handler_ne hg)⟩
    intro j hl
    have hj : j ≠ t := by
      intro heq
      subst heq
      exact hg ((hI.lookup g' j hl).symm.trans hlook.1)
    rw [hm.thread_ne hj]
    exact ⟨rfl, rfl⟩
  · exact hm.tasks
  · rw [hself, htd, hrest.1, todo_eq hm.old, htodo]
    rfl
  · rw [hself, htd, hrest.2, todo_eq hm.old, htodo, hnr]
    exact add_assoc _ _ _

/-- An access that stores something else than the flag. -/
theorem AccountMove.of_setThread (hI : Inv s) (hh : s.handlers g = some h)
    (ht : h.thread = some t) (htodo : h.todo = op :: rest) (f : Thread G → Thread G)
    (hg : (f (s.threads t)).gtid = (s.threads t).gtid)
    (hs : (f (s.threads t)).sched = (s.threads t).sched)
    (hr : (f (s.threads t)).onRq = (s.threads t).onRq) (hflag : ∀ b, op.flag b = b)
    (hcharge : ∀ b, op.charge b = 0) : AccountMove s ((s.setThread t f).resume g h rest) g := by
  refine .of_access hI (.of_setThread hh ht htodo f hg) htodo (fun hx => hs ▸ hx) ?_ ⟨rfl, rfl⟩ ?_
  · rw [hflag, rqFlag_eq ((hI.handler g h hh).thread t ht).2, hs, hr]
  · rw [hcharge]
    exact (add_zero _).symm

/-- An access that only counts. -/
theorem AccountMove.of_skip (hI : Inv s) (hh : s.handlers g = some h) (ht : h.thread = some t)
    (htodo : h.todo = op :: rest) {n : ℤ} (hflag : ∀ b, op.flag b = b)
    (hn : n = s.nrCpusWanted + op.charge (s.rqFlag g)) :
    AccountMove s ({ s with nrCpusWanted := n }.resume g h rest) g := by
  have hm := HandlerMove.of_resume (n := n) hh ht fun _ _ => mem_todo_of_tail htodo
  refine .of_access hI hm htodo id ?_ ⟨rfl, rfl⟩ hn
  rw [hflag, rqFlag_eq ((hI.handler g h hh).thread t ht).2]

theorem threadOp_account (hI : Inv s) (hh : s.handlers g = some h) (ht : h.thread = some t)
    (htodo : h.todo = op :: rest) (hs : threadOp s g h t rest op = some s') :
    AccountMove s s' g := by
  have ho := hI.handler g h hh
  have hfl := rqFlag_eq (ho.thread t ht).2
  have hskip : ∀ op, h.todo = op :: rest → (∀ b, op.flag b = b) → op.charge (s.rqFlag g) = 0 →
      AccountMove s (s.resume g h rest) g := fun op htodo hflag hc =>
    .of_skip hI hh ht htodo hflag (by rw [hc, add_zero])
  cases op with
  | insert idx r | lookup => cases hs
  | initBiff =>
    cases hs
    refine .of_setThread hI hh ht htodo _ ?_ ?_ ?_ (fun _ => rfl) (fun _ => rfl) <;> split <;> rfl
  | enqueue =>
    simp only [threadOp] at hs
    split at hs
    · split at hs <;> cases hs
      refine .of_access hI (.of_thread hh ht _ rfl (fun _ _ => mem_todo_of_tail htodo) ?_) htodo id
        hfl.symm ⟨rfl, rfl⟩ (add_zero _).symm
      exact fun j hj => by simp [hj]
    · cases hs
      exact hskip _ htodo (fun _ => rfl) rfl
  | dequeue =>
    simp only [threadOp] at hs
    split at hs
    · split at hs
      · split at hs <;> cases hs
        · refine .of_access hI (.of_thread hh ht _ rfl (fun _ _ => mem_todo_of_tail htodo) ?_) htodo
            id hfl.symm ⟨rfl, rfl⟩ (add_zero _).symm
          exact fun j hj => List.mem_erase_of_ne hj
        · exact hskip _ htodo (fun _ => rfl) rfl
      · cases hs
    · cases hs
      exact hskip _ htodo (fun _ => rfl) rfl
  | request n =>
    simp only [threadOp] at hs
    split at hs <;> cases hs
    · refine .of_skip hI hh ht htodo (fun _ => rfl) ?_
      simp [MicroOp.charge, *]
    · refine hskip _ htodo (fun _ => rfl) ?_
      simp [MicroOp.charge, *]
  | requestIfOnRq n =>
    simp only [threadOp] at hs
    split at hs <;> cases hs
    · refine .of_skip hI hh ht htodo (fun _ => rfl) ?_
      simp [MicroOp.charge, *]
    · refine hskip _ htodo (fun _ => rfl) ?_
      grind [MicroOp.charge]
  | storeSeqnum | setOnCpu b | clearPending =>
    cases hs
    exact .of_setThread hI hh ht htodo _ rfl rfl rfl (fun _ => rfl) fun _ => rfl
  | setOnRq b =>
    cases hs
    refine .of_access hI (.of_setThread hh ht htodo _ rfl) htodo id ?_ ⟨rfl, rfl⟩ (add_zero _).symm
    grind [MicroOp.flag]
  | takeBall =>
    -- nothing was left to do
    have hrest := ho.rest
    rw [htodo] at hrest
    simp only [threadOp] at hs
    split at hs <;> cases hs <;>
    · refine .of_access hI (.of_resume hh ht (by simp)) htodo id hfl.symm ?_ (add_zero _).symm
      rw [hrest.1.1]
      exact ⟨rfl, rfl⟩
  | setSchedNone =>
    cases hs
    exact .of_access hI (.of_setThread hh ht htodo _ rfl) htodo (fun hx => by cases hx) rfl
      ⟨rfl, rfl⟩ (add_zero _).symm
  | decref =>
    cases hs
    refine .of_access hI (.of_thread hh ht _ rfl ?_ fun _ _ => Iff.rfl) htodo id hfl.symm ?_
      (add_zero _).symm
    · intro idx r hin
      split at hin
      · rcases List.mem_cons.mp hin with heq | hin
        · cases heq
        · exact mem_todo_of_tail htodo hin
      · exact mem_todo_of_tail htodo hin
    · split
      · exact ⟨rfl, zero_add _⟩
      · exact ⟨rfl, rfl⟩
  | deleteEntry =>
    cases hs
    have hd : Deleter s t (.inr g) := ⟨h, hh, ht, htodo ▸ List.mem_cons_self⟩
    rcases (hI.refs t).deleter _ hd with ⟨-, hoff, hl, -⟩
    have hflag : ∀ g', ((s.deleteEntry (s.threads t).gtid).resume g h rest).rqFlag g' =
        s.rqFlag g' := rqFlag_deleteEntry hoff hl
    have htd : ((s.deleteEntry (s.threads t).gtid).resume g h rest).todo g = rest :=
      todo_resume rest
    refine ⟨fun g' hg => ⟨hflag g', todo_congr (update_of_ne hg ..)⟩, rfl, ?_, ?_⟩
    · rw [hflag, htd, todo_eq hh, htodo]
      rfl
    · rw [hflag, htd, todo_eq hh, htodo]
      change _ = _ + (0 + _)
      rw [zero_add]
      rfl

/-- A handler does with the account what the rest of it says. -/
theorem handlerStep_account (hI : Inv s) (hs : handlerStep s g = some s')
    (hn : Noticed s (Action.handler g : Action G T K)) : AccountMove s s' g := by
  unfold handlerStep at hs
  split at hs
  · cases hs
  rename_i h hh
  have ho := hI.handler g h hh
  -- handlers that have nothing to do
  have hset : ∀ o : Option (Handler T K), o.elim [] Handler.todo = [] →
      flagAfter (s.rqFlag g) h.todo = s.rqFlag g → owed (s.rqFlag g) h.todo = 0 →
      AccountMove s (s.setHandler g o) g := by
    intro o hnil hf hw
    have htd : (s.setHandler g o).todo g = [] := (todo_setHandler o).trans hnil
    refine ⟨fun g' hg => ⟨rfl, todo_congr (update_of_ne hg ..)⟩, rfl, ?_, ?_⟩
    · rw [htd, todo_eq hh, hf]
      rfl
    · rw [htd, todo_eq hh, hw]
      rfl
  split at hs
  · rename_i htodo
    cases hs
    exact hset none rfl (by rw [htodo]; rfl) (by rw [htodo]; rfl)
  · rename_i idx r rest htodo
    split at hs
    · rename_i t hl
      rw [hn h idx r rest hh htodo] at hl
      cases hl
    · cases hs
      have hf := (ho.insert idx r (htodo ▸ List.mem_cons_self)).1
      set s' := ({ s with swLookup := update s.swLookup g (some idx) }.setThread idx
        fun x => { x with
          gtid := g, seqnum := h.seqnum, refcnt := 1, sched := .biff, onRq := r
          onCpu := false, pendingLatch := false }).resume g { h with thread := some idx } rest
      have hself : s'.rqFlag g = some r := by
        have hlself : s'.swLookup g = some idx := update_self ..
        have htself : s'.threads idx = _ := update_self ..
        rw [rqFlag_eq (.inl hlself), htself]
        rfl
      have htd : s'.todo g = rest := todo_resume rest
      refine ⟨?_, rfl, ?_, ?_⟩
      · intro g' hg
        refine ⟨rqFlag_congr (update_of_ne hg ..) ?_, todo_congr (update_of_ne hg ..)⟩
        intro j hlj
        have hj : j ≠ idx := fun heq => hf.swLookup g' (heq ▸ hlj)
        have htne : s'.threads j = s.threads j := update_of_ne hj ..
        rw [htne]
        exact ⟨rfl, rfl⟩
      · rw [hself, htd, todo_eq hh, htodo]
        rfl
      · rw [hself, htd, todo_eq hh, htodo]
        change s.nrCpusWanted + owed (some r) rest = s.nrCpusWanted + (0 + owed (some r) rest)
        rw [zero_add]
  · rename_i rest htodo
    have hrest := ho.rest
    rw [htodo] at hrest
    split at hs <;> cases hs
    · rename_i hl
      have hnone : s.rqFlag g = none := by
        unfold State.rqFlag
        rw [hl]
        rfl
      have hno : flagAfter none h.todo = none ∧ owed none h.todo = 0 := account_none <| by
        intro idx r hin
        rw [htodo, List.mem_cons] at hin
        rcases hin with heq | hin
        · cases heq
        · exact hrest.1.1.2.2.2 idx r hin
      exact hset _ rfl (by rw [hnone, hno.1]) (by rw [hnone, hno.2])
    · rename_i t hl
      have htd : (s.resume g { h with thread := some t } rest).todo g = rest :=
        todo_resume rest
      refine ⟨fun g' hg => ⟨rfl, todo_congr (update_of_ne hg ..)⟩, rfl, ?_, ?_⟩
      · rw [htd, todo_eq hh, htodo]
        rfl
      · rw [htd, todo_eq hh, htodo]
        change _ = _ + (0 + _)
        rw [zero_add]
        rfl
  · grind [threadOp_account]

/-! ## PNT -/

omit [DecidableEq G] in
/-- Another field of a thread changes. -/
theorem rqFlag_of_update (hl : s'.swLookup = s.swLookup) (ht : s'.threads = update s.threads t x)
    (hs : x.sched = (s.threads t).sched) (hr : x.onRq = (s.threads t).onRq) :
    s'.rqFlag g = s.rqFlag g := by
  refine rqFlag_congr (by rw [hl]) ?_
  intro j _
  rw [ht]
  by_cases hj : j = t
  · rw [hj, update_self]
    exact ⟨hs, hr⟩
  · rw [update_of_ne hj]
    exact ⟨rfl, rfl⟩

/-- What PNT does to the accounts: it latches a runnable thread, or it makes the
kernel send a message about a failed latch. -/
theorem pntStep_account [DecidableEq K] {ok : Bool} (hI : Inv s) (hs : pntStep s c ok = some s') :
    (∀ g, s'.rqFlag g = s.rqFlag g) ∧ s'.nrCpusWanted = s.nrCpusWanted ∧
    (s'.tasks = s.tasks ∧ s'.handlers = s.handlers ∨
      (∃ g, s.TaskLockFree g ∧ (s.tasks g).phase = .runnable ∧ s'.handlers = s.handlers ∧
        s'.tasks = (s.setTask g fun k => { k with phase := .latched }).tasks) ∨
      ∃ g, s.TaskLockFree g ∧ (s.tasks g).phase ≠ .absent ∧
        s'.handlers = (s.send g .latchFailure (some c)).handlers ∧
        s'.tasks = (s.send g .latchFailure (some c)).tasks) := by
  have hdel : ∀ t, (s.pnt c).Deletes t → ∀ g,
      (s.deleteEntry (s.threads t).gtid).rqFlag g = s.rqFlag g := by
    intro t hpc
    rcases (hI.refs t).deleter (.inl c) hpc with ⟨-, hoff, hl, -⟩
    exact rqFlag_deleteEntry hoff hl
  unfold pntStep at hs
  split at hs
  · split at hs
    · split at hs <;> cases hs
      exact ⟨fun _ => rqFlag_of_update rfl rfl rfl rfl, rfl, .inl ⟨rfl, rfl⟩⟩
    · cases hs
  · cases hs
    exact ⟨fun _ => rfl, rfl, .inl ⟨rfl, rfl⟩⟩
  · cases hs
    exact ⟨fun _ => rqFlag_of_update rfl rfl rfl rfl, rfl, .inl ⟨rfl, rfl⟩⟩
  · cases hs
    exact ⟨fun _ => rqFlag_of_update rfl rfl rfl rfl, rfl, .inl ⟨rfl, rfl⟩⟩
  · cases hs
    exact ⟨fun _ => rfl, rfl, .inl ⟨rfl, rfl⟩⟩
  · -- bpf_ghost_run_gtid
    dsimp only at hs
    split at hs
    · rename_i hfree
      split at hs
      · split at hs <;> cases hs
        rename_i hrun
        exact ⟨fun _ => rfl, rfl, .inr (.inl ⟨_, hfree, hrun.2.1, rfl, rfl⟩)⟩
      · split at hs <;> cases hs
        · exact ⟨fun _ => rfl, rfl, .inl ⟨rfl, rfl⟩⟩
        · rename_i hin
          exact ⟨fun _ => rfl, rfl, .inr (.inr ⟨_, hfree, hin, rfl, rfl⟩)⟩
    · cases hs
  · cases hs
    exact ⟨fun _ => rqFlag_of_update rfl rfl rfl rfl, rfl, .inl ⟨rfl, rfl⟩⟩
  · cases hs
    exact ⟨fun _ => rqFlag_of_update rfl rfl rfl rfl, rfl, .inl ⟨rfl, rfl⟩⟩
  · rename_i hpc
    cases hs
    exact ⟨hdel _ (by simp [hpc]), rfl, .inl ⟨rfl, rfl⟩⟩
  · cases hs
    exact ⟨fun _ => rfl, rfl, .inl ⟨rfl, rfl⟩⟩
  · split at hs
    · split at hs <;> cases hs
      exact ⟨fun _ => rfl, rfl, .inl ⟨rfl, rfl⟩⟩
    · cases hs
      exact ⟨fun _ => rfl, rfl, .inl ⟨rfl, rfl⟩⟩
  · cases hs
    exact ⟨fun _ => rqFlag_of_update rfl rfl rfl rfl, rfl, .inl ⟨rfl, rfl⟩⟩
  · rename_i hpc
    cases hs
    exact ⟨hdel _ (by simp [hpc]), rfl, .inl ⟨rfl, rfl⟩⟩

end Steps

/-! ## The flag and the kernel -/

/-- The flag that the state of a thread calls for. A thread that runs in a switchto
chain counts as blocked for biff, since the chain started with another thread. -/
def Task.flag (k : Task) : Option Bool :=
  match k.phase with
  | .absent => none
  | .blocked => some false
  | .runnable | .latched => some true
  | .running => some (!k.inSwitchto)

/-- Every handler in progress will leave the flag that the kernel calls for. -/
def Settled (s : State G T K) : Prop :=
  ∀ g, flagAfter (s.rqFlag g) (s.todo g) = (s.tasks g).flag

omit [DecidableEq G] in
theorem KernelMsg.flagAfter {k k' : Task} {msg : Msg T} (hk : KernelMsg k msg k') :
    Flux.flagAfter k.flag msg.handler = k'.flag := by
  cases hk with
  | preempt hp | yield hp =>
    cases hb : k.inSwitchto <;> simp [Task.flag, hp, hb, Msg.handler, Flux.flagAfter, MicroOp.flag]
  | depart hp => simp [Task.flag, Msg.handler, Flux.flagAfter, MicroOp.flag]
  | _ hp => simp [Task.flag, hp, Msg.handler, Flux.flagAfter, MicroOp.flag]

/-! ## Events -/

/-- An event for one gtid that is not a step of its handler. -/
structure AccountEvent (s s' : State G T K) (g : G) : Prop where
  rqFlag : ∀ g', s'.rqFlag g' = s.rqFlag g'
  wanted : s'.nrCpusWanted = s.nrCpusWanted
  todo : ∀ g', g' ≠ g → s'.todo g' = s.todo g'
  tasks : ∀ g', g' ≠ g → s'.tasks g' = s.tasks g'
  idle : s.todo g = []

omit [DecidableEq G] in
theorem todo_of_free (hfree : s.TaskLockFree g) : s.todo g = [] := by
  unfold State.todo
  rw [hfree.1]
  rfl

/-- The kernel changes a thread and tells nobody. -/
theorem AccountEvent.of_setTask (f : Task → Task) (hidle : s.todo g = []) :
    AccountEvent s (s.setTask g f) g :=
  ⟨fun _ => rfl, rfl, fun _ _ => rfl, fun _ hg => update_of_ne hg .., hidle⟩

/-- The kernel changes a thread and sends a message. -/
theorem AccountEvent.of_send (f : Task → Task) (msg : Msg T) (caller : Option K)
    (hidle : s.todo g = []) : AccountEvent s ((s.setTask g f).send g msg caller) g := by
  refine ⟨fun _ => rfl, rfl, fun g' hg => todo_congr (update_of_ne hg ..), ?_, hidle⟩
  intro g' hg
  simp [State.send, State.setTask, State.setHandler, hg]

theorem todo_send (f : Task → Task) (msg : Msg T) (caller : Option K) :
    ((s.setTask g f).send g msg caller).todo g = msg.handler :=
  todo_setHandler _

/-- A message moves the barrier on, which the flag does not depend on. -/
theorem flag_send (f : Task → Task) (msg : Msg T) (caller : Option K) :
    (((s.setTask g f).send g msg caller).tasks g).flag = (f (s.tasks g)).flag := by
  simp [State.send, State.setTask, State.setHandler, Task.flag]

section

variable (hS : Settled s)
include hS

omit [DecidableEq G] in
theorem Settled.idle (hidle : s.todo g = []) : s.rqFlag g = (s.tasks g).flag := by
  have hg := hS g
  rw [hidle] at hg
  exact hg

theorem Settled.event (he : AccountEvent s s' g)
    (hflag : flagAfter (s.tasks g).flag (s'.todo g) = (s'.tasks g).flag) : Settled s' := by
  intro g'
  rw [he.rqFlag]
  by_cases hg : g' = g
  · rw [hg, hS.idle he.idle, hflag]
  · rw [he.todo g' hg, he.tasks g' hg]
    exact hS g'

theorem Settled.move (hm : AccountMove s s' g) : Settled s' := by
  intro g'
  rw [hm.tasks]
  by_cases hg : g' = g
  · rw [hg, hm.flag]
    exact hS g
  · rw [(hm.other g' hg).1, (hm.other g' hg).2]
    exact hS g'

theorem Settled.send (f : Task → Task) (msg : Msg T) (caller : Option K) (hidle : s.todo g = [])
    (hflag : flagAfter (s.tasks g).flag msg.handler = (f (s.tasks g)).flag) :
    Settled ((s.setTask g f).send g msg caller) := by
  refine hS.event (.of_send f msg caller hidle) ?_
  rw [todo_send, flag_send]
  exact hflag

theorem Settled.setTask (f : Task → Task) (hidle : s.todo g = [])
    (hflag : (f (s.tasks g)).flag = (s.tasks g).flag) : Settled (s.setTask g f) := by
  have htask : (s.setTask g f).tasks g = f (s.tasks g) := update_self ..
  refine hS.event (.of_setTask f hidle) ?_
  rw [htask, hflag, show (s.setTask g f).todo g = [] from hidle]
  rfl

/-- A switch: the thread that had the cpu is blocked, and the other one takes its
place without a message. -/
theorem Settled.switch {target : G} (hfree : s.TaskLockFree g) (hp : (s.tasks g).phase = .running)
    (hne : target ≠ g) (hft : s.TaskLockFree target) (hpt : (s.tasks target).phase = .blocked) :
    Settled (if (s.tasks g).inSwitchto then s.switch g target
      else (s.switch g target).send g .switchto none) := by
  set s₁ := s.setTask target fun k =>
    { k with phase := .running, inSwitchto := true, onCpu := true }
  have hS₁ : Settled s₁ := hS.setTask _ (todo_of_free hft) (by simp [Task.flag, hpt])
  have hcomm : s.switch g target = s₁.setTask g fun k => { k with phase := .blocked } := by
    simp [s₁, State.switch, State.setTask, hne, Ne.symm hne, update_comm hne]
  have hg : s₁.tasks g = s.tasks g := update_of_ne (Ne.symm hne) ..
  have hidle : s₁.todo g = [] := todo_of_free hfree
  rw [hcomm]
  split
  · rename_i hsw
    exact hS₁.setTask _ hidle (by simp [hg, Task.flag, hp, hsw])
  · rename_i hsw
    refine hS₁.send _ .switchto none hidle ?_
    simp [hg, Task.flag, hp, hsw, flagAfter, Msg.handler, MicroOp.flag]

/-- Every step keeps the flags in line, when no `TASK_NEW` is ignored. -/
theorem Settled.step [DecidableEq T] [DecidableEq K] {a : Action G T K} (hI : Inv s)
    (hn : Noticed s a) (hs : Flux.step s a = some s') : Settled s' := by
  cases a with
  | handler g => exact hS.move (handlerStep_account hI hs hn)
  | pnt c ok =>
    rcases pntStep_account hI hs with ⟨hflag, -, hcase⟩
    -- the flags depend on what PNT does only through the tasks and the handlers
    have hcongr : ∀ s₁ : State G T K, Settled s₁ → (∀ g, s₁.rqFlag g = s.rqFlag g) →
        s'.tasks = s₁.tasks → s'.handlers = s₁.handlers → Settled s' := by
      intro s₁ hS₁ hf ht hh g
      rw [hflag, ← hf, ht, todo_congr (s := s₁) (by rw [hh])]
      exact hS₁ g
    rcases hcase with ⟨ht, hh⟩ | ⟨g, hfree, hp, hh, ht⟩ | ⟨g, hfree, hin, hh, ht⟩
    · exact hcongr s hS (fun _ => rfl) ht hh
    · exact hcongr _ (hS.setTask _ (todo_of_free hfree) (by simp [Task.flag, hp])) (fun _ => rfl)
        ht hh
    · have hid : s.setTask g id = s := by simp [State.setTask]
      have hS₁ : Settled ((s.setTask g id).send g .latchFailure (some c)) :=
        hS.send id .latchFailure (some c) (todo_of_free hfree) rfl
      rw [hid] at hS₁
      exact hcongr _ hS₁ (fun _ => rfl) ht hh
  | kernel g e =>
    rcases kernelStep_cases hs with ⟨hfree, hcase⟩
    have hidle := todo_of_free hfree
    rcases hcase with ⟨idx, barrier, r, -, habs, hs'⟩ | ⟨msg, k, hk, -, hs'⟩ |
      ⟨target, hp, hne, hft, hpt, hs'⟩ | hs'
    · rw [hs']
      refine hS.send _ _ none hidle ?_
      cases r <;> simp [Task.flag, habs, flagAfter, Msg.handler, MicroOp.flag]
    · rw [hs']
      exact hS.send _ _ none hidle hk.flagAfter
    · rw [hs']
      exact hS.switch hfree hp hne hft hpt
    · rw [hs']
      exact hS.setTask _ hidle rfl

end

omit [DecidableEq G] in
theorem Init.settled (h₀ : Init s) : Settled s := by
  intro g
  simp [State.rqFlag, State.todo, Task.flag, h₀.swLookup, h₀.handlers, h₀.tasks, flagAfter]

end Flux
