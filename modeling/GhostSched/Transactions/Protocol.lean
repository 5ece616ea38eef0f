import GhostSched.Lib.Transition
import GhostSched.Transactions.Model

/-!
# Ownership and abort

What holds along every run, and what else if the callers are careful.

* `Resting` is about the owner of a transaction, `AbortOk` about the race of `Abort`
  with the kernel, and `CallOk` about how far a call has got. A call does not notice
  what others do: `CallOk.frame`.
* There is one lemma for each operation, and `transaction_protocol` is the result. Only
  that no `CHECK` fails depends on the callers.
* A transaction that was opened for a sync group keeps its owner if it is committed by
  `Commit`. Opening it again without an owner fails a `CHECK`: `owned_reopened`, with two
  other ways not to be careful.
-/

namespace Transactions

open Transition Function

variable {A C G O : Type*}

/-! ## Invariant -/

def TxnState.Failed (x : TxnState C) : Prop := x.IsCommitted ∧ x ≠ .committed .complete

/-- The owner of a transaction is the one of its opening. -/
def Resting (s : State A C G O) (c : C) : Prop :=
  match s.opening c with
  | .closed => (s.txn c).state.IsCommitted ∧ (s.txn c).syncGroupOwner = none
  | .plain => (s.txn c).syncGroupOwner = none
  | .group owner => (s.txn c).syncGroupOwner = some owner
  | .opening => True

/-- The kernel cannot claim an opening once its first `Abort` has returned true. -/
structure AbortOk (s : State A C G O) (c : C) : Prop where
  ready : (s.txn c).state = .ready → s.claimed c = false
  claimed : ∀ cpu, (s.txn c).state = .claimed cpu → s.claimed c = true
  first : ∀ b, s.firstAbort c = some b → (b = true ↔ s.claimed c = false)
  aborted : s.firstAbort c = some true → (s.txn c).state = .committed .aborted
  committed : (s.txn c).state.IsCommitted → s.claimed c = true ∨ s.firstAbort c = some true

/-- How far a call has got, and what else is known if the callers are careful. -/
def CallOk (careful : Prop) (s : State A C G O) : Call C G O → Prop
  | .idle | .error => True
  | .crashed => ¬ careful
  | .returned (.opened _) | .returned (.committed _ _) => True
  | .returned (.aborted c success) => success = true → s.opening c = .closed
  | .returned (.synced cs success) =>
    (∀ c ∈ cs, s.opening c = .closed) ∧
      (success = true → ∀ c ∈ cs, (s.txn c).state = .committed .complete) ∧
      (success = false → ∃ c ∈ cs, (s.txn c).state.Failed)
  | .openOwner c options =>
    s.opening c = .opening ∧ (careful → (s.txn c).state.IsCommitted ∧
      (options.allowTxnTargetOnCpu = true → options.syncGroupOwner.isSome = true))
  | .openCheck c options =>
    s.opening c = .opening ∧ (careful → (s.txn c).state.IsCommitted ∧
      (s.txn c).syncGroupOwner = options.syncGroupOwner ∧
      (options.allowTxnTargetOnCpu = true → options.syncGroupOwner.isSome = true))
  -- this is what `CHECK(committed())` is for
  | .openStore c options =>
    (s.txn c).state.IsCommitted ∧ s.opening c = .opening ∧
      (careful → (s.txn c).syncGroupOwner = options.syncGroupOwner ∧
      (options.allowTxnTargetOnCpu = true → options.syncGroupOwner.isSome = true))
  | .openReady c =>
    careful → (s.txn c).allowTxnTargetOnCpu = true → (s.txn c).syncGroupOwner.isSome = true
  | .abortLoad _ | .abortExchange _ => True
  | .abortRelease c => (s.txn c).state.IsCommitted
  | .committing cs rest _ => ∀ c ∈ rest, c ∈ cs
  | .syncSubmit cs => careful → cs.Nodup ∧ ∀ c ∈ cs, (s.opening c).isGroup = true
  | .syncComplete cs rest failureDetected =>
    (∀ c ∈ rest, c ∈ cs) ∧ (careful → cs.Nodup ∧ ∀ c ∈ cs, (s.opening c).isGroup = true) ∧
      (∀ c ∈ cs, c ∈ rest ∨ (s.txn c).state.IsCommitted) ∧ (∃ c ∈ cs, (s.txn c).state.Failed) ∧
      (failureDetected = true ∨ ∃ c ∈ rest, (s.txn c).state.Failed)
  | .syncRelease cs rest =>
    (∀ c ∈ rest, c ∈ cs) ∧ (careful → rest.Nodup ∧ ∀ c ∈ rest, (s.opening c).isGroup = true) ∧
      (∀ c ∈ cs, (s.txn c).state.IsCommitted) ∧ (∃ c ∈ cs, (s.txn c).state.Failed) ∧
      ∀ c ∈ cs, c ∈ rest ∨ s.opening c = .closed

structure Inv (careful : Prop) (s : State A C G O) : Prop where
  resting : ∀ c, Resting s c
  abort : ∀ c, AbortOk s c
  call : ∀ a, CallOk careful s (s.call a)
  /-- No two agents use one transaction. -/
  user : ∀ a, ∀ c ∈ (s.call a).uses, s.user c = some a

variable {careful : Prop} {s : State A C G O}

/-- What a call knows, and whose transactions it uses. -/
theorem Inv.of_call {a : A} {x : Call C G O} (h : Inv careful s) (hx : s.call a = x) :
    CallOk careful s x ∧ ∀ c ∈ x.uses, s.user c = some a := by
  rw [← hx]
  exact ⟨h.call a, h.user a⟩

/-- All transactions are committed at first. -/
theorem Init.inv (h : Init s) : Inv careful s where
  resting c := by
    rw [Resting, h.opening]
    exact ⟨h.state c, h.owner c⟩
  abort c := by
    constructor
    · intro hready
      have hstate := h.state c
      rw [hready] at hstate
      exact hstate.elim
    · intro _ _
      exact h.claimed c
    · intro b hb
      rw [h.firstAbort] at hb
      cases hb
    · intro hb
      rw [h.firstAbort] at hb
      cases hb
    · intro _
      exact .inl (h.claimed c)
  call a := by
    rw [h.call]
    trivial
  user a c hc := by
    rw [h.call] at hc
    cases hc

/-- What a step of somebody else leaves of a transaction. -/
structure Keeps (s s' : State A C G O) (c : C) : Prop where
  opening : s'.opening c = s.opening c
  owner : (s'.txn c).syncGroupOwner = (s.txn c).syncGroupOwner
  allow : (s'.txn c).allowTxnTargetOnCpu = (s.txn c).allowTxnTargetOnCpu
  committed : ∀ code, (s.txn c).state = .committed code → (s'.txn c).state = .committed code

theorem TxnState.IsCommitted.exists {x : TxnState C} (h : x.IsCommitted) :
    ∃ code, x = .committed code := by
  cases x with
  | committed code => exact ⟨code, rfl⟩
  | _ => exact h.elim

section Keeps

variable {s s' : State A C G O} {c : C}

theorem Keeps.isCommitted (h : Keeps s s' c) (hc : (s.txn c).state.IsCommitted) :
    (s'.txn c).state.IsCommitted := by
  obtain ⟨code, hcode⟩ := hc.exists
  rw [h.committed code hcode]
  trivial

/-- A transaction that has failed stays so. -/
theorem Keeps.failed (h : Keeps s s' c) (hc : (s.txn c).state.Failed) :
    (s'.txn c).state.Failed := by
  obtain ⟨code, hcode⟩ := hc.1.exists
  grind [h.committed]

/-- A transaction that rests stays so. -/
theorem Keeps.resting (h : Keeps s s' c) (hc : Resting s c) : Resting s' c := by
  rw [Resting, h.opening, h.owner]
  rw [Resting] at hc
  split at hc
  case h_1 => exact ⟨h.isCommitted hc.1, hc.2⟩
  all_goals exact hc

/-- A call does not notice what happens to other transactions, nor that the kernel commits one. -/
theorem CallOk.frame {x : Call C G O} (hx : CallOk careful s x) (h : ∀ c ∈ x.uses, Keeps s s' c) :
    CallOk careful s' x := by
  cases x with
  | idle | error | abortLoad c | abortExchange c => trivial
  | crashed => exact hx
  | returned result =>
    cases result with
    | opened c | committed cs success => trivial
    | aborted c success =>
      intro hs
      rw [(h c (by simp [Call.uses])).opening]
      exact hx hs
    | synced cs success =>
      rcases hx with ⟨hclosed, hall, hsome⟩
      refine ⟨fun c hc => ?_, fun hs c hc => ?_, fun hs => ?_⟩
      · rw [(h c hc).opening]
        exact hclosed c hc
      · exact (h c hc).committed _ (hall hs c hc)
      · obtain ⟨c, hc, hf⟩ := hsome hs
        exact ⟨c, hc, (h c hc).failed hf⟩
  | openOwner c options =>
    -- `Open`: nobody else uses the transaction
    have hk := h c (by simp [Call.uses])
    exact ⟨hk.opening.trans hx.1, fun hq => ⟨hk.isCommitted (hx.2 hq).1, (hx.2 hq).2⟩⟩
  | openCheck c options =>
    have hk := h c (by simp [Call.uses])
    refine ⟨hk.opening.trans hx.1, fun hq => ?_⟩
    rcases hx.2 hq with ⟨hcommitted, howner, hallow⟩
    exact ⟨hk.isCommitted hcommitted, hk.owner.trans howner, hallow⟩
  | openStore c options =>
    have hk := h c (by simp [Call.uses])
    exact ⟨hk.isCommitted hx.1, hk.opening.trans hx.2.1,
      fun hq => ⟨hk.owner.trans (hx.2.2 hq).1, (hx.2.2 hq).2⟩⟩
  | openReady c =>
    have hk := h c (by simp [Call.uses])
    intro hq hallow
    rw [hk.owner]
    exact hx hq (hk.allow ▸ hallow)
  | abortRelease c =>
    -- an aborted transaction stays committed
    exact (h c (by simp [Call.uses])).isCommitted hx
  | committing cs rest success => exact hx
  | syncSubmit cs =>
    refine fun hq => ⟨(hx hq).1, fun c hc => ?_⟩
    rw [(h c hc).opening]
    exact (hx hq).2 c hc
  | syncComplete cs rest failureDetected =>
    -- a failure that was detected stays one
    rcases hx with ⟨hsub, hgroup, hdone, ⟨c, hc, hf⟩, hfound⟩
    refine ⟨hsub, fun hq => ⟨(hgroup hq).1, fun c hc => ?_⟩, fun c hc => ?_,
      ⟨c, hc, (h c hc).failed hf⟩, ?_⟩
    · rw [(h c hc).opening]
      exact (hgroup hq).2 c hc
    · exact (hdone c hc).imp_right (h c hc).isCommitted
    · refine hfound.imp_right fun ⟨c, hc, hf⟩ => ⟨c, hc, (h c (hsub c hc)).failed hf⟩
  | syncRelease cs rest =>
    rcases hx with ⟨hsub, hgroup, hdone, ⟨c, hc, hf⟩, hclosed⟩
    refine ⟨hsub, fun hq => ⟨(hgroup hq).1, fun c hc => ?_⟩,
      fun c hc => (h c hc).isCommitted (hdone c hc), ⟨c, hc, (h c hc).failed hf⟩, fun c hc => ?_⟩
    · rw [(h c (hsub c hc)).opening]
      exact (hgroup hq).2 c hc
    · rw [(h c hc).opening]
      exact hclosed c hc

end Keeps

variable {c : C}

/-- The ownership and the other fields are no part of what `AbortOk` says. -/
theorem AbortOk.congr {s' : State A C G O} (h : AbortOk s c)
    (hstate : (s'.txn c).state = (s.txn c).state)
    (hclaimed : s'.claimed c = s.claimed c) (hfirst : s'.firstAbort c = s.firstAbort c) :
    AbortOk s' c := by
  rcases h with ⟨hready, hclaimed', hfirst', haborted, hcommitted⟩
  rw [← hstate] at hready hclaimed' haborted hcommitted
  rw [← hclaimed] at hready hclaimed' hfirst' hcommitted
  rw [← hfirst] at hfirst' haborted hcommitted
  exact ⟨hready, hclaimed', hfirst', haborted, hcommitted⟩

/-- An `Abort` leaves no transaction ready. -/
theorem AbortOk.firstAbort_eq_none (h : AbortOk s c) (hready : (s.txn c).state = .ready) :
    s.firstAbort c = none := by
  cases hfirst : s.firstAbort c with
  | none => rfl
  | some b =>
    have hb : b = true := (h.first b hfirst).mpr (h.ready hready)
    rw [hb] at hfirst
    have hstate := h.aborted hfirst
    rw [hready] at hstate
    cases hstate

/-- A transaction that a step does not touch. -/
structure Same (s s' : State A C G O) (c : C) : Prop where
  txn : s'.txn c = s.txn c
  opening : s'.opening c = s.opening c
  claimed : s'.claimed c = s.claimed c
  firstAbort : s'.firstAbort c = s.firstAbort c

section Same

variable {s s' : State A C G O} {c : C}

/-- An untouched transaction keeps everything. -/
theorem Same.keeps (h : Same s s' c) : Keeps s s' c := by
  constructor <;> grind [h.txn, h.opening]

theorem Same.abortOk (h : Same s s' c) (hc : AbortOk s c) : AbortOk s' c :=
  hc.congr (congrArg Txn.state h.txn) h.claimed h.firstAbort

/-- An untouched transaction is as it was. -/
theorem Inv.same (h : Inv careful s) (hc : Same s s' c) : Resting s' c ∧ AbortOk s' c :=
  ⟨hc.keeps.resting (h.resting c), hc.abortOk (h.abort c)⟩

end Same

section Preserved

variable [DecidableEq A] {s s' : State A C G O} {a : A} {x : Call C G O}

/-- A step of an agent changes its own call and the transactions that it uses. -/
theorem Inv.act (h : Inv careful s) (hcall : s'.call = update s.call a x)
    (huser : ∀ c b, b ≠ a → s.user c = some b → s'.user c = some b)
    (hother : ∀ c b, b ≠ a → s.user c = some b → Same s s' c)
    (hall : ∀ c, Resting s' c ∧ AbortOk s' c) (hx : CallOk careful s' x)
    (huses : ∀ c ∈ x.uses, s'.user c = some a) : Inv careful s' where
  resting c := (hall c).1
  abort c := (hall c).2
  call b := by
    rw [hcall]
    rw [update_apply]
    split_ifs with hb
    · exact hx
    · exact (h.call b).frame fun c hc => (hother c b hb (h.user b c hc)).keeps
  user b c hc := by
    rw [hcall] at hc
    rw [update_apply] at hc
    split_ifs at hc with hb
    · subst hb
      exact huses c hc
    · exact huser c b hb (h.user b c hc)

/-- A step that only takes a call further. -/
theorem Inv.setCall (h : Inv careful s) (hx : CallOk careful s x)
    (huses : ∀ c ∈ x.uses, s.user c = some a) :
    Inv careful (s.setCall a x) := by
  have hsame : ∀ c, Same s (s.setCall a x) c := fun _ => ⟨rfl, rfl, rfl, rfl⟩
  apply h.act rfl
  · intro c b _ hb
    exact hb
  · intro c b _ _
    exact hsame c
  · intro c
    exact h.same (hsame c)
  · exact hx.frame fun c _ => (hsame c).keeps
  · exact huses

/-- A `CHECK`, which does not fail if the callers are careful. -/
theorem Inv.check {p : Prop} [Decidable p] (h : Inv careful s) (hp : careful → p)
    (hnext : p → Inv careful s') : Inv careful (s.check a p s') := by
  unfold State.check
  split
  · exact hnext ‹_›
  · exact h.setCall (fun hq => absurd (hp hq) ‹_›) (by simp [Call.uses])

/-- A step that touches one transaction. -/
theorem Inv.touch (h : Inv careful s) (hc : s.user c = some a) (hcall : s'.call = update s.call a x)
    (huser : s'.user = s.user) (hother : ∀ c', c' ≠ c → Same s s' c') (hresting : Resting s' c)
    (habort : AbortOk s' c) (hx : CallOk careful s' x) (huses : ∀ c ∈ x.uses, s.user c = some a) :
    Inv careful s' := by
  apply h.act hcall
  · intro c' b _ hb
    rw [huser]
    exact hb
  · intro c' b hb hc'
    apply hother
    rintro rfl
    rw [hc] at hc'
    exact hb (Option.some.inj hc').symm
  · intro c'
    by_cases hc' : c' = c
    · subst hc'
      exact ⟨hresting, habort⟩
    · exact h.same (hother c' hc')
  · exact hx
  · intro c' hc'
    rw [huser]
    exact huses c' hc'

/-- A function is called on transactions that nobody else uses. -/
theorem Inv.begin [DecidableEq C] (h : Inv careful s) {cs : List C}
    (hfree : ∀ c ∈ cs, s.user c = none ∨ s.user c = some a)
    (hcall : s'.call = update s.call a x)
    (huser : s'.user = fun c => if c ∈ cs then some a else s.user c)
    (hother : ∀ c, c ∉ cs → Same s s' c) (hcs : ∀ c ∈ cs, Resting s' c ∧ AbortOk s' c)
    (hx : CallOk careful s' x) (huses : x.uses = cs) : Inv careful s' := by
  have hmem : ∀ c b, b ≠ a → s.user c = some b → c ∉ cs := by
    intro c b hb hc hmem
    rcases hfree c hmem with hnone | hsome
    · rw [hc] at hnone
      cases hnone
    · rw [hc] at hsome
      exact hb (Option.some.inj hsome)
  apply h.act hcall
  · intro c b hb hc
    simp only [huser, if_neg (hmem c b hb hc)]
    exact hc
  · intro c b hb hc
    exact hother c (hmem c b hb hc)
  · intro c
    by_cases hc : c ∈ cs
    · exact hcs c hc
    · exact h.same (hother c hc)
  · exact hx
  · intro c hc
    rw [huses] at hc
    simp only [huser, if_pos hc]

omit [DecidableEq A] in
/-- A step of the kernel on one transaction. -/
theorem Inv.kernel (h : Inv careful s) (hcall : s'.call = s.call) (huser : s'.user = s.user)
    (hkeeps : Keeps s s' c) (hother : ∀ c', c' ≠ c → Same s s' c') (habort : AbortOk s' c) :
    Inv careful s' := by
  have hall : ∀ c', Keeps s s' c' ∧ AbortOk s' c' := by
    intro c'
    by_cases hc' : c' = c
    · subst hc'
      exact ⟨hkeeps, habort⟩
    · exact ⟨(hother c' hc').keeps, (h.same (hother c' hc')).2⟩
  refine ⟨fun c' => (hall c').1.resting (h.resting c'), fun c' => (hall c').2, fun b => ?_, ?_⟩
  · rw [hcall]
    exact (h.call b).frame fun c' _ => (hall c').1
  · rw [hcall, huser]
    exact h.user

end Preserved

/-! ## Steps -/

section Step

variable [DecidableEq A] [DecidableEq C] {s s' : State A C G O} {a : A} {c : C}

variable {cs : List C} {x : Call C G O}

/-- A call starts if nobody else uses its transactions. -/
theorem start_eq_some (h : s.start a cs x = some s') :
    (∀ c ∈ cs, s.user c = none ∨ s.user c = some a) ∧
      s' = { s.setCall a x with user := fun c => if c ∈ cs then some a else s.user c } := by
  rw [State.start] at h
  split at h
  case isTrue hfree =>
    cases h
    exact ⟨hfree.2, rfl⟩
  case isFalse => cases h

section

variable (h : Inv careful s)
include h

/-- A call starts. -/
theorem Inv.start (hs : s.start a cs x = some s') (hx : CallOk careful s x) (huses : x.uses = cs) :
    Inv careful s' := by
  obtain ⟨hfree, rfl⟩ := start_eq_some hs
  have hsame : ∀ c, Same s
      { s.setCall a x with user := fun c => if c ∈ cs then some a else s.user c } c :=
    fun _ => ⟨rfl, rfl, rfl, rfl⟩
  apply h.begin hfree rfl rfl
  · intro c _
    exact hsame c
  · intro c _
    exact h.same (hsame c)
  · exact hx.frame fun c _ => (hsame c).keeps
  · exact huses

variable {options : Options G O}

/-- `Open` is called. -/
theorem Inv.callOpen {s₁ : State A C G O} (hcareful : careful → Careful s (.callOpen a c options))
    (hs : s.start a [c] (if options.syncGroupOwner.isSome then .openOwner c options
      else .openCheck c options) = some s₁) :
    Inv careful (s₁.setOpening c .opening) := by
  obtain ⟨hfree, rfl⟩ := start_eq_some hs
  apply h.begin hfree rfl rfl
  · intro c' hc'
    have hne : c' ≠ c := by simpa using hc'
    exact ⟨rfl, update_of_ne hne .., rfl, rfl⟩
  · intro c' hc'
    obtain rfl : c' = c := by simpa using hc'
    refine ⟨?_, (h.abort c').congr rfl rfl rfl⟩
    rw [Resting, show (State.setOpening _ c' .opening).opening c' = .opening from
      update_self ..]
    trivial
  · have hopening : update s.opening c .opening c = .opening := update_self ..
    split
    · exact ⟨hopening, fun hq => ⟨(hcareful hq).1, (hcareful hq).2.2⟩⟩
    · rename_i hnone
      have hnone' : options.syncGroupOwner = none := by simpa using hnone
      refine ⟨hopening, fun hq => ?_⟩
      obtain ⟨hcommitted, howner, hallow⟩ := hcareful hq
      exact ⟨hcommitted, (howner hnone').trans hnone'.symm, hallow⟩
  · split <;> rfl

/-- `Open` takes the ownership of the group. -/
theorem Inv.takeOwner (hcall : s.call a = .openOwner c options) :
    let s' := (s.setTxn c { s.txn c with syncGroupOwner := options.syncGroupOwner }).setCall a
      (.openCheck c options)
    Inv careful s' := by
  intro s'
  obtain ⟨⟨hopening, hok⟩, huser⟩ := h.of_call hcall
  have htxn : s'.txn c = { s.txn c with syncGroupOwner := options.syncGroupOwner } := update_self ..
  have hopening' : s'.opening c = .opening := hopening
  refine h.touch (huser c List.mem_cons_self) rfl rfl
    (fun c' hc' => ⟨update_of_ne hc' .., rfl, rfl, rfl⟩) ?_ ?_ ?_ huser
  · simp only [Resting, hopening']
  · exact (h.abort c).congr (by rw [htxn]) rfl rfl
  · rw [CallOk, htxn]
    exact ⟨hopening', fun hq => ⟨(hok hq).1, rfl, (hok hq).2⟩⟩

omit [DecidableEq C] in
/-- The checks of `Open`: past them, the transaction is committed. -/
theorem Inv.checkOpen (hcall : s.call a = .openCheck c options) :
    Inv careful (s.check a ((s.txn c).syncGroupOwner.isSome = options.syncGroupOwner.isSome ∧
      (s.txn c).state.IsCommitted) (s.setCall a (.openStore c options))) := by
  obtain ⟨⟨hopening, hok⟩, huser⟩ := h.of_call hcall
  exact h.check (fun hq => ⟨by rw [(hok hq).2.1], (hok hq).1⟩)
    fun hp => h.setCall ⟨hp.2, hopening, fun hq => (hok hq).2⟩ huser

/-- `Open` stores the fields and the state. -/
theorem Inv.storeFields (hcall : s.call a = .openStore c options) : let txn := { s.txn c with
      fields := options.fields
      allowTxnTargetOnCpu := options.allowTxnTargetOnCpu }
    Inv careful ((s.setTxn c txn).setCall a (.openReady c)) := by
  intro txn
  obtain ⟨⟨-, hopening, hok⟩, huser⟩ := h.of_call hcall
  set s' := (s.setTxn c txn).setCall a (.openReady c)
  have htxn : s'.txn c = txn := update_self ..
  refine h.touch (huser c List.mem_cons_self) rfl rfl
    (fun c' hc' => ⟨update_of_ne hc' .., rfl, rfl, rfl⟩) ?_ ?_ ?_ huser
  · simp only [Resting, show s'.opening c = .opening from hopening]
  · exact (h.abort c).congr (by rw [htxn]) rfl rfl
  · rw [CallOk, htxn]
    exact fun hq => (hok hq).1 ▸ (hok hq).2

/-- A new opening, which nobody has claimed or aborted. -/
theorem Inv.storeReady (hcall : s.call a = .openReady c) {x : Opening O}
    (hx : x = match (s.txn c).syncGroupOwner with | none => .plain | some owner => .group owner) :
    let s' := { ((s.setTxn c { s.txn c with state := .ready }).setCall a
        (.returned (.opened c))).setOpening c x with
      claimed := update s.claimed c false
      firstAbort := update s.firstAbort c none }
    Inv careful (s.check a
      ((s.txn c).allowTxnTargetOnCpu = true → (s.txn c).syncGroupOwner.isSome = true) s') := by
  intro s'
  obtain ⟨hok, huser⟩ := h.of_call hcall
  refine h.check (fun hq => hok hq) fun _ => ?_
  have htxn : s'.txn c = { s.txn c with state := .ready } := update_self ..
  have hopening : s'.opening c = x := update_self ..
  have hclaimed : s'.claimed c = false := update_self ..
  have hfirst : s'.firstAbort c = none := update_self ..
  refine h.touch (huser c List.mem_cons_self) rfl rfl
    (fun c' hc' => ⟨update_of_ne hc' .., update_of_ne hc' .., update_of_ne hc' ..,
      update_of_ne hc' ..⟩) ?_ ?_ trivial huser
  · rw [Resting, hopening, htxn, hx]
    cases howner : (s.txn c).syncGroupOwner <;> rfl
  · constructor <;> grind [TxnState.IsCommitted]

/-- An `Abort` that does not find the transaction ready. -/
theorem Inv.abortFailed (hcall : s.call a = x) (hx : x.uses = [c])
    (hready : (s.txn c).state ≠ .ready) :
    let s' := (s.aborts c false).setCall a (.returned (.aborted c false))
    Inv careful s' := by
  intro s'
  have huser := h.user a
  rw [hcall, hx] at huser
  have hfirst : s'.firstAbort c = some ((s.firstAbort c).getD false) := update_self ..
  have hc := h.abort c
  refine h.touch (huser c List.mem_cons_self) rfl rfl
    (fun c' hc' => ⟨rfl, rfl, rfl, update_of_ne hc' ..⟩) (h.resting c) ?_ nofun huser
  cases hold : s.firstAbort c with
  | some b =>
    refine hc.congr rfl rfl ?_
    rw [hfirst, hold]
    rfl
  | none =>
    rw [hold] at hfirst
    -- the first one: the kernel was faster
    have hfaster : s.claimed c = true := by
      cases hstate : (s.txn c).state with
      | ready => exact absurd hstate hready
      | claimed cpu => exact hc.claimed cpu hstate
      | committed code => grind [hc.committed, TxnState.IsCommitted]
    have hclaimed : s'.claimed c = true := hfaster
    refine ⟨hc.ready, hc.claimed, ?_, ?_, fun _ => .inl hclaimed⟩ <;> grind

/-- `Abort` wins the exchange. -/
theorem Inv.exchange (hcall : s.call a = .abortExchange c) (hready : (s.txn c).state = .ready) :
    let s' := ((s.setTxn c { s.txn c with state := .committed .aborted }).aborts c true).setCall a
      (.abortRelease c)
    Inv careful s' := by
  intro s'
  have huser := (h.of_call hcall).2
  have hnone := (h.abort c).firstAbort_eq_none hready
  have htxn : s'.txn c = { s.txn c with state := .committed .aborted } := update_self ..
  have hclaimed : s'.claimed c = false := (h.abort c).ready hready
  have hfirst : s'.firstAbort c = some true := by
    refine (update_self ..).trans ?_
    show some ((s.firstAbort c).getD true) = some true
    rw [hnone]
    rfl
  refine h.touch (huser c List.mem_cons_self) rfl rfl
    (fun c' hc' => ⟨update_of_ne hc' .., rfl, rfl, update_of_ne hc' ..⟩) ?_ ?_ ?_ huser
  · have hresting := h.resting c
    rw [Resting] at hresting
    rw [Resting, htxn, show s'.opening c = s.opening c from rfl]
    split at hresting
    case h_1 => exact ⟨trivial, hresting.2⟩
    all_goals exact hresting
  · constructor <;> grind
  · rw [CallOk, htxn]
    trivial

/-- The ownership is given up, and the opening is over. -/
theorem Inv.release (hc : s.user c = some a) (hcommitted : (s.txn c).state.IsCommitted)
    (huses : ∀ c ∈ x.uses, s.user c = some a) :
    let s' := ((s.setTxn c { s.txn c with syncGroupOwner := none }).setOpening c
      .closed).setCall a x
    CallOk careful s' x → Inv careful s' := by
  intro s' hx
  have htxn : s'.txn c = { s.txn c with syncGroupOwner := none } := update_self ..
  refine h.touch hc rfl rfl
    (fun c' hc' => ⟨update_of_ne hc' .., update_of_ne hc' .., rfl, rfl⟩) ?_ ?_ hx huses
  · rw [Resting, htxn, show s'.opening c = .closed from update_self ..]
    exact ⟨hcommitted, rfl⟩
  · exact (h.abort c).congr (by rw [htxn]) rfl rfl

variable {rest : List C}

/-- A `CompleteRunRequest` that finds the transaction committed. -/
theorem Inv.complete {success success' : Bool}
    (hcall : s.call a = .committing cs (c :: rest) success)
    (hx : x = .committing cs rest success') (hcommitted : (s.txn c).state.IsCommitted) :
    Inv careful ((s.setOpening c (s.opening c).commit).setCall a x) := by
  obtain ⟨hok, huser⟩ := h.of_call hcall
  subst hx
  set s' := (s.setOpening c (s.opening c).commit).setCall a (.committing cs rest success')
  refine h.touch (huser c (hok c List.mem_cons_self)) rfl rfl
    (fun c' hc' => ⟨rfl, update_of_ne hc' .., rfl, rfl⟩) ?_ ((h.abort c).congr rfl rfl rfl)
    (fun c' hc' => hok c' (List.mem_cons_of_mem _ hc')) huser
  have hresting := h.resting c
  rw [Resting] at hresting
  rw [Resting, show s'.opening c = (s.opening c).commit from update_self ..,
    show s'.txn = s.txn from rfl]
  cases hopening : s.opening c with
  | plain =>
    rw [hopening] at hresting
    exact ⟨hcommitted, hresting⟩
  | _ =>
    rw [hopening] at hresting
    exact hresting

/-- `SubmitSyncRequests` has committed the whole group. -/
theorem Inv.syncSucceeded (hcall : s.call a = .syncSubmit cs)
    (hcs : ∀ c ∈ cs, ¬ (s.txn c).state.IsCommitted ∨ (s.txn c).state = .committed .complete) :
    let s' := (commitAll s cs).setCall a (.returned (.synced cs true))
    Inv careful s' := by
  intro s'
  obtain ⟨hok, huser⟩ := h.of_call hcall
  have htxn : ∀ c ∈ cs, s'.txn c =
      { s.txn c with state := .committed .complete, syncGroupOwner := none } :=
    fun _ hc => if_pos hc
  have hclosed : ∀ c ∈ cs, s'.opening c = .closed := fun _ hc => if_pos hc
  have hclaimed : ∀ c ∈ cs, s'.claimed c = true := fun _ hc => if_pos hc
  have hfirst : s'.firstAbort = s.firstAbort := rfl
  have hsame : ∀ c, c ∉ cs → Same s s' c :=
    fun _ hc => ⟨if_neg hc, if_neg hc, if_neg hc, rfl⟩
  -- a transaction that was aborted would have made the group fail
  have hnotAborted : ∀ c ∈ cs, s.firstAbort c ≠ some true := by
    intro c hc hb
    have hstate := (h.abort c).aborted hb
    have hcs' := hcs c hc
    rw [hstate] at hcs'
    rcases hcs' with hcs' | hcs'
    · exact hcs' trivial
    · cases hcs'
  refine h.act (a := a) rfl (fun c b _ hb => hb) ?_ ?_ ?_ huser
  · intro c b hb hc
    apply hsame
    intro hmem
    exact hb (Option.some.inj (hc.symm.trans (huser c hmem)))
  · intro c
    by_cases hc : c ∈ cs
    · refine ⟨?_, by constructor <;> grind⟩
      rw [Resting, hclosed c hc, htxn c hc]
      exact ⟨trivial, rfl⟩
    · exact h.same (hsame c hc)
  · exact ⟨hclosed, fun _ c hc => by rw [htxn c hc], nofun⟩

omit [DecidableEq C] in
/-- `SubmitSyncRequests` has seen a failure. -/
theorem Inv.syncFailed (hcall : s.call a = .syncSubmit cs)
    (hfailed : ∃ c ∈ cs, (s.txn c).state.Failed) :
    Inv careful (s.setCall a (.syncComplete cs cs false)) := by
  obtain ⟨hok, huser⟩ := h.of_call hcall
  apply h.setCall
  · exact ⟨fun _ => id, hok, fun _ hc => .inl hc, hfailed, .inr hfailed⟩
  · exact huser

variable {failureDetected : Bool}

omit [DecidableEq C] in
/-- The loop looks at one more transaction. -/
theorem Inv.completeSync {failureDetected' : Bool}
    (hcall : s.call a = .syncComplete cs (c :: rest) failureDetected)
    (hcommitted : (s.txn c).state.IsCommitted)
    (hfound : failureDetected = true ∨ (s.txn c).state.Failed → failureDetected' = true) :
    Inv careful (s.setCall a (.syncComplete cs rest failureDetected')) := by
  obtain ⟨⟨hsub, hgroup, hdone, hfailed, hsome⟩, huser⟩ := h.of_call hcall
  refine h.setCall ⟨fun c' hc' => hsub c' (List.mem_cons_of_mem _ hc'), hgroup, ?_, hfailed, ?_⟩
    huser
  · grind
  · grind

omit [DecidableEq C] in
/-- The loop has found the transaction that made `SyncCommit` fail. -/
theorem Inv.completedSync (hcall : s.call a = .syncComplete cs [] failureDetected) :
    Inv careful (s.check a (failureDetected = true) (s.setCall a (.syncRelease cs cs))) := by
  obtain ⟨⟨-, hgroup, hdone, hfailed, hsome⟩, huser⟩ := h.of_call hcall
  have hdetected : failureDetected = true := by
    rcases hsome with hdetected | ⟨c, hc, -⟩
    · exact hdetected
    · cases hc
  refine h.check (fun _ => hdetected) fun _ => h.setCall ?_ ?_
  · refine ⟨fun _ => id, hgroup, fun c hc => ?_, hfailed, fun c hc => .inl hc⟩
    rcases hdone c hc with hmem | hcommitted
    · cases hmem
    · exact hcommitted
  · exact huser

end

omit [DecidableEq A] [DecidableEq C] in
/-- A transaction of a group has an owner. -/
theorem Resting.isSome (h : Resting s c) (hgroup : (s.opening c).isGroup = true) :
    (s.txn c).syncGroupOwner.isSome = true := by
  rw [Resting] at h
  cases hopening : s.opening c with
  | group owner =>
    rw [hopening] at h
    rw [h]
    rfl
  | _ =>
    rw [hopening] at hgroup
    cases hgroup

/-- The group is released, one transaction after the other. -/
theorem Inv.releaseSync (h : Inv careful s) {rest : List C}
    (hcall : s.call a = .syncRelease cs (c :: rest)) :
    Inv careful (s.check a ((s.txn c).state.IsCommitted ∧ (s.txn c).syncGroupOwner.isSome = true)
      (((s.setTxn c { s.txn c with syncGroupOwner := none }).setOpening c .closed).setCall a
        (.syncRelease cs rest))) := by
  obtain ⟨⟨hsub, hgroup, hcommitted, ⟨c₀, hc₀, hfailed⟩, hclosed⟩, huser⟩ := h.of_call hcall
  have hc : c ∈ cs := hsub c List.mem_cons_self
  refine h.check (fun hq => ⟨hcommitted c hc,
    (h.resting c).isSome ((hgroup hq).2 c List.mem_cons_self)⟩) fun _ => ?_
  apply h.release (x := .syncRelease cs rest) (huser c hc) (hcommitted c hc) huser
  set s' := ((s.setTxn c { s.txn c with syncGroupOwner := none }).setOpening c
    .closed).setCall a (.syncRelease cs rest)
  have hstate : ∀ c', (s'.txn c').state = (s.txn c').state := by
    intro c'
    show (update s.txn c _ c').state = _
    grind
  have hself : s'.opening c = .closed := update_self ..
  have hother : ∀ c', c' ≠ c → s'.opening c' = s.opening c' := fun c' hc' => update_of_ne hc' ..
  refine ⟨fun c' hc' => hsub c' (List.mem_cons_of_mem _ hc'), fun hq => ?_, ?_,
    ⟨c₀, hc₀, by rw [hstate]; exact hfailed⟩, ?_⟩
  · obtain ⟨hnotMem, hnodup⟩ := List.nodup_cons.mp (hgroup hq).1
    refine ⟨hnodup, fun c' hc' => ?_⟩
    rw [hother c' fun heq => hnotMem (heq ▸ hc')]
    exact (hgroup hq).2 c' (List.mem_cons_of_mem _ hc')
  · intro c' hc'
    rw [hstate]
    exact hcommitted c' hc'
  · grind

omit [DecidableEq C] in
theorem Inv.releasedSync (h : Inv careful s) (hcall : s.call a = .syncRelease cs []) :
    Inv careful (s.setCall a (.returned (.synced cs false))) := by
  obtain ⟨⟨-, -, -, hfailed, hclosed⟩, huser⟩ := h.of_call hcall
  apply h.setCall
  · refine ⟨fun c hc => ?_, fun hfalse => ?_, fun _ => hfailed⟩
    · rcases hclosed c hc with hmem | hc'
      · cases hmem
      · exact hc'
    · cases hfalse
  · exact huser

/-- A transaction is left to whoever comes next. -/
theorem Inv.handOver (h : Inv careful s) (hc : s.user c = some a) :
    Inv careful { s.setCall a .idle with user := update s.user c none } := by
  have hsame : ∀ c', Same s { s.setCall a .idle with user := update s.user c none } c' :=
    fun _ => ⟨rfl, rfl, rfl, rfl⟩
  refine h.act rfl ?_ (fun c' _ _ _ => hsame c') (fun c' => h.same (hsame c'))
    trivial (by simp [Call.uses])
  intro c' b hb hc'
  refine (update_of_ne ?_ ..).trans hc'
  grind

variable {cpu : C}

omit [DecidableEq A] in
/-- A claimed transaction cannot be aborted any more. -/
theorem Inv.claim (h : Inv careful s) (hready : (s.txn c).state = .ready) :
    let s' := { s.setTxn c { s.txn c with state := .claimed cpu } with
      claimed := update s.claimed c true }
    Inv careful s' := by
  intro s'
  have htxn : s'.txn c = { s.txn c with state := .claimed cpu } := update_self ..
  have hclaimed : s'.claimed c = true := update_self ..
  have hfirst : s'.firstAbort c = none := (h.abort c).firstAbort_eq_none hready
  refine h.kernel (c := c) rfl rfl ⟨rfl, by rw [htxn], by rw [htxn], by grind⟩
    (fun c' hc' => ⟨update_of_ne hc' .., rfl, update_of_ne hc' .., rfl⟩) ?_
  constructor <;> grind

omit [DecidableEq A] in
/-- The kernel stores the result of a transaction that it has claimed. -/
theorem Inv.commit (h : Inv careful s) {code : Code} (hclaim : (s.txn c).state = .claimed cpu) :
    let s' := s.setTxn c { s.txn c with state := .committed code }
    Inv careful s' := by
  intro s'
  have htxn : s'.txn c = { s.txn c with state := .committed code } := update_self ..
  have hc := h.abort c
  have hclaimed : s'.claimed c = true := hc.claimed cpu hclaim
  refine h.kernel (c := c) rfl rfl ⟨rfl, by rw [htxn], by rw [htxn], by grind⟩
    (fun c' hc' => ⟨update_of_ne hc' .., rfl, rfl, rfl⟩)
    ⟨by grind, by grind, hc.first, fun hb => ?_, fun _ => .inl hclaimed⟩
  have hstate := hc.aborted hb
  rw [hclaim] at hstate
  cases hstate

variable [DecidableEq O] {online : Bool}

variable {action : Action A C G O}

/-- Every step preserves the invariant. -/
theorem Inv.step (h : Inv careful s) (hcareful : careful → Careful s action)
    (hs : step online s action = some s') :
    Inv careful s' := by
  cases action with rw [Transactions.step] at hs
  | callOpen a c options =>
    obtain ⟨s₁, hs₁, rfl⟩ := Option.map_eq_some_iff.mp hs
    exact h.callOpen hcareful hs₁
  | takeOwner a spurious =>
    split at hs
    case h_2 => cases hs
    case h_1 c options hcall =>
      split at hs
      · -- nobody owns the group: the exchange may fail spuriously
        split at hs <;> cases hs
        · exact h
        · exact h.takeOwner hcall
      · -- the caller owns it already, or waits for the owner
        rename_i owner howner
        split at hs <;> cases hs
        · rename_i hsame
          obtain ⟨hok, huser⟩ := h.of_call hcall
          exact h.setCall ⟨hok.1, fun hq => ⟨(hok.2 hq).1, howner.trans hsame, (hok.2 hq).2⟩⟩ huser
        · exact h
  | checkOpen a =>
    split at hs
    case h_2 => cases hs
    case h_1 c options hcall =>
      cases hs
      exact h.checkOpen hcall
  | storeFields a =>
    split at hs
    case h_2 => cases hs
    case h_1 c options hcall =>
      cases hs
      exact h.storeFields hcall
  | storeReady a =>
    split at hs
    case h_2 => cases hs
    case h_1 c hcall =>
      cases hs
      exact h.storeReady hcall rfl
  | callAbort a c =>
    -- `Abort`: a load, an exchange, and the release of the group
    exact h.start hs trivial rfl
  | load a =>
    split at hs
    case h_2 => cases hs
    case h_1 c hcall =>
      split at hs <;> cases hs
      · -- ready, so the exchange comes next
        have huser := (h.of_call hcall).2
        exact h.setCall trivial huser
      · -- not ready, so there is nothing to abort
        rename_i hready
        exact h.abortFailed hcall rfl hready
  | exchange a =>
    split at hs
    case h_2 => cases hs
    case h_1 c hcall =>
      split at hs <;> cases hs
      · -- still ready
        rename_i hready
        exact h.exchange hcall hready
      · -- the kernel was faster
        rename_i hready
        exact h.abortFailed hcall rfl hready
  | releaseAborted a =>
    split at hs
    case h_2 => cases hs
    case h_1 c hcall =>
      cases hs
      obtain ⟨hok, huser⟩ := h.of_call hcall
      apply h.release (x := .returned (.aborted c true)) (huser c List.mem_cons_self) hok huser
      intro _
      exact update_self ..
  | callCommit a cs =>
    -- `CommitRunRequests` waits for each transaction in turn
    exact h.start hs (fun _ => id) rfl
  | complete a =>
    split at hs
    case h_3 => cases hs
    case h_1 cs success hcall =>
      cases hs
      have huser := (h.of_call hcall).2
      exact h.setCall trivial huser
    case h_2 cs c rest success hcall =>
      split at hs
      case h_2 => cases hs
      case h_1 code hcode =>
        have hcommitted : (s.txn c).state.IsCommitted := by
          rw [hcode]
          trivial
        split at hs
        · -- it has succeeded
          cases hs
          exact h.complete hcall rfl hcommitted
        · split at hs <;> cases hs
          · exact h.complete hcall rfl hcommitted
          · exact h.setCall trivial (by simp [Call.uses])
  | callSync a cs =>
    -- `CommitSyncRequests`
    exact h.start hs hcareful rfl
  | syncCommit a success =>
    split at hs
    case h_2 => cases hs
    case h_1 cs hcall =>
      split at hs
      · -- the kernel says that all have succeeded
        split at hs <;> cases hs
        rename_i hcs
        exact h.syncSucceeded hcall hcs
      · -- the kernel says that one has failed
        split at hs <;> cases hs
        rename_i hfailed
        exact h.syncFailed hcall hfailed
  | completeSync a =>
    split at hs
    case h_3 => cases hs
    case h_1 cs failureDetected hcall =>
      cases hs
      exact h.completedSync hcall
    case h_2 cs c rest failureDetected hcall =>
      split at hs
      case h_2 => cases hs
      case h_1 code hcode =>
        have hcommitted : (s.txn c).state.IsCommitted := by
          rw [hcode]
          trivial
        split at hs
        · -- this one has succeeded
          rename_i hcomplete
          cases hs
          apply h.completeSync hcall hcommitted
          rintro (hdetected | hfailed)
          · exact hdetected
          · exact absurd (hcode.trans (congrArg _ hcomplete)) hfailed.2
        · split at hs <;> cases hs
          · exact h.completeSync hcall hcommitted fun _ => rfl
          · exact h.setCall trivial (by simp [Call.uses])
  | releaseSync a =>
    split at hs
    case h_3 => cases hs
    case h_1 cs hcall =>
      cases hs
      exact h.releasedSync hcall
    case h_2 cs c rest hcall =>
      cases hs
      exact h.releaseSync hcall
  | handOver a c =>
    split at hs <;> cases hs
    rename_i hc
    exact h.handOver hc.2.1
  | claim c cpu =>
    -- the kernel's side
    split at hs <;> cases hs
    rename_i hready
    exact h.claim hready
  | commit c code =>
    split at hs <;> cases hs
    rename_i cpu hclaim
    exact h.commit hclaim

/-- Only the stores of `Open` change the fields of a transaction. -/
theorem fields_step (hs : step online s action = some s')
    (hc : (s'.txn c).fields ≠ (s.txn c).fields) :
    ∃ a options, s.call a = .openStore c options := by
  have htxn : ∀ (c' : C) (x : Txn C G O), (c = c' → x.fields = (s.txn c').fields) →
      (update s.txn c' x c).fields = (s.txn c).fields := by
    intro c' x hx
    by_cases heq : c = c'
    · subst heq
      rw [update_self, hx rfl]
    · rw [update_of_ne heq]
  cases action with
  | storeFields a =>
    rw [step] at hs
    split at hs
    case h_2 => cases hs
    case h_1 c' options hcall =>
      cases hs
      by_cases heq : c = c'
      · subst heq
        exact ⟨a, options, hcall⟩
      · exact absurd (htxn c' _ fun heq' => absurd heq' heq) hc
  | callOpen a c' options =>
    obtain ⟨s₁, hs₁, rfl⟩ := Option.map_eq_some_iff.mp hs
    obtain ⟨-, rfl⟩ := start_eq_some hs₁
    exact absurd rfl hc
  | callAbort a c' | callCommit a cs | callSync a cs =>
    obtain ⟨-, rfl⟩ := start_eq_some hs
    exact absurd rfl hc
  | syncCommit a success =>
    rw [step] at hs
    split at hs
    case h_2 => cases hs
    case h_1 cs hcall =>
      split at hs <;> split at hs <;> cases hs
      · refine absurd ?_ hc
        show (if c ∈ cs then _ else s.txn c : Txn C G O).fields = _
        split <;> rfl
      · exact absurd rfl hc
  | _ =>
    -- the other operations store a state or an owner, or nothing
    refine absurd ?_ hc
    simp only [step, State.check] at hs
    repeat' split at hs
    all_goals cases hs
    all_goals first | rfl | exact htxn _ _ fun _ => rfl

/-! ## Protocol -/

/-- In every run, the fields of a transaction are stored only while it is committed, and the first
`Abort` after an `Open` returns true exactly if the kernel never claims that opening. A transaction
that was aborted, or committed with its group, is committed and nobody owns it, and the commit of a
group returns true exactly if every transaction of the group is complete. No `CHECK` fails if the
callers are careful. -/
theorem transaction_protocol {s₀ : State A C G O} (h₀ : Init s₀) (h : Steps (step online) s₀ s) :
    (∀ action s', step online s action = some s' → ∀ c,
      (s'.txn c).fields ≠ (s.txn c).fields → (s.txn c).state.IsCommitted) ∧
    (∀ c b, s.firstAbort c = some b → (b = true ↔ s.claimed c = false)) ∧
    (∀ a c, s.call a = .returned (.aborted c true) →
      (s.txn c).state.IsCommitted ∧ (s.txn c).syncGroupOwner = none) ∧
    (∀ a cs success, s.call a = .returned (.synced cs success) →
      (success = true ↔ ∀ c ∈ cs, (s.txn c).state = .committed .complete) ∧
      ∀ c ∈ cs, (s.txn c).state.IsCommitted ∧ (s.txn c).syncGroupOwner = none) ∧
    (StepsWhen Careful (step online) s₀ s → ∀ a, s.call a ≠ .crashed) := by
  have hinv : Inv False s := h.invariant (fun _ _ _ hi hs => hi.step False.elim hs) h₀.inv
  have hclosed : ∀ c, s.opening c = .closed →
      (s.txn c).state.IsCommitted ∧ (s.txn c).syncGroupOwner = none := by
    intro c hc
    have hresting := hinv.resting c
    rw [Resting, hc] at hresting
    exact hresting
  refine ⟨?_, fun c => (hinv.abort c).first, ?_, ?_, ?_⟩
  · intro action s' hs c hc
    obtain ⟨a, options, hcall⟩ := fields_step hs hc
    exact (hinv.of_call hcall).1.1
  · intro a c hcall
    exact hclosed c ((hinv.of_call hcall).1 rfl)
  · intro a cs success hcall
    obtain ⟨hover, hall, hsome⟩ := (hinv.of_call hcall).1
    refine ⟨⟨hall, fun hcomplete => ?_⟩, fun c hc => hclosed c (hover c hc)⟩
    cases success with
    | true => rfl
    | false =>
      obtain ⟨c, hc, hfailed⟩ := hsome rfl
      exact absurd (hcomplete c hc) hfailed.2
  · intro hcareful a hcall
    have hinv : Inv True s :=
      hcareful.invariant (fun _ _ _ hi ha hs => hi.step (fun _ => ha) hs) h₀.inv
    exact (hinv.of_call hcall).1 trivial

end Step

/-! ## Runs -/

/-- The state before the first call. -/
def initial (A C G O : Type*) (fields : Fields G) : State A C G O where
  txn _ := ⟨.committed .complete, none, fields, false⟩
  call _ := .idle
  user _ := none
  opening _ := .closed
  claimed _ := true
  firstAbort _ := none

theorem init_initial (fields : Fields G) : Init (initial A C G O fields) where
  state _ := trivial
  owner _ := rfl
  call _ := rfl
  opening _ := rfl
  claimed _ := rfl
  firstAbort _ := rfl

/-- Options for thread 1, with an owner or without. -/
def options (owner : Option ℕ) : Options ℕ ℕ := ⟨⟨1, 0, 0, 0, 0⟩, owner, false⟩

/-- An agent opens the transaction of a cpu for a sync group. -/
def openOwned (c : Bool) : List (Action Unit Bool ℕ ℕ) :=
  [.callOpen () c (options (some 7)), .takeOwner () false, .checkOpen (), .storeFields (),
    .storeReady ()]

instance (s : State Unit Bool ℕ ℕ) (action : Action Unit Bool ℕ ℕ) :
    Decidable (Careful s action) := by
  unfold Careful
  split <;> infer_instance

/-- A group of two cpus: one transaction finds its thread stale, and poisons the other. -/
def poisoned : List (Action Unit Bool ℕ ℕ) :=
  openOwned true ++ openOwned false ++
    [.callSync () [true, false], .claim true true, .commit true .targetStale, .claim false false,
      .commit false .poisoned, .syncCommit () false, .completeSync (), .completeSync (),
      .completeSync (), .releaseSync (), .releaseSync (), .releaseSync ()]

/-- The state at the end of a run. -/
def after (actions : List (Action Unit Bool ℕ ℕ)) : State Unit Bool ℕ ℕ :=
  (exec (step true) (initial Unit Bool ℕ ℕ ⟨0, 0, 0, 0, 0⟩) actions).getD
    (initial Unit Bool ℕ ℕ ⟨0, 0, 0, 0, 0⟩)

/-- The group that was poisoned is released. -/
theorem transaction_protocol_poisoned :
    ∃ s, StepsWhen Careful (step true) (initial Unit Bool ℕ ℕ ⟨0, 0, 0, 0, 0⟩) s ∧
      s.call () = .returned (.synced [true, false] false) ∧
      (s.txn true).syncGroupOwner = none ∧ (s.txn false).syncGroupOwner = none := by
  have hrun : StepsWhen Careful (step true) (initial Unit Bool ℕ ℕ ⟨0, 0, 0, 0, 0⟩)
      (after poisoned) := .of_execWhen (fun _ _ h => of_decide_eq_true h) poisoned rfl
  have hsteps : Steps (step true) (initial Unit Bool ℕ ℕ ⟨0, 0, 0, 0, 0⟩) (after poisoned) :=
    .of_exec (show exec _ _ poisoned = _ from rfl)
  have hgroup := ((transaction_protocol (init_initial _) hsteps).2.2.2.1 () [true, false] false
    rfl).2
  exact ⟨_, hrun, rfl, (hgroup true (by simp)).2, (hgroup false (by simp)).2⟩

/-- Transactions are opened only after they were committed. -/
def Reopens (s : State A C G O) : Action A C G O → Prop
  | .callOpen _ c _ => (s.txn c).state.IsCommitted
  | _ => True

instance (s : State A C G O) (action : Action A C G O) : Decidable (Reopens s action) := by
  unfold Reopens
  split <;> infer_instance

/-- A transaction with an owner is committed by `Commit`, and opened again without an owner. -/
def reopened : List (Action Unit Bool ℕ ℕ) :=
  openOwned true ++
    [.callCommit () [true], .claim true true, .commit true .complete, .complete (), .complete (),
      .callOpen () true (options none), .checkOpen ()]

/-- A transaction without an owner is opened so that its thread may be on a cpu. -/
def openedOnCpu : List (Action Unit Bool ℕ ℕ) :=
  [.callOpen () true { options none with allowTxnTargetOnCpu := true }, .checkOpen (),
    .storeFields (), .storeReady ()]

/-- A transaction without an owner fails, and the commit of a group is asked for. -/
def syncedPlain : List (Action Unit Bool ℕ ℕ) :=
  [.callOpen () true (options none), .checkOpen (), .storeFields (), .storeReady (),
    .callSync () [true], .claim true true, .commit true .targetStale, .syncCommit () false,
    .completeSync (), .completeSync (), .releaseSync ()]

/-- The run fails a `CHECK` although transactions are opened only after they were committed. -/
def FailsCheck (run : List (Action Unit Bool ℕ ℕ)) : Prop :=
  ∃ s, StepsWhen Reopens (step true) (initial Unit Bool ℕ ℕ ⟨0, 0, 0, 0, 0⟩) s ∧
    exec (step true) (initial Unit Bool ℕ ℕ ⟨0, 0, 0, 0, 0⟩) run = some s ∧ s.call () = .crashed

/-- The `CHECK` is the one of the ownership in the first run, the one of
`allow_txn_target_on_cpu` in the second, and the one of `ReleaseSyncRequests` in the third. -/
theorem owned_reopened :
    FailsCheck reopened ∧ FailsCheck openedOnCpu ∧ FailsCheck syncedPlain := by
  have hrun : ∀ run, execWhen (fun s a => decide (Reopens s a)) (step true)
      (initial Unit Bool ℕ ℕ ⟨0, 0, 0, 0, 0⟩) run = some (after run) →
      StepsWhen Reopens (step true) (initial Unit Bool ℕ ℕ ⟨0, 0, 0, 0, 0⟩) (after run) :=
    fun run h => .of_execWhen (fun _ _ h => of_decide_eq_true h) run h
  exact ⟨⟨_, hrun reopened rfl, rfl, rfl⟩, ⟨_, hrun openedOnCpu rfl, rfl, rfl⟩,
    ⟨_, hrun syncedPlain rfl, rfl, rfl⟩⟩

end Transactions
