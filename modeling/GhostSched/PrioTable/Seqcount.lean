import GhostSched.Lib.Transition
import Mathlib.Algebra.Ring.Parity
import Mathlib.Data.Nat.Notation
import Mathlib.Logic.Function.Basic

/-!
# The seqcount of a sched item

The word that guards the fields of a `sched_item`: its lowest bit is the lock of
the writers and the whole of it is the version that the readers compare.

* `step` is one atomic operation or one field access of one writer or reader, so
  a run of it is an interleaving of any number of them.
* `count` and `log` are not in the source: the number of increments that
  `seqnum` keeps modulo `2 ^ 32`, and the values of the fields after each
  completed write, the newest first, down to those at the start.
* `Inv` says that `count` is odd while a writer is inside and that a reader whose
  version is current has seen the current fields only.
* `mutual_exclusion_and_snapshot` is the result.
-/

namespace Seqcount

open Function

/-! ## Model -/

/-- Bit 0 of the word. -/
def kLocked : BitVec 32 := 1

/-- The word says that a writer is inside. -/
def IsLocked (seq : BitVec 32) : Prop := seq &&& kLocked ≠ 0

instance (seq : BitVec 32) : Decidable (IsLocked seq) :=
  inferInstanceAs (Decidable (seq &&& kLocked ≠ 0))

/-- Where a writer is. -/
inductive Writer where
  /-- Not in any of the functions. -/
  | idle
  /-- In `write_begin`, with the value it has loaded. -/
  | waiting (seq0 : BitVec 32)
  /-- In `try_write_begin`, with the value it has loaded. -/
  | trying (seq0 : BitVec 32)
  /-- Past the begin, which returned this value. -/
  | inside (begin : BitVec 32)
  deriving DecidableEq

/-- Where a reader is, with the fields it has read. -/
inductive Reader (F V : Type*) where
  | idle
  /-- Past `read_begin`, which returned `begin` after so many increments. -/
  | reading (begin : BitVec 32) (count : ℕ) (reads : List (F × V))
  /-- `read_end` has returned. -/
  | returned (success : Bool) (reads : List (F × V))

structure State (W R F V : Type*) where
  seqnum : BitVec 32
  fields : F → V
  writer : W → Writer
  reader : R → Reader F V
  count : ℕ
  log : List (F → V)
  /-- Every `DCHECK_EQ` of `write_end` so far has held. -/
  checked : Bool

inductive Action (W R F V : Type*) where
  /-- The load at the start of `write_begin`. -/
  | writeBegin (w : W)
  /-- `Pause` and the reload, while the value is locked. -/
  | pause (w : W)
  /-- `compare_exchange_weak`, which may fail for no reason. -/
  | exchangeWeak (w : W) (spurious : Bool)
  /-- The load at the start of `try_write_begin`. -/
  | tryWriteBegin (w : W)
  /-- The rest of `try_write_begin`. -/
  | exchangeStrong (w : W)
  | store (w : W) (f : F) (v : V)
  | writeEnd (w : W)
  | readBegin (r : R)
  | read (r : R) (f : F)
  | readEnd (r : R)

section Step

variable {W R F V : Type*} [DecidableEq W] [DecidableEq R] [DecidableEq F]

/-- The increment that a successful exchange makes. -/
def State.enter (s : State W R F V) (w : W) (seq0 : BitVec 32) : State W R F V :=
  { s with
    seqnum := seq0 + kLocked
    count := s.count + 1
    writer := update s.writer w (.inside (seq0 + kLocked)) }

/-- A writer that goes on without a change of the word. -/
def State.setWriter (s : State W R F V) (w : W) (x : Writer) : State W R F V :=
  { s with writer := update s.writer w x }

def State.setReader (s : State W R F V) (r : R) (x : Reader F V) : State W R F V :=
  { s with reader := update s.reader r x }

/-- The store of `write_end`. -/
def State.leave (s : State W R F V) (w : W) (begin : BitVec 32) : State W R F V :=
  { s with
    checked := s.checked && decide (begin = s.seqnum)
    seqnum := begin + kLocked
    count := s.count + 1
    log := s.fields :: s.log
    writer := update s.writer w .idle }

/-- What `read_end` returns. -/
def readEnd (begin seqnum : BitVec 32) : Bool :=
  !(decide (IsLocked begin) || decide (begin ≠ seqnum))

def step (s : State W R F V) : Action W R F V → Option (State W R F V)
  | .writeBegin w =>
    match s.writer w with
    | .idle => some (s.setWriter w (.waiting s.seqnum))
    | _ => none
  | .pause w =>
    match s.writer w with
    | .waiting seq0 => if IsLocked seq0 then some (s.setWriter w (.waiting s.seqnum)) else none
    | _ => none
  | .exchangeWeak w spurious =>
    match s.writer w with
    | .waiting seq0 =>
      if IsLocked seq0 then none
      else if s.seqnum = seq0 ∧ spurious = false then some (s.enter w seq0)
      -- a failed exchange leaves the current value in `seq0`
      else some (s.setWriter w (.waiting s.seqnum))
    | _ => none
  | .tryWriteBegin w =>
    match s.writer w with
    | .idle => some (s.setWriter w (.trying s.seqnum))
    | _ => none
  | .exchangeStrong w =>
    match s.writer w with
    | .trying seq0 =>
      if ¬ IsLocked seq0 ∧ s.seqnum = seq0 then some (s.enter w seq0)
      else some (s.setWriter w .idle)
    | _ => none
  | .store w f v =>
    match s.writer w with
    | .inside _ => some { s with fields := update s.fields f v }
    | _ => none
  | .writeEnd w =>
    match s.writer w with
    | .inside begin => some (s.leave w begin)
    | _ => none
  | .readBegin r =>
    match s.reader r with
    | .reading .. => none
    | _ => some (s.setReader r (.reading s.seqnum s.count []))
  | .read r f =>
    match s.reader r with
    | .reading begin n reads => some (s.setReader r (.reading begin n ((f, s.fields f) :: reads)))
    | _ => none
  | .readEnd r =>
    match s.reader r with
    | .reading begin _ reads => some (s.setReader r (.returned (readEnd begin s.seqnum) reads))
    | _ => none

end Step

variable {W R F V : Type*}

/-- Nobody is in any of the functions and nothing was written yet. -/
structure Init (s : State W R F V) : Prop where
  seqnum : s.seqnum = 0
  count : s.count = 0
  log : s.log = [s.fields]
  writer : ∀ w, s.writer w = .idle
  reader : ∀ r, s.reader r = .idle
  checked : s.checked = true

/-- Fewer than `2 ^ 32` increments during a read. -/
def Bounded (s : State W R F V) : Action W R F V → Prop
  | .readEnd r => ∀ begin n reads, s.reader r = .reading begin n reads → s.count < n + 4294967296
  | _ => True

/-! ## What a step can be -/

/-- The current fields are those that a list of reads has seen. -/
def Sees (fields : F → V) (reads : List (F × V)) : Prop := ∀ f v, (f, v) ∈ reads → v = fields f

section StepCases

variable [DecidableEq W] [DecidableEq R] [DecidableEq F]

/-- What a step can be: the word is loaded, it is incremented by a writer that
found it unlocked or by the one inside, or a field is accessed. -/
inductive Step (s : State W R F V) : State W R F V → Prop where
  | outside (w : W) (x : Writer) : (∀ b, x ≠ .inside b) → (∀ b, s.writer w ≠ .inside b) →
    Step s (s.setWriter w x)
  | enter (w : W) : ¬ IsLocked s.seqnum → Step s (s.enter w s.seqnum)
  | store (w : W) (b : BitVec 32) (f : F) (v : V) : s.writer w = .inside b →
    Step s { s with fields := update s.fields f v }
  | leave (w : W) (b : BitVec 32) : s.writer w = .inside b → Step s (s.leave w b)
  | readBegin (r : R) : Step s (s.setReader r (.reading s.seqnum s.count []))
  | read (r : R) (f : F) (b : BitVec 32) (n : ℕ) (reads : List (F × V)) :
    s.reader r = .reading b n reads →
    Step s (s.setReader r (.reading b n ((f, s.fields f) :: reads)))
  | readEnd (r : R) (b : BitVec 32) (n : ℕ) (reads : List (F × V)) :
    s.reader r = .reading b n reads → s.count < n + 4294967296 →
    Step s (s.setReader r (.returned (readEnd b s.seqnum) reads))

/-- What an atomic operation within the bound can do. -/
theorem step_cases {s s' : State W R F V} {a : Action W R F V} (hok : Bounded s a)
    (h : step s a = some s') : Step s s' := by
  -- a step at the wrong place is none
  cases a with (simp only [step] at h; split at h <;> try cases h)
  | writeBegin w | tryWriteBegin w => exact .outside w _ (by simp) (by simp [*])
  | pause w =>
    rcases Option.ite_none_right_eq_some.mp h with ⟨-, ⟨⟩⟩
    exact .outside w _ (by simp) (by simp [*])
  | exchangeWeak w spurious =>
    rcases Option.ite_none_left_eq_some.mp h with ⟨hfree, h⟩
    split at h <;> cases h
    · rename_i heq
      rw [← heq.1] at hfree ⊢
      exact .enter w hfree
    · exact .outside w _ (by simp) (by simp [*])
  | exchangeStrong w =>
    split at h <;> cases h
    · rename_i seq0 _ heq
      rcases heq with ⟨hfree, heq⟩
      rw [← heq] at hfree ⊢
      exact .enter w hfree
    · exact .outside w _ (by simp) (by simp [*])
  | store w f v => exact .store w _ f v ‹_›
  | writeEnd w => exact .leave w _ ‹_›
  | readBegin r => exact .readBegin r
  | read r f => exact .read r f _ _ _ ‹_›
  | readEnd r =>
    rename_i b n reads hr
    exact .readEnd r b n reads hr (hok b n reads hr)

end StepCases

/-! ## The word and the number of increments -/

variable {n : ℕ}

/-- The lowest bit of the word is the lock. -/
theorem isLocked_ofNat : IsLocked (BitVec.ofNat 32 n) ↔ Odd n := by
  have hbit : BitVec.ofNat 32 n &&& kLocked = BitVec.ofNat 32 (n % 2) := by
    apply BitVec.eq_of_toNat_eq
    have hone : kLocked.toNat = 1 := rfl
    rw [BitVec.toNat_and, hone, Nat.and_one_is_mod, BitVec.toNat_ofNat, BitVec.toNat_ofNat]
    omega
  unfold IsLocked
  rw [hbit, Nat.odd_iff]
  rcases Nat.mod_two_eq_zero_or_one n with h | h <;> simp [h]

/-- Two versions fewer than `2 ^ 32` increments apart are equal only if they are
the same one. -/
theorem eq_of_ofNat_eq {m : ℕ} (h : BitVec.ofNat 32 m = BitVec.ofNat 32 n) (hle : m ≤ n)
    (hlt : n < m + 4294967296) : m = n := by
  have hmod := congrArg BitVec.toNat h
  rw [BitVec.toNat_ofNat, BitVec.toNat_ofNat] at hmod
  omega

theorem ofNat_add_kLocked : BitVec.ofNat 32 n + kLocked = BitVec.ofNat 32 (n + 1) :=
  (BitVec.ofNat_add n 1).symm

/-! ## Invariant -/

/-- What a reader has seen. -/
def Reader.Ok (s : State W R F V) : Reader F V → Prop
  | .idle => True
  | .reading begin n reads =>
    begin = BitVec.ofNat 32 n ∧ n ≤ s.count ∧ (Even n → s.count = n → Sees s.fields reads)
  | .returned success reads => success = true → ∃ snapshot ∈ s.log, Sees snapshot reads

structure Inv (s : State W R F V) : Prop where
  seqnum : s.seqnum = BitVec.ofNat 32 s.count
  /-- A writer is inside only while the word is locked. -/
  locked : ∀ w b, s.writer w = .inside b → Odd s.count
  unique : ∀ w w' b b', s.writer w = .inside b → s.writer w' = .inside b' → w = w'
  begin : ∀ w b, s.writer w = .inside b → b = s.seqnum
  /-- Between two writes the fields are those of the newest completed one. -/
  newest : Even s.count → s.log.head? = some s.fields
  reader : ∀ r, (s.reader r).Ok s
  checked : s.checked = true

variable {s : State W R F V}

theorem Init.inv (h : Init s) : Inv s where
  seqnum := by rw [h.seqnum, h.count]; rfl
  locked w b hw := by rw [h.writer] at hw; cases hw
  unique w _ b _ hw := by rw [h.writer] at hw; cases hw
  begin w b hw := by rw [h.writer] at hw; cases hw
  newest _ := by rw [h.log]; rfl
  reader r := by rw [h.reader]; trivial
  checked := h.checked

variable {x : Reader F V}

/-- An increment leaves no reader with a current version. -/
theorem Reader.Ok.increment {s' : State W R F V} (h : x.Ok s) (hcount : s'.count = s.count + 1)
    (hlog : ∀ snapshot ∈ s.log, snapshot ∈ s'.log) :
    x.Ok s' := by
  cases x with
  | idle => trivial
  | reading begin n reads =>
    rcases h with ⟨hbegin, hle, -⟩
    exact ⟨hbegin, by omega, fun _ heq => by omega⟩
  | returned success reads =>
    intro hs
    rcases h hs with ⟨snapshot, hmem, hsees⟩
    exact ⟨snapshot, hlog _ hmem, hsees⟩

section Preserved

variable [DecidableEq W] [DecidableEq R] [DecidableEq F]

variable {w : W}

omit [DecidableEq R] [DecidableEq F] in
/-- A writer that does not hold the lock changes nothing else. -/
theorem Inv.outside {s : State W R F V} (h : Inv s) {x : Writer} (hx : ∀ b, x ≠ .inside b) :
    Inv (s.setWriter w x) := by
  -- the writers inside were inside before
  have hinside : ∀ w' b, (s.setWriter w x).writer w' = .inside b → s.writer w' = .inside b := by
    intro w' b hw'
    by_cases hne : w' = w
    · subst hne
      exact absurd ((update_self ..).symm.trans hw') (hx b)
    · exact (update_of_ne hne ..).symm.trans hw'
  exact { h with
    locked := fun w' b hw' => h.locked w' b (hinside w' b hw')
    unique := fun w₁ w₂ b₁ b₂ h₁ h₂ => h.unique w₁ w₂ b₁ b₂ (hinside _ _ h₁) (hinside _ _ h₂)
    begin := fun w' b hw' => h.begin w' b (hinside w' b hw') }

omit [DecidableEq R] [DecidableEq F] in
/-- The exchange can only succeed while no writer is inside. -/
theorem Inv.enter {s : State W R F V} (h : Inv s) (hfree : ¬ IsLocked s.seqnum) :
    Inv (s.enter w s.seqnum) := by
  have heven : Even s.count := by
    rw [h.seqnum, isLocked_ofNat, Nat.not_odd_iff_even] at hfree
    exact hfree
  -- nobody else is inside
  have hinside : ∀ w' b, (s.enter w s.seqnum).writer w' = .inside b →
      w' = w ∧ b = s.seqnum + kLocked := by
    intro w' b hw'
    by_cases hne : w' = w
    · subst hne
      have hb := (update_self ..).symm.trans hw'
      exact ⟨rfl, (Writer.inside.inj hb).symm⟩
    · have hodd := h.locked w' b ((update_of_ne hne ..).symm.trans hw')
      exact absurd hodd (Nat.not_odd_iff_even.mpr heven)
  refine ⟨?_, fun _ _ _ => heven.add_one, ?_, fun w' b hw' => (hinside w' b hw').2, ?_, ?_,
    h.checked⟩
  · show s.seqnum + kLocked = BitVec.ofNat 32 (s.count + 1)
    rw [h.seqnum, ofNat_add_kLocked]
  · intro w₁ w₂ b₁ b₂ h₁ h₂
    rw [(hinside _ _ h₁).1, (hinside _ _ h₂).1]
  · intro heven'
    exact absurd heven.add_one (Nat.not_odd_iff_even.mpr heven')
  · exact fun r => (h.reader r).increment rfl fun _ hmem => hmem

variable {b : BitVec 32}

omit [DecidableEq W] [DecidableEq R] in
theorem Inv.store {s : State W R F V} (h : Inv s) {f : F} {v : V} (hw : s.writer w = .inside b) :
    Inv { s with fields := update s.fields f v } := by
  have hodd := h.locked w b hw
  refine { h with newest := ?_, reader := ?_ }
  · intro heven
    exact absurd hodd (Nat.not_odd_iff_even.mpr heven)
  · intro r
    have hr := h.reader r
    cases hx : s.reader r with
    | idle => trivial
    | reading begin n reads =>
      rw [hx] at hr
      refine ⟨hr.1, hr.2.1, fun heven heq => ?_⟩
      -- the version of the reader is even, so it is not the current one
      exact absurd (heq ▸ hodd) (Nat.not_odd_iff_even.mpr heven)
    | returned success reads =>
      rw [hx] at hr
      exact hr

omit [DecidableEq R] [DecidableEq F] in
/-- The fields are logged as the lock is released. -/
theorem Inv.leave {s : State W R F V} (h : Inv s) (hw : s.writer w = .inside b) :
    Inv (s.leave w b) := by
  have hb := h.begin w b hw
  -- nobody is left inside
  have hinside : ∀ w' b', (s.leave w b).writer w' ≠ .inside b' := by
    intro w' b' hw'
    by_cases hne : w' = w
    · subst hne
      have hidle := (update_self ..).symm.trans hw'
      cases hidle
    · exact hne (h.unique w' w b' b ((update_of_ne hne ..).symm.trans hw') hw)
  refine ⟨?_, fun w' b' hw' => absurd hw' (hinside w' b'),
    fun w' _ b' _ hw' => absurd hw' (hinside w' b'), fun w' b' hw' => absurd hw' (hinside w' b'),
    fun _ => rfl, ?_, ?_⟩
  · show b + kLocked = BitVec.ofNat 32 (s.count + 1)
    rw [hb, h.seqnum, ofNat_add_kLocked]
  · exact fun r => (h.reader r).increment rfl fun _ hmem => List.mem_cons_of_mem _ hmem
  · show (s.checked && decide (b = s.seqnum)) = true
    rw [h.checked, decide_eq_true hb]
    rfl

variable {r : R}

omit [DecidableEq W] [DecidableEq F] in
/-- One reader goes on. -/
theorem Inv.setReader {s : State W R F V} (h : Inv s) (hx : x.Ok s) : Inv (s.setReader r x) := by
  refine { h with reader := fun r' => ?_ }
  -- what a reader may have seen does not depend on the other readers
  have hsame : ∀ y : Reader F V, y.Ok s → y.Ok (s.setReader r x) := by
    intro y hy
    cases y <;> exact hy
  by_cases hne : r' = r
  · subst hne
    rw [show (s.setReader r' x).reader r' = x from update_self ..]
    exact hsame x hx
  · rw [show (s.setReader r x).reader r' = s.reader r' from update_of_ne hne ..]
    exact hsame _ (h.reader r')

omit [DecidableEq W] [DecidableEq R] [DecidableEq F] in
/-- A read that ends well has seen the newest completed write. -/
theorem Inv.readEnd {s : State W R F V} (h : Inv s) {reads : List (F × V)}
    (hr : s.reader r = .reading b n reads) (hlt : s.count < n + 4294967296)
    (hend : readEnd b s.seqnum = true) :
    s.count = n ∧ s.log.head? = some s.fields ∧ Sees s.fields reads := by
  have hok := h.reader r
  rw [hr] at hok
  rcases hok with ⟨hbegin, hle, hsees⟩
  have hfree : ¬ IsLocked b ∧ b = s.seqnum := by simpa [Seqcount.readEnd] using hend
  have hcount : n = s.count :=
    eq_of_ofNat_eq (hbegin.symm.trans (hfree.2.trans h.seqnum)) hle hlt
  have heven : Even n := by
    rw [← Nat.not_odd_iff_even, ← isLocked_ofNat, ← hbegin]
    exact hfree.1
  exact ⟨hcount.symm, h.newest (hcount ▸ heven), hsees heven hcount.symm⟩

theorem Inv.step {s s' : State W R F V} (h : Inv s) (hstep : Step s s') : Inv s' := by
  cases hstep with
  | outside w x hx _ => exact h.outside hx
  | enter w hfree => exact h.enter hfree
  | store w b f v hw => exact h.store hw
  | leave w b hw => exact h.leave hw
  | readBegin r => exact h.setReader ⟨h.seqnum, le_refl _, fun _ _ f v hmem => by cases hmem⟩
  | read r f b n reads hr =>
    have hok := h.reader r
    rw [hr] at hok
    refine h.setReader ⟨hok.1, hok.2.1, fun heven heq f' v hmem => ?_⟩
    rcases List.mem_cons.mp hmem with heq' | hmem
    · cases heq'
      rfl
    · exact hok.2.2 heven heq f' v hmem
  | readEnd r b n reads hr hlt =>
    refine h.setReader fun hend => ?_
    rcases h.readEnd hr hlt hend with ⟨-, hnewest, hsees⟩
    exact ⟨s.fields, List.mem_of_mem_head? hnewest, hsees⟩

theorem Inv.of_run {s₀ s : State W R F V} (h₀ : Init s₀)
    (h : Transition.StepsWhen Bounded Seqcount.step s₀ s) : Inv s :=
  h.invariant (fun _ _ _ hs hok hstep => hs.step (step_cases hok hstep)) h₀.inv

/-! ## Result -/

/-- At most one writer is between its begin and its end, which sees the value of
the begin in the word, and a read that ended well has seen the fields as they
were after one completed write or at the start. -/
theorem mutual_exclusion_and_snapshot {s₀ s : State W R F V} (h₀ : Init s₀)
    (h : Transition.StepsWhen Bounded Seqcount.step s₀ s) :
    (∀ w w' b b', s.writer w = .inside b → s.writer w' = .inside b' → w = w') ∧ s.checked = true ∧
      ∀ r reads, s.reader r = .returned true reads →
        ∃ snapshot ∈ s.log, ∀ f v, (f, v) ∈ reads → v = snapshot f := by
  have hinv := Inv.of_run h₀ h
  refine ⟨hinv.unique, hinv.checked, fun r reads hr => ?_⟩
  have hok := hinv.reader r
  rw [hr] at hok
  exact hok rfl

end Preserved

/-! ## A run of two writers and a reader -/

instance {s : State W R F V} {a : Action W R F V} : Decidable (Bounded s a) :=
  match a with
  | .readEnd r =>
    match hr : s.reader r with
    | .reading begin n reads =>
      decidable_of_iff (s.count < n + 4294967296)
        ⟨fun h b m xs hx => by cases hr.symm.trans hx; exact h, fun h => h begin n reads hr⟩
    | .idle => .isTrue fun b m xs hx => by cases hr.symm.trans hx
    | .returned _ _ => .isTrue fun b m xs hx => by cases hr.symm.trans hx
  | .writeBegin _ | .pause _ | .exchangeWeak _ _ | .tryWriteBegin _ | .exchangeStrong _
  | .store _ _ _ | .writeEnd _ | .readBegin _ | .read _ _ => .isTrue trivial

/-- Two fields that are zero. -/
def zeroed : State Bool Unit Bool ℕ :=
  { seqnum := 0, fields := fun _ => 0, writer := fun _ => .idle, reader := fun _ => .idle
    count := 0, log := [fun _ => 0], checked := true }

theorem zeroed_init : Init zeroed := ⟨rfl, rfl, rfl, fun _ => rfl, fun _ => rfl, rfl⟩

/-- A writer sets both fields while the other one waits, and a read follows. -/
def written : List (Action Bool Unit Bool ℕ) :=
  [.writeBegin true, .exchangeWeak true true, .exchangeWeak true false, .writeBegin false,
    .store true false 7, .store true true 8, .writeEnd true, .readBegin (), .read () false,
    .read () true, .readEnd ()]

def writtenState : State Bool Unit Bool ℕ := (Transition.exec step zeroed written).getD zeroed

theorem written_bounded : Transition.StepsWhen Bounded step zeroed writtenState :=
  .of_execWhen (fun _ _ h => of_decide_eq_true h) written rfl

theorem mutual_exclusion_and_snapshot_written :
    writtenState.reader () = .returned true [(true, 8), (false, 7)] ∧
      ∃ snapshot ∈ writtenState.log, ∀ f v, (f, v) ∈ [(true, 8), (false, 7)] → v = snapshot f :=
  ⟨rfl, (mutual_exclusion_and_snapshot zeroed_init written_bounded).2.2 () _ rfl⟩

end Seqcount
