import GhostSched.Lib.CString
import GhostSched.Lib.Transition
import Mathlib.Data.Int.Notation
import Mathlib.Data.List.Perm.Basic
import Mathlib.Data.List.TakeWhile
import Mathlib.Data.Nat.Notation
import Mathlib.Logic.Function.Basic

/-!
# Cues in shared memory

The slots that the threads of `cfs_mem` write their cues into, and the agents
that poll them.

* `step` is one store of a sender or one load of the agent that holds the mutex,
  so a run of it is an interleaving of any number of both.
* `completed` and `delivered` are the cues of the `WriteCue` calls that have
  returned and the cues that polls have captured, the newest first.
* A slot keeps one cue and `seq` is loaded once for each poll of it, so a cue is
  lost or mixed with the next one when its sender does not wait for the poll:
  `cues_lost_and_mixed`.
* `Paced` makes the senders wait. Under it `undelivered` is what the slots still
  owe, slot by slot, and `cues_delivered_once` is the result.
-/

namespace CfsMem

open Transition Function

/-! ## Model -/

def kMemMaxSlots : ℕ := 256

/-- The size of `MemCueSlot::message`. -/
def messageSize : ℕ := 48

/-- The bytes of a C string, without the terminator. -/
structure CString where
  bytes : List UInt8
  nonzero : 0 ∉ bytes

structure MemCueSlot where
  seq : BitVec 32
  sentNs : ℤ
  message : List UInt8

/-- What a cue says, and in which slot. -/
structure Cue where
  slotIdx : ℕ
  sentNs : ℤ
  message : List UInt8
  deriving DecidableEq

structure MemCue extends Cue where
  observedAt : ℤ

/-- The `memcpy` of `WriteCue` and the terminator after it. -/
def storeMessage (message : List UInt8) (msg : CString) : List UInt8 :=
  let len := min msg.bytes.length (messageSize - 1)
  msg.bytes.take len ++ 0 :: message.drop (len + 1)

/-- The string of `strnlen` bytes that a poll makes of the message. -/
def loadMessage (message : List UInt8) : List UInt8 :=
  (message.take messageSize).takeWhile (· ≠ 0)

/-- Where a sender is in `WriteCue`. -/
inductive Writer where
  | idle
  /-- `sent_ns` is stored. -/
  | timed (sentNs : ℤ) (msg : CString)
  /-- So is the message. -/
  | copied (sentNs : ℤ) (msg : CString)

/-- Where the agent with the mutex is in `Poll`. -/
inductive Frame where
  /-- Before the load of `next_slot`. -/
  | locked
  /-- At the head of the loop. -/
  | scanning (n i found : ℕ) (now : ℤ)
  /-- `seq` of slot `i` was new and is in `last_seq`. -/
  | loaded (n i found : ℕ) (now : ℤ)
  /-- `sent_ns` of slot `i` is read. -/
  | timed (n i found : ℕ) (now sentNs : ℤ)

structure State (W A : Type*) where
  nextSlot : BitVec 32
  slots : ℕ → MemCueSlot
  /-- What `AllocSlot` returned to a sender. -/
  slot : W → Option ℕ
  writer : W → Writer
  mu : Option (A × Frame)
  lastSeq : ℕ → BitVec 32
  /-- What the last `Poll` of an agent returned. -/
  found : A → ℕ
  completed : List Cue
  delivered : List (A × MemCue)

inductive Action (W A : Type*) where
  | allocSlot (w : W)
  | storeSentNs (w : W) (sentNs : ℤ) (msg : CString)
  | storeMessage (w : W)
  | incrementSeq (w : W)
  | lock (a : A)
  | loadNextSlot (a : A) (now : ℤ)
  | loadSeq (a : A)
  | readSentNs (a : A)
  | readMessage (a : A)
  | unlock (a : A)

/-- The cue that a call of `WriteCue` sends. -/
def cueOf (i : ℕ) (sentNs : ℤ) (msg : CString) : Cue :=
  ⟨i, sentNs, msg.bytes.take (messageSize - 1)⟩

section Step

variable {W A : Type*} [DecidableEq W] [DecidableEq A]

def State.setSlot (s : State W A) (i : ℕ) (x : MemCueSlot) : State W A :=
  { s with slots := update s.slots i x }

def State.setWriter (s : State W A) (w : W) (x : Writer) : State W A :=
  { s with writer := update s.writer w x }

def step (s : State W A) : Action W A → Option (State W A)
  | .allocSlot w =>
    if s.slot w = none then
      -- `CHECK_LT` ends a sender that finds no slot left
      let slot := s.nextSlot.toNat
      some { s with
        nextSlot := s.nextSlot + 1
        slot := if slot < kMemMaxSlots then update s.slot w (some slot) else s.slot }
    else none
  | .storeSentNs w sentNs msg =>
    match s.slot w, s.writer w with
    | some i, .idle =>
      some ((s.setSlot i { s.slots i with sentNs := sentNs }).setWriter w (.timed sentNs msg))
    | _, _ => none
  | .storeMessage w =>
    match s.slot w, s.writer w with
    | some i, .timed sentNs msg =>
      let message := CfsMem.storeMessage (s.slots i).message msg
      some ((s.setSlot i { s.slots i with message := message }).setWriter w (.copied sentNs msg))
    | _, _ => none
  | .incrementSeq w =>
    match s.slot w, s.writer w with
    | some i, .copied sentNs msg =>
      let s' := (s.setSlot i { s.slots i with seq := (s.slots i).seq + 1 }).setWriter w .idle
      some { s' with completed := cueOf i sentNs msg :: s.completed }
    | _, _ => none
  | .lock a => if s.mu.isNone then some { s with mu := some (a, .locked) } else none
  | .loadNextSlot a now =>
    match s.mu with
    | some (b, .locked) =>
      if a = b then
        let n := min s.nextSlot.toNat kMemMaxSlots
        some { s with mu := some (a, .scanning n 0 0 now) }
      else none
    | _ => none
  | .loadSeq a =>
    match s.mu with
    | some (b, .scanning n i found now) =>
      if a = b ∧ i < n then
        let seq := (s.slots i).seq
        if seq = s.lastSeq i then some { s with mu := some (a, .scanning n (i + 1) found now) }
        else some { s with
          lastSeq := update s.lastSeq i seq
          mu := some (a, .loaded n i found now) }
      else none
    | _ => none
  | .readSentNs a =>
    match s.mu with
    | some (b, .loaded n i found now) =>
      if a = b then some { s with mu := some (a, .timed n i found now (s.slots i).sentNs) }
      else none
    | _ => none
  | .readMessage a =>
    match s.mu with
    | some (b, .timed n i found now sentNs) =>
      if a = b then
        let cue : MemCue := ⟨⟨i, sentNs, loadMessage (s.slots i).message⟩, now⟩
        some { s with
          mu := some (a, .scanning n (i + 1) (found + 1) now)
          delivered := (a, cue) :: s.delivered }
      else none
    | _ => none
  | .unlock a =>
    match s.mu with
    | some (b, .scanning n i found _) =>
      if a = b ∧ n ≤ i then some { s with mu := none, found := update s.found a found }
      else none
    | _ => none

end Step

variable {W A : Type*}

/-- A region that was just created, and a poll state that was. -/
structure Init (s : State W A) : Prop where
  nextSlot : s.nextSlot = 0
  slots : ∀ i, s.slots i = ⟨0, 0, List.replicate messageSize 0⟩
  slot : ∀ w, s.slot w = none
  writer : ∀ w, s.writer w = .idle
  mu : s.mu = none
  lastSeq : ∀ i, s.lastSeq i = 0
  completed : s.completed = []
  delivered : s.delivered = []

/-- The slot that a poll has begun to copy. -/
def State.copying (s : State W A) : Option ℕ :=
  match s.mu with
  | some (_, .loaded _ i _ _) => some i
  | some (_, .timed _ i _ _ _) => some i
  | _ => none

/-- The cue that was last written into a slot is delivered. -/
def State.Taken (s : State W A) (i : ℕ) : Prop :=
  s.copying ≠ some i ∧ (s.slots i).seq = s.lastSeq i

instance (s : State W A) (i : ℕ) : Decidable (s.Taken i) :=
  inferInstanceAs (Decidable (_ ∧ _))

/-- A sender does not touch its slot before its last cue is delivered, and
`next_slot` does not wrap around. -/
def Paced (s : State W A) : Action W A → Prop
  | .allocSlot _ => s.nextSlot + 1 ≠ 0
  | .storeSentNs w _ _ => ∀ i ∈ s.slot w, s.Taken i
  | _ => True

instance (s : State W A) (a : Action W A) : Decidable (Paced s a) := by
  unfold Paced
  split <;> infer_instance

/-- No `WriteCue` begins. -/
def Quiet (s : State W A) : Action W A → Prop
  | .storeSentNs _ _ _ => False
  | a => Paced s a

instance (s : State W A) (a : Action W A) : Decidable (Quiet s a) := by
  unfold Quiet
  split <;> infer_instance

section

variable [DecidableEq W] [DecidableEq A]

/-- While no `WriteCue` begins, some agent has run a whole `Poll`. -/
structure FinalPoll (s s' : State W A) : Prop where
  idle : ∀ w, s.writer w = .idle
  poll : ∃ a before locked last unlocked, StepsWhen Quiet step s before ∧
    step before (.lock a) = some locked ∧ StepsWhen Quiet step locked last ∧
    step last (.unlock a) = some unlocked ∧ StepsWhen Quiet step unlocked s'

end

/-- The cues that polls have captured. -/
def State.cues (s : State W A) : List Cue := s.delivered.map fun x => x.2.toCue

/-! ## Messages -/

/-- A poll reads what the last `WriteCue` wrote, up to the terminator. -/
@[simp] theorem loadMessage_storeMessage (message : List UInt8) (msg : CString) :
    loadMessage (storeMessage message msg) = msg.bytes.take (messageSize - 1) := by
  have hlen : (msg.bytes.take (messageSize - 1)).length < messageSize := by
    rw [List.length_take]
    unfold messageSize
    omega
  have hall : msg.bytes.takeWhile (· ≠ 0) = msg.bytes := by
    rw [List.takeWhile_eq_self_iff]
    exact fun b hb => decide_eq_true fun h0 => msg.nonzero (h0 ▸ hb)
  -- the terminator is inside the buffer, so `strnlen` stops there
  obtain ⟨k, hk⟩ : ∃ k, messageSize - (msg.bytes.take (messageSize - 1)).length = k + 1 :=
    ⟨_, (Nat.succ_pred_eq_of_pos (by omega)).symm⟩
  simp only [loadMessage, storeMessage]
  rw [Nat.min_comm, ← List.take_eq_take_min, List.take_append,
    List.take_of_length_le (by omega), hk,
    List.take_succ_cons, CString.takeWhile_terminated, hall]

/-! ## What a step can be -/

/-- The cue that a slot holds. -/
def State.cueIn (s : State W A) (i : ℕ) : Cue :=
  ⟨i, (s.slots i).sentNs, loadMessage (s.slots i).message⟩

section StepCases

variable [DecidableEq W] [DecidableEq A]

/-- What a paced step can be: the loads of a poll come with what they found. -/
inductive Step (s : State W A) : Action W A → State W A → Prop where
  | allocSlot (w : W) : s.slot w = none → s.nextSlot + 1 ≠ 0 →
    Step s (.allocSlot w) { s with
      nextSlot := s.nextSlot + 1
      slot := if s.nextSlot.toNat < kMemMaxSlots
        then update s.slot w (some s.nextSlot.toNat) else s.slot }
  | storeSentNs (w : W) (i : ℕ) (sentNs : ℤ) (msg : CString) : s.slot w = some i → s.Taken i →
    Step s (.storeSentNs w sentNs msg) ((s.setSlot i { s.slots i with sentNs := sentNs }).setWriter
      w (.timed sentNs msg))
  | storeMessage (w : W) (i : ℕ) (sentNs : ℤ) (msg : CString) : s.slot w = some i →
    s.writer w = .timed sentNs msg →
    Step s (.storeMessage w) ((s.setSlot i
      { s.slots i with message := storeMessage (s.slots i).message msg }).setWriter w
        (.copied sentNs msg))
  | incrementSeq (w : W) (i : ℕ) (sentNs : ℤ) (msg : CString) : s.slot w = some i →
    s.writer w = .copied sentNs msg →
    Step s (.incrementSeq w) { (s.setSlot i { s.slots i with seq := (s.slots i).seq + 1 }).setWriter
      w .idle with
      completed := cueOf i sentNs msg :: s.completed }
  | lock (a : A) : s.mu = none → Step s (.lock a) { s with mu := some (a, .locked) }
  | loadNextSlot (a : A) (now : ℤ) : s.mu = some (a, .locked) →
    Step s (.loadNextSlot a now)
      { s with mu := some (a, .scanning (min s.nextSlot.toNat kMemMaxSlots) 0 0 now) }
  | skip (a : A) (n i found : ℕ) (now : ℤ) : s.mu = some (a, .scanning n i found now) →
    (s.slots i).seq = s.lastSeq i →
    Step s (.loadSeq a) { s with mu := some (a, .scanning n (i + 1) found now) }
  | loadSeq (a : A) (n i found : ℕ) (now : ℤ) : s.mu = some (a, .scanning n i found now) →
    (s.slots i).seq ≠ s.lastSeq i →
    Step s (.loadSeq a) { s with
      lastSeq := update s.lastSeq i (s.slots i).seq
      mu := some (a, .loaded n i found now) }
  | readSentNs (a : A) (n i found : ℕ) (now : ℤ) : s.mu = some (a, .loaded n i found now) →
    Step s (.readSentNs a) { s with mu := some (a, .timed n i found now (s.slots i).sentNs) }
  | readMessage (a : A) (n i found : ℕ) (now sentNs : ℤ) :
    s.mu = some (a, .timed n i found now sentNs) →
    Step s (.readMessage a) { s with
      mu := some (a, .scanning n (i + 1) (found + 1) now)
      delivered := (a, ⟨⟨i, sentNs, loadMessage (s.slots i).message⟩, now⟩) :: s.delivered }
  | unlock (a : A) (n i found : ℕ) (now : ℤ) : s.mu = some (a, .scanning n i found now) → n ≤ i →
    Step s (.unlock a) { s with mu := none, found := update s.found a found }

theorem step_cases {s s' : State W A} {a : Action W A} (hok : Paced s a)
    (h : step s a = some s') : Step s a s' := by
  -- a step at the wrong place is none
  cases a with (simp only [step] at h; split at h <;> try cases h)
  | allocSlot w => exact .allocSlot w ‹_› hok
  | storeSentNs w sentNs msg =>
    rename_i i hw _
    exact .storeSentNs w i sentNs msg hw (hok i hw)
  | storeMessage w => exact .storeMessage w _ _ _ ‹_› ‹_›
  | incrementSeq w => exact .incrementSeq w _ _ _ ‹_› ‹_›
  | lock a => exact .lock a (Option.isNone_iff_eq_none.mp ‹_›)
  | loadNextSlot a now =>
    rcases Option.ite_none_right_eq_some.mp h with ⟨rfl, ⟨⟩⟩
    exact .loadNextSlot a now ‹_›
  | loadSeq a =>
    rcases Option.ite_none_right_eq_some.mp h with ⟨⟨rfl, -⟩, hs⟩
    split at hs <;> cases hs
    · exact .skip a _ _ _ _ ‹_› ‹_›
    · exact .loadSeq a _ _ _ _ ‹_› ‹_›
  | readSentNs a =>
    rcases Option.ite_none_right_eq_some.mp h with ⟨rfl, ⟨⟩⟩
    exact .readSentNs a _ _ _ _ ‹_›
  | readMessage a =>
    rcases Option.ite_none_right_eq_some.mp h with ⟨rfl, ⟨⟩⟩
    exact .readMessage a _ _ _ _ _ ‹_›
  | unlock a =>
    rcases Option.ite_none_right_eq_some.mp h with ⟨⟨rfl, hn⟩, ⟨⟩⟩
    exact .unlock a _ _ _ _ ‹_› hn

end StepCases

/-! ## Invariant -/

/-- What a slot still owes. -/
def State.undelivered (s : State W A) (i : ℕ) : List Cue := if s.Taken i then [] else [s.cueIn i]

/-- How far the sender of slot `i` has got with it. -/
def Writer.Ok (s : State W A) (i : ℕ) : Writer → Prop
  | .idle => True
  | .timed sentNs _ => s.Taken i ∧ (s.slots i).sentNs = sentNs
  | .copied sentNs msg => s.Taken i ∧ s.cueIn i = cueOf i sentNs msg

structure Inv (s : State W A) : Prop where
  slot : ∀ w i, s.slot w = some i → i < kMemMaxSlots ∧ i < s.nextSlot.toNat
  unique : ∀ w w' i, s.slot w = some i → s.slot w' = some i → w = w'
  writer : ∀ w i, s.slot w = some i → (s.writer w).Ok s i
  idle : ∀ w, s.slot w = none → s.writer w = .idle
  /-- A poll that starts now comes to every slot that owes a cue. -/
  used : ∀ i, ¬ s.Taken i → i < kMemMaxSlots ∧ i < s.nextSlot.toNat
  copying : ∀ i, s.copying = some i → (s.slots i).seq = s.lastSeq i
  timed : ∀ a n i found now sentNs, s.mu = some (a, .timed n i found now sentNs) →
    sentNs = (s.slots i).sentNs
  account : ∀ i, s.completed.filter (·.slotIdx = i) =
    s.undelivered i ++ s.cues.filter (·.slotIdx = i)

variable {s : State W A}

theorem Init.inv (h : Init s) : Inv s := by
  have hcopying : s.copying = none := by
    unfold State.copying
    rw [h.mu]
  have htaken : ∀ i, s.Taken i := by
    intro i
    refine ⟨by rw [hcopying]; nofun, ?_⟩
    rw [h.slots, h.lastSeq]
  constructor
  case slot => intro w i hw; rw [h.slot] at hw; cases hw
  case unique => intro w _ i hw; rw [h.slot] at hw; cases hw
  case writer => intro w i hw; rw [h.slot] at hw; cases hw
  case idle => exact fun w _ => h.writer w
  case used => exact fun i hi => absurd (htaken i) hi
  case copying => intro i hi; rw [hcopying] at hi; cases hi
  case timed => intro _ _ _ _ _ _ hmu; rw [h.mu] at hmu; cases hmu
  case account =>
    intro i
    rw [State.undelivered, if_pos (htaken i), State.cues, h.completed, h.delivered]
    rfl

variable {s' : State W A} {i : ℕ}

/-- A slot that a step leaves as it is owes what it owed. -/
theorem undelivered_congr (hslot : s'.slots i = s.slots i) (htaken : s'.Taken i ↔ s.Taken i) :
    s'.undelivered i = s.undelivered i := by
  unfold State.undelivered State.cueIn
  simp only [htaken, hslot]

theorem Writer.Ok.congr {x : Writer} (h : x.Ok s i) (hslot : s'.slots i = s.slots i)
    (htaken : s'.Taken i ↔ s.Taken i) : x.Ok s' i := by
  cases x with
  | idle => trivial
  | timed sentNs msg => exact ⟨htaken.mpr h.1, by rw [hslot]; exact h.2⟩
  | copied sentNs msg =>
    refine ⟨htaken.mpr h.1, ?_⟩
    rw [← h.2, State.cueIn, State.cueIn, hslot]

section Preserved

theorem taken_congr {s s' : State W A} (hslots : s'.slots = s.slots)
    (hlast : s'.lastSeq = s.lastSeq)
    (hcopying : s'.copying = s.copying) (i : ℕ) : s'.Taken i ↔ s.Taken i := by
  rw [State.Taken, State.Taken, hslots, hlast, hcopying]

variable [DecidableEq W] [DecidableEq A]

variable {w : W}

omit [DecidableEq A] in
/-- A store into a slot whose last cue is delivered. -/
theorem Inv.write {s : State W A} (h : Inv s) (hw : s.slot w = some i) (htaken : s.Taken i)
    {x : MemCueSlot} (hseq : x.seq = (s.slots i).seq) {y : Writer}
    (hy : y.Ok ((s.setSlot i x).setWriter w y) i) : Inv ((s.setSlot i x).setWriter w y) := by
  have hother : ∀ j, j ≠ i → ((s.setSlot i x).setWriter w y).slots j = s.slots j :=
    fun j hj => Function.update_of_ne hj ..
  have htaken' : ∀ j, ((s.setSlot i x).setWriter w y).Taken j ↔ s.Taken j := by
    intro j
    by_cases hj : j = i
    · subst hj
      show _ ∧ (Function.update s.slots j x j).seq = _ ↔ _
      rw [Function.update_self, hseq]
      exact Iff.rfl
    · show _ ∧ (Function.update s.slots i x j).seq = _ ↔ _
      rw [Function.update_of_ne hj]
      exact Iff.rfl
  refine { h with writer := ?_, idle := ?_, used := ?_, copying := ?_, timed := ?_, account := ?_ }
  · -- another writer has another slot
    intro w' j hw'
    by_cases hne : w' = w
    · subst hne
      obtain rfl : i = j := Option.some.inj (hw.symm.trans hw')
      show ((Function.update s.writer w' y) w').Ok _ i
      rw [Function.update_self]
      exact hy
    · have hj : j ≠ i := fun hji => hne (h.unique w' w i (hji ▸ hw') hw)
      show ((Function.update s.writer w y) w').Ok _ j
      rw [Function.update_of_ne hne]
      exact (h.writer w' j hw').congr (hother j hj) (htaken' j)
  · intro w' hw'
    have hne : w' ≠ w := by
      rintro rfl
      exact absurd (hw.symm.trans hw') (by simp)
    show Function.update s.writer w y w' = _
    rw [Function.update_of_ne hne]
    exact h.idle w' hw'
  · -- the sequence number has not changed
    exact fun j hj => h.used j ((htaken' j).not.mp hj)
  · -- the poll is not copying this slot
    intro j hj
    have hji : j ≠ i := fun hji => htaken.1 (hji ▸ hj)
    rw [hother j hji]
    exact h.copying j hj
  · intro a n j found now sentNs hmu
    have hmu' : s.mu = some (a, .timed n j found now sentNs) := hmu
    have hji : j ≠ i := by
      rintro rfl
      apply htaken.1
      rw [State.copying, hmu']
    rw [hother j hji]
    exact h.timed a n j found now sentNs hmu'
  · -- nothing is delivered by this
    intro j
    rw [show ((s.setSlot i x).setWriter w y).undelivered j = s.undelivered j from ?_]
    · exact h.account j
    by_cases hj : j = i
    · subst hj
      rw [State.undelivered, State.undelivered, if_pos htaken, if_pos ((htaken' j).mpr htaken)]
    · exact undelivered_congr (hother j hj) (htaken' j)

variable {sentNs : ℤ}

omit [DecidableEq A] in
/-- The increment of `seq`, which makes the slot owe the cue written into it. -/
theorem Inv.publish {s : State W A} (h : Inv s) {msg : CString} (hw : s.slot w = some i)
    (hcopied : s.writer w = .copied sentNs msg) :
    let s' := { (s.setSlot i { s.slots i with seq := (s.slots i).seq + 1 }).setWriter w .idle with
      completed := cueOf i sentNs msg :: s.completed }
    Inv s' := by
  intro s'
  obtain ⟨htaken, hcue⟩ : (Writer.copied sentNs msg).Ok s i := hcopied ▸ h.writer w i hw
  have hself : s'.slots i = { s.slots i with seq := (s.slots i).seq + 1 } := update_self ..
  have hother : ∀ j, j ≠ i → s'.slots j = s.slots j := fun j hj => update_of_ne hj ..
  have hlast : s'.lastSeq = s.lastSeq := rfl
  have htaken' : ∀ j, j ≠ i → (s'.Taken j ↔ s.Taken j) := by
    intro j hj
    rw [State.Taken, hother j hj]
    exact Iff.rfl
  -- the counter moves away from the one the last poll has seen
  have hnot : ¬ s'.Taken i := by
    rw [State.Taken, hself, hlast, ← htaken.2]
    simp
  refine { h with writer := ?_, idle := ?_, used := ?_, copying := ?_, timed := ?_, account := ?_ }
  · intro w' j hw'
    show (update s.writer w .idle w').Ok s' j
    by_cases hne : w' = w
    · rw [hne, update_self]
      trivial
    · have hj : j ≠ i := fun hji => hne (h.unique w' w i (hji ▸ hw') hw)
      rw [update_of_ne hne]
      exact (h.writer w' j hw').congr (hother j hj) (htaken' j hj)
  · intro w' hw'
    have hne : w' ≠ w := by
      rintro rfl
      cases hw.symm.trans hw'
    exact (update_of_ne hne ..).trans (h.idle w' hw')
  · intro j hj
    by_cases hji : j = i
    · exact hji ▸ h.slot w i hw
    · exact h.used j ((htaken' j hji).not.mp hj)
  · intro j hj
    have hji : j ≠ i := fun hji => htaken.1 (hji ▸ hj)
    rw [hother j hji]
    exact h.copying j hj
  · intro a n j found now ns hmu
    rw [h.timed a n j found now ns hmu]
    by_cases hji : j = i
    · rw [hji, hself]
    · rw [hother j hji]
  · intro j
    show (cueOf i sentNs msg :: s.completed).filter _ = _ ++ s.cues.filter _
    by_cases hji : j = i
    · have hacc := h.account j
      grind [State.undelivered, State.cueIn]
    · rw [List.filter_cons_of_neg (by simp [cueOf, Ne.symm hji]),
        undelivered_congr (hother j hji) (htaken' j hji)]
      exact h.account j

omit [DecidableEq A] in
theorem Inv.allocSlot {s : State W A} (h : Inv s) (hw : s.slot w = none)
    (hwrap : s.nextSlot + 1 ≠ 0) {slot' : W → Option ℕ}
    (hslot' : (if s.nextSlot.toNat < kMemMaxSlots
      then update s.slot w (some s.nextSlot.toNat) else s.slot) = slot') :
    Inv { s with nextSlot := s.nextSlot + 1, slot := slot' } := by
  have hnext : (s.nextSlot + 1).toNat = s.nextSlot.toNat + 1 := by bv_omega
  -- the slot is new and goes to `w`, or nobody gets it
  have hcases : ∀ w' i, slot' w' = some i → s.slot w' = some i ∨
      w' = w ∧ i = s.nextSlot.toNat ∧ i < kMemMaxSlots := by
    intro w' i hw'
    rw [← hslot'] at hw'
    split at hw'
    · rename_i hlt
      by_cases hne : w' = w
      · rw [hne, update_self] at hw'
        cases hw'
        exact .inr ⟨hne, rfl, hlt⟩
      · exact .inl ((update_of_ne hne ..).symm.trans hw')
    · exact .inl hw'
  have hnone : ∀ w', slot' w' = none → s.slot w' = none := by
    intro w' hw'
    by_cases hne : w' = w
    · exact hne ▸ hw
    · rw [← hslot'] at hw'
      split at hw'
      · exact (update_of_ne hne ..).symm.trans hw'
      · exact hw'
  refine { h with slot := ?_, unique := ?_, writer := ?_, idle := ?_, used := ?_ }
  · grind [h.slot]
  · grind [h.unique, h.slot]
  · intro w' i hw'
    rcases hcases w' i hw' with hold | ⟨rfl, -⟩
    · exact (h.writer w' i hold).congr rfl Iff.rfl
    · rw [h.idle w' hw]
      trivial
  · exact fun w' hw' => h.idle w' (hnone w' hw')
  · intro i hi
    rw [hnext]
    have hused := h.used i hi
    exact ⟨hused.1, by omega⟩

omit [DecidableEq W] [DecidableEq A] in
/-- A step of a poll that captures no cue. -/
theorem Inv.poll {s s' : State W A} (h : Inv s) (hnext : s'.nextSlot = s.nextSlot)
    (hslots : s'.slots = s.slots) (hslot : s'.slot = s.slot) (hwriter : s'.writer = s.writer)
    (hcompleted : s'.completed = s.completed) (hdelivered : s'.delivered = s.delivered)
    (htaken : ∀ i, s'.Taken i ↔ s.Taken i)
    (hcopying : ∀ i, s'.copying = some i → (s'.slots i).seq = s'.lastSeq i)
    (htimed : ∀ a n i found now sentNs, s'.mu = some (a, .timed n i found now sentNs) →
      sentNs = (s'.slots i).sentNs) : Inv s' := by
  constructor
  case slot => rw [hslot, hnext]; exact h.slot
  case unique => rw [hslot]; exact h.unique
  case writer =>
    intro w i hw
    rw [hslot] at hw
    rw [hwriter]
    exact (h.writer w i hw).congr (by rw [hslots]) (htaken i)
  case idle => rw [hslot, hwriter]; exact h.idle
  case used =>
    intro i hi
    rw [hnext]
    exact h.used i ((htaken i).not.mp hi)
  case copying => exact hcopying
  case timed => exact htimed
  case account =>
    intro i
    rw [State.cues, hcompleted, hdelivered, undelivered_congr (by rw [hslots]) (htaken i)]
    exact h.account i

omit [DecidableEq W] [DecidableEq A] in
/-- The end of the copy of a slot. -/
theorem Inv.readMessage {s : State W A} (h : Inv s) {a : A} {n found : ℕ} {now : ℤ}
    (hmu : s.mu = some (a, .timed n i found now sentNs)) :
    let s' := { s with
      mu := some (a, .scanning n (i + 1) (found + 1) now)
      delivered := (a, ⟨⟨i, sentNs, loadMessage (s.slots i).message⟩, now⟩) :: s.delivered }
    Inv s' := by
  intro s'
  have hcopying : s.copying = some i := by rw [State.copying, hmu]
  have hnot : ¬ s.Taken i := fun ht => ht.1 hcopying
  have hcue : (⟨i, sentNs, loadMessage (s.slots i).message⟩ : Cue) = s.cueIn i := by
    rw [State.cueIn, h.timed a n i found now sentNs hmu]
  have htaken : s'.Taken i := ⟨nofun, h.copying i hcopying⟩
  have htaken' : ∀ j, j ≠ i → (s'.Taken j ↔ s.Taken j) := by
    intro j hj
    have hne : some i ≠ some j := fun hij => hj (Option.some.inj hij).symm
    rw [State.Taken, State.Taken, hcopying, show s'.copying = none from rfl]
    simp [hne, s']
  refine { h with writer := ?_, used := ?_, copying := nofun, timed := nofun, account := ?_ }
  · intro w j hw
    have hok := h.writer w j hw
    by_cases hj : j = i
    · -- no sender is in the slot that was being copied
      subst hj
      cases hx : s.writer w with
      | idle => trivial
      | timed ns msg | copied ns msg => rw [hx] at hok; exact absurd hok.1 hnot
    · exact hok.congr rfl (htaken' j hj)
  · intro j hj
    have hji : j ≠ i := fun hji => hj (hji ▸ htaken)
    exact h.used j ((htaken' j hji).not.mp hj)
  · intro j
    have hcues : s'.cues = s.cueIn i :: s.cues := by rw [← hcue]; rfl
    rw [hcues, h.account j]
    grind [State.undelivered, State.cueIn]

theorem Inv.step {s s' : State W A} {a : Action W A} (h : Inv s) (hstep : Step s a s') :
    Inv s' := by
  cases hstep with
  | allocSlot w hw hwrap => exact h.allocSlot hw hwrap rfl
  | storeSentNs w i sentNs msg hw htaken =>
    refine h.write hw htaken (x := { s.slots i with sentNs := sentNs }) rfl
      (y := .timed sentNs msg) ⟨⟨htaken.1, ?_⟩, ?_⟩
    · show (update s.slots i _ i).seq = _
      rw [update_self]
      exact htaken.2
    · show (update s.slots i _ i).sentNs = _
      rw [update_self]
  | storeMessage w i sentNs msg hw htimed =>
    obtain ⟨htaken, hns⟩ : (Writer.timed sentNs msg).Ok s i := htimed ▸ h.writer w i hw
    refine h.write hw htaken
      (x := { s.slots i with message := CfsMem.storeMessage (s.slots i).message msg }) rfl
      (y := .copied sentNs msg) ⟨⟨htaken.1, ?_⟩, ?_⟩
    · show (update s.slots i _ i).seq = _
      rw [update_self]
      exact htaken.2
    · show Cue.mk i (update s.slots i _ i).sentNs (loadMessage (update s.slots i _ i).message) = _
      rw [update_self, cueOf, ← hns, loadMessage_storeMessage]
  | incrementSeq w i sentNs msg hw hcopied => exact h.publish hw hcopied
  | lock a hmu | loadNextSlot a now hmu | skip a n i found now hmu hseq
  | unlock a n i found now hmu hn =>
    grind [State.copying, h.poll, taken_congr]
  | loadSeq a n i found now hmu hseq =>
    -- the slot owed its cue before, and now its copy has begun
    grind [State.copying, h.poll, State.Taken]
  | readSentNs a n i found now hmu =>
    have hcopying : s.copying = some i := by rw [State.copying, hmu]
    refine h.poll rfl rfl rfl rfl rfl rfl (taken_congr rfl rfl hcopying.symm) ?_ ?_
    · intro j hj
      obtain rfl : i = j := Option.some.inj hj
      exact h.copying i hcopying
    · intro b m j found' now' sentNs hmu'
      cases hmu'
      rfl
  | readMessage a n i found now sentNs hmu => exact h.readMessage hmu

end Preserved

/-! ## The final poll -/

/-- The slots that a poll still comes to. -/
def Frame.Covers (i : ℕ) : Frame → Prop
  | .locked => True
  | .scanning n j _ _ => j ≤ i ∧ i < n
  | .loaded n j _ _ => j ≤ i ∧ i < n
  | .timed n j _ _ _ => j ≤ i ∧ i < n

/-- The poll under way comes to every slot that owes a cue, and between two
polls none does. -/
def Fresh (s : State W A) : Prop :=
  ∀ i, ¬ s.Taken i → ∃ a frame, s.mu = some (a, frame) ∧ frame.Covers i

/-- No sender is in `WriteCue`. -/
def Idle (s : State W A) : Prop := ∀ w, s.writer w = .idle

section FinalPoll

variable [DecidableEq W] [DecidableEq A]

variable {a : Action W A}

omit [DecidableEq W] [DecidableEq A] in
theorem Quiet.paced {s : State W A} (h : Quiet s a) : Paced s a := by
  cases a with
  | storeSentNs w sentNs msg => exact h.elim
  | _ => exact h

/-- No sender gets into `WriteCue`. -/
theorem Idle.step {s s' : State W A} (h : Idle s) (hok : Quiet s a) (hstep : Step s a s') :
    Idle s' := by
  cases hstep with
  | storeSentNs w i sentNs msg hw htaken => exact hok.elim
  | storeMessage w i sentNs msg hw htimed => exact absurd ((h w).symm.trans htimed) nofun
  | incrementSeq w i sentNs msg hw hcopied => exact absurd ((h w).symm.trans hcopied) nofun
  | _ => exact h

/-- A slot that owes nothing goes on owing nothing. -/
theorem State.Taken.step {s s' : State W A} (h : s.Taken i) (hidle : Idle s) (hok : Quiet s a)
    (hstep : Step s a s') : s'.Taken i := by
  cases hstep with
  | storeSentNs w j sentNs msg hw htaken => exact hok.elim
  | storeMessage w j sentNs msg hw htimed => exact absurd ((hidle w).symm.trans htimed) nofun
  | incrementSeq w j sentNs msg hw hcopied => exact absurd ((hidle w).symm.trans hcopied) nofun
  | allocSlot w hw hwrap => exact h
  | loadSeq a n j found now hmu hseq =>
    have hj : i ≠ j := by
      rintro rfl
      exact hseq h.2
    refine ⟨fun hc => hj (Option.some.inj hc).symm, ?_⟩
    show _ = update s.lastSeq j _ i
    rw [update_of_ne hj]
    exact h.2
  | readSentNs a n j found now hmu =>
    refine ⟨fun hc => h.1 ?_, h.2⟩
    rw [State.copying, hmu]
    exact hc
  | _ => exact ⟨nofun, h.2⟩

theorem Fresh.step {s s' : State W A} (h : Fresh s) (hinv : Inv s) (hidle : Idle s)
    (hok : Quiet s a) (hstep : Step s a s') : Fresh s' := by
  intro i hi
  -- the slot owed its cue before the step, so the poll was to come to it
  have hold : ¬ s.Taken i := fun ht => hi (ht.step hidle hok hstep)
  obtain ⟨b, frame, hmu, hcovers⟩ := h i hold
  cases hstep with
  | storeSentNs w j sentNs msg hw htaken => exact hok.elim
  | storeMessage w j sentNs msg hw htimed => exact absurd ((hidle w).symm.trans htimed) nofun
  | incrementSeq w j sentNs msg hw hcopied => exact absurd ((hidle w).symm.trans hcopied) nofun
  | allocSlot w hw hwrap => exact ⟨b, frame, hmu, hcovers⟩
  | lock a hmu' => exact ⟨a, _, rfl, trivial⟩
  | loadNextSlot a now hmu' =>
    have hused := hinv.used i hold
    exact ⟨a, _, rfl, Nat.zero_le i, by omega⟩
  | skip a n j found now hmu' hseq =>
    obtain ⟨rfl, rfl⟩ : b = a ∧ frame = _ := Prod.mk.inj (Option.some.inj (hmu.symm.trans hmu'))
    have hj : i ≠ j := by
      rintro rfl
      exact hi ⟨nofun, hseq⟩
    exact ⟨b, _, rfl, by have := hcovers.1; omega, hcovers.2⟩
  | loadSeq a n j found now hmu' hseq =>
    obtain ⟨rfl, rfl⟩ : b = a ∧ frame = _ := Prod.mk.inj (Option.some.inj (hmu.symm.trans hmu'))
    exact ⟨b, _, rfl, hcovers⟩
  | readSentNs a n j found now hmu' =>
    obtain ⟨rfl, rfl⟩ : b = a ∧ frame = _ := Prod.mk.inj (Option.some.inj (hmu.symm.trans hmu'))
    exact ⟨b, _, rfl, hcovers⟩
  | readMessage a n j found now sentNs hmu' =>
    obtain ⟨rfl, rfl⟩ : b = a ∧ frame = _ := Prod.mk.inj (Option.some.inj (hmu.symm.trans hmu'))
    have hj : i ≠ j := by
      rintro rfl
      refine hi ⟨nofun, hinv.copying i ?_⟩
      rw [State.copying, hmu']
    exact ⟨b, _, rfl, by have := hcovers.1; omega, hcovers.2⟩
  | unlock a n j found now hmu' hn =>
    obtain ⟨rfl, rfl⟩ : b = a ∧ frame = _ := Prod.mk.inj (Option.some.inj (hmu.symm.trans hmu'))
    have hlt := Nat.lt_of_le_of_lt hcovers.1 hcovers.2
    omega

/-- What holds while no `WriteCue` begins. -/
theorem quiet_invariant {P : State W A → Prop} {s s' : State W A}
    (h : StepsWhen Quiet step s s') (hinv : Inv s) (hidle : Idle s) (hs : P s)
    (hstep : ∀ s a s', Inv s → Idle s → P s → Quiet s a → Step s a s' → P s') :
    Inv s' ∧ Idle s' ∧ P s' := by
  refine h.invariant (P := fun s => Inv s ∧ Idle s ∧ P s) ?_ ⟨hinv, hidle, hs⟩
  rintro s a s' ⟨hinv, hidle, hs⟩ hok ha
  have hcase := step_cases hok.paced ha
  exact ⟨hinv.step hcase, hidle.step hok hcase, hstep s a s' hinv hidle hs hok hcase⟩

/-- After the final poll no slot owes a cue. -/
theorem FinalPoll.taken {s s' : State W A} (h : FinalPoll s s') (hinv : Inv s) :
    Inv s' ∧ ∀ i, s'.Taken i := by
  obtain ⟨a, before, locked, last, unlocked, hbefore, hlock, hlast, hunlock, hafter⟩ := h.poll
  obtain ⟨hinv, hidle, -⟩ := quiet_invariant (P := fun _ => True) hbefore hinv h.idle trivial
    fun _ _ _ _ _ _ _ _ => trivial
  -- the poll that takes the mutex now is to come to every slot
  have hquiet : Quiet before (.lock a) := trivial
  have hcase := step_cases hquiet.paced hlock
  have hfresh : Fresh locked := by
    intro i _
    cases hcase with
    | lock _ hmu => exact ⟨a, _, rfl, trivial⟩
  obtain ⟨hinv, hidle, hfresh⟩ := quiet_invariant hlast (hinv.step hcase)
    (hidle.step hquiet hcase) hfresh
    fun _ _ _ hinv hidle hfresh hok hstep => hfresh.step hinv hidle hok hstep
  have hquiet : Quiet last (.unlock a) := trivial
  have hcase := step_cases hquiet.paced hunlock
  have hfresh' := hfresh.step hinv hidle hquiet hcase
  -- between two polls `Fresh` leaves nothing
  have htaken : ∀ i, unlocked.Taken i := by
    grind [CfsMem.Fresh, cases CfsMem.Step]
  obtain ⟨hinv, -, htaken⟩ := quiet_invariant (P := fun s => ∀ i, s.Taken i) hafter
    (hinv.step hcase) (hidle.step hquiet hcase) htaken
    fun _ _ _ _ hidle htaken hok hstep i => (htaken i).step hidle hok hstep
  exact ⟨hinv, htaken⟩

/-! ## Delivery -/

/-- If every sender waits until its last cue is delivered before it writes the
next one, and fewer than `2 ^ 32` slots are asked for, then the cues that polls
have captured after a final poll are those of the completed `WriteCue` calls,
each of them once. -/
theorem cues_delivered_once {s₀ s s' : State W A} (h₀ : Init s₀)
    (hrun : StepsWhen Paced step s₀ s) (hpoll : FinalPoll s s') :
    s'.cues.Perm s'.completed := by
  have hinv : Inv s := hrun.invariant
    (fun _ _ _ hinv hok hstep => hinv.step (step_cases hok hstep)) h₀.inv
  obtain ⟨hinv, htaken⟩ := hpoll.taken hinv
  -- slot by slot, nothing is owed
  rw [List.perm_iff_count]
  intro c
  have hacc := hinv.account c.slotIdx
  rw [State.undelivered, if_pos (htaken c.slotIdx), List.nil_append] at hacc
  have hcount : ∀ l : List Cue, List.count c l = List.count c (l.filter (·.slotIdx = c.slotIdx)) :=
    fun l => (List.count_filter (by simp)).symm
  rw [hcount, hcount s'.completed, hacc]

end FinalPoll

/-! ## Senders that do not wait -/

section Example

/-- A region that was just created. -/
def fresh : State Unit Unit where
  nextSlot := 0
  slots := fun _ => ⟨0, 0, List.replicate messageSize 0⟩
  slot := fun _ => none
  writer := fun _ => .idle
  mu := none
  lastSeq := fun _ => 0
  found := fun _ => 0
  completed := []
  delivered := []

theorem fresh_init : Init fresh :=
  ⟨rfl, fun _ => rfl, fun _ => rfl, fun _ => rfl, rfl, fun _ => rfl, rfl, rfl⟩

/-- The steps of one `WriteCue`. -/
def write (sentNs : ℤ) (msg : CString) : List (Action Unit Unit) :=
  [.storeSentNs () sentNs msg, .storeMessage (), .incrementSeq ()]

/-- The steps of one `Poll` between the lock and the unlock that finds a new cue
in the first slot. -/
def capture : List (Action Unit Unit) :=
  [.loadNextSlot () 100, .loadSeq (), .readSentNs (), .readMessage ()]

def hi : CString := ⟨[104, 105], by decide⟩

def yo : CString := ⟨[121, 111], by decide⟩

/-- Follow a list of steps, and a state that stands for a failed one. -/
def after (s : State Unit Unit) (as : List (Action Unit Unit)) : State Unit Unit :=
  (exec step s as).getD s

/-- Two cues before the first poll. -/
def twice : State Unit Unit := after fresh (.allocSlot () :: write 1 hi ++ write 2 yo)

/-- A second cue between the two reads of the first poll. -/
def torn : State Unit Unit :=
  after fresh (.allocSlot () :: write 1 hi ++ [.lock ()] ++ capture.take 3 ++ write 2 yo ++
    [.readMessage (), .unlock ()])

/-- A final poll that finds a cue in the first slot. -/
theorem finalPoll_capture {s s' last : State Unit Unit} (hidle : s.writer () = .idle)
    (hlast : execWhen (fun s a => decide (Quiet s a)) step { s with mu := some ((), .locked) }
      capture = some last)
    (hlock : step s (.lock ()) = some { s with mu := some ((), .locked) })
    (hunlock : step last (.unlock ()) = some s') : FinalPoll s s' :=
  ⟨fun _ => hidle, (), s, _, last, s', .refl, hlock,
    .of_execWhen (fun _ _ h => of_decide_eq_true h) capture hlast, hunlock, .refl⟩

/-- A cue that is overwritten before it is polled is lost, and one that is
overwritten while it is copied is delivered with the time of the one and the
message of the other. -/
theorem cues_lost_and_mixed : (∃ s s', Steps step fresh s ∧ FinalPoll s s' ∧
      s'.completed = [cueOf 0 2 yo, cueOf 0 1 hi] ∧ s'.cues = [cueOf 0 2 yo] ∧
      ¬ s'.cues.Perm s'.completed) ∧
    ∃ s s', Steps step fresh s ∧ FinalPoll s s' ∧
      s'.completed = [cueOf 0 2 yo, cueOf 0 1 hi] ∧ s'.cues = [cueOf 0 2 yo, cueOf 0 1 yo] ∧
      ¬ s'.cues.Perm s'.completed := by
  refine ⟨⟨twice, after twice (.lock () :: capture ++ [.unlock ()]), ?_, ?_, rfl, rfl, by decide⟩,
    torn, after torn (.lock () :: capture ++ [.unlock ()]), ?_, ?_, rfl, rfl, by decide⟩
  · exact .of_exec (show exec _ _ (.allocSlot () :: write 1 hi ++ write 2 yo) = _ from rfl)
  · exact finalPoll_capture rfl rfl rfl rfl
  · exact .of_exec (show exec _ _ (.allocSlot () :: write 1 hi ++ [.lock ()] ++ capture.take 3 ++
      write 2 yo ++ [.readMessage (), .unlock ()]) = _ from rfl)
  · exact finalPoll_capture rfl rfl rfl rfl

/-- A second cue after the first poll. -/
def paced : List (Action Unit Unit) :=
  .allocSlot () :: write 1 hi ++ [.lock ()] ++ capture ++ [.unlock ()] ++ write 2 yo

/-- A sender that waits gets both of its cues delivered. -/
theorem cues_delivered_once_twoCues : ∃ s s', StepsWhen Paced step fresh s ∧ FinalPoll s s' ∧
      s'.completed = [cueOf 0 2 yo, cueOf 0 1 hi] ∧ s'.cues.Perm s'.completed := by
  have hrun : StepsWhen Paced step fresh (after fresh paced) :=
    .of_execWhen (fun _ _ h => of_decide_eq_true h) paced rfl
  have hpoll : FinalPoll (after fresh paced)
      (after (after fresh paced) (.lock () :: capture ++ [.unlock ()])) :=
    finalPoll_capture rfl rfl rfl rfl
  exact ⟨_, _, hrun, hpoll, rfl, cues_delivered_once fresh_init hrun hpoll⟩

end Example

end CfsMem
