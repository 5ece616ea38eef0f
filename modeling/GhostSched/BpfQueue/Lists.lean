import GhostSched.BpfQueue.Model
import GhostSched.Lib.TailQueue
import Mathlib.Data.List.InsertIdx

/-!
# Array lists as sequences

* `AreLists` says that the heads and the entries form well-formed lists of given elements.
  `Encodes` relates the entries to the links of `TailQueue`, and each macro simulates the
  operation on tail queues.
* `run_refines_lists`: every sequence of operations acts as the ones on finite sequences.
  Elements get 32-bit ids, so the last element of an array of `2 ^ 32` elements cannot be on
  a list (`insert_id_overflow`).
* `concat_refines_append`: `arr_list_concat` appends a list, unless it appends the empty
  list to one that is not empty. Then the head has no last element any more, and what is
  inserted at the tail later is lost (`concat_loses_tail`).
-/

namespace BpfQueue

open Function

open TailQueue (Head Link AreQueues)

variable {κ α : Type*} {arrSz : ℕ} {arr : Arr α} {l l₁ l₂ : List ℕ} {e m x : ℕ} {o p n : Option ℕ}

/-! ## Ids -/

/-- The id of an element, or `0`. -/
def idOf : Option ℕ → ℕ
  | none => 0
  | some e => e + 1

/-- An element of the array that has an id. -/
def Indexed (arrSz e : ℕ) : Prop := e < arrSz ∧ e + 1 < 2 ^ 32

/-- The id of an element of the array. -/
theorem elemToId_eq (he : Indexed arrSz e) : elemToId e = idOf (some e) :=
  Nat.mod_eq_of_lt he.2

/-- An id leads back to its element. -/
theorem idToElem_idOf (ho : ∀ e ∈ o, Indexed arrSz e) : idToElem arrSz (idOf o) = o := by
  cases o with
  | none => rfl
  | some e => simp [idToElem, idOf, boundedArrayIdx, (ho e rfl).1]

@[simp] theorem idOf_eq_zero : idOf o = 0 ↔ o = none := by
  cases o <;> simp [idOf]

@[simp] theorem idOf_inj : idOf o = idOf p ↔ o = p := by
  cases o <;> cases p <;> simp [idOf]

/-! ## Well-formed lists -/

/-- The entries run through the elements, behind `p`. The last one has the next id `0`. -/
def Linked (arr : Arr α) (p : Option ℕ) : List ℕ → Prop
  | [] => True
  | e :: l => (arr e).field.prev = idOf p ∧ (arr e).field.next = idOf l.head? ∧
      Linked arr (some e) l

/-- The head and the entries form a list of these elements. -/
structure IsList (arrSz : ℕ) (arr : Arr α) (head : ArrList) (l : List ℕ) : Prop where
  nodup : l.Nodup
  indexed : ∀ e ∈ l, Indexed arrSz e
  first : head.first = idOf l.head?
  last : head.last = idOf l.getLast?
  links : Linked arr none l

/-- All heads are heads of lists, and no element is on two of them. -/
structure AreLists (arrSz : ℕ) (s : State κ α) (l : κ → List ℕ) : Prop where
  list : ∀ c, IsList arrSz s.arr (s.heads c) (l c)
  disjoint : ∀ c c', c ≠ c' → ∀ x ∈ l c, x ∉ l c'

/-! ## Encoding -/

def encodeHead (h : Head ℕ) : ArrList := ⟨idOf h.first, idOf h.last⟩

def encodeLink (k : Link ℕ) : ArrListEntry := ⟨idOf k.next, idOf k.prev⟩

/-- The entries of some elements are these links. -/
def Encodes (S : Set ℕ) (arr : Arr α) (lk : ℕ → Link ℕ) : Prop :=
  ∀ x ∈ S, (arr x).field = encodeLink (lk x)

/-- The elements that are on lists. -/
def Members (l : κ → List ℕ) : Set ℕ := { x | ∃ c, x ∈ l c }

def headOf (l : List ℕ) : Head ℕ := ⟨l.head?, l.getLast?⟩

section Encoding

variable {S : Set ℕ} {lk : ℕ → Link ℕ}

section

variable (h : Encodes S arr lk)
include h

/-- A store to `next`. -/
theorem Encodes.setNext (e : ℕ) (n : Option ℕ) :
    Encodes S (setNext arr e (idOf n)) (update lk e { lk e with next := n }) := by
  intro x hx
  by_cases hxe : x = e
  · subst hxe
    simp [BpfQueue.setNext, encodeLink, h x hx]
  · simp [BpfQueue.setNext, hxe, h x hx]

/-- A store to `prev`. -/
theorem Encodes.setPrev (e : ℕ) (p : Option ℕ) :
    Encodes S (setPrev arr e (idOf p)) (update lk e { lk e with prev := p }) := by
  intro x hx
  by_cases hxe : x = e
  · subst hxe
    simp [BpfQueue.setPrev, encodeLink, h x hx]
  · simp [BpfQueue.setPrev, hxe, h x hx]

/-- A store to `next` through an id that may be zero. -/
theorem Encodes.setNextOf (o n : Option ℕ) :
    Encodes S (setNextOf arr o (idOf n)) (TailQueue.setNext lk n o) := by
  cases o with
  | none => exact h
  | some e => exact h.setNext e n

/-- A store to `prev` through an id that may be zero. -/
theorem Encodes.setPrevOf (o p : Option ℕ) :
    Encodes S (setPrevOf arr o (idOf p)) (TailQueue.setPrev lk p o) := by
  cases o with
  | none => exact h
  | some e => exact h.setPrev e p

/-- Both fields of an element are written. -/
theorem Encodes.set (e : ℕ) (n p : Option ℕ) :
    Encodes (insert e S) (BpfQueue.setNext (BpfQueue.setPrev arr e (idOf p)) e (idOf n))
      (update lk e ⟨n, p⟩) := by
  intro x hx
  by_cases hxe : x = e
  · subst hxe
    simp [BpfQueue.setNext, BpfQueue.setPrev, encodeLink]
  · simp [BpfQueue.setNext, BpfQueue.setPrev, hxe, h x (hx.resolve_left hxe)]

/-- The links of fewer elements. -/
theorem Encodes.mono {S' : Set ℕ} (hS : S' ⊆ S) : Encodes S' arr lk :=
  fun x hx => h x (hS hx)

end

/-- Links of lists are entries of lists. -/
theorem linked_iff (h : ∀ x ∈ l, (arr x).field = encodeLink (lk x)) :
    Linked arr p l ↔ TailQueue.Seg lk p l none := by
  induction l generalizing p with
  | nil => rfl
  | cons e l ih =>
    have he := h e List.mem_cons_self
    simp only [Linked, TailQueue.Seg, he, encodeLink, idOf_inj, Option.or_none,
      ih fun x hx => h x (List.mem_cons_of_mem e hx)]

/-- The entries of a list hold ids of its elements. -/
theorem Linked.ids {P : ℕ → Prop} (h : Linked arr p l) (hp : ∀ e ∈ p, P e)
    (hl : ∀ e ∈ l, P e) (hx : x ∈ l) :
    ∃ k, (arr x).field = encodeLink k ∧ (∀ e ∈ k.next, P e) ∧ ∀ e ∈ k.prev, P e := by
  induction l generalizing p with
  | nil => cases hx
  | cons e l ih =>
    rcases h with ⟨hprev, hnext, hlinks⟩
    have hl' : ∀ e ∈ l, P e := fun e' he' => hl e' (List.mem_cons_of_mem e he')
    rcases List.mem_cons.mp hx with rfl | hx
    · refine ⟨⟨l.head?, p⟩, ?_, fun e' he' => hl' e' (List.mem_of_head? he'), hp⟩
      rw [encodeLink, ← hprev, ← hnext]
    · refine ih hlinks ?_ hl' hx
      intro e' he'
      obtain rfl : e = e' := Option.some.inj he'
      exact hl e List.mem_cons_self

end Encoding

section Bridge

variable {s : State κ α} {l : κ → List ℕ}

/-- The lists are tail queues. -/
theorem AreLists.encoded (h : AreLists arrSz s l) :
    ∃ lk, Encodes (Members l) s.arr lk ∧ AreQueues (fun c => headOf (l c)) lk l := by
  have hids : ∀ x ∈ Members l, ∃ k, (s.arr x).field = encodeLink k := by
    rintro x ⟨c, hx⟩
    rcases (h.list c).links.ids (by simp) (h.list c).indexed hx with ⟨k, hk, -⟩
    exact ⟨k, hk⟩
  have : Nonempty (Link ℕ) := ⟨⟨none, none⟩⟩
  choose! lk hlk using hids
  refine ⟨lk, hlk, ⟨fun c => ⟨(h.list c).nodup, rfl, rfl, ?_⟩, h.disjoint⟩⟩
  exact (linked_iff fun x hx => hlk x ⟨c, hx⟩).mp (h.list c).links

variable {lk : ℕ → Link ℕ} {hs : κ → Head ℕ}

/-- Encoded queues are lists. -/
theorem AreLists.of_encoded (henc : Encodes (Members l) s.arr lk)
    (hheads : ∀ c, s.heads c = encodeHead (hs c)) (hidx : ∀ c, ∀ e ∈ l c, Indexed arrSz e)
    (hq : AreQueues hs lk l) : AreLists arrSz s l := by
  refine ⟨fun c => ⟨(hq.queue c).nodup, hidx c, ?_, ?_, ?_⟩, hq.disjoint⟩
  · rw [hheads c, encodeHead, (hq.queue c).first]
  · rw [hheads c, encodeHead, (hq.queue c).last]
  · exact (linked_iff fun x hx => henc x ⟨c, hx⟩).mpr (hq.queue c).links

/-- The head of a list encodes its ends. -/
theorem AreLists.head_eq (h : AreLists arrSz s l) (c : κ) :
    s.heads c = encodeHead (headOf (l c)) := by
  rw [encodeHead, headOf, ← (h.list c).first, ← (h.list c).last]

variable [DecidableEq κ]

/-- One of the lists changes. -/
theorem AreLists.write {c : κ} {l' : List ℕ} {h' : Head ℕ} {r : Arr α × ArrList}
    (h : AreLists arrSz s l) (henc : Encodes (Members (update l c l')) r.1 lk)
    (hhead : r.2 = encodeHead h') (hidx : ∀ e ∈ l', Indexed arrSz e)
    (hq : AreQueues (update (fun c => headOf (l c)) c h') lk (update l c l')) :
    AreLists arrSz (s.write c r) (update l c l') := by
  refine .of_encoded (s := s.write c r) henc (fun c' => ?_) (fun c' => ?_) hq
  · by_cases hc : c' = c
    · simp [State.write, hc, hhead]
    · simp [State.write, hc, h.head_eq c']
  · by_cases hc : c' = c
    · simpa [hc] using hidx
    · simpa [hc] using (h.list c').indexed

end Bridge

/-! ## The macros as operations on tail queues -/

section Simulation

variable {S : Set ℕ} {lk : ℕ → Link ℕ} {h : Head ℕ}

section

variable (henc : Encodes S arr lk)
include henc

/-- `arr_list_insert_head` -/
theorem insertHead_encodes (he : Indexed arrSz e) (hfirst : ∀ x ∈ h.first, Indexed arrSz x) :
    Encodes (insert e S) (arrListInsertHead arrSz arr (encodeHead h) e).1
        (TailQueue.insertHead h lk e).2 ∧
      (arrListInsertHead arrSz arr (encodeHead h) e).2 =
        encodeHead (TailQueue.insertHead h lk e).1 := by
  have hset := henc.set e h.first none
  unfold arrListInsertHead TailQueue.insertHead
  simp only [encodeHead, idOf_eq_zero, elemToId_eq he, idToElem_idOf hfirst]
  split_ifs with hnone
  · rw [hnone] at hset ⊢
    exact ⟨hset, rfl⟩
  · exact ⟨hset.setPrevOf h.first (some e), rfl⟩

/-- `arr_list_insert_tail` -/
theorem insertTail_encodes (he : Indexed arrSz e) (hlast : ∀ x ∈ h.last, Indexed arrSz x) :
    Encodes (insert e S) (arrListInsertTail arrSz arr (encodeHead h) e).1
        (TailQueue.insertTail h lk e).2 ∧
      (arrListInsertTail arrSz arr (encodeHead h) e).2 =
        encodeHead (TailQueue.insertTail h lk e).1 := by
  have hset := henc.set e none h.last
  unfold arrListInsertTail TailQueue.insertTail
  simp only [encodeHead, idOf_eq_zero, elemToId_eq he, idToElem_idOf hlast]
  split_ifs with hnone
  · exact ⟨hset, rfl⟩
  · exact ⟨hset.setNextOf h.last (some e), rfl⟩

/-- `arr_list_insert_before` -/
theorem insertBefore_encodes (he : Indexed arrSz e) (hm : m ∈ S) (hm' : Indexed arrSz m)
    (hprev : ∀ x ∈ (lk m).prev, Indexed arrSz x) :
    Encodes (insert e S) (arrListInsertBefore arrSz arr (encodeHead h) m e).1
        (TailQueue.insertBefore h lk m e).2 ∧
      (arrListInsertBefore arrSz arr (encodeHead h) m e).2 =
        encodeHead (TailQueue.insertBefore h lk m e).1 := by
  have hlink := henc.setNextOf (lk m).prev (some e)
  have hread : (arr m).field.prev = idOf (lk m).prev := by rw [henc m hm, encodeLink]
  have hset := hlink.set e (some m) (TailQueue.setNext lk (some e) (lk m).prev m).prev
  have hread' := congrArg ArrListEntry.prev (hlink m hm)
  unfold arrListInsertBefore TailQueue.insertBefore
  simp only [hread, elemToId_eq he, elemToId_eq hm', idToElem_idOf hprev]
  rw [hread']
  refine ⟨hset.setPrevOf (some m) (some e), ?_⟩
  simp only [encodeHead, idOf_inj]
  split_ifs <;> rfl

/-- `arr_list_insert_after` -/
theorem insertAfter_encodes (he : Indexed arrSz e) (hm : m ∈ S) (hm' : Indexed arrSz m)
    (hnext : ∀ x ∈ (lk m).next, Indexed arrSz x) (hem : e ≠ m) :
    Encodes (insert e S) (arrListInsertAfter arrSz arr (encodeHead h) m e).1
        (TailQueue.insertAfter h lk m e).2 ∧
      (arrListInsertAfter arrSz arr (encodeHead h) m e).2 =
        encodeHead (TailQueue.insertAfter h lk m e).1 := by
  have hlink := henc.setPrevOf (lk m).next (some e)
  have hread : (arr m).field.next = idOf (lk m).next := by rw [henc m hm, encodeLink]
  have hset := hlink.set e (TailQueue.setPrev lk (some e) (lk m).next m).next (some m)
  have hread' := congrArg ArrListEntry.next (hlink m hm)
  unfold arrListInsertAfter TailQueue.insertAfter
  simp only [hread, elemToId_eq he, elemToId_eq hm', idToElem_idOf hnext]
  -- the new element is not the one whose entry is read
  rw [BpfQueue.setPrev, update_of_ne hem.symm, hread']
  refine ⟨hset.setNextOf (some m) (some e), ?_⟩
  simp only [encodeHead, idOf_inj]
  split_ifs <;> rfl

/-- `arr_list_remove` -/
theorem remove_encodes (he : e ∈ S) (he' : Indexed arrSz e)
    (hprev : ∀ x ∈ (lk e).prev, Indexed arrSz x) (hnext : ∀ x ∈ (lk e).next, Indexed arrSz x)
    (hself : (lk e).prev ≠ some e) :
    Encodes S (arrListRemove arrSz arr (encodeHead h) e).1 (TailQueue.remove h lk e).2 ∧
      (arrListRemove arrSz arr (encodeHead h) e).2 = encodeHead (TailQueue.remove h lk e).1 := by
  have hlink := henc.setNextOf (lk e).prev (lk e).next
  have hlink' := hlink.setPrevOf (lk e).next (lk e).prev
  have hread : (arr e).field = encodeLink (lk e) := henc e he
  have hread' := hlink e he
  rw [TailQueue.setNext_of_ne hself] at hread'
  have hread'' := hlink' e he
  have hset := (hlink'.set e none none).mono fun _ => Or.inr
  unfold arrListRemove TailQueue.remove
  simp only [hread, encodeLink, idToElem_idOf hprev, elemToId_eq he'] at hread' ⊢
  rw [TailQueue.setNext_of_ne hself]
  simp only [hread', idToElem_idOf hnext, hread'', encodeLink]
  refine ⟨hset, ?_⟩
  by_cases hfirst : h.first = some e <;> by_cases hlast : h.last = some e <;>
    simp [encodeHead, hfirst, hlast]

/-- `arr_list_pop_first` -/
theorem popFirst_encodes
    (hfirst : ∀ x ∈ h.first, Indexed arrSz x ∧ x ∈ S ∧ (∀ y ∈ (lk x).next, Indexed arrSz y)) :
    (arrListPopFirst arrSz arr (encodeHead h)).1 = h.first ∧
      Encodes S (arrListPopFirst arrSz arr (encodeHead h)).2.1 (TailQueue.popFirst h lk).2 ∧
      (arrListPopFirst arrSz arr (encodeHead h)).2.2 = encodeHead (TailQueue.popFirst h lk).1 := by
  have hid : idToElem arrSz (encodeHead h).first = h.first :=
    idToElem_idOf fun x hx => (hfirst x hx).1
  unfold arrListPopFirst TailQueue.popFirst
  rw [hid]
  cases hsome : h.first with
  | none => exact ⟨rfl, henc, rfl⟩
  | some e =>
    rcases hfirst e hsome with ⟨-, he, hnext⟩
    have hlink := henc.setPrevOf (lk e).next none
    have hread : (arr e).field = encodeLink (lk e) := henc e he
    have hread' := hlink e he
    simp only [hread, encodeLink, idToElem_idOf hnext] at hread' ⊢
    simp only [show (0 : ℕ) = idOf none from rfl, hread'] at hread' ⊢
    refine ⟨trivial, hlink.setNext e none, ?_⟩
    simp only [encodeHead, hsome, idOf_inj]
    split_ifs <;> rfl

end

/-- `arr_list_concat` -/
theorem concat_encodes (h₁ h₂ : Head ℕ) (henc : Encodes S arr lk)
    (hlast : ∀ x ∈ h₁.last, Indexed arrSz x) (hfirst : ∀ x ∈ h₂.first, Indexed arrSz x) :
    Encodes S (arrListConcat arrSz arr (encodeHead h₁) (encodeHead h₂)).1
        (TailQueue.concat h₁ h₂ lk).2 ∧
      (arrListConcat arrSz arr (encodeHead h₁) (encodeHead h₂)).2 =
        (encodeHead (TailQueue.concat h₁ h₂ lk).1, encodeHead .empty) := by
  unfold arrListConcat TailQueue.concat
  simp only [encodeHead, idToElem_idOf hlast, idToElem_idOf hfirst, idOf_eq_zero]
  refine ⟨(henc.setNextOf h₁.last h₂.first).setPrevOf h₂.first h₁.last, ?_⟩
  split_ifs <;> rfl

end Simulation

/-! ## Sequences -/

section Spec

variable [DecidableEq κ]

/-- The operations on finite sequences. -/
def spec (l : κ → List ℕ) : Op κ → (κ → List ℕ) × Option ℕ
  | .insertHead c e => (update l c (e :: l c), none)
  | .insertTail c e => (update l c (l c ++ [e]), none)
  | .insertBefore c m e => (update l c ((l c).insertIdx ((l c).idxOf m) e), none)
  | .insertAfter c m e => (update l c ((l c).insertIdx ((l c).idxOf m + 1) e), none)
  | .remove c e => (update l c ((l c).erase e), none)
  | .popFirst c => (update l c (l c).tail, (l c).head?)

def specRun : (κ → List ℕ) → List (Op κ) → (κ → List ℕ) × List (Option ℕ)
  | l, [] => (l, [])
  | l, op :: ops =>
    let (l', o) := spec l op
    let (l'', os) := specRun l' ops
    (l'', o :: os)

/-- An element that may be inserted. -/
def Free (arrSz : ℕ) (l : κ → List ℕ) (e : ℕ) : Prop :=
  Indexed arrSz e ∧ ∀ c, e ∉ l c

/-- What the caller of an operation has to take care of. -/
def Allowed (arrSz : ℕ) (l : κ → List ℕ) : Op κ → Prop
  | .insertHead _ e | .insertTail _ e => Free arrSz l e
  | .insertBefore c m e | .insertAfter c m e => m ∈ l c ∧ Free arrSz l e
  | .remove c e => e ∈ l c
  | .popFirst _ => True

def AllowedRun (arrSz : ℕ) : (κ → List ℕ) → List (Op κ) → Prop
  | _, [] => True
  | l, op :: ops => Allowed arrSz l op ∧ AllowedRun arrSz (spec l op).1 ops

/-- The list that an operation is about. -/
def Op.list : Op κ → κ
  | .insertHead c _ | .insertTail c _ | .insertBefore c _ _ | .insertAfter c _ _ | .remove c _
  | .popFirst c => c

/-- The element that an operation inserts. -/
def Op.inserted : Op κ → Option ℕ
  | .insertHead _ e | .insertTail _ e | .insertBefore _ _ e | .insertAfter _ _ e => some e
  | .remove _ _ | .popFirst _ => none

end Spec

theorem insertIdx_idxOf (hm : m ∉ l₁) :
    (l₁ ++ m :: l₂).insertIdx ((l₁ ++ m :: l₂).idxOf m) e = l₁ ++ e :: m :: l₂ := by
  induction l₁ with
  | nil => simp
  | cons a l ih =>
    simp only [List.mem_cons, not_or] at hm
    rw [List.cons_append, List.idxOf_cons_ne _ (Ne.symm hm.1), List.insertIdx_succ_cons, ih hm.2]
    rfl

theorem insertIdx_idxOf_succ (hm : m ∉ l₁) :
    (l₁ ++ m :: l₂).insertIdx ((l₁ ++ m :: l₂).idxOf m + 1) e = l₁ ++ m :: e :: l₂ := by
  induction l₁ with
  | nil => simp
  | cons a l ih =>
    simp only [List.mem_cons, not_or] at hm
    rw [List.cons_append, List.idxOf_cons_ne _ (Ne.symm hm.1), List.insertIdx_succ_cons, ih hm.2]
    rfl

section Step

variable [DecidableEq κ] {s : State κ α} {l : κ → List ℕ} {c : κ}

/-- One list gets an element. -/
theorem members_update {l' : List ℕ} (h : ∀ x ∈ l', x = e ∨ x ∈ l c) :
    Members (update l c l') ⊆ insert e (Members l) := by
  rintro x ⟨c', hx⟩
  rw [update_apply] at hx
  split_ifs at hx with hc
  · subst hc
    exact (h x hx).imp id fun hx => ⟨c', hx⟩
  · exact .inr ⟨c', hx⟩

/-- One list gets no element. -/
theorem members_update_of_subset {l' : List ℕ} (h : ∀ x ∈ l', x ∈ l c) :
    Members (update l c l') ⊆ Members l := by
  rintro x ⟨c', hx⟩
  rw [update_apply] at hx
  split_ifs at hx with hc
  · subst hc
    exact ⟨c', h x hx⟩
  · exact ⟨c', hx⟩

/-- One operation acts as the one on sequences. -/
theorem AreLists.step {op : Op κ} (h : AreLists arrSz s l) (hop : Allowed arrSz l op) :
    AreLists arrSz (step arrSz s op).1 (spec l op).1 ∧ (step arrSz s op).2 = (spec l op).2 := by
  rcases h.encoded with ⟨lk, henc, hq⟩
  have hhead : ∀ c, ∀ x ∈ (l c).head?, Indexed arrSz x :=
    fun c x hx => (h.list c).indexed x (List.mem_of_head? hx)
  have hlast : ∀ c, ∀ x ∈ (l c).getLast?, Indexed arrSz x :=
    fun c x hx => (h.list c).indexed x (List.mem_of_getLast? hx)
  cases op with
  | insertHead c e =>
    -- the head is an element, or there is none
    rcases insertHead_encodes (h := headOf (l c)) henc hop.1 (hhead c) with ⟨henc', hhead'⟩
    rw [← h.head_eq c] at henc' hhead'
    refine ⟨h.write (henc'.mono (members_update (by simp))) hhead' ?_ (hq.insertHead hop.2), rfl⟩
    simpa [hop.1] using (h.list c).indexed
  | insertTail c e =>
    -- so is the tail
    rcases insertTail_encodes (h := headOf (l c)) henc hop.1 (hlast c) with ⟨henc', hhead'⟩
    rw [← h.head_eq c] at henc' hhead'
    refine ⟨h.write (henc'.mono (members_update (by simp [or_comm]))) hhead' ?_
      (hq.insertTail hop.2), rfl⟩
    intro x hx
    rcases List.mem_append.mp hx with hx | hx
    · exact (h.list c).indexed x hx
    · exact List.mem_singleton.mp hx ▸ hop.1
  | insertBefore c m e =>
    -- the element before `m` is in the array, too
    rcases hop with ⟨hm, he, hfree⟩
    rcases List.append_of_mem hm with ⟨l₁, l₂, hc⟩
    rcases (hc ▸ hq.queue c).split with ⟨hprev, -, hm₁, -, -⟩
    have hidx : ∀ x ∈ l₁ ++ e :: m :: l₂, x = e ∨ x ∈ l c := by
      intro x hx
      rw [hc]
      simpa [or_left_comm] using hx
    rcases insertBefore_encodes (h := headOf (l c)) henc he ⟨c, hm⟩ ((h.list c).indexed m hm)
      (hprev ▸ fun x hx => (h.list c).indexed x
        (hc ▸ List.mem_append_left _ (List.mem_of_getLast? hx))) with ⟨henc', hhead'⟩
    rw [← h.head_eq c] at henc' hhead'
    have hspec : (spec l (.insertBefore c m e)).1 = update l c (l₁ ++ e :: m :: l₂) := by
      rw [← insertIdx_idxOf hm₁, ← hc]
      rfl
    rw [hspec]
    refine ⟨h.write (henc'.mono (members_update hidx)) hhead' ?_ (hq.insertBefore hc hfree), rfl⟩
    exact fun x hx => (hidx x hx).elim (fun hxe => hxe ▸ he) ((h.list c).indexed x)
  | insertAfter c m e =>
    -- so is the element after it
    rcases hop with ⟨hm, he, hfree⟩
    rcases List.append_of_mem hm with ⟨l₁, l₂, hc⟩
    rcases (hc ▸ hq.queue c).split with ⟨-, hnext, hm₁, -, -⟩
    have hidx : ∀ x ∈ l₁ ++ m :: e :: l₂, x = e ∨ x ∈ l c := by
      intro x hx
      rw [hc]
      simpa [or_left_comm] using hx
    rcases insertAfter_encodes (h := headOf (l c)) henc he ⟨c, hm⟩ ((h.list c).indexed m hm)
      (hnext ▸ fun x hx => (h.list c).indexed x
        (hc ▸ List.mem_append_right _ (List.mem_cons_of_mem m (List.mem_of_head? hx))))
      (ne_of_mem_of_not_mem hm (hfree c)).symm with ⟨henc', hhead'⟩
    rw [← h.head_eq c] at henc' hhead'
    have hspec : (spec l (.insertAfter c m e)).1 = update l c (l₁ ++ m :: e :: l₂) := by
      rw [← insertIdx_idxOf_succ hm₁, ← hc]
      rfl
    rw [hspec]
    refine ⟨h.write (henc'.mono (members_update hidx)) hhead' ?_ (hq.insertAfter hc hfree), rfl⟩
    exact fun x hx => (hidx x hx).elim (fun hxe => hxe ▸ he) ((h.list c).indexed x)
  | remove c e =>
    -- both neighbours are in the array
    rcases List.append_of_mem hop with ⟨l₁, l₂, hc⟩
    rcases (hc ▸ hq.queue c).split with ⟨hprev, hnext, he₁, -, -⟩
    have hmem₁ : ∀ x ∈ l₁.getLast?, x ∈ l c :=
      fun x hx => hc ▸ List.mem_append_left _ (List.mem_of_getLast? hx)
    have hmem₂ : ∀ x ∈ l₂.head?, x ∈ l c :=
      fun x hx => hc ▸ List.mem_append_right _ (List.mem_cons_of_mem e (List.mem_of_head? hx))
    rcases remove_encodes (h := headOf (l c)) henc ⟨c, hop⟩ ((h.list c).indexed e hop)
      (hprev ▸ fun x hx => (h.list c).indexed x (hmem₁ x hx))
      (hnext ▸ fun x hx => (h.list c).indexed x (hmem₂ x hx))
      (hprev ▸ fun hx => he₁ (List.mem_of_getLast? hx)) with ⟨henc', hhead'⟩
    rw [← h.head_eq c] at henc' hhead'
    refine ⟨h.write (henc'.mono (members_update_of_subset fun x hx => List.mem_of_mem_erase hx))
      hhead' ?_ (hq.remove hop), rfl⟩
    exact fun x hx => (h.list c).indexed x (List.mem_of_mem_erase hx)
  | popFirst c =>
    -- the second element becomes the head
    have hfirst : ∀ x ∈ (headOf (l c)).first, Indexed arrSz x ∧ x ∈ Members l ∧
        ∀ y ∈ (lk x).next, Indexed arrSz y := by
      intro x hx
      have hxl : x ∈ l c := List.mem_of_head? hx
      refine ⟨hhead c x hx, ⟨c, hxl⟩, fun y hy => ?_⟩
      rcases List.append_of_mem hxl with ⟨l₁, l₂, hc⟩
      have hqueue := hq.queue c
      rw [hc] at hqueue
      rw [hqueue.split.2.1] at hy
      exact (h.list c).indexed y
        (hc ▸ List.mem_append_right _ (List.mem_cons_of_mem x (List.mem_of_head? hy)))
    rcases popFirst_encodes henc hfirst with ⟨hret, henc', hhead'⟩
    rw [← h.head_eq c] at hret henc' hhead'
    refine ⟨h.write (henc'.mono (members_update_of_subset fun x hx => List.mem_of_mem_tail hx))
      hhead' ?_ (hq.popFirst c), hret⟩
    exact fun x hx => (h.list c).indexed x (List.mem_of_mem_tail hx)

/-- Every allowed run does to the lists what the specification says. -/
theorem AreLists.run {ops : List (Op κ)} (h : AreLists arrSz s l) (hops : AllowedRun arrSz l ops) :
    AreLists arrSz (run arrSz s ops).1 (specRun l ops).1 ∧
      (run arrSz s ops).2 = (specRun l ops).2 := by
  induction ops generalizing s l with
  | nil => exact ⟨h, rfl⟩
  | cons op ops ih =>
    rcases h.step hops.1 with ⟨hstep, hret⟩
    rcases ih hstep hops.2 with ⟨hrun, hrets⟩
    exact ⟨hrun, congrArg₂ List.cons hret hrets⟩

end Step

/-! ## What stays the same -/

/-- Only entries of some elements have changed. -/
structure Frames (S : Set ℕ) (arr arr' : Arr α) : Prop where
  rest : ∀ x, (arr' x).rest = (arr x).rest
  other : ∀ x ∉ S, arr' x = arr x

section Frames

variable {S : Set ℕ} {arr' arr'' : Arr α}

theorem Frames.refl : Frames S arr arr := ⟨fun _ => rfl, fun _ _ => rfl⟩

section

variable (h : Frames S arr arr')
include h

/-- One operation after the other. -/
theorem Frames.trans (h' : Frames S arr' arr'') : Frames S arr arr'' :=
  ⟨fun x => (h'.rest x).trans (h.rest x), fun x hx => (h'.other x hx).trans (h.other x hx)⟩

theorem Frames.setNext (he : e ∈ S) (id : ℕ) : Frames S arr (setNext arr' e id) := by
  refine h.trans ⟨fun x => ?_, fun x hx => update_of_ne (ne_of_mem_of_not_mem he hx).symm ..⟩
  by_cases hxe : x = e <;> simp [BpfQueue.setNext, hxe]

theorem Frames.setPrev (he : e ∈ S) (id : ℕ) : Frames S arr (setPrev arr' e id) := by
  refine h.trans ⟨fun x => ?_, fun x hx => update_of_ne (ne_of_mem_of_not_mem he hx).symm ..⟩
  by_cases hxe : x = e <;> simp [BpfQueue.setPrev, hxe]

theorem Frames.setNextOf (ho : ∀ e ∈ o, e ∈ S) (id : ℕ) : Frames S arr (setNextOf arr' o id) := by
  cases o with
  | none => exact h
  | some e => exact h.setNext (ho e rfl) id

theorem Frames.setPrevOf (ho : ∀ e ∈ o, e ∈ S) (id : ℕ) : Frames S arr (setPrevOf arr' o id) := by
  cases o with
  | none => exact h
  | some e => exact h.setPrev (ho e rfl) id

end

/-- The neighbours of an element are on the list. -/
theorem IsList.neighbours {head : ArrList} (h : IsList arrSz arr head l) (hx : x ∈ l) :
    (∀ y ∈ idToElem arrSz (arr x).field.next, y ∈ l) ∧
      ∀ y ∈ idToElem arrSz (arr x).field.prev, y ∈ l := by
  rcases h.links.ids (P := fun y => Indexed arrSz y ∧ y ∈ l) (by simp)
    (fun y hy => ⟨h.indexed y hy, hy⟩) hx with ⟨k, hk, hnext, hprev⟩
  rw [hk, encodeLink, idToElem_idOf fun y hy => (hnext y hy).1,
    idToElem_idOf fun y hy => (hprev y hy).1]
  exact ⟨fun y hy => (hnext y hy).2, fun y hy => (hprev y hy).2⟩

/-- The ends of a list are elements of it. -/
theorem IsList.ends {head : ArrList} (h : IsList arrSz arr head l) :
    (∀ y ∈ idToElem arrSz head.first, y ∈ l) ∧ ∀ y ∈ idToElem arrSz head.last, y ∈ l := by
  rw [h.first, h.last, idToElem_idOf fun y hy => h.indexed y (List.mem_of_head? hy),
    idToElem_idOf fun y hy => h.indexed y (List.mem_of_getLast? hy)]
  exact ⟨fun y hy => List.mem_of_head? hy, fun y hy => List.mem_of_getLast? hy⟩

/-- Writing the next id of an element to another one does not change what the element says. -/
theorem setNextOf_next_self :
    (setNextOf arr o (arr e).field.next e).field.next = (arr e).field.next := by
  cases o with
  | none => rfl
  | some y =>
    by_cases hy : e = y
    · subst hy
      simp [setNextOf, setNext]
    · simp [setNextOf, setNext, hy]

variable [DecidableEq κ] {s : State κ α} {l : κ → List ℕ} {op : Op κ}

/-- An operation only touches entries of its list and of the element that it inserts. -/
theorem AreLists.step_frames (h : AreLists arrSz s l) (hop : Allowed arrSz l op) :
    Frames { x | x ∈ l op.list ∨ x ∈ op.inserted } s.arr (BpfQueue.step arrSz s op).1.arr := by
  cases op with
  | insertHead c e =>
    have hset : Frames { x | x ∈ l c ∨ x ∈ some e } s.arr
        (setNext (setPrev s.arr e 0) e (s.heads c).first) :=
      (Frames.refl.setPrev (.inr rfl) 0).setNext (.inr rfl) (s.heads c).first
    simp only [BpfQueue.step, State.write, arrListInsertHead]
    split_ifs
    · exact hset
    · exact hset.setPrevOf (fun y hy => .inl ((h.list c).ends.1 y hy)) _
  | insertTail c e =>
    have hset : Frames { x | x ∈ l c ∨ x ∈ some e } s.arr
        (setNext (setPrev s.arr e (s.heads c).last) e 0) :=
      (Frames.refl.setPrev (.inr rfl) (s.heads c).last).setNext (.inr rfl) 0
    simp only [BpfQueue.step, State.write, arrListInsertTail]
    split_ifs
    · exact hset
    · exact hset.setNextOf (fun y hy => .inl ((h.list c).ends.2 y hy)) _
  | insertBefore c m e =>
    have hprev := ((h.list c).neighbours hop.1).2
    exact (((Frames.refl.setNextOf (fun y hy => .inl (hprev y hy)) _).setPrev (.inr rfl) _).setNext
      (.inr rfl) _).setPrev (.inl hop.1) _
  | insertAfter c m e =>
    have hnext := ((h.list c).neighbours hop.1).1
    exact (((Frames.refl.setPrevOf (fun y hy => .inl (hnext y hy)) _).setPrev (.inr rfl) _).setNext
      (.inr rfl) _).setNext (.inl hop.1) _
  | remove c e =>
    rcases (h.list c).neighbours hop with ⟨hnext, hprev⟩
    refine (((Frames.refl.setNextOf (fun y hy => .inl (hprev y hy)) _).setPrevOf
      (fun y hy => .inl (hnext y ?_)) _).setPrev (.inl hop) _).setNext (.inl hop) _
    rwa [setNextOf_next_self] at hy
  | popFirst c =>
    simp only [BpfQueue.step, State.write, arrListPopFirst]
    split
    · exact .refl
    · rename_i first hfirst
      have hmem : first ∈ l c := (h.list c).ends.1 first hfirst
      have hnext := ((h.list c).neighbours hmem).1
      exact (Frames.refl.setPrevOf (fun y hy => .inl (hnext y hy)) _).setNext (.inl hmem) _

/-- The heads of the other lists stay. -/
theorem step_heads {c : κ} (hc : op.list ≠ c) :
    (BpfQueue.step arrSz s op).1.heads c = s.heads c := by
  cases op <;> exact update_of_ne (Ne.symm hc) ..

/-- The other lists stay. -/
theorem spec_of_ne {c : κ} (hc : op.list ≠ c) : (spec l op).1 c = l c := by
  cases op <;> exact update_of_ne (Ne.symm hc) ..

/-- Elements only get on a list by being inserted. -/
theorem mem_spec {c : κ} (hx : x ∈ (spec l op).1 c) : x ∈ l c ∨ x ∈ op.inserted := by
  by_cases hc : op.list = c
  · subst hc
    cases op with
    | insertHead c e | insertTail c e =>
      simp only [spec, Op.list, update_self, List.mem_cons, List.mem_append,
        List.not_mem_nil, or_false] at hx
      simp only [Op.list, Op.inserted, Option.mem_some_iff]
      grind
    | insertBefore c m e | insertAfter c m e =>
      simp only [spec, Op.list, update_self] at hx
      exact (List.eq_or_mem_of_mem_insertIdx hx).symm.imp id fun h => congrArg some h.symm
    | remove c e =>
      simp only [spec, Op.list, update_self] at hx
      exact .inl (List.mem_of_mem_erase hx)
    | popFirst c =>
      simp only [spec, Op.list, update_self] at hx
      exact .inl (List.mem_of_mem_tail hx)
  · rw [spec_of_ne hc] at hx
    exact .inl hx

omit [DecidableEq κ] in
/-- The element that an operation inserts was on no list. -/
theorem Allowed.free (hop : Allowed arrSz l op) (hx : x ∈ op.inserted) (c : κ) : x ∉ l c := by
  cases op with
  | insertHead _ _ | insertTail _ _ =>
    obtain rfl := Option.some.inj hx
    exact hop.2 c
  | insertBefore _ _ _ | insertAfter _ _ _ =>
    obtain rfl := Option.some.inj hx
    exact hop.2.2 c
  | remove _ _ | popFirst _ => cases hx

/-- What a run keeps: the other fields, lists that it does not work on, and elements that are not
on any list. -/
theorem AreLists.run_frames {ops : List (Op κ)} (h : AreLists arrSz s l)
    (hops : AllowedRun arrSz l ops) :
    (∀ x, ((BpfQueue.run arrSz s ops).1.arr x).rest = (s.arr x).rest) ∧
      (∀ c, (∀ op ∈ ops, op.list ≠ c) → (BpfQueue.run arrSz s ops).1.heads c = s.heads c ∧
        ∀ x ∈ l c, (BpfQueue.run arrSz s ops).1.arr x = s.arr x) ∧
      ∀ x, (∀ c, x ∉ l c) → (∀ op ∈ ops, x ∉ op.inserted) →
        (BpfQueue.run arrSz s ops).1.arr x = s.arr x := by
  induction ops generalizing s l with
  | nil => exact ⟨fun _ => rfl, fun _ _ => ⟨rfl, fun _ _ => rfl⟩, fun _ _ _ => rfl⟩
  | cons op ops ih =>
    have hframes := h.step_frames hops.1
    rcases ih (h.step hops.1).1 hops.2 with ⟨hrest, hlists, hfree⟩
    refine ⟨fun x => (hrest x).trans (hframes.rest x), fun c hc => ?_, fun x hx hins => ?_⟩
    · have hop := hc op List.mem_cons_self
      rcases hlists c fun op' hop' => hc op' (List.mem_cons_of_mem op hop') with ⟨hheads, harr⟩
      refine ⟨hheads.trans (step_heads hop), fun x hx => ?_⟩
      refine (harr x (by rwa [spec_of_ne hop])).trans (hframes.other x ?_)
      -- an element of another list is not touched
      rintro (hx' | hx')
      · exact h.disjoint _ _ hop x hx' hx
      · exact hops.1.free hx' c hx
    · have hop := hins op List.mem_cons_self
      refine (hfree x (fun c hc => ?_)
        fun op' hop' => hins op' (List.mem_cons_of_mem op hop')).trans
        (hframes.other x ?_)
      · exact (mem_spec hc).elim (hx c) hop
      · rintro (hx' | hx')
        · exact hx _ hx'
        · exact hop hx'

end Frames

/-! ## Results -/

section Results

variable [DecidableEq κ] {s : State κ α} {l : κ → List ℕ}

/-- Every sequence of operations keeps the lists well-formed and acts on them as the operations on
finite sequences do. The other fields, the other lists and the elements that are on no list stay as
they are. -/
theorem run_refines_lists {ops : List (Op κ)} (h : AreLists arrSz s l)
    (hops : AllowedRun arrSz l ops) :
    AreLists arrSz (run arrSz s ops).1 (specRun l ops).1 ∧ (run arrSz s ops).2 = (specRun l ops).2 ∧
      (∀ x, ((run arrSz s ops).1.arr x).rest = (s.arr x).rest) ∧
      (∀ c, (∀ op ∈ ops, op.list ≠ c) → (run arrSz s ops).1.heads c = s.heads c ∧
        ∀ x ∈ l c, (run arrSz s ops).1.arr x = s.arr x) ∧
      ∀ x, (∀ c, x ∉ l c) → (∀ op ∈ ops, x ∉ op.inserted) →
        (run arrSz s ops).1.arr x = s.arr x := by
  rcases h.run hops with ⟨hlists, hret⟩
  exact ⟨hlists, hret, h.run_frames hops⟩

/-- The macro appends if it has anything to append, or nothing to append to. -/
theorem AreLists.concat {c₁ c₂ : κ} (h : AreLists arrSz s l) (hc : c₁ ≠ c₂)
    (hne : l c₁ = [] ∨ l c₂ ≠ []) :
    AreLists arrSz (s.concat arrSz c₁ c₂) (update (update l c₂ []) c₁ (l c₁ ++ l c₂)) := by
  rcases h.encoded with ⟨lk, henc, hq⟩
  rcases concat_encodes (headOf (l c₁)) (headOf (l c₂)) henc
    (fun x hx => (h.list c₁).indexed x (List.mem_of_getLast? hx))
    (fun x hx => (h.list c₂).indexed x (List.mem_of_head? hx)) with ⟨henc', hheads'⟩
  rw [← h.head_eq c₁, ← h.head_eq c₂] at henc' hheads'
  refine .of_encoded (s := s.concat arrSz c₁ c₂) (henc'.mono ?_) (fun c => ?_) (fun c => ?_)
    (hq.concat hc hne)
  · rintro x ⟨c, hx⟩
    by_cases hcc : c = c₁
    · rw [hcc, update_self] at hx
      exact (List.mem_append.mp hx).elim (fun hx => ⟨c₁, hx⟩) fun hx => ⟨c₂, hx⟩
    · rw [update_of_ne hcc] at hx
      by_cases hcc' : c = c₂
      · simp [hcc'] at hx
      · rw [update_of_ne hcc'] at hx
        exact ⟨c, hx⟩
  · rcases Prod.ext_iff.mp hheads' with ⟨hhead₁, hhead₂⟩
    rw [update_apply]
    split_ifs with hcc
    · simp only [State.concat, hcc, update_self]
      exact hhead₁
    · by_cases hcc' : c = c₂
      · simp only [State.concat, hcc', update_of_ne hc.symm, update_self]
        exact hhead₂
      · simp only [State.concat, update_of_ne hcc, update_of_ne hcc']
        exact h.head_eq c
  · by_cases hcc : c = c₁
    · rw [hcc, update_self]
      exact fun x hx => (List.mem_append.mp hx).elim ((h.list c₁).indexed x) ((h.list c₂).indexed x)
    · rw [update_of_ne hcc]
      by_cases hcc' : c = c₂
      · simp [hcc']
      · rw [update_of_ne hcc']
        exact (h.list c).indexed

/-- The first list takes over the `last` of the second one, which is `0` if that one is empty. -/
theorem AreLists.of_concat {c₁ c₂ : κ} (h : AreLists arrSz s l)
    (h' : AreLists arrSz (s.concat arrSz c₁ c₂) (update (update l c₂ []) c₁ (l c₁ ++ l c₂))) :
    l c₁ = [] ∨ l c₂ ≠ [] := by
  refine or_iff_not_imp_right.mpr fun hne => ?_
  have hlast := (h'.list c₁).last
  rw [update_self, not_not.mp hne, List.append_nil] at hlast
  have hzero : idOf (l c₁).getLast? = idOf (l c₂).getLast? :=
    hlast.symm.trans (Eq.trans (by simp only [State.concat, update_self]; rfl) (h.list c₂).last)
  rw [not_not.mp hne] at hzero
  exact List.getLast?_eq_none_iff.mp (idOf_eq_zero.mp hzero)

/-- `arr_list_concat` moves the elements of the second list to the end of the first one exactly if
not only the second one is empty. Operations that follow then act on this sequence. -/
theorem concat_refines_append {c₁ c₂ : κ} (h : AreLists arrSz s l) (hc : c₁ ≠ c₂) :
    l c₁ = [] ∨ l c₂ ≠ [] ↔ AreLists arrSz (s.concat arrSz c₁ c₂)
        (update (update l c₂ []) c₁ (l c₁ ++ l c₂)) ∧
      ∀ ops, AllowedRun arrSz (update (update l c₂ []) c₁ (l c₁ ++ l c₂)) ops →
        AreLists arrSz (run arrSz (s.concat arrSz c₁ c₂) ops).1
            (specRun (update (update l c₂ []) c₁ (l c₁ ++ l c₂)) ops).1 ∧
          (run arrSz (s.concat arrSz c₁ c₂) ops).2 =
            (specRun (update (update l c₂ []) c₁ (l c₁ ++ l c₂)) ops).2 := by
  refine ⟨fun hne => ?_, fun hlists => h.of_concat hlists.1⟩
  have hconcat := h.concat hc hne
  exact ⟨hconcat, fun ops hops => hconcat.run hops⟩

end Results

/-! ## Small arrays -/

/-- An array of zeroes and two empty lists. -/
def noElems : State Bool Unit :=
  { arr := fun _ => ⟨⟨0, 0⟩, ()⟩, heads := fun _ => arrListInit }

theorem noElems_lists (arrSz : ℕ) : AreLists arrSz noElems fun _ => [] :=
  ⟨fun _ => ⟨List.nodup_nil, by simp, rfl, rfl, trivial⟩, by simp⟩

/-- Two elements get on one list in the wrong order, one of them leaves and gets back on. -/
def swapTwo : List (Op Bool) :=
  [.insertHead true 1, .insertAfter true 1 0, .popFirst true, .insertTail true 1]

theorem run_refines_lists_swapTwo :
    AreLists 2 (run 2 noElems swapTwo).1 (specRun (fun _ => []) swapTwo).1 ∧
      (specRun (fun _ => []) swapTwo).1 true = [0, 1] ∧
      (run 2 noElems swapTwo).2 = [none, none, some 1, none] := by
  have hallowed : AllowedRun 2 (fun _ => []) swapTwo := by
    simp [swapTwo, AllowedRun, Allowed, Free, Indexed, spec]
  have hrun := run_refines_lists (noElems_lists 2) hallowed
  exact ⟨hrun.1, by decide, hrun.2.1.trans (by decide)⟩

/-- The last of `2 ^ 32` elements has the id `0`, so a list stays empty when it is inserted. -/
theorem insert_id_overflow :
    (step (2 ^ 32) noElems (.insertTail true (2 ^ 32 - 1))).1.heads true = ⟨0, 0⟩ ∧
      ∀ l, IsList (2 ^ 32) (step (2 ^ 32) noElems (.insertTail true (2 ^ 32 - 1))).1.arr
        ((step (2 ^ 32) noElems (.insertTail true (2 ^ 32 - 1))).1.heads true) l → l = [] := by
  refine ⟨by decide, fun l hl => ?_⟩
  have hfirst : idOf l.head? = 0 := hl.first.symm.trans (by decide)
  exact List.head?_eq_none_iff.mp (idOf_eq_zero.mp hfirst)

/-- The first list has one element, and the second one is empty. -/
def oneElem : State Bool Unit := (step 2 noElems (.insertTail true 0)).1

theorem oneElem_lists : AreLists 2 oneElem (update (fun _ => []) true [0]) :=
  ((noElems_lists 2).step
    (show Allowed 2 _ (.insertTail true 0) by simp [Allowed, Free, Indexed])).1

/-- Appending the empty list, and then an element that no loop from the first element finds. -/
theorem concat_loses_tail : AreLists 2 oneElem (update (fun _ => []) true [0]) ∧
      (oneElem.concat 2 true false).heads true = ⟨1, 0⟩ ∧
      ¬ IsList 2 (oneElem.concat 2 true false).arr ((oneElem.concat 2 true false).heads true) [0] ∧
      ((step 2 (oneElem.concat 2 true false) (.insertTail true 1)).1.arr 0).field.next = 0 ∧
      ¬ IsList 2 (step 2 (oneElem.concat 2 true false) (.insertTail true 1)).1.arr
        ((step 2 (oneElem.concat 2 true false) (.insertTail true 1)).1.heads true) [0, 1] := by
  refine ⟨oneElem_lists, by decide, fun h => ?_, by decide, fun h => ?_⟩
  · exact absurd h.last (by decide)
  · exact absurd h.links.2.1 (by decide)

/-- Each of the lists has one element. -/
def twoElems : State Bool Unit := (step 2 oneElem (.insertTail false 1)).1

theorem twoElems_lists : AreLists 2 twoElems (update (update (fun _ => []) true [0]) false [1]) :=
  (oneElem_lists.step (show Allowed 2 _ (.insertTail false 1) by simp [Allowed, Free, Indexed])).1

theorem concat_refines_append_twoElems :
    AreLists 2 (twoElems.concat 2 true false) (update (fun _ => []) true [0, 1]) := by
  have hconcat := ((concat_refines_append twoElems_lists (show true ≠ false by decide)).1
    (by decide)).1
  convert hconcat using 1
  funext c
  cases c <;> rfl

end BpfQueue
