import Mathlib.Algebra.Group.Nat.Defs
import Mathlib.Logic.Function.Basic

/-!
# The array lists of `lib/queue.bpf.h`

Doubly linked lists of elements of one array. The links are ids, which are indexes plus
one, and `0` is the end of a list.

* A pointer to an element is its index, and a pointer that may be null is an `Option ℕ`.
* Ids are `unsigned int`, so `elemToId` truncates to 32 bits. The size of the array is
  not limited that way.
* The operations are macros over one array, one head and one entry field. An element
  consists of this field and of everything else, which includes entries of other lists.

`step` is one operation on one of several lists.
-/

namespace BpfQueue

open Function

/-- `struct arr_list`. -/
structure ArrList where
  first : ℕ
  last : ℕ
  deriving DecidableEq, Repr

/-- `struct arr_list_entry`. -/
structure ArrListEntry where
  next : ℕ
  prev : ℕ
  deriving DecidableEq, Repr

/-- An element: the entry that the macros are given, and its other fields. -/
structure Elem (α : Type*) where
  field : ArrListEntry
  rest : α

abbrev Arr (α : Type*) := ℕ → Elem α

variable {α : Type*}

/-- `BOUNDED_ARRAY_IDX`. -/
def boundedArrayIdx (arrSz idx : ℕ) : Option ℕ :=
  if idx < arrSz then some idx else none

/-- `__id_to_elem`. -/
def idToElem (arrSz id : ℕ) : Option ℕ :=
  if id = 0 then none else boundedArrayIdx arrSz (id - 1)

/-- `__elem_to_id`, as an `unsigned int`. -/
def elemToId (elem : ℕ) : ℕ := (elem + 1) % 2 ^ 32

/-! ## Stores -/

def setNext (arr : Arr α) (elem id : ℕ) : Arr α :=
  update arr elem { arr elem with field := { (arr elem).field with next := id } }

def setPrev (arr : Arr α) (elem id : ℕ) : Arr α :=
  update arr elem { arr elem with field := { (arr elem).field with prev := id } }

/-- A store that is guarded by `if (elem)`. -/
def setNextOf (arr : Arr α) (elem : Option ℕ) (id : ℕ) : Arr α :=
  match elem with
  | none => arr
  | some e => setNext arr e id

/-- A store that is guarded by `if (elem)`. -/
def setPrevOf (arr : Arr α) (elem : Option ℕ) (id : ℕ) : Arr α :=
  match elem with
  | none => arr
  | some e => setPrev arr e id

/-! ## Operations -/

/-- `arr_list_init`. -/
def arrListInit : ArrList := ⟨0, 0⟩

section Operations

variable (arrSz : ℕ) (arr : Arr α) (head : ArrList)

/-- `arr_list_insert_head`. -/
def arrListInsertHead (elem : ℕ) : Arr α × ArrList :=
  let id := elemToId elem
  let arr := setPrev arr elem 0
  let arr := setNext arr elem head.first
  if head.first = 0 then (arr, ⟨id, id⟩)
  else (setPrevOf arr (idToElem arrSz head.first) id, { head with first := id })

/-- `arr_list_insert_tail`. -/
def arrListInsertTail (elem : ℕ) : Arr α × ArrList :=
  let id := elemToId elem
  let arr := setPrev arr elem head.last
  let arr := setNext arr elem 0
  if head.first = 0 then (arr, ⟨id, id⟩)
  else (setNextOf arr (idToElem arrSz head.last) id, { head with last := id })

/-- `arr_list_insert_before`. -/
def arrListInsertBefore (listElem elem : ℕ) : Arr α × ArrList :=
  let id := elemToId elem
  let lid := elemToId listElem
  let arr := setNextOf arr (idToElem arrSz (arr listElem).field.prev) id
  let arr := setPrev arr elem (arr listElem).field.prev
  let arr := setNext arr elem lid
  let arr := setPrev arr listElem id
  (arr, if head.first = lid then { head with first := id } else head)

/-- `arr_list_insert_after`. -/
def arrListInsertAfter (listElem elem : ℕ) : Arr α × ArrList :=
  let id := elemToId elem
  let lid := elemToId listElem
  let arr := setPrevOf arr (idToElem arrSz (arr listElem).field.next) id
  let arr := setPrev arr elem lid
  let arr := setNext arr elem (arr listElem).field.next
  let arr := setNext arr listElem id
  (arr, if head.last = lid then { head with last := id } else head)

/-- `arr_list_remove`. -/
def arrListRemove (elem : ℕ) : Arr α × ArrList :=
  let id := elemToId elem
  let arr := setNextOf arr (idToElem arrSz (arr elem).field.prev) (arr elem).field.next
  let arr := setPrevOf arr (idToElem arrSz (arr elem).field.next) (arr elem).field.prev
  let head := if head.first = id then { head with first := (arr elem).field.next } else head
  let head := if head.last = id then { head with last := (arr elem).field.prev } else head
  let arr := setPrev arr elem 0
  (setNext arr elem 0, head)

/-- `arr_list_pop_first`, with the element that it returns. -/
def arrListPopFirst : Option ℕ × Arr α × ArrList :=
  match idToElem arrSz head.first with
  | none => (none, arr, head)
  | some first =>
    let id := head.first
    let arr := setPrevOf arr (idToElem arrSz (arr first).field.next) 0
    let head := { head with first := (arr first).field.next }
    let head := if head.last = id then { head with last := 0 } else head
    (some first, setNext arr first 0, head)

/-- `arr_list_concat`, with both heads. -/
def arrListConcat (head1 head2 : ArrList) : Arr α × ArrList × ArrList :=
  let arr := setNextOf arr (idToElem arrSz head1.last) head2.first
  let arr := setPrevOf arr (idToElem arrSz head2.first) head1.last
  let head1 := if head1.first = 0 then { head1 with first := head2.first } else head1
  (arr, { head1 with last := head2.last }, arrListInit)

end Operations

/-! ## Several lists -/

/-- The array and the heads of the lists. -/
structure State (κ α : Type*) where
  arr : Arr α
  heads : κ → ArrList

inductive Op (κ : Type*) where
  | insertHead (list : κ) (elem : ℕ)
  | insertTail (list : κ) (elem : ℕ)
  | insertBefore (list : κ) (listElem elem : ℕ)
  | insertAfter (list : κ) (listElem elem : ℕ)
  | remove (list : κ) (elem : ℕ)
  | popFirst (list : κ)

variable {κ : Type*} [DecidableEq κ]

/-- The result of an operation on one list. -/
def State.write (s : State κ α) (c : κ) (r : Arr α × ArrList) : State κ α :=
  { arr := r.1, heads := update s.heads c r.2 }

/-- One operation, with the element that it returns. -/
def step (arrSz : ℕ) (s : State κ α) : Op κ → State κ α × Option ℕ
  | .insertHead c e => (s.write c (arrListInsertHead arrSz s.arr (s.heads c) e), none)
  | .insertTail c e => (s.write c (arrListInsertTail arrSz s.arr (s.heads c) e), none)
  | .insertBefore c m e => (s.write c (arrListInsertBefore arrSz s.arr (s.heads c) m e), none)
  | .insertAfter c m e => (s.write c (arrListInsertAfter arrSz s.arr (s.heads c) m e), none)
  | .remove c e => (s.write c (arrListRemove arrSz s.arr (s.heads c) e), none)
  | .popFirst c =>
    let r := arrListPopFirst arrSz s.arr (s.heads c)
    (s.write c r.2, r.1)

/-- `arr_list_concat` of two of the lists. -/
def State.concat (arrSz : ℕ) (s : State κ α) (c₁ c₂ : κ) : State κ α :=
  let r := arrListConcat arrSz s.arr (s.heads c₁) (s.heads c₂)
  { arr := r.1, heads := update (update s.heads c₂ r.2.2) c₁ r.2.1 }

/-- A sequence of operations, with what they return. -/
def run (arrSz : ℕ) : State κ α → List (Op κ) → State κ α × List (Option ℕ)
  | s, [] => (s, [])
  | s, op :: ops =>
    let (s', o) := step arrSz s op
    let (s'', os) := run arrSz s' ops
    (s'', o :: os)

end BpfQueue
