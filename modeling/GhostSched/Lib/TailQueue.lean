import Mathlib.Data.List.Induction
import Mathlib.Data.List.Nodup
import Mathlib.Logic.Function.Basic

/-!
# Tail queues

Doubly linked lists whose links are stored in the elements: a head knows the first and
the last element, and each element knows its neighbours. Several lists may share one map
of links, as long as no element is on two of them.

`IsQueue h lk l` says that the head `h` and the links `lk` form a well-formed list with
the elements `l`. The operations act on it as the ones on `List` do:

* `IsQueue.insertHead`, `IsQueue.insertTail`, `IsQueue.insertBefore`, `IsQueue.insertAfter`,
  `IsQueue.remove`, `IsQueue.popFirst` and `IsQueue.concat`;
* `insertHead_other` and the like: links of elements outside of the list are left alone, and
  `IsQueue.congr` turns this into a frame rule.

`AreQueues` is the same for a family of lists over one map of links, and `walk` and
`foreach` are loops with a bound on the number of elements they look at.
-/

namespace TailQueue

open Function

variable {ι : Type*}

structure Head (ι : Type*) where
  first : Option ι
  last : Option ι

structure Link (ι : Type*) where
  next : Option ι
  prev : Option ι

def Head.empty : Head ι := ⟨none, none⟩

/-! ## Operations -/

section Operations

variable [DecidableEq ι]

def setNext (lk : ι → Link ι) (n : Option ι) : Option ι → ι → Link ι
  | none => lk
  | some p => update lk p { lk p with next := n }

def setPrev (lk : ι → Link ι) (p : Option ι) : Option ι → ι → Link ι
  | none => lk
  | some n => update lk n { lk n with prev := p }

def insertHead (h : Head ι) (lk : ι → Link ι) (e : ι) : Head ι × (ι → Link ι) :=
  (⟨some e, if h.first = none then some e else h.last⟩,
    setPrev (update lk e ⟨h.first, none⟩) (some e) h.first)

def insertTail (h : Head ι) (lk : ι → Link ι) (e : ι) : Head ι × (ι → Link ι) :=
  (⟨if h.first = none then some e else h.first, some e⟩,
    if h.first = none then update lk e ⟨none, h.last⟩
    else setNext (update lk e ⟨none, h.last⟩) (some e) h.last)

def remove (h : Head ι) (lk : ι → Link ι) (e : ι) : Head ι × (ι → Link ι) :=
  let lk := setNext lk (lk e).next (lk e).prev
  let lk := setPrev lk (lk e).prev (lk e).next
  let first := if h.first = some e then (lk e).next else h.first
  let last := if h.last = some e then (lk e).prev else h.last
  (⟨first, last⟩, update lk e ⟨none, none⟩)

/-- Insert an element in front of the element `m` of the list. -/
def insertBefore (h : Head ι) (lk : ι → Link ι) (m e : ι) : Head ι × (ι → Link ι) :=
  let lk := setNext lk (some e) (lk m).prev
  let lk := update lk e ⟨some m, (lk m).prev⟩
  (⟨if h.first = some m then some e else h.first, h.last⟩, setPrev lk (some e) (some m))

/-- Insert an element behind the element `m` of the list. -/
def insertAfter (h : Head ι) (lk : ι → Link ι) (m e : ι) : Head ι × (ι → Link ι) :=
  let lk := setPrev lk (some e) (lk m).next
  let lk := update lk e ⟨(lk m).next, some m⟩
  (⟨h.first, if h.last = some m then some e else h.last⟩, setNext lk (some e) (some m))

def popFirst (h : Head ι) (lk : ι → Link ι) : Head ι × (ι → Link ι) :=
  match h.first with
  | none => (h, lk)
  | some e =>
    let lk := setPrev lk none (lk e).next
    (⟨(lk e).next, if h.last = some e then none else h.last⟩,
      update lk e { lk e with next := none })

/-- Append a list that is not empty, unless this one is empty, too. -/
def concat (h₁ h₂ : Head ι) (lk : ι → Link ι) : Head ι × (ι → Link ι) :=
  (⟨if h₁.first = none then h₂.first else h₁.first, h₂.last⟩,
    setPrev (setNext lk h₂.first h₁.last) h₁.last h₂.first)

end Operations

/-- The elements that a loop of at most `n` rounds sees. -/
def walk (lk : ι → Link ι) : ℕ → Option ι → List ι
  | 0, _ => []
  | _ + 1, none => []
  | n + 1, some e => e :: walk lk n (lk e).next

/-- The loop variable after a loop of at most `n` rounds that breaks at an element: it is
set if the loop broke, and also if it was stopped short. -/
def foreach (lk : ι → Link ι) (stop : ι → Bool) : ℕ → Option ι → Option ι
  | _, none => none
  | 0, some e => some e
  | n + 1, some e => if stop e then some e else foreach lk stop n (lk e).next

/-! ## Segments -/

variable {h : Head ι} {lk lk' : ι → Link ι} {p n : Option ι} {l l₁ l₂ : List ι} {e x : ι}

/-- The links run through `l`, behind `p` and in front of `n`. -/
def Seg (lk : ι → Link ι) (p : Option ι) : List ι → Option ι → Prop
  | [], _ => True
  | a :: l, n => (lk a).prev = p ∧ (lk a).next = l.head?.or n ∧ Seg lk (some a) l n

/-- Only the links of its elements matter. -/
theorem Seg.congr (hs : Seg lk p l n) (hlk : ∀ x ∈ l, lk' x = lk x) : Seg lk' p l n := by
  induction l generalizing p with
  | nil => trivial
  | cons a l ih =>
    rcases hs with ⟨hprev, hnext, hs⟩
    refine ⟨?_, ?_, ih hs fun x hx => hlk x (List.mem_cons_of_mem a hx)⟩
    · rw [hlk a List.mem_cons_self, hprev]
    · rw [hlk a List.mem_cons_self, hnext]

/-- Two segments in a row. -/
theorem seg_append : Seg lk p (l₁ ++ l₂) n ↔
    Seg lk p l₁ (l₂.head?.or n) ∧ Seg lk (l₁.getLast?.or p) l₂ n := by
  induction l₁ generalizing p with
  | nil => simp [Seg]
  | cons a l ih =>
    grind [Seg]

section Update

variable [DecidableEq ι]

/-- Another element comes to stand behind a segment. -/
theorem Seg.setNext (hs : Seg lk p l n) (hl : l.Nodup) (n' : Option ι) :
    Seg (setNext lk n' l.getLast?) p l n' := by
  induction l using List.reverseRecOn with
  | nil => trivial
  | append_singleton l a _ =>
    rw [List.getLast?_concat]
    have ha : a ∉ l := by
      intro hmem
      exact List.disjoint_of_nodup_append hl hmem List.mem_cons_self
    rw [seg_append] at hs ⊢
    refine ⟨hs.1.congr ?_, ?_⟩
    · intro x hx
      exact update_of_ne (ne_of_mem_of_not_mem hx ha) ..
    · refine ⟨?_, ?_, trivial⟩
      · show (update lk a _ a).prev = _
        rw [update_self]
        exact hs.2.1
      · show (update lk a _ a).next = _
        rw [update_self]
        rfl

/-- Another element comes to stand in front of a segment. -/
theorem Seg.setPrev (hs : Seg lk p l n) (hl : l.Nodup) (p' : Option ι) :
    Seg (setPrev lk p' l.head?) p' l n := by
  cases l with
  | nil => trivial
  | cons a l =>
    rcases hs with ⟨_, hnext, hs⟩
    refine ⟨?_, ?_, hs.congr ?_⟩
    · show (update lk a _ a).prev = _
      rw [update_self]
    · show (update lk a _ a).next = _
      rw [update_self]
      exact hnext
    · intro x hx
      exact update_of_ne (ne_of_mem_of_not_mem hx (List.nodup_cons.mp hl).1) ..

/-- The links of the other elements stay. -/
theorem setNext_of_ne (hx : p ≠ some x) : TailQueue.setNext lk n p x = lk x := by
  cases p with
  | none => rfl
  | some q => exact update_of_ne (fun hq => hx (congrArg some hq.symm)) ..

/-- The links of the other elements stay. -/
theorem setPrev_of_ne (hx : n ≠ some x) : TailQueue.setPrev lk p n x = lk x := by
  cases n with
  | none => rfl
  | some q => exact update_of_ne (fun hq => hx (congrArg some hq.symm)) ..

theorem setNext_congr (hx : lk' x = lk x) :
    TailQueue.setNext lk' n p x = TailQueue.setNext lk n p x := by
  cases p with
  | none => exact hx
  | some q =>
    by_cases hq : x = q
    · subst hq
      simp only [TailQueue.setNext, update_self, hx]
    · grind [setNext_of_ne, Option.some.inj]

theorem setPrev_congr (hx : lk' x = lk x) :
    TailQueue.setPrev lk' p n x = TailQueue.setPrev lk p n x := by
  cases n with
  | none => exact hx
  | some q =>
    by_cases hq : x = q
    · subst hq
      simp only [TailQueue.setPrev, update_self, hx]
    · grind [setPrev_of_ne, Option.some.inj]

/-- An element is put between two parts of a list. -/
theorem Seg.splice (l₁ l₂ : List ι) (hs : Seg lk none (l₁ ++ l₂) none) (hl : (l₁ ++ l₂).Nodup)
    (hself : lk' e = ⟨l₂.head?, l₁.getLast?⟩)
    (hleft : ∀ x ∈ l₁, lk' x = TailQueue.setNext lk (some e) l₁.getLast? x)
    (hright : ∀ x ∈ l₂, lk' x = TailQueue.setPrev lk (some e) l₂.head? x) :
    Seg lk' none (l₁ ++ e :: l₂) none := by
  rcases seg_append.mp hs with ⟨hl₁, hl₂⟩
  rcases List.nodup_append.mp hl with ⟨hnodup₁, hnodup₂, -⟩
  refine seg_append.mpr ⟨(hl₁.setNext hnodup₁ (some e)).congr hleft, ?_, ?_, ?_⟩
  · rw [hself, Option.or_none]
  · rw [hself, Option.or_none]
  · exact (hl₂.setPrev hnodup₂ (some e)).congr hright

end Update

/-! ## Queues -/

/-- The head and the links form a well-formed list of the elements `l`. -/
structure IsQueue (h : Head ι) (lk : ι → Link ι) (l : List ι) : Prop where
  nodup : l.Nodup
  first : h.first = l.head?
  last : h.last = l.getLast?
  links : Seg lk none l none

theorem isQueue_empty (lk : ι → Link ι) : IsQueue .empty lk [] :=
  ⟨List.nodup_nil, rfl, rfl, trivial⟩

/-- Only the links of the elements matter. -/
theorem IsQueue.congr (hq : IsQueue h lk l) (hlk : ∀ x ∈ l, lk' x = lk x) : IsQueue h lk' l :=
  ⟨hq.nodup, hq.first, hq.last, hq.links.congr hlk⟩

section Queue

variable [DecidableEq ι]

/-- The element is first. -/
theorem IsQueue.insertHead (hq : IsQueue h lk l) (he : e ∉ l) :
    IsQueue (insertHead h lk e).1 (insertHead h lk e).2 (e :: l) := by
  have hself : l.head? ≠ some e := fun h => he (List.mem_of_head? h)
  constructor
  · exact List.nodup_cons.mpr ⟨he, hq.nodup⟩
  · rfl
  · show (if h.first = none then some e else h.last) = _
    rw [hq.first, hq.last]
    cases l with
    | nil | cons a l => rfl
  · show Seg (TailQueue.setPrev _ (some e) h.first) _ ([] ++ e :: l) _
    rw [hq.first]
    refine Seg.splice [] l hq.links hq.nodup ?_ (by simp) fun x hx => ?_
    · rw [setPrev_of_ne hself, update_self]
      rfl
    · exact setPrev_congr (update_of_ne (ne_of_mem_of_not_mem hx he) ..)

/-- The element is last. -/
theorem IsQueue.insertTail (hq : IsQueue h lk l) (he : e ∉ l) :
    IsQueue (insertTail h lk e).1 (insertTail h lk e).2 (l ++ [e]) := by
  have hself : l.getLast? ≠ some e := fun h => he (List.mem_of_getLast? h)
  have hlinks : (TailQueue.insertTail h lk e).2 =
      TailQueue.setNext (update lk e ⟨none, h.last⟩) (some e) h.last := by
    unfold TailQueue.insertTail
    rw [hq.first, hq.last]
    cases l with
    | nil | cons a l => rfl
  constructor
  · rw [← List.concat_eq_append]
    exact hq.nodup.concat he
  · show (if h.first = none then some e else h.first) = _
    rw [hq.first]
    cases l with
    | nil | cons a l => rfl
  · exact (List.getLast?_concat).symm
  · rw [hlinks, hq.last]
    refine Seg.splice l [] (by simpa using hq.links) (by simpa using hq.nodup) ?_
      (fun x hx => ?_) (by simp)
    · rw [setNext_of_ne hself, update_self]
      rfl
    · exact setNext_congr (update_of_ne (ne_of_mem_of_not_mem hx he) ..)

variable {m : ι}

section

variable (hq : IsQueue h lk (l₁ ++ m :: l₂))
include hq

omit [DecidableEq ι] in
/-- The parts of a list in front of and behind one of its elements. -/
theorem IsQueue.split :
    (lk m).prev = l₁.getLast? ∧ (lk m).next = l₂.head? ∧ m ∉ l₁ ∧ m ∉ l₂ ∧ (∀ x ∈ l₁, x ∉ l₂) := by
  have hnodup := List.nodup_append.mp hq.nodup
  rcases seg_append.mp hq.links with ⟨-, hprev, hnext, -⟩
  rw [Option.or_none] at hprev hnext
  refine ⟨hprev, hnext, fun h => ?_, (List.nodup_cons.mp hnodup.2.1).1, fun x hx hx' => ?_⟩
  · exact hnodup.2.2 m h m List.mem_cons_self rfl
  · exact hnodup.2.2 x hx x (List.mem_cons_of_mem m hx') rfl

/-- The element is spliced in before `m`. -/
theorem IsQueue.insertBefore (he : e ∉ l₁ ++ m :: l₂) :
    IsQueue (insertBefore h lk m e).1 (insertBefore h lk m e).2 (l₁ ++ e :: m :: l₂) := by
  rcases hq.split with ⟨hprev, -, hm₁, -, hdisj⟩
  simp only [List.mem_append, List.mem_cons, not_or] at he
  rcases he with ⟨he₁, hem, he₂⟩
  have hlast : ∀ {x}, x ∉ l₁ → l₁.getLast? ≠ some x := fun hx h => hx (List.mem_of_getLast? h)
  have hlinks : (TailQueue.insertBefore h lk m e).2 =
      TailQueue.setPrev (Function.update (TailQueue.setNext lk (some e) l₁.getLast?) e
        ⟨some m, l₁.getLast?⟩) (some e) (some m) := by
    simp only [TailQueue.insertBefore, hprev, setNext_of_ne (hlast hm₁)]
  constructor
  · have hperm : (l₁ ++ e :: m :: l₂).Perm (e :: (l₁ ++ m :: l₂)) := List.perm_middle
    exact hperm.nodup_iff.mpr (List.nodup_cons.mpr ⟨by simp [he₁, hem, he₂], hq.nodup⟩)
  · show (if h.first = some m then some e else h.first) = _
    rw [hq.first]
    cases l₁ with
    | nil => exact if_pos rfl
    | cons a l₁ =>
      have ha : a ≠ m := ne_of_mem_of_not_mem List.mem_cons_self hm₁
      exact if_neg fun h => ha (Option.some.inj h)
  · show h.last = _
    rw [hq.last]
    simp [List.getLast?_append, List.getLast?_cons]
  · rw [hlinks]
    refine Seg.splice l₁ (m :: l₂) hq.links hq.nodup ?_ (fun x hx => ?_) fun x hx => ?_
    · rw [setPrev_of_ne (fun h => hem (Option.some.inj h).symm), Function.update_self]
      rfl
    · have hxm : m ≠ x := (ne_of_mem_of_not_mem hx hm₁).symm
      rw [setPrev_of_ne (Option.some_inj.not.mpr hxm),
        Function.update_of_ne (ne_of_mem_of_not_mem hx he₁)]
    · have hxe : x ≠ e := by
        rintro rfl
        exact (List.mem_cons.mp hx).elim hem he₂
      have hx₁ : x ∉ l₁ := by
        rcases List.mem_cons.mp hx with rfl | hx
        · exact hm₁
        · exact fun h => hdisj x h hx
      exact setPrev_congr ((Function.update_of_ne hxe ..).trans (setNext_of_ne (hlast hx₁)))

/-- The element is spliced in after `m`. -/
theorem IsQueue.insertAfter (he : e ∉ l₁ ++ m :: l₂) :
    IsQueue (insertAfter h lk m e).1 (insertAfter h lk m e).2 (l₁ ++ m :: e :: l₂) := by
  rcases hq.split with ⟨-, hnext, hm₁, hm₂, hdisj⟩
  simp only [List.mem_append, List.mem_cons, not_or] at he
  rcases he with ⟨he₁, hem, he₂⟩
  have hhead : ∀ {x}, x ∉ l₂ → l₂.head? ≠ some x := fun hx h => hx (List.mem_of_head? h)
  have hlinks : (TailQueue.insertAfter h lk m e).2 =
      TailQueue.setNext (update (TailQueue.setPrev lk (some e) l₂.head?) e
        ⟨l₂.head?, some m⟩) (some e) (some m) := by
    simp only [TailQueue.insertAfter, hnext, setPrev_of_ne (hhead hm₂)]
  have happend : ∀ r, l₁ ++ m :: r = (l₁ ++ [m]) ++ r := fun r => by simp
  constructor
  · grind [hq.nodup]
  · show h.first = _
    rw [hq.first]
    cases l₁ <;> rfl
  · show (if h.last = some m then some e else h.last) = _
    rw [hq.last]
    cases l₂ using List.reverseRecOn with
    | nil => simp
    | append_singleton l₂ a =>
      have ha : a ≠ m := ne_of_mem_of_not_mem (List.mem_append_right l₂ List.mem_cons_self) hm₂
      rw [happend, ← List.append_assoc, List.getLast?_concat,
        if_neg fun h => ha (Option.some.inj h), happend, ← List.cons_append, ← List.append_assoc,
        List.getLast?_concat]
  · rw [hlinks, happend]
    rw [happend] at hq
    have hlast : (l₁ ++ [m]).getLast? = some m := List.getLast?_concat
    refine Seg.splice (l₁ ++ [m]) l₂ hq.links hq.nodup ?_ (fun x hx => ?_) fun x hx => ?_
    · rw [setNext_of_ne (fun h => hem (Option.some.inj h).symm), update_self, hlast]
    · grind [setNext_congr, setPrev_of_ne]
    · grind [setNext_of_ne]

end

/-- Linking the neighbours of an element does not change the element. -/
theorem remove_eq (he₁ : e ∉ l₁) (he₂ : e ∉ l₂) (hprev : (lk e).prev = l₁.getLast?)
    (hnext : (lk e).next = l₂.head?) :
    TailQueue.remove h lk e = (⟨if h.first = some e then l₂.head? else h.first,
        if h.last = some e then l₁.getLast? else h.last⟩,
        update (TailQueue.setPrev (TailQueue.setNext lk l₂.head? l₁.getLast?)
          l₁.getLast? l₂.head?) e ⟨none, none⟩) := by
  have hself₁ : TailQueue.setNext lk l₂.head? l₁.getLast? e = lk e :=
    setNext_of_ne fun h => he₁ (List.mem_of_getLast? h)
  have hself₂ : TailQueue.setPrev (TailQueue.setNext lk l₂.head? l₁.getLast?)
      l₁.getLast? l₂.head? e = lk e :=
    (setPrev_of_ne fun h => he₂ (List.mem_of_head? h)).trans hself₁
  simp only [TailQueue.remove, hprev, hnext, hself₁, hself₂]

/-- The neighbours are linked to each other. -/
theorem IsQueue.remove (hq : IsQueue h lk l) (he : e ∈ l) :
    IsQueue (remove h lk e).1 (remove h lk e).2 (l.erase e) := by
  rcases List.append_of_mem he with ⟨l₁, l₂, rfl⟩
  have hnodup := List.nodup_append.mp hq.nodup
  have he₂ : e ∉ l₂ := (List.nodup_cons.mp hnodup.2.1).1
  have he₁ : e ∉ l₁ := fun h => hnodup.2.2 e h e List.mem_cons_self rfl
  have hdisj : ∀ x ∈ l₁, ∀ y ∈ l₂, x ≠ y :=
    fun x hx y hy => hnodup.2.2 x hx y (List.mem_cons_of_mem e hy)
  rcases seg_append.mp hq.links with ⟨hl₁, hprev, hnext, hl₂⟩
  rw [Option.or_none] at hprev hnext
  rw [remove_eq he₁ he₂ hprev hnext, List.erase_append_right _ he₁, List.erase_cons_head]
  constructor
  · exact List.nodup_append.mpr ⟨hnodup.1, (List.nodup_cons.mp hnodup.2.1).2, hdisj⟩
  · rw [hq.first]
    cases l₁ with
    | nil => exact if_pos rfl
    | cons a l₁ =>
      have ha : a ≠ e := ne_of_mem_of_not_mem List.mem_cons_self he₁
      exact if_neg fun h => ha (Option.some.inj h)
  · grind [hq.last]
  · have hlinked : Seg (TailQueue.setPrev (TailQueue.setNext lk l₂.head? l₁.getLast?)
        l₁.getLast? l₂.head?) none (l₁ ++ l₂) none := by
      rw [seg_append, Option.or_none, Option.or_none]
      constructor
      · refine (hl₁.setNext hnodup.1 l₂.head?).congr ?_
        intro x hx
        exact setPrev_of_ne fun h => hdisj x hx x (List.mem_of_head? h) rfl
      · refine Seg.setPrev (p := some e) (hl₂.congr ?_) (List.nodup_cons.mp hnodup.2.1).2 _
        grind [setNext_of_ne]
    apply hlinked.congr
    intro x hx
    apply update_of_ne
    rintro rfl
    exact (List.mem_append.mp hx).elim he₁ he₂

/-- The second element is first. -/
theorem IsQueue.popFirst (hq : IsQueue h lk l) :
    IsQueue (popFirst h lk).1 (popFirst h lk).2 l.tail := by
  cases l with
  | nil =>
    grind [hq.first, TailQueue.popFirst]
  | cons e l =>
    have hsome : h.first = some e := hq.first
    rcases hq.links with ⟨-, hnext, hl⟩
    rw [Option.or_none] at hnext
    rcases List.nodup_cons.mp hq.nodup with ⟨he, hnodup⟩
    have hself : TailQueue.setPrev lk none l.head? e = lk e :=
      setPrev_of_ne fun h => he (List.mem_of_head? h)
    simp only [TailQueue.popFirst, hsome, hnext, hself]
    constructor
    · exact hnodup
    · rfl
    · grind [hq.last]
    · refine (hl.setPrev hnodup none).congr fun x hx => ?_
      exact update_of_ne (ne_of_mem_of_not_mem hx he) ..

variable {h₁ h₂ : Head ι}

/-- Nothing is appended to a list that is not empty only if there is nothing to append. -/
theorem IsQueue.concat (hq₁ : IsQueue h₁ lk l₁) (hq₂ : IsQueue h₂ lk l₂)
    (hdisj : ∀ x ∈ l₁, x ∉ l₂) (hne : l₁ = [] ∨ l₂ ≠ []) :
    IsQueue (concat h₁ h₂ lk).1 (concat h₁ h₂ lk).2 (l₁ ++ l₂) := by
  constructor
  · grind [hq₁.nodup, hq₂.nodup]
  · show (if h₁.first = none then h₂.first else h₁.first) = _
    rw [hq₁.first, hq₂.first]
    cases l₁ <;> rfl
  · show h₂.last = _
    rw [hq₂.last]
    rcases hne with rfl | hne
    · rfl
    · rw [List.getLast?_append_of_ne_nil _ hne]
  · show Seg (TailQueue.setPrev (TailQueue.setNext lk h₂.first h₁.last) h₁.last h₂.first) _ _ _
    rw [hq₂.first, hq₁.last, seg_append, Option.or_none, Option.or_none]
    constructor
    · refine (hq₁.links.setNext hq₁.nodup l₂.head?).congr fun x hx => ?_
      exact setPrev_of_ne fun h => hdisj x hx (List.mem_of_head? h)
    · refine Seg.setPrev (hq₂.links.congr fun x hx => ?_) hq₂.nodup _
      exact setNext_of_ne fun h => hdisj x (List.mem_of_getLast? h) hx

/-! ### Links of other elements -/

section

variable (hq : IsQueue h lk l)
include hq

theorem IsQueue.insertHead_other (hx : x ∉ l) (hxe : x ≠ e) :
    (TailQueue.insertHead h lk e).2 x = lk x := by
  have hfirst : h.first ≠ some x := by
    rw [hq.first]
    exact fun h => hx (List.mem_of_head? h)
  exact (setPrev_of_ne hfirst).trans (update_of_ne hxe ..)

theorem IsQueue.insertTail_other (hx : x ∉ l) (hxe : x ≠ e) :
    (TailQueue.insertTail h lk e).2 x = lk x := by
  have hlast : h.last ≠ some x := by
    rw [hq.last]
    exact fun h => hx (List.mem_of_getLast? h)
  show (if h.first = none then _ else _ : ι → Link ι) x = lk x
  split
  · exact update_of_ne hxe ..
  · exact (setNext_of_ne hlast).trans (update_of_ne hxe ..)

theorem IsQueue.insertBefore_other (hm : m ∈ l) (hx : x ∉ l) (hxe : x ≠ e) :
    (TailQueue.insertBefore h lk m e).2 x = lk x := by
  rcases List.append_of_mem hm with ⟨l₁, l₂, rfl⟩
  have hxm : m ≠ x := ne_of_mem_of_not_mem hm hx
  have hprev : (lk m).prev ≠ some x := by
    grind [hq.split]
  exact (setPrev_of_ne (Option.some_inj.not.mpr hxm)).trans
    ((update_of_ne hxe ..).trans (setNext_of_ne hprev))

theorem IsQueue.insertAfter_other (hm : m ∈ l) (hx : x ∉ l) (hxe : x ≠ e) :
    (TailQueue.insertAfter h lk m e).2 x = lk x := by
  rcases List.append_of_mem hm with ⟨l₁, l₂, rfl⟩
  have hxm : m ≠ x := ne_of_mem_of_not_mem hm hx
  have hnext : (lk m).next ≠ some x := by
    rw [hq.split.2.1]
    exact fun h => hx (List.mem_append_right _ (List.mem_cons_of_mem _ (List.mem_of_head? h)))
  exact (setNext_of_ne (Option.some_inj.not.mpr hxm)).trans
    ((update_of_ne hxe ..).trans (setPrev_of_ne hnext))

theorem IsQueue.popFirst_other (hx : x ∉ l) : (TailQueue.popFirst h lk).2 x = lk x := by
  cases l with
  | nil =>
    have hnone : h.first = none := hq.first
    simp only [TailQueue.popFirst, hnone]
  | cons e l =>
    have hsome : h.first = some e := hq.first
    have hnext : (lk e).next ≠ some x := by
      rw [hq.links.2.1, Option.or_none]
      exact fun h => hx (List.mem_cons_of_mem e (List.mem_of_head? h))
    have hxe : x ≠ e := fun h => hx (h ▸ List.mem_cons_self)
    simp only [TailQueue.popFirst, hsome]
    rw [update_of_ne hxe, setPrev_of_ne hnext]

end

/-- Only the two ends that meet are written. -/
theorem IsQueue.concat_other (hq₁ : IsQueue h₁ lk l₁) (hq₂ : IsQueue h₂ lk l₂) (hx₁ : x ∉ l₁)
    (hx₂ : x ∉ l₂) : (TailQueue.concat h₁ h₂ lk).2 x = lk x := by
  refine (setPrev_of_ne ?_).trans (setNext_of_ne ?_)
  · rw [hq₂.first]
    exact fun h => hx₂ (List.mem_of_head? h)
  · rw [hq₁.last]
    exact fun h => hx₁ (List.mem_of_getLast? h)

/-- Only the neighbours are written. -/
theorem IsQueue.remove_other (hq : IsQueue h lk l) (he : e ∈ l) (hx : x ∉ l) :
    (TailQueue.remove h lk e).2 x = lk x := by
  rcases List.append_of_mem he with ⟨l₁, l₂, rfl⟩
  have hnodup := List.nodup_append.mp hq.nodup
  have he₂ : e ∉ l₂ := (List.nodup_cons.mp hnodup.2.1).1
  have he₁ : e ∉ l₁ := fun h => hnodup.2.2 e h e List.mem_cons_self rfl
  rcases seg_append.mp hq.links with ⟨_, hprev, hnext, _⟩
  rw [Option.or_none] at hprev hnext
  rw [remove_eq he₁ he₂ hprev hnext]
  refine (update_of_ne (ne_of_mem_of_not_mem he hx).symm ..).trans
    ((setPrev_of_ne ?_).trans (setNext_of_ne ?_))
  · exact fun h => hx (List.mem_append_right _ (List.mem_cons_of_mem _ (List.mem_of_head? h)))
  · exact fun h => hx (List.mem_append_left _ (List.mem_of_getLast? h))

end Queue

/-! ### Loops -/

/-- A walk that stops after `n` elements. -/
theorem Seg.walk {n : ℕ} (hs : Seg lk p l none) : TailQueue.walk lk n l.head? = l.take n := by
  induction l generalizing n p with
  | nil => cases n <;> rfl
  | cons a l ih =>
    rcases hs with ⟨_, hnext, hs⟩
    cases n with
    | zero => rfl
    | succ n =>
      grind [TailQueue.walk]

/-- The same from the head. -/
theorem IsQueue.walk {n : ℕ} (hq : IsQueue h lk l) : TailQueue.walk lk n h.first = l.take n := by
  rw [hq.first]
  exact hq.links.walk

/-- A loop that sees the whole list. -/
theorem IsQueue.walk_eq {n : ℕ} (hq : IsQueue h lk l) (hn : l.length ≤ n) :
    TailQueue.walk lk n h.first = l :=
  hq.walk.trans (List.take_of_length_le hn)

variable {stop : ι → Bool}

/-- The loop stops where `stop` says, or at the end, or after `n` elements. -/
theorem Seg.foreach {n : ℕ} (hs : Seg lk p l none) :
    TailQueue.foreach lk stop n l.head? = ((l.take n).find? stop).or l[n]? := by
  induction l generalizing n p with
  | nil => cases n <;> rfl
  | cons a l ih =>
    rcases hs with ⟨_, hnext, hs⟩
    cases n with
    | zero => rfl
    | succ n =>
      grind [TailQueue.foreach]

/-- The same from the head. -/
theorem IsQueue.foreach {n : ℕ} (hq : IsQueue h lk l) :
    TailQueue.foreach lk stop n h.first = ((l.take n).find? stop).or l[n]? := by
  rw [hq.first]
  exact hq.links.foreach

/-- What a loop ends at is on the list. -/
theorem IsQueue.mem_of_foreach {n : ℕ} (hq : IsQueue h lk l)
    (he : TailQueue.foreach lk stop n h.first = some e) : e ∈ l := by
  rw [hq.foreach] at he
  grind [Option.or_eq_some_iff]

/-! ## Several queues -/

/-- The heads `h` and the links `lk` form well-formed lists with the elements `l`, and no
element is on two of them. -/
structure AreQueues {κ : Type*} (h : κ → Head ι) (lk : ι → Link ι) (l : κ → List ι) : Prop where
  queue : ∀ c, IsQueue (h c) lk (l c)
  disjoint : ∀ c c', c ≠ c' → ∀ x ∈ l c, x ∉ l c'

section Family

variable {κ : Type*} [DecidableEq κ] {h : κ → Head ι} {h' : Head ι} {l : κ → List ι} {l' : List ι}
  {c : κ}

/-- One of the lists changes, by elements that no other list has. -/
theorem AreQueues.replace (hq : AreQueues h lk l) (hnew : IsQueue h' lk' l')
    (helems : ∀ x ∈ l', x ∈ l c ∨ ∀ c', x ∉ l c')
    (hlinks : ∀ c' ≠ c, ∀ x ∈ l c', lk' x = lk x) :
    AreQueues (update h c h') lk' (update l c l') := by
  -- an element of the new list is on no other
  have hother : ∀ c' ≠ c, ∀ x ∈ l', x ∉ l c' := by
    grind [hq.disjoint]
  constructor
  · intro c'
    rw [update_apply]
    split_ifs with hc
    · subst hc
      rw [update_self]
      exact hnew
    · rw [update_of_ne hc]
      exact (hq.queue c').congr (hlinks c' hc)
  · grind [hq.disjoint]

variable [DecidableEq ι]

section

variable (hq : AreQueues h lk l)
include hq

/-- One queue gets an element, and the other ones stay. -/
theorem AreQueues.insertHead (he : ∀ c, e ∉ l c) :
    AreQueues (update h c (insertHead (h c) lk e).1) (insertHead (h c) lk e).2
      (update l c (e :: l c)) := by
  refine hq.replace ((hq.queue c).insertHead (he c)) ?_ ?_
  · intro x hx
    rcases List.mem_cons.mp hx with rfl | hx
    · exact .inr he
    · exact .inl hx
  · intro c' hc x hx
    exact (hq.queue c).insertHead_other (hq.disjoint c' c hc x hx) (ne_of_mem_of_not_mem hx (he c'))

/-- One queue gets an element, and the other ones stay. -/
theorem AreQueues.insertTail (he : ∀ c, e ∉ l c) :
    AreQueues (update h c (insertTail (h c) lk e).1) (insertTail (h c) lk e).2
      (update l c (l c ++ [e])) := by
  refine hq.replace ((hq.queue c).insertTail (he c)) ?_ ?_
  · intro x hx
    rcases List.mem_append.mp hx with hx | hx
    · exact .inl hx
    · rw [List.mem_singleton.mp hx]
      exact .inr he
  · intro c' hc x hx
    exact (hq.queue c).insertTail_other (hq.disjoint c' c hc x hx) (ne_of_mem_of_not_mem hx (he c'))

/-- One queue loses an element, and the other ones stay. -/
theorem AreQueues.remove (he : e ∈ l c) :
    AreQueues (update h c (remove (h c) lk e).1) (remove (h c) lk e).2
      (update l c ((l c).erase e)) := by
  refine hq.replace ((hq.queue c).remove he) ?_ ?_
  · intro x hx
    exact .inl (List.mem_of_mem_erase hx)
  · intro c' hc x hx
    exact (hq.queue c).remove_other he (hq.disjoint c' c hc x hx)

variable {m : ι}

theorem AreQueues.insertBefore (hc : l c = l₁ ++ m :: l₂) (he : ∀ c, e ∉ l c) :
    AreQueues (update h c (insertBefore (h c) lk m e).1) (insertBefore (h c) lk m e).2
      (update l c (l₁ ++ e :: m :: l₂)) := by
  have hm : m ∈ l c := by simp [hc]
  refine hq.replace ((hc ▸ hq.queue c).insertBefore (hc ▸ he c)) ?_ ?_
  · intro x hx
    rw [hc]
    by_cases hxe : x = e
    · exact .inr (hxe ▸ he)
    · exact .inl (by simpa [hxe] using hx)
  · intro c' hc' x hx
    exact (hq.queue c).insertBefore_other hm (hq.disjoint c' c hc' x hx)
      (ne_of_mem_of_not_mem hx (he c'))

theorem AreQueues.insertAfter (hc : l c = l₁ ++ m :: l₂) (he : ∀ c, e ∉ l c) :
    AreQueues (update h c (insertAfter (h c) lk m e).1) (insertAfter (h c) lk m e).2
      (update l c (l₁ ++ m :: e :: l₂)) := by
  have hm : m ∈ l c := by simp [hc]
  refine hq.replace ((hc ▸ hq.queue c).insertAfter (hc ▸ he c)) ?_ ?_
  · intro x hx
    rw [hc]
    by_cases hxe : x = e
    · exact .inr (hxe ▸ he)
    · exact .inl (by simpa [hxe] using hx)
  · intro c' hc' x hx
    exact (hq.queue c).insertAfter_other hm (hq.disjoint c' c hc' x hx)
      (ne_of_mem_of_not_mem hx (he c'))

/-- One queue loses its first element, and the other ones stay. -/
theorem AreQueues.popFirst (c : κ) :
    AreQueues (update h c (popFirst (h c) lk).1) (popFirst (h c) lk).2 (update l c (l c).tail) := by
  refine hq.replace (hq.queue c).popFirst ?_ ?_
  · intro x hx
    exact .inl (List.mem_of_mem_tail hx)
  · intro c' hc' x hx
    exact (hq.queue c).popFirst_other (hq.disjoint c' c hc' x hx)

/-- The elements of one list go to another one. -/
theorem AreQueues.concat {c' : κ} (hc : c ≠ c') (hne : l c = [] ∨ l c' ≠ []) :
    AreQueues (update (update h c' .empty) c (concat (h c) (h c') lk).1) (concat (h c) (h c') lk).2
      (update (update l c' []) c (l c ++ l c')) := by
  have hempty : AreQueues (update h c' .empty) lk (update l c' []) :=
    hq.replace (isQueue_empty lk) (by simp) fun _ _ _ _ => rfl
  have hnew := (hq.queue c).concat (hq.queue c') (hq.disjoint c c' hc) hne
  refine hempty.replace hnew (fun x hx => ?_) fun d hd x hx => ?_
  · grind [hq.disjoint]
  · by_cases hd' : d = c'
    · simp [hd'] at hx
    · rw [update_of_ne hd'] at hx
      exact (hq.queue c).concat_other (hq.queue c') (hq.disjoint d c hd x hx)
        (hq.disjoint d c' hd' x hx)

end

end Family

end TailQueue
