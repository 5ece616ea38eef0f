import GhostSched.Avl.Rotate

/-!
# The orphan list

Nodes for which the tree has no room are kept on a doubly linked list headed
by `first_orphan_id`. `OrphanSeg` describes a segment of such a list, and the
three list operations are shown to act as `cons`, `erase` and `tail` on it.

`OrphanRelinks` is the counterpart of `Relinks`: it records that the list
operations leave the tree fields of every node alone.
-/

namespace Avl

open BinaryTree

/-! ## Segments -/

/-- Starting at the id `id`, whose predecessor has the id `p`, the orphan
links run through the nodes `O` and end in front of the id `q`. -/
def OrphanSeg (arr : Arr) : ℕ → ℕ → List ℕ → ℕ → Prop
  | _, id, [], q => id = q
  | p, id, i :: O, q =>
    id = avlNodeToId i ∧ i + 1 < 2 ^ 32 ∧ (arr i).prevOrphanId = p ∧
      OrphanSeg arr (avlNodeToId i) (arr i).nextOrphanId O q

/-- The orphan list of a tree is a whole segment. -/
def OrphanList (s : State) (O : List ℕ) : Prop :=
  OrphanSeg s.arr 0 s.tree.firstOrphanId O 0

/-- The id of the last node of a segment that starts behind `p`. -/
def lastId (p : ℕ) : List ℕ → ℕ
  | [] => p
  | i :: O => lastId (avlNodeToId i) O

section Segments

variable {arr arr' : Arr} {p id q : ℕ} {O A B : List ℕ}

theorem lastId_concat (p i : ℕ) (A : List ℕ) : lastId p (A ++ [i]) = avlNodeToId i := by
  induction A generalizing p with
  | nil => rfl
  | cons j A ih => exact ih _

theorem orphanSeg_append : OrphanSeg arr p id (A ++ B) q ↔
      ∃ m, OrphanSeg arr p id A m ∧ OrphanSeg arr (lastId p A) m B q := by
  induction A generalizing p id with
  | nil => simp [OrphanSeg, lastId]
  | cons i A ih =>
    simp only [List.cons_append, OrphanSeg, ih, lastId]
    constructor
    · rintro ⟨hid, hi, hp, m, hA, hB⟩
      exact ⟨m, ⟨hid, hi, hp, hA⟩, hB⟩
    · rintro ⟨m, ⟨hid, hi, hp, hA⟩, hB⟩
      exact ⟨hid, hi, hp, m, hA, hB⟩

theorem OrphanSeg.lt_of_mem (h : OrphanSeg arr p id O q) {j : ℕ} (hj : j ∈ O) : j + 1 < 2 ^ 32 := by
  induction O generalizing p id with
  | nil => simp at hj
  | cons i O ih =>
    obtain ⟨-, hi, -, hO⟩ := h
    rcases List.mem_cons.mp hj with rfl | hj
    · exact hi
    · exact ih hO hj

/-- Frame rule: a segment depends on the orphan links of its nodes only. -/
theorem OrphanSeg.congr (h : OrphanSeg arr p id O q)
    (heq : ∀ j ∈ O, (arr' j).prevOrphanId = (arr j).prevOrphanId ∧
      (arr' j).nextOrphanId = (arr j).nextOrphanId) : OrphanSeg arr' p id O q := by
  induction O generalizing p id with
  | nil => exact h
  | cons i O ih =>
    obtain ⟨hid, hi, hp, hO⟩ := h
    obtain ⟨hprev, hnext⟩ := heq i (by simp)
    refine ⟨hid, hi, by rw [hprev]; exact hp, ?_⟩
    rw [hnext]
    exact ih hO fun j hj => heq j (by simp [hj])

/-- A list that ends with the null id starts at the node its head names. -/
theorem OrphanSeg.idToNode (h : OrphanSeg arr p id O 0) : avlIdToNode id = O.head? := by
  cases O with
  | nil =>
    obtain rfl : id = 0 := h
    rfl
  | cons i O =>
    obtain ⟨rfl, hi, -⟩ := h
    exact avlIdToNode_nodeToId hi

theorem OrphanSeg.id_eq_zero (h : OrphanSeg arr p id O 0) : id = 0 ↔ O = [] := by
  cases O with
  | nil => simpa [OrphanSeg] using h
  | cons i O =>
    obtain ⟨rfl, hi, -⟩ := h
    simpa using avlNodeToId_ne_zero hi

theorem OrphanSeg.idToNode_lastId (h : OrphanSeg arr 0 id A q) :
    avlIdToNode (lastId 0 A) = A.getLast? := by
  rcases List.eq_nil_or_concat' A with rfl | ⟨A, i, rfl⟩
  · rfl
  · rw [lastId_concat, avlIdToNode_nodeToId (h.lt_of_mem (by simp))]
    simp

/-- Rewriting the back link of the first node. -/
theorem OrphanSeg.setHead {p' : ℕ} (h : OrphanSeg arr p id O q) (hnd : O.Nodup)
    (hhead : ∀ j, O.head? = some j → (arr' j).prevOrphanId = p' ∧
      (arr' j).nextOrphanId = (arr j).nextOrphanId)
    (heq : ∀ j ∈ O, O.head? ≠ some j → arr' j = arr j) : OrphanSeg arr' p' id O q := by
  cases O with
  | nil => exact h
  | cons i O =>
    obtain ⟨hid, hi, -, hO⟩ := h
    obtain ⟨hprev, hnext⟩ := hhead i rfl
    refine ⟨hid, hi, hprev, ?_⟩
    rw [hnext]
    refine hO.congr fun j hj => ?_
    have hne : i ≠ j := by
      rintro rfl
      exact (List.nodup_cons.mp hnd).1 hj
    rw [heq j (by simp [hj]) (by simpa using hne)]
    exact ⟨rfl, rfl⟩

/-- Rewriting the forward link of the last node, or the head of an empty
segment. -/
theorem OrphanSeg.setLast {q' : ℕ} (h : OrphanSeg arr p id O q) (hnd : O.Nodup)
    (hlast : ∀ j, O.getLast? = some j → (arr' j).nextOrphanId = q' ∧
      (arr' j).prevOrphanId = (arr j).prevOrphanId)
    (heq : ∀ j ∈ O, O.getLast? ≠ some j → arr' j = arr j) :
    OrphanSeg arr' p (if O = [] then q' else id) O q' := by
  rcases List.eq_nil_or_concat' O with rfl | ⟨A, i, rfl⟩
  · rfl
  · rw [if_neg (by simp)]
    obtain ⟨m, hA, hm, hi, hprev, -⟩ := orphanSeg_append.mp h
    obtain ⟨hnext, hprev'⟩ := hlast i (by simp)
    refine orphanSeg_append.mpr ⟨m, ?_, hm, hi, by rw [hprev']; exact hprev, hnext⟩
    refine hA.congr fun j hj => ?_
    have hne : i ≠ j := by
      rintro rfl
      rw [List.nodup_append'] at hnd
      exact hnd.2.2 hj (by simp)
    rw [heq j (by simp [hj]) (by simpa using hne)]
    exact ⟨rfl, rfl⟩

end Segments

/-! ## The operations -/

/-- The fields no operation of the orphan list writes. -/
def AvlNode.body (n : AvlNode) : AvlNode :=
  { n with prevOrphanId := 0, nextOrphanId := 0 }

/-- `s'` differs from `s` at most in the orphan links of `nodes` and in the
head of the orphan list. -/
structure OrphanRelinks (s s' : State) (nodes : List ℕ) : Prop where
  frame : ∀ j, j ∉ nodes → s'.arr j = s.arr j
  body : ∀ j, (s'.arr j).body = (s.arr j).body
  tree : s'.tree = { s.tree with firstOrphanId := s'.tree.firstOrphanId }
  asserted : s'.asserted = s.asserted

section Operations

variable {s : State} {node : ℕ} {O A B : List ℕ}

/-- The array after `__insert_orphan`. -/
theorem insertOrphan_arr (node : ℕ) {q : Option ℕ} (hq : avlIdToNode s.tree.firstOrphanId = q)
    (j : ℕ) :
    (insertOrphan s node).arr j = if j = node then
        { s.arr j with nextOrphanId := s.tree.firstOrphanId, prevOrphanId := 0 }
      else if q = some j then { s.arr j with prevOrphanId := avlNodeToId node }
      else s.arr j := by
  simp only [insertOrphan, State.set_arr, State.setPtr_arr, hq]
  by_cases hj : j = node
  · subst hj
    simp only [if_true]
    split <;> rfl
  · simp [hj]

@[simp] theorem insertOrphan_tree (s : State) (node : ℕ) :
    (insertOrphan s node).tree = { s.tree with firstOrphanId := avlNodeToId node } := by
  simp [insertOrphan]

theorem insertOrphan_spec (h : OrphanList s O) (hnode : node + 1 < 2 ^ 32)
    (hnd : (node :: O).Nodup) :
    OrphanList (insertOrphan s node) (node :: O) ∧
      OrphanRelinks s (insertOrphan s node) (node :: O) := by
  obtain ⟨hnO, hndO⟩ := List.nodup_cons.mp hnd
  have harr := insertOrphan_arr node (OrphanSeg.idToNode h)
  have hne : ∀ j ∈ O, j ≠ node := by
    rintro j hj rfl
    exact hnO hj
  constructor
  · refine ⟨by simp, hnode, by rw [harr, if_pos rfl], ?_⟩
    rw [harr, if_pos rfl]
    refine OrphanSeg.setHead h hndO ?_ ?_
    · intro j hj
      rw [harr, if_neg (hne j (List.mem_of_head? hj)), if_pos hj]
      exact ⟨rfl, rfl⟩
    · intro j hj hjh
      rw [harr, if_neg (hne j hj), if_neg hjh]
  · refine ⟨?_, ?_, by simp, by simp [insertOrphan]⟩
    · intro j hj
      rw [List.mem_cons, not_or] at hj
      rw [harr, if_neg hj.1, if_neg]
      exact fun hj' => hj.2 (List.mem_of_head? hj')
    · intro j
      rw [harr]
      split
      · rfl
      · split <;> rfl

/-- The array after `__remove_orphan` of a node between the nodes `qp` and
`qn`. -/
theorem removeOrphan_arr {qp qn : Option ℕ} (hqp : avlIdToNode (s.arr node).prevOrphanId = qp)
    (hqn : avlIdToNode (s.arr node).nextOrphanId = qn) (hne : ∀ j, qp = some j → qn ≠ some j)
    (hnp : qp ≠ some node) (hnn : qn ≠ some node) (j : ℕ) :
    (removeOrphan s node).arr j =
      if j = node then { s.arr j with nextOrphanId := 0, prevOrphanId := 0 }
      else if qp = some j then { s.arr j with nextOrphanId := (s.arr node).nextOrphanId }
      else if qn = some j then { s.arr j with prevOrphanId := (s.arr node).prevOrphanId }
      else s.arr j := by
  have hif : ∀ c : Prop, [Decidable c] → ∀ id,
      (if c then s.setFirstOrphan id else s).arr = s.arr := by
    intro c _ id
    split <;> rfl
  simp only [removeOrphan, State.set_arr, State.setPtr_arr, hqp, hqn, hif]
  by_cases hj : j = node
  · subst hj
    simp [hnp, hnn]
  · by_cases hjp : qp = some j
    · simp [hj, hjp, hne j hjp]
    · simp [hj, hjp]

theorem removeOrphan_spec (h : OrphanList s (A ++ node :: B)) (hnd : (A ++ node :: B).Nodup) :
    OrphanList (removeOrphan s node) (A ++ B) ∧
      OrphanRelinks s (removeOrphan s node) (A ++ node :: B) := by
  obtain ⟨m, hA, rfl, hnode, hprev, hB⟩ := orphanSeg_append.mp h
  obtain ⟨hnAB, hndAB⟩ := List.nodup_cons.mp (List.nodup_middle.mp hnd)
  obtain ⟨hndA, hndB, hdis⟩ := List.nodup_append'.mp hndAB
  rw [List.mem_append, not_or] at hnAB
  have hqp : avlIdToNode (s.arr node).prevOrphanId = A.getLast? := by
    rw [hprev]
    exact hA.idToNode_lastId
  have hmemA : ∀ j, A.getLast? = some j → j ∈ A := fun j hj => List.mem_of_getLast? hj
  have hmemB : ∀ j, B.head? = some j → j ∈ B := fun j hj => List.mem_of_head? hj
  have harr := removeOrphan_arr hqp hB.idToNode (fun j hj hj' => hdis (hmemA j hj) (hmemB j hj'))
    (fun hj => hnAB.1 (hmemA _ hj)) (fun hj => hnAB.2 (hmemB _ hj))
  have hneA : ∀ j ∈ A, j ≠ node := by
    rintro j hj rfl
    exact hnAB.1 hj
  have hneB : ∀ j ∈ B, j ≠ node := by
    rintro j hj rfl
    exact hnAB.2 hj
  have htree : (removeOrphan s node).tree = { s.tree with
      firstOrphanId := if A = [] then (s.arr node).nextOrphanId else s.tree.firstOrphanId } := by
    -- the list starts with the node itself iff nothing precedes it
    have hfirst : s.tree.firstOrphanId = avlNodeToId node ↔ A = [] := by
      cases A with
      | nil => simpa [OrphanSeg] using hA
      | cons i A =>
        obtain ⟨hid, hi, -⟩ := hA
        simp only [reduceCtorEq, iff_false]
        intro heq
        exact hneA i (by simp) (avlNodeToId_inj hi hnode (hid ▸ heq))
    simp only [removeOrphan, State.set_tree, State.setPtr_tree, hfirst]
    split <;> rfl
  constructor
  · refine orphanSeg_append.mpr ⟨(s.arr node).nextOrphanId, ?_, ?_⟩
    · rw [htree]
      refine hA.setLast hndA ?_ ?_
      · intro j hj
        rw [harr, if_neg (hneA j (hmemA j hj)), if_pos hj]
        exact ⟨rfl, rfl⟩
      · intro j hj hjl
        rw [harr, if_neg (hneA j hj), if_neg hjl, if_neg]
        exact fun hj' => hdis hj (hmemB j hj')
    · refine hB.setHead hndB ?_ ?_
      · intro j hj
        rw [harr, if_neg (hneB j (hmemB j hj)), if_neg, if_pos hj]
        · exact ⟨hprev, rfl⟩
        · exact fun hj' => hdis (hmemA j hj') (hmemB j hj)
      · intro j hj hjh
        rw [harr, if_neg (hneB j hj), if_neg, if_neg hjh]
        exact fun hj' => hdis (hmemA j hj') hj
  · refine ⟨?_, ?_, by rw [htree], ?_⟩
    · intro j hj
      rw [List.mem_append, List.mem_cons, not_or, not_or] at hj
      rw [harr, if_neg hj.2.1, if_neg, if_neg]
      · exact fun hj' => hj.2.2 (hmemB j hj')
      · exact fun hj' => hj.1 (hmemA j hj')
    · intro j
      rw [harr]
      split
      · rfl
      · split
        · rfl
        · split <;> rfl
    · simp only [removeOrphan, State.set_asserted, State.setPtr_asserted]
      split <;> rfl

theorem popFirstOrphan_nil (h : OrphanList s []) : popFirstOrphan s = (s, none) := by
  have h0 := OrphanSeg.idToNode h
  simp only [popFirstOrphan, h0, List.head?_nil]

theorem popFirstOrphan_cons (h : OrphanList s (node :: O)) (hnd : (node :: O).Nodup) :
    ∃ s', popFirstOrphan s = (s', some node) ∧ OrphanList s' O ∧
      OrphanRelinks s s' (node :: O) := by
  obtain ⟨hnO, hndO⟩ := List.nodup_cons.mp hnd
  have h0 := OrphanSeg.idToNode h
  obtain ⟨-, hnode, -, hO⟩ := h
  have hnext := hO.idToNode
  simp only [popFirstOrphan, h0, List.head?_cons]
  refine ⟨_, rfl, ?_, ?_⟩
  · simp only [OrphanList, State.set_tree, State.setPtr_tree]
    refine hO.setHead hndO ?_ ?_
    · intro j hj
      have hjn : j ≠ node := by
        rintro rfl
        exact hnO (List.mem_of_head? hj)
      simp [State.set_arr, State.setPtr_arr, hnext, hj, hjn]
    · intro j hj hjh
      have hjn : j ≠ node := by
        rintro rfl
        exact hnO hj
      simp [State.set_arr, State.setPtr_arr, hnext, hjh, hjn]
  · refine ⟨?_, ?_, by simp, by simp⟩
    · intro j hj
      rw [List.mem_cons, not_or] at hj
      have hjh : O.head? ≠ some j := fun hj' => hj.2 (List.mem_of_head? hj')
      simp [State.set_arr, State.setPtr_arr, hnext, hjh, hj.1]
    · intro j
      simp only [State.set_arr, State.setPtr_arr, hnext]
      split <;> split <;> rfl

end Operations

end Avl
