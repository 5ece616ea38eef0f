import GhostSched.Avl.Run

/-!
# The tree as a double-ended queue

While no node is an orphan, pops at either end, in any order, take the ends of the list of all
nodes in use, sorted by key. A tree drained so gives every node once.

* `takeEnds` is what the pops take from a list.
* `pop_takes_end` is one pop, `pops_take_ends` every sequence of them.
-/

namespace Avl

open BinaryTree

/-- A pop of the minimum or of the maximum. -/
def pop : Side → Op
  | .left => .popMin
  | .right => .popMax

/-- The end of a list, and what is left without it. -/
def takeEnd (l : List ℕ) : Side → Option ℕ × List ℕ
  | .left => (l.head?, l.tail)
  | .right => (l.getLast?, l.dropLast)

def takeEnds : List ℕ → List Side → List (Option ℕ)
  | _, [] => []
  | l, d :: ds => (takeEnd l d).1 :: takeEnds (takeEnd l d).2 ds

/-- Removing the element at an end of a list is taking that end. -/
theorem RemovedFrom.takeEnd {x : ℕ} {l l' : List ℕ} {d : Side} (h : RemovedFrom x l l')
    (hnd : l.Nodup) (hx : (takeEnd l d).1 = some x) : l' = (takeEnd l d).2 := by
  obtain ⟨l₁, l₂, rfl, rfl⟩ := h
  have hother : x ∉ l₁ ++ l₂ := (List.nodup_cons.mp (List.nodup_middle.mp hnd)).1
  cases d with
  | left =>
    cases l₁ with
    | nil => rfl
    | cons a l₁ =>
      obtain rfl : a = x := by simpa [Avl.takeEnd] using hx
      exact absurd List.mem_cons_self hother
  | right =>
    rcases List.eq_nil_or_concat' l₂ with rfl | ⟨l₂, a, rfl⟩
    · simp [Avl.takeEnd]
    · have hlast : (l₁ ++ x :: (l₂ ++ [a])).getLast? = some a := by simp [List.getLast?_cons]
      obtain rfl : a = x := Option.some.inj (hlast.symm.trans hx)
      exact absurd (by simp) hother

section

variable {cfg : Config} {arrSz : ℕ} {r : Run} {T : BinaryTree ℕ}
variable (hsz : arrSz < 2 ^ 32) (hcfg : 1 ≤ cfg.maxAvlHeight)
include hsz hcfg

/-- Without orphans a pop takes an end of the in-order sequence and leaves no orphan. -/
theorem pop_takes_end (hG : Good cfg arrSz r T []) (d : Side) :
    ∃ r' T', step cfg arrSz r (pop d) = some (r', (takeEnd T.inorder d).1) ∧
      Good cfg arrSz r' T' [] ∧ T'.inorder = (takeEnd T.inorder d).2 := by
  obtain ⟨r', out, hstep⟩ : ∃ r' out, step cfg arrSz r (pop d) = some (r', out) := by
    cases d <;> simp only [pop, step] <;> split <;> exact ⟨_, _, rfl⟩
  obtain ⟨T', O', hspec⟩ := hG.step hcfg hsz hstep
  have heffect : out = (takeEnd T.inorder d).1 ∧ Popped cfg r'.state.arr out T [] T' O' := by
    cases d <;> exact hspec.effect
  obtain ⟨rfl, hpopped⟩ := heffect
  have hgood := hspec.good
  have hnd : T.inorder.Nodup := (List.nodup_append'.mp hG.inv.nodup).1
  cases hend : (takeEnd T.inorder d).1 with
  | none =>
    rw [hend] at hpopped hstep
    obtain ⟨rfl, rfl⟩ := hpopped
    have hempty : T'.inorder = [] := by cases d <;> simpa [takeEnd] using hend
    refine ⟨r', T', hstep, hgood, ?_⟩
    cases d <;> simp [hempty, takeEnd]
  | some i =>
    rw [hend] at hpopped hstep
    rcases hpopped with ⟨-, l₁, l₂, hnil, -⟩ | ⟨T₁, hremoved, ⟨-, rfl, rfl⟩ | ⟨o, O₁, hnil, -⟩⟩
    · simp at hnil
    · exact ⟨r', T', hstep, hgood, hremoved.takeEnd hnd hend⟩
    · cases hnil

theorem run_pops (hG : Good cfg arrSz r T []) (ds : List Side) : ∃ r',
    Transition.run (step cfg arrSz) r (ds.map pop) = some (r', takeEnds T.inorder ds) := by
  induction ds generalizing r T with
  | nil => exact ⟨r, rfl⟩
  | cons d ds ih =>
    obtain ⟨r', T', hstep, hG', hT'⟩ := pop_takes_end hsz hcfg hG d
    obtain ⟨r'', hrun⟩ := ih hG'
    refine ⟨r'', Transition.run_cons.mpr ⟨r', _, _, hstep, hrun, ?_⟩⟩
    rw [hT']
    rfl

/-- After every run that leaves no orphan, any sequence of pops takes the ends of one list: all the
nodes in use, sorted by key. -/
theorem pops_take_ends {arr : Arr} {ops : List Op} {outs : List (Option ℕ)}
    (h : run cfg arrSz arr ops = some (r, outs)) (hno : r.state.tree.firstOrphanId = 0) :
    ∃ l, l.Perm r.live ∧ SortedKeys r.state.arr l ∧ ∀ ds, ∃ r',
      Transition.run (step cfg arrSz) r (ds.map pop) = some (r', takeEnds l ds) := by
  obtain ⟨T, O, hG⟩ := run_good hsz hcfg h
  obtain rfl : O = [] := (OrphanSeg.id_eq_zero hG.inv.orphans).mp hno
  refine ⟨T.inorder, ?_, hG.inv.sorted, run_pops hsz hcfg hG⟩
  simpa using hG.perm

end

/-- Three nodes, of which two have the same key. -/
def threeNodes : Run :=
  ((run ⟨3, false⟩ 3 zeroArr [.insert 0 5, .insert 1 9, .insert 2 5]).getD (start zeroArr, [])).1

theorem pops_take_ends_three : ∃ l, l.Perm threeNodes.live ∧ SortedKeys threeNodes.state.arr l ∧
    ∀ ds, ∃ r', Transition.run (step ⟨3, false⟩ 3) threeNodes (ds.map pop) =
      some (r', takeEnds l ds) :=
  @pops_take_ends ⟨3, false⟩ 3 threeNodes (by decide) (by decide) zeroArr
    [.insert 0 5, .insert 1 9, .insert 2 5] [none, none, none] rfl rfl

end Avl
