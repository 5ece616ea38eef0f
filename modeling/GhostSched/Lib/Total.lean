import Mathlib.Algebra.BigOperators.Ring.Finset
import Mathlib.Algebra.Order.BigOperators.Group.Finset
import Mathlib.Algebra.Order.Ring.Int
import Mathlib.Data.Set.Card
import Mathlib.Tactic.Abel

/-!
# Totals

A counter that several parties keep is the total of what each of them
contributes, where only finitely many contribute. `IsTotal f n` says that `n` is
the total of `f`, without a bound on the parties.

* `IsTotal.update`: when one party changes, the total changes by as much.
* `IsTotal.ncard`: the total of a zero-one contribution is a number of parties.
* `IsTotal.swap`: a table has the same total by rows and by columns.
-/

namespace Lib

variable {ι M : Type*} [AddCommGroup M] {f f' : ι → M} {m n : M} {i : ι}

/-- Finitely many `f i` are not zero, and `n` is their sum. -/
def IsTotal (f : ι → M) (n : M) : Prop :=
  ∃ F : Finset ι, (∀ i, i ∉ F → f i = 0) ∧ ∑ i ∈ F, f i = n

theorem isTotal_zero (h : ∀ i, f i = 0) : IsTotal f 0 :=
  ⟨∅, fun i _ => h i, rfl⟩

theorem IsTotal.congr (h : IsTotal f n) (hf : ∀ i, f' i = f i) : IsTotal f' n := by
  have heq : f' = f := funext hf
  rw [heq]
  exact h

/-- A contribution changes, and so does the total. -/
theorem IsTotal.update (h : IsTotal f n) (hne : ∀ j, j ≠ i → f' j = f j) :
    IsTotal f' (n + (f' i - f i)) := by
  classical
  rcases h with ⟨F, hF, hsum⟩
  refine ⟨insert i F, ?_, ?_⟩
  · intro j hj
    rw [Finset.mem_insert, not_or] at hj
    rw [hne j hj.1, hF j hj.2]
  · have hrest : ∑ j ∈ F.erase i, f' j = ∑ j ∈ F.erase i, f j :=
      Finset.sum_congr rfl fun j hj => hne j (Finset.ne_of_mem_erase hj)
    have hf : f i + ∑ j ∈ F.erase i, f j = n := by
      by_cases hi : i ∈ F
      · rw [Finset.add_sum_erase F f hi, hsum]
      · rw [hF i hi, zero_add, Finset.erase_eq_of_notMem hi, hsum]
    rw [← Finset.add_sum_erase _ f' (Finset.mem_insert_self i F), Finset.erase_insert_eq_erase,
      hrest, ← hf]
    abel

/-- The total of a condition is the number of parties that meet it. -/
theorem IsTotal.ncard {p : ι → Prop} [DecidablePred p] {n : ℤ}
    (h : IsTotal (fun i => if p i then (1 : ℤ) else 0) n) :
    {i | p i}.Finite ∧ n = ({i | p i}.ncard : ℤ) := by
  rcases h with ⟨F, hF, hsum⟩
  have hset : {i | p i} = ↑(F.filter p) := by
    ext i
    simp only [Set.mem_ofPred_eq, Finset.coe_filter]
    refine ⟨fun hp => ⟨?_, hp⟩, And.right⟩
    by_contra hi
    have hz := hF i hi
    dsimp only at hz
    rw [if_pos hp] at hz
    cases hz
  rw [hset]
  refine ⟨(F.filter p).finite_toSet, ?_⟩
  rw [Set.ncard_coe_finset, ← hsum, Finset.sum_boole]

theorem IsTotal.add {g : ι → M} (hf : IsTotal f n) (hg : IsTotal g m) :
    IsTotal (fun i => f i + g i) (n + m) := by
  classical
  rcases hf with ⟨F, hF, rfl⟩
  rcases hg with ⟨G, hG, rfl⟩
  refine ⟨F ∪ G, ?_, ?_⟩
  · intro i hi
    rw [Finset.mem_union, not_or] at hi
    show f i + g i = 0
    rw [hF i hi.1, hG i hi.2, add_zero]
  · rw [Finset.sum_add_distrib, Finset.sum_subset Finset.subset_union_left fun i _ => hF i,
      Finset.sum_subset Finset.subset_union_right fun i _ => hG i]

theorem IsTotal.sub {g : ι → M} (hf : IsTotal f n) (hg : IsTotal g m) :
    IsTotal (fun i => f i - g i) (n - m) := by
  have hneg : IsTotal (fun i => -g i) (-m) := by
    rcases hg with ⟨G, hG, rfl⟩
    refine ⟨G, ?_, Finset.sum_neg_distrib ..⟩
    intro i hi
    show -g i = 0
    rw [hG i hi, neg_zero]
  simpa only [sub_eq_add_neg] using hf.add hneg

/-- A table with a total for each row and for each column, in which an empty column adds up to zero
and no other does. -/
theorem IsTotal.swap {κ : Type*} {f : ι → κ → M} {row : ι → M} {col : κ → M}
    (hrow : ∀ i, IsTotal (f i) (row i)) (hcol : ∀ k, IsTotal (fun i => f i k) (col k))
    (hzero : ∀ k, col k = 0 → ∀ i, f i k = 0) (h : IsTotal col n) : IsTotal row n := by
  classical
  rcases h with ⟨K, hK, rfl⟩
  choose F hF hsum using hcol
  have hrow : ∀ i, row i = ∑ k ∈ K, f i k := by
    intro i
    rcases hrow i with ⟨L, hL, h⟩
    have hleft : L ⊆ L ∪ K := Finset.subset_union_left
    rw [← h, Finset.sum_subset hleft fun k _ => hL k]
    exact (Finset.sum_subset Finset.subset_union_right fun k _ hk => hzero k (hK k hk) i).symm
  refine ⟨K.biUnion F, fun i hi => ?_, ?_⟩
  · rw [hrow i]
    exact Finset.sum_eq_zero fun k hk => hF k i fun hin => hi (Finset.mem_biUnion.mpr ⟨k, hk, hin⟩)
  · rw [Finset.sum_congr rfl fun i _ => hrow i, Finset.sum_comm]
    refine Finset.sum_congr rfl fun k hk => ?_
    rw [← hsum k]
    exact (Finset.sum_subset (Finset.subset_biUnion_of_mem F hk) fun i _ => hF k i).symm

/-- If no contribution is negative, none is more than the total. -/
theorem IsTotal.single_le {f : ι → ℤ} {n : ℤ} (h : IsTotal f n) (hf : ∀ i, 0 ≤ f i) (i : ι) :
    f i ≤ n := by
  rcases h with ⟨F, hF, rfl⟩
  by_cases hi : i ∈ F
  · exact Finset.single_le_sum (fun j _ => hf j) hi
  · rw [hF i hi]
    exact Finset.sum_nonneg fun j _ => hf j

end Lib
