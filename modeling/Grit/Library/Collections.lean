import Mathlib.Data.List.Perm.Subperm
import Mathlib.Data.List.Count
import Mathlib.Algebra.BigOperators.Fin
import Mathlib.Algebra.Order.BigOperators.Group.Multiset

/-!
# Bags and buckets

A list is used as a bag from which any element may be taken next: `l.eraseIdx i` is what is left
when the element at position `i` is taken. The lemmas say what this does to counts and to the
elements that a partial function selects.

A finite family of lists are buckets, with the bag of all their elements. The lemmas say what a
change of one bucket does to the bag, and when the bag can be read off the buckets one by one.
-/

/-! ### Lists as bags -/

namespace Bag

variable {α β : Type*}

theorem perm_eraseIdx {l : List α} {i : Nat} {a : α} (h : l[i]? = some a) :
    (a :: l.eraseIdx i).Perm l := by
  obtain ⟨hi, rfl⟩ := List.getElem?_eq_some_iff.1 h
  exact List.getElem_cons_eraseIdx_perm hi

theorem countP_eraseIdx (f : α → Bool) {l : List α} {i : Nat} {a : α}
    (h : l[i]? = some a) :
    l.countP f = (l.eraseIdx i).countP f + if f a then 1 else 0 := by
  rw [← (perm_eraseIdx h).countP_eq f, List.countP_cons]

theorem countP_eraseIdx_le (f : α → Bool) (l : List α) (i : Nat) :
    (l.eraseIdx i).countP f ≤ l.countP f :=
  (List.eraseIdx_sublist l i).countP_le

/-- Taking an element takes what `f` selects for it. -/
theorem countP_filterMap_eraseIdx (f : α → Option β) {l : List α} {i : Nat} {a : α}
    (h : l[i]? = some a) (g : β → Bool) :
    (l.filterMap f).countP g =
      ((l.eraseIdx i).filterMap f).countP g + (f a).toList.countP g := by
  have hcount := ((perm_eraseIdx h).filterMap f).countP_eq g
  cases ha : f a with
  | none =>
      rw [List.filterMap_cons_none ha] at hcount
      rw [hcount]
      rfl
  | some b =>
      rw [List.filterMap_cons_some ha, List.countP_cons] at hcount
      rw [← hcount, Option.toList_some, List.countP_singleton]

/-- Elements that are all paired with `p` count for `p` only. -/
theorem count_map_pair [DecidableEq α] [DecidableEq β] (l : List β) (p q : α) (b : β) :
    (l.map fun b => (p, b)).count (q, b) = if q = p then l.count b else 0 := by
  split
  · rename_i hqp
    subst hqp
    exact List.count_map_of_injective l _ (fun _ _ h => congrArg Prod.snd h) b
  · rename_i hqp
    rw [List.count_eq_zero]
    intro hmem
    obtain ⟨b', -, hb'⟩ := List.mem_map.1 hmem
    exact hqp (congrArg Prod.fst hb').symm

end Bag

/-! ### Families of buckets -/

namespace Buckets

open Finset

variable {ι α : Type*} [Fintype ι]

/-- The elements of all buckets. -/
def pool (f : ι → List α) : Multiset α := ∑ i, (f i : Multiset α)

theorem mem_pool {f : ι → List α} {a : α} : a ∈ pool f ↔ ∃ i, a ∈ f i := by
  simp [pool, Multiset.mem_sum]

@[simp]
theorem pool_nil : pool (fun _ : ι => ([] : List α)) = 0 := by
  simp [pool]

/-- A bucket is replaced. -/
theorem pool_update [DecidableEq ι] (f : ι → List α) (i : ι) (c : List α) :
    pool (Function.update f i c) + f i = pool f + c := by
  have hupdate : (fun j => (Function.update f i c j : Multiset α)) =
      Function.update (fun j => (f j : Multiset α)) i c := by
    funext j
    exact Function.apply_update (fun _ (l : List α) => (l : Multiset α)) f i c j
  have hnew : pool (Function.update f i c) = c + ∑ j ∈ univ \ {i}, (f j : Multiset α) := by
    rw [pool, hupdate, sum_update_of_mem (mem_univ i)]
  have hold : pool f = f i + ∑ j ∈ univ \ {i}, (f j : Multiset α) := by
    have hself := sum_update_of_mem (mem_univ i) (fun j => (f j : Multiset α)) (f i)
    rwa [Function.update_eq_self] at hself
  rw [hnew, hold]
  ac_rfl

theorem pool_update_append [DecidableEq ι] (f : ι → List α) (i : ι) (c : List α) :
    pool (Function.update f i (f i ++ c)) = pool f + c := by
  have h := pool_update f i (f i ++ c)
  rw [← Multiset.coe_add, add_comm (f i : Multiset α), ← add_assoc] at h
  exact add_right_cancel h

theorem flatten_ofFn {n : ℕ} (f : Fin n → List α) :
    ((List.ofFn f).flatten : Multiset α) = pool f := by
  have hsum : ∀ l : List (List α), (l.flatten : Multiset α) = (l.map Multiset.ofList).sum := by
    intro l
    induction l with
    | nil => rfl
    | cons c l ih => rw [List.flatten_cons, ← Multiset.coe_add, ih, List.map_cons, List.sum_cons]
  rw [hsum, List.map_ofFn, List.sum_ofFn]
  rfl

/-- An element that occurs in one bucket only. -/
theorem countP_pool {f : ι → List α} {p : α → Prop} [DecidablePred p] {i : ι}
    (h : ∀ j, j ≠ i → ∀ a ∈ f j, ¬p a) :
    (pool f).countP p = (f i).countP fun a => decide (p a) := by
  have hsum : (pool f).countP p = ∑ j, (f j : Multiset α).countP p :=
    map_sum (Multiset.countPAddMonoidHom p) _ _
  rw [hsum, sum_eq_single i]
  · exact Multiset.coe_countP p (f i)
  · intro j _ hj
    exact Multiset.countP_eq_zero.2 fun a ha => h j hj a (Multiset.mem_coe.1 ha)
  · intro hi
    exact absurd (mem_univ i) hi

end Buckets
