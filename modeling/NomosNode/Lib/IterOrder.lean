import Mathlib.Data.Finset.Sort
import Mathlib.Data.List.Permutation

/-!
# Iteration orders of hash sets

A hash set does not specify the order in which its iterator visits the
elements. A function that folds over such a set is modelled with an
`IterOrder`: for every finite set, a list that visits each element exactly
once. A result that must not depend on the order is stated for every
`IterOrder`; one fixed order, `IterOrder.sorted`, makes the model executable
on concrete inputs.
-/

universe u

structure IterOrder (α : Type u) where
  visit : Finset α → List α
  nodup : ∀ s, (visit s).Nodup
  mem_visit : ∀ s a, a ∈ visit s ↔ a ∈ s

namespace IterOrder

variable {α : Type u}

theorem toFinset_visit [DecidableEq α] (o : IterOrder α) (s : Finset α) :
    (o.visit s).toFinset = s := by
  ext a
  simp [o.mem_visit]

@[simp] theorem visit_empty (o : IterOrder α) : o.visit ∅ = [] :=
  List.eq_nil_iff_forall_not_mem.mpr fun a ha => Finset.notMem_empty a ((o.mem_visit ∅ a).mp ha)

/-- Two orders visit a set in permuted lists. -/
theorem visit_perm (o o' : IterOrder α) (s : Finset α) : (o.visit s).Perm (o'.visit s) :=
  (List.perm_ext_iff_of_nodup (o.nodup s) (o'.nodup s)).mpr
    (fun a => by rw [o.mem_visit, o'.mem_visit])

/-- Visiting in increasing order, for element types with a linear order. The
list is the insertion sort of any list representing the set, so that the kernel
can evaluate it. -/
def sorted [LinearOrder α] : IterOrder α where
  visit s := Quot.liftOn s.val (List.insertionSort (· ≤ ·)) fun l l' h =>
    List.Perm.eq_of_pairwise' (List.pairwise_insertionSort _ l)
      (List.pairwise_insertionSort _ l')
      ((List.perm_insertionSort _ l).trans (h.trans (List.perm_insertionSort _ l').symm))
  nodup s := by
    obtain ⟨⟨l⟩, hl⟩ := s
    exact (List.perm_insertionSort _ l).nodup_iff.mpr hl
  mem_visit s a := by
    obtain ⟨⟨l⟩, hl⟩ := s
    exact List.mem_insertionSort _

/-- Visiting in increasing order of an injective key, for element types whose
own order is not a linear one. -/
def sortedBy {β : Type*} [LinearOrder β] (f : α → β) (hf : Function.Injective f) : IterOrder α :=
  @sorted α (LinearOrder.lift' f hf)

/-- The same visit, backwards. -/
def reverse (o : IterOrder α) : IterOrder α where
  visit s := (o.visit s).reverse
  nodup s := List.nodup_reverse.mpr (o.nodup s)
  mem_visit s a := by rw [List.mem_reverse, o.mem_visit]

/-- The list of a set of at most two elements is the sorted one or its reverse,
whatever the order. -/
theorem visit_of_card_le_two [LinearOrder α] (o : IterOrder α) {s : Finset α}
    (hs : s.card ≤ 2) : o.visit s = sorted.visit s ∨ o.visit s = sorted.reverse.visit s := by
  have hperm := visit_perm o sorted s
  have hlength : (sorted.visit s).length ≤ 2 := by
    rw [← List.toFinset_card_of_nodup (sorted.nodup s), toFinset_visit]
    exact hs
  show _ = _ ∨ _ = (sorted.visit s).reverse
  -- at most two elements: the permutations are the list and its reverse
  match hl : sorted.visit s, hlength with
  | [], _ => exact Or.inl (List.perm_nil.mp (hl ▸ hperm))
  | [a], _ => exact Or.inl (List.perm_singleton.mp (hl ▸ hperm))
  | [a, b], _ => exact List.perm_pair.mp (hl ▸ hperm)

end IterOrder
