import Mathlib.Data.List.MinMax

/-!
# Running maxima

A loop that keeps a running maximum and replaces it only by a strictly
greater element returns `List.argmax` of the list that starts with the
initial value: the first element of maximal value. Permuting the other
elements does not change it as long as no two of them tie above the initial
value.
-/

namespace RunningMax

variable {α β : Type*} [LinearOrder β] (f : α → β)

/-- One step of the loop: take `b` when it is strictly greater. -/
def step (a b : α) : α := if f a < f b then b else a

theorem foldl_argAux (l : List α) (a : α) :
    l.foldl (List.argAux fun b c => f c < f b) (some a) = some (l.foldl (step f) a) := by
  induction l generalizing a with
  | nil => rfl
  | cons x l ih =>
    have hstep : List.argAux (fun b c => f c < f b) (some a) x = some (step f a x) := by
      by_cases h : f a < f x <;> simp [List.argAux, step, h]
    rw [List.foldl_cons, List.foldl_cons, hstep, ih]

theorem argmax_cons (a : α) (l : List α) :
    (a :: l).argmax f = some (l.foldl (step f) a) := by
  rw [List.argmax, List.foldl_cons]
  exact foldl_argAux f l a

variable {f}

/-- The running maximum over two permutations of a list agrees when no two
elements greater than the initial value have the same value. -/
theorem foldl_perm [DecidableEq α] {a : α} {l l' : List α} (hp : l.Perm l')
    (huniq : ∀ b ∈ l, ∀ c ∈ l, f a < f b → f b = f c → b = c) :
    l.foldl (step f) a = l'.foldl (step f) a := by
  have hmem : ∀ x, x ∈ a :: l' ↔ x ∈ a :: l := fun x => (hp.cons a).mem_iff.symm
  obtain ⟨hm_mem, hm_le, hm_first⟩ := List.argmax_eq_some_iff.mp (argmax_cons f a l)
  set m := l.foldl (step f) a
  refine Option.some.inj ((argmax_cons f a l').symm.trans (List.argmax_eq_some_iff.mpr
    ⟨(hmem m).mpr hm_mem, fun x hx => hm_le x ((hmem x).mp hx), ?_⟩)).symm
  intro x hx hle
  by_cases hma : m = a
  · rw [hma, List.idxOf_cons_self]
    exact Nat.zero_le _
  · -- a maximum other than the initial value is strictly above it
    have hlt : f a < f m := by
      by_contra hge
      have h0 := hm_first a List.mem_cons_self (not_lt.mp hge)
      rw [List.idxOf_cons_self, List.idxOf_cons_ne l (Ne.symm hma)] at h0
      omega
    rcases List.mem_cons.mp hx with rfl | hx'
    · exact absurd hle (not_le.mpr hlt)
    · have heq : f m = f x := le_antisymm hle (hm_le x ((hmem x).mp hx))
      have hml : m ∈ l := (List.mem_cons.mp hm_mem).resolve_left hma
      rw [huniq m hml x (hp.mem_iff.mpr hx') hlt heq]

/-- The running maximum is the initial value or an element, and bounds both. -/
theorem foldl_mem_le [DecidableEq α] (a : α) (l : List α) :
    (l.foldl (step f) a = a ∨ l.foldl (step f) a ∈ l) ∧
      ∀ b ∈ a :: l, f b ≤ f (l.foldl (step f) a) := by
  obtain ⟨hmem, hle, -⟩ := List.argmax_eq_some_iff.mp (argmax_cons f a l)
  exact ⟨List.mem_cons.mp hmem, hle⟩

/-- Nothing greater than the initial value: the loop keeps it. -/
theorem foldl_of_le {a : α} : ∀ {l : List α}, (∀ b ∈ l, f b ≤ f a) → l.foldl (step f) a = a
  | [], _ => rfl
  | b :: l, h => by
    rw [List.foldl_cons, step, if_neg (not_lt.mpr (h b List.mem_cons_self))]
    exact foldl_of_le fun c hc => h c (List.mem_cons_of_mem b hc)

end RunningMax
