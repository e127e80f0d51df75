import Mathlib.Data.Finset.Lattice.Lemmas

/-!
# Fresh lists

A list is fresh for a set when its elements are distinct and none of them is
in the set. Spending the elements of a list one after another, each one
checked against the set of what was spent before and then added to it,
succeeds exactly on fresh lists; `freshIn_append` is the rule that strings
such runs together.
-/

namespace Fresh

variable {α : Type*}

/-- `l` lists distinct elements, none of them in `s`. -/
def FreshIn (l : List α) (s : Finset α) : Prop := l.Nodup ∧ ∀ a ∈ l, a ∉ s

@[simp] theorem freshIn_nil (s : Finset α) : FreshIn [] s :=
  ⟨List.nodup_nil, fun _ h => absurd h List.not_mem_nil⟩

variable [DecidableEq α]

instance (l : List α) (s : Finset α) : Decidable (FreshIn l s) :=
  inferInstanceAs (Decidable (l.Nodup ∧ ∀ a ∈ l, a ∉ s))

theorem freshIn_cons {a : α} {l : List α} {s : Finset α} :
    FreshIn (a :: l) s ↔ a ∉ s ∧ FreshIn l (insert a s) := by
  simp only [FreshIn, List.nodup_cons, List.forall_mem_cons, Finset.mem_insert, not_or]
  constructor
  · rintro ⟨⟨ha, hl⟩, has, hls⟩
    exact ⟨has, hl, fun b hb => ⟨fun hab => ha (hab ▸ hb), hls b hb⟩⟩
  · rintro ⟨has, hl, hls⟩
    exact ⟨⟨fun ha => (hls a ha).1 rfl, hl⟩, has, fun b hb => (hls b hb).2⟩

@[simp] theorem freshIn_singleton {a : α} {s : Finset α} : FreshIn [a] s ↔ a ∉ s := by
  simp [freshIn_cons]

/-- A run of spends followed by another is fresh when each is fresh for what
was spent before it. -/
theorem freshIn_append {l l' : List α} {s : Finset α} :
    FreshIn (l ++ l') s ↔ FreshIn l s ∧ FreshIn l' (s ∪ l.toFinset) := by
  induction l generalizing s with
  | nil => simp
  | cons a l ih =>
    rw [List.cons_append, freshIn_cons, freshIn_cons, ih, List.toFinset_cons,
      Finset.union_insert, Finset.insert_union, and_assoc]

/-- A run of spends that is not fresh has a first element spent already: in
the set, or earlier in the run. -/
theorem exists_first_spent {β : Type*} (f : β → α) {l : List β} {s : Finset α}
    (h : ¬ FreshIn (l.map f) s) :
    ∃ pre b post, l = pre ++ b :: post ∧ FreshIn (pre.map f) s ∧
      f b ∈ s ∪ (pre.map f).toFinset := by
  induction l generalizing s with
  | nil => exact absurd (freshIn_nil s) h
  | cons b l ih =>
    by_cases hb : f b ∈ s
    · exact ⟨[], b, l, rfl, freshIn_nil s, by simp [hb]⟩
    · have hl : ¬ FreshIn (l.map f) (insert (f b) s) := fun hl =>
        h (by rw [List.map_cons]; exact freshIn_cons.mpr ⟨hb, hl⟩)
      obtain ⟨pre, c, post, rfl, hpre, hc⟩ := ih hl
      refine ⟨b :: pre, c, post, rfl, ?_, ?_⟩
      · rw [List.map_cons]
        exact freshIn_cons.mpr ⟨hb, hpre⟩
      · rw [List.map_cons, List.toFinset_cons, Finset.union_insert]
        rwa [Finset.insert_union] at hc

end Fresh
