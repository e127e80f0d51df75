import Mathlib.Data.List.Basic
import Mathlib.Order.Basic

/-!
# Cutting a slice into chunks

`slice.chunks(n)` cuts a list into consecutive pieces of `n` elements; the last
piece holds what is left and may be shorter. The lemmas are the ones a caller
needs: a prefix whose length is a multiple of `n` is cut on its own, a nonempty
list no longer than `n` is one piece, and every piece of a list whose length is
a multiple of `n` has exactly `n` elements.
-/

namespace List

variable {α : Type*}

/-- `slice.chunks(n)`, for `0 < n` (Rust panics on `0`, and so do the callers'
models). -/
def chunks (n : ℕ) : List α → List (List α)
  | [] => []
  | a :: l => if 0 < n then (a :: l).take n :: chunks n (l.drop (n - 1)) else []
termination_by l => l.length
decreasing_by simp only [List.length_drop, List.length_cons]; omega

variable {n : ℕ}

@[simp] theorem chunks_nil (n : ℕ) : chunks n ([] : List α) = [] := by
  rw [chunks]

theorem chunks_of_ne_nil (hn : 0 < n) {l : List α} (hl : l ≠ []) :
    chunks n l = l.take n :: chunks n (l.drop n) := by
  obtain ⟨a, l, rfl⟩ := List.exists_cons_of_ne_nil hl
  obtain ⟨m, rfl⟩ : ∃ m, n = m + 1 := ⟨n - 1, by omega⟩
  rw [chunks, if_pos hn, List.drop_succ_cons, Nat.add_sub_cancel]

/-- A nonempty list no longer than `n` is a single chunk. -/
theorem chunks_of_length_le (hn : 0 < n) {l : List α} (hl : l ≠ []) (hle : l.length ≤ n) :
    chunks n l = [l] := by
  rw [chunks_of_ne_nil hn hl, List.take_of_length_le hle, List.drop_of_length_le hle, chunks_nil]

/-- A prefix whose length is a multiple of `n` is cut on its own. -/
theorem chunks_append (hn : 0 < n) :
    ∀ (k : ℕ) (l₁ l₂ : List α), l₁.length = k * n →
      chunks n (l₁ ++ l₂) = chunks n l₁ ++ chunks n l₂
  | 0, l₁, l₂, h => by
    rw [Nat.zero_mul, List.length_eq_zero_iff] at h
    subst h
    simp
  | k + 1, l₁, l₂, h => by
    have hl₁ : l₁ ≠ [] := by
      intro h'
      rw [h', List.length_nil] at h
      have : 0 < (k + 1) * n := Nat.mul_pos (Nat.succ_pos k) hn
      omega
    have hle : n ≤ l₁.length := by
      rw [h, Nat.succ_mul]
      omega
    rw [chunks_of_ne_nil hn (by simp [hl₁]), chunks_of_ne_nil hn hl₁,
      List.take_append_of_le_length hle, List.drop_append_of_le_length hle,
      chunks_append hn k (l₁.drop n) l₂ (by rw [List.length_drop, h, Nat.succ_mul]; omega),
      List.cons_append]

/-- Blocks of exactly `n` elements, joined, are cut back into the blocks. -/
theorem chunks_flatMap {β : Type*} (hn : 0 < n) (f : β → List α) :
    ∀ l : List β, (∀ b ∈ l, (f b).length = n) → chunks n (l.flatMap f) = l.map f
  | [], _ => by simp
  | b :: l, hf => by
    have hb : (f b).length = n := hf b List.mem_cons_self
    rw [List.flatMap_cons, chunks_append hn 1 _ _ (by rw [hb, Nat.one_mul]),
      chunks_flatMap hn f l fun b' hb' => hf b' (List.mem_cons_of_mem b hb'), chunks_of_length_le hn
        (List.ne_nil_of_length_pos (by rw [hb]; exact hn)) (Nat.le_of_eq hb), List.map_cons,
      List.singleton_append]

/-- Every chunk of a list whose length is a multiple of `n` has `n` elements. -/
theorem length_of_mem_chunks (hn : 0 < n) :
    ∀ (k : ℕ) (l : List α), l.length = k * n → ∀ c ∈ chunks n l, c.length = n
  | 0, l, h, c, hc => by
    rw [Nat.zero_mul, List.length_eq_zero_iff] at h
    subst h
    simp at hc
  | k + 1, l, h, c, hc => by
    have hl : l ≠ [] := by
      intro h'
      rw [h', List.length_nil] at h
      have : 0 < (k + 1) * n := Nat.mul_pos (Nat.succ_pos k) hn
      omega
    rw [chunks_of_ne_nil hn hl, List.mem_cons] at hc
    rcases hc with rfl | hc
    · rw [List.length_take, h, Nat.succ_mul]
      omega
    · exact length_of_mem_chunks hn k (l.drop n) (by rw [List.length_drop, h, Nat.succ_mul]; omega)
        c hc

/-- Joining the chunks gives the list back. -/
theorem flatten_chunks (hn : 0 < n) : ∀ l : List α, (chunks n l).flatten = l
  | [] => by simp
  | a :: l => by
    rw [chunks_of_ne_nil hn (List.cons_ne_nil a l), List.flatten_cons,
      flatten_chunks hn ((a :: l).drop n), List.take_append_drop]
termination_by l => l.length
decreasing_by simp only [List.length_drop, List.length_cons]; omega

/-- A list of `k * n` elements has `k` chunks. -/
theorem length_chunks (hn : 0 < n) : ∀ (k : ℕ) (l : List α), l.length = k * n →
    (chunks n l).length = k
  | 0, l, h => by
    rw [Nat.zero_mul, List.length_eq_zero_iff] at h
    subst h
    simp
  | k + 1, l, h => by
    have hl : l ≠ [] := List.ne_nil_of_length_pos (by rw [h]; exact Nat.mul_pos (Nat.succ_pos k) hn)
    rw [chunks_of_ne_nil hn hl, List.length_cons,
      length_chunks hn k (l.drop n) (by rw [List.length_drop, h, Nat.succ_mul]; omega)]

/-- Chunks of `n` cut into chunks of a divisor `m` of `n` are the chunks of `m`
of the whole list. -/
theorem flatMap_chunks_chunks (hn : 0 < n) {m : ℕ} (hm : 0 < m) (hmn : m ∣ n) :
    ∀ l : List α, (chunks n l).flatMap (chunks m) = chunks m l
  | [] => by simp
  | a :: l => by
    by_cases hle : (a :: l).length ≤ n
    · rw [chunks_of_length_le hn (List.cons_ne_nil a l) hle, List.flatMap_singleton]
    · obtain ⟨k, hk⟩ := hmn
      rw [chunks_of_ne_nil hn (List.cons_ne_nil a l), List.flatMap_cons,
        flatMap_chunks_chunks hn hm ⟨k, hk⟩ ((a :: l).drop n)]
      conv_rhs => rw [← List.take_append_drop n (a :: l)]
      rw [chunks_append hm k _ _ (by rw [List.length_take, Nat.min_eq_left (by omega), hk, Nat.mul_comm])]
termination_by l => l.length
decreasing_by simp only [List.length_drop, List.length_cons]; omega

/-- The list cut after its last full chunk: a prefix whose length is a multiple
of `n`, then the rest, shorter than `n`. -/
theorem eq_append_rest (l : List α) :
    l = l.take (l.length / n * n) ++ l.drop (l.length / n * n) ∧
      (l.take (l.length / n * n)).length = l.length / n * n ∧
      (l.drop (l.length / n * n)).length = l.length % n := by
  have hle : l.length / n * n ≤ l.length := Nat.div_mul_le_self _ _
  refine ⟨(List.take_append_drop _ l).symm, by simp [hle], ?_⟩
  rw [List.length_drop, Nat.mod_eq_sub_div_mul]

/-- A list whose length is not a multiple of `n` is cut into the chunks of its
longest prefix of such a length, then the rest as one short chunk. -/
theorem chunks_eq_append_rest (hn : 0 < n) {l : List α} (h : l.length % n ≠ 0) :
    chunks n l = chunks n (l.take (l.length / n * n)) ++ [l.drop (l.length / n * n)] := by
  obtain ⟨hsplit, hpre, hpost⟩ := eq_append_rest (n := n) l
  have hrest : l.drop (l.length / n * n) ≠ [] := by
    intro hnil
    rw [hnil, List.length_nil] at hpost
    exact h hpost.symm
  conv_lhs => rw [hsplit]
  rw [chunks_append hn _ _ _ hpre,
    chunks_of_length_le hn hrest (by rw [hpost]; exact Nat.le_of_lt (Nat.mod_lt _ hn))]

/-- When `m` divides both `n` and the length of the list, it divides the length
of every chunk. -/
theorem dvd_length_of_mem_chunks (hn : 0 < n) {m : ℕ} (hmn : m ∣ n) {l : List α}
    (hm : m ∣ l.length) : ∀ c ∈ chunks n l, m ∣ c.length := by
  intro c hc
  obtain ⟨-, hpre, hpost⟩ := eq_append_rest (n := n) l
  by_cases h : l.length % n = 0
  · rw [length_of_mem_chunks hn (l.length / n) l (Nat.div_mul_cancel (Nat.dvd_of_mod_eq_zero h)).symm
      c hc]
    exact hmn
  rw [chunks_eq_append_rest hn h, List.mem_append, List.mem_singleton] at hc
  rcases hc with hc | rfl
  · rw [length_of_mem_chunks hn _ _ hpre c hc]
    exact hmn
  · rw [hpost]
    exact (Nat.dvd_mod_iff hmn).mpr hm

end List
