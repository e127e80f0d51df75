import Mathlib.Data.Vector.Basic

/-!
# Byte strings and digests

A byte string is a list of bytes, and a fixed array `[u8; 32]` a vector of
32 bytes. Integers are written to bytes big-endian, as `to_be_bytes` does.
The hash functions a component uses are parameters: `Hashes` names the two
digests, each a function from byte strings to 32-byte arrays.
-/

abbrev Bytes := List UInt8

abbrev Bytes32 := Vector UInt8 32

/-- `[0u8; 32]`. -/
def Bytes32.zero : Bytes32 := Vector.replicate 32 0

/-- The `w` bytes of `x` modulo `2 ^ (8 * w)`, most significant first. -/
def beBytes : ℕ → ℕ → Bytes
  | 0, _ => []
  | w + 1, x => (x / 256 ^ w).toUInt8 :: beBytes w x

@[simp] theorem length_beBytes (w x : ℕ) : (beBytes w x).length = w := by
  induction w with
  | zero => rfl
  | succ w ih => simp [beBytes, ih]

/-- `beBytes w` tells apart the numbers that differ modulo `256 ^ w`. -/
theorem beBytes_inj : ∀ {w x y : ℕ}, beBytes w x = beBytes w y → x % 256 ^ w = y % 256 ^ w
  | 0, x, y, _ => by simp [Nat.mod_one]
  | w + 1, x, y, h => by
    simp only [beBytes, List.cons.injEq] at h
    obtain ⟨hhead, htail⟩ := h
    have hdigit : x / 256 ^ w % 256 = y / 256 ^ w % 256 := by
      simpa using congrArg UInt8.toNat hhead
    rw [Nat.mod_pow_succ, Nat.mod_pow_succ, beBytes_inj htail, hdigit]

/-- The number a byte string stands for, most significant byte first, as
`from_be_bytes` reads it. -/
def beNat : Bytes → ℕ
  | [] => 0
  | b :: bs => b.toNat * 256 ^ bs.length + beNat bs

/-- Reading back what `beBytes w` wrote gives the number modulo `256 ^ w`. -/
@[simp] theorem beNat_beBytes (w x : ℕ) : beNat (beBytes w x) = x % 256 ^ w := by
  induction w with
  | zero => simp [beBytes, beNat, Nat.mod_one]
  | succ w ih =>
    have hdigit : (x / 256 ^ w).toUInt8.toNat = x / 256 ^ w % 256 := by simp
    rw [beBytes, beNat, length_beBytes, ih, hdigit, Nat.mod_pow_succ]
    ac_rfl

@[simp] theorem beNat_replicate_zero (n : ℕ) : beNat (List.replicate n 0) = 0 := by
  induction n with
  | zero => rfl
  | succ n ih => simp [List.replicate_succ, beNat, ih]

/-- The `w` bytes of `x` modulo `2 ^ (8 * w)`, least significant first. -/
def leBytes (w x : ℕ) : Bytes := (beBytes w x).reverse

@[simp] theorem length_leBytes (w x : ℕ) : (leBytes w x).length = w := by
  simp [leBytes]

/-- The number a byte string stands for, least significant byte first, as
`BigUint::from_bytes_le` reads it. -/
def leNat (b : Bytes) : ℕ := beNat b.reverse

@[simp] theorem leNat_leBytes (w x : ℕ) : leNat (leBytes w x) = x % 256 ^ w := by
  simp [leNat, leBytes]

@[simp] theorem leNat_replicate_zero (n : ℕ) : leNat (List.replicate n 0) = 0 := by
  rw [leNat, List.reverse_replicate, beNat_replicate_zero]

/-- The digests of SHA-256 and of Blake2b with 32-byte output. -/
structure Hashes where
  sha256 : Bytes → Bytes32
  blake2b : Bytes → Bytes32

/-! ## Xor of byte strings

A stream cipher xors its keystream into the data byte by byte,
`List.zipWith (· ^^^ ·)`, as far as the shorter of the two goes. Xoring the
same keystream twice gives the data back. -/

theorem zipWith_take_length {α β γ : Type} (f : α → β → γ) (a : List α) (b : List β) :
    List.zipWith f a b = List.zipWith f a (b.take a.length) :=
  calc List.zipWith f a b = (List.zipWith f a b).take a.length :=
        (List.take_of_length_le (by simp)).symm
    _ = List.zipWith f (a.take a.length) (b.take a.length) := List.take_zipWith
    _ = List.zipWith f a (b.take a.length) := by rw [List.take_length]

theorem zipWith_xor_cancel : ∀ (a b : Bytes), a.length ≤ b.length →
    List.zipWith (· ^^^ ·) (List.zipWith (· ^^^ ·) a b) b = a
  | [], _, _ => rfl
  | _ :: _, [], h => absurd h (by simp)
  | x :: a, y :: b, h => by
    rw [List.zipWith_cons_cons, List.zipWith_cons_cons, UInt8.xor_assoc, UInt8.xor_self,
      UInt8.xor_zero, zipWith_xor_cancel a b (by simpa using h)]

theorem zipWith_replicate_zero_xor : ∀ (n : ℕ) (b : Bytes),
    List.zipWith (· ^^^ ·) (List.replicate n 0) b = b.take n
  | 0, _ => by simp
  | _ + 1, [] => by simp
  | n + 1, y :: b => by
    rw [List.replicate_succ, List.zipWith_cons_cons, UInt8.zero_xor, List.take_succ_cons,
      zipWith_replicate_zero_xor n b]

/-- Xoring the keystream into a ciphertext followed by more bytes gives the
plaintext back, followed by those bytes xored with the rest of the keystream. -/
theorem zipWith_xor_append_cancel (a b ks : Bytes) (h : a.length ≤ ks.length) :
    List.zipWith (· ^^^ ·) (List.zipWith (· ^^^ ·) a ks ++ b) ks =
      a ++ List.zipWith (· ^^^ ·) b (ks.drop a.length) :=
  calc List.zipWith (· ^^^ ·) (List.zipWith (· ^^^ ·) a ks ++ b) ks
      = List.zipWith (· ^^^ ·) (List.zipWith (· ^^^ ·) a (ks.take a.length) ++ b)
          (ks.take a.length ++ ks.drop a.length) := by
        rw [← zipWith_take_length, List.take_append_drop]
    _ = List.zipWith (· ^^^ ·) (List.zipWith (· ^^^ ·) a (ks.take a.length)) (ks.take a.length) ++
          List.zipWith (· ^^^ ·) b (ks.drop a.length) :=
        List.zipWith_append (by simp)
    _ = a ++ List.zipWith (· ^^^ ·) b (ks.drop a.length) := by
        rw [zipWith_xor_cancel _ _ (by simpa using h)]

/-- In the byte order of keys, a string below another of its length stays below every
extension of it. -/
theorem lt_append_of_lt_of_length_eq : ∀ {a b : Bytes} (c : Bytes), a < b →
    a.length = b.length → a < b ++ c
  | [], [], _, h, _ => absurd h (List.not_lt_nil _)
  | x :: a, y :: b, c, h, hl => by
    rw [List.cons_append]
    rcases List.cons_lt_cons_iff.mp h with hxy | ⟨rfl, hab⟩
    · exact List.cons_lt_cons_iff.mpr (Or.inl hxy)
    · exact List.cons_lt_cons_iff.mpr
        (Or.inr ⟨rfl, lt_append_of_lt_of_length_eq c hab (by simpa using hl)⟩)
