import NomosNode.Cl.PartialTx
import Mathlib.Data.Finset.Insert
import Mathlib.Data.List.GetD

/-!
# Note trees

`ledger/nomos-ledger/src/notetree.rs`: a note tree keeps its commitments in
insertion order and every root it has had. The root is the Merkle root of the
commitments padded to `MAX_NOTE_COMMS = 2 ^ 14` leaves, so `insert` and `root`
panic past `2 ^ 14` commitments. The valid roots of a tree built by `from_iter`
and grown by `insert` are exactly the roots of the prefixes of its commitments
that hold those it was built from.
-/

namespace NomosLedger

open Outcome Cl

variable {ε : Type}

def maxNoteComms : ℕ := 2 ^ 14

structure NoteTree where
  commitments : List NoteCommitment
  roots : Finset Bytes32

instance : Inhabited NoteTree := ⟨⟨[], ∅⟩⟩

def noteCommitmentLeaves (H : Hashes) (commitments : List NoteCommitment) :
    Outcome ε (List Bytes32) :=
  Merkle.paddedLeaves H.sha256 maxNoteComms (commitments.map fun c => c.bytes.toList)

/-- The Merkle root of commitments padded to `MAX_NOTE_COMMS` leaves, as
`insert`, `root` and `from_iter` compute it. -/
def commitmentsRoot (H : Hashes) (commitments : List NoteCommitment) : Outcome ε Bytes32 := do
  let leaves ← noteCommitmentLeaves H commitments
  Merkle.root H.sha256 leaves

namespace NoteTree

def insert (H : Hashes) (self : NoteTree) (note : NoteCommitment) : Outcome ε NoteTree := do
  let commitments := self.commitments ++ [note]
  let leaves ← noteCommitmentLeaves H commitments
  let root ← Merkle.root H.sha256 leaves
  ok { commitments, roots := Insert.insert root self.roots }

def root (H : Hashes) (self : NoteTree) : Outcome ε Bytes32 := do
  let leaves ← noteCommitmentLeaves H self.commitments
  Merkle.root H.sha256 leaves

def isValidRoot (self : NoteTree) (root : Bytes32) : Bool := decide (root ∈ self.roots)

def fromIter (H : Hashes) (commitments : List NoteCommitment) : Outcome ε NoteTree := do
  let leaves ← noteCommitmentLeaves H commitments
  let root ← Merkle.root H.sha256 leaves
  ok { commitments, roots := {root} }

def witness (H : Hashes) (self : NoteTree) (index : ℕ) : Outcome ε (Option (List Merkle.PathNode)) :=
  if self.commitments.length ≤ index then ok none
  else do
    let leaves ← noteCommitmentLeaves H self.commitments
    let path ← Merkle.path H.sha256 leaves index
    ok (some path)

/-- A sequence of `insert` calls. -/
def insertMany (H : Hashes) (self : NoteTree) (notes : List NoteCommitment) :
    Outcome ε NoteTree :=
  notes.foldlM (fun tree note => tree.insert H note) self

variable {H : Hashes}

theorem merkleRoot_ok {leaves : List Bytes32} (h : leaves.length = maxNoteComms) :
    ∃ r, (Merkle.root H.sha256 leaves : Outcome ε Bytes32) = ok r := by
  have hpow : leaves.length = 2 ^ leaves.length.log2 := by
    rw [h, maxNoteComms, Nat.log2_two_pow]
  exact ⟨_, if_pos hpow⟩

/-- Within capacity the padded commitments have a root. -/
theorem commitmentsRoot_ok {commitments : List NoteCommitment}
    (h : commitments.length ≤ maxNoteComms) :
    ∃ r, (commitmentsRoot H commitments : Outcome ε Bytes32) = ok r := by
  obtain ⟨leaves, hleaves, hlen⟩ : ∃ leaves, (noteCommitmentLeaves H commitments :
      Outcome ε (List Bytes32)) = ok leaves ∧ leaves.length = maxNoteComms :=
    Merkle.paddedLeaves_ok (by rwa [List.length_map])
  obtain ⟨r, hr⟩ := merkleRoot_ok (H := H) (ε := ε) hlen
  exact ⟨r, by rw [commitmentsRoot, bind_def, hleaves, ok_bind, hr]⟩

/-- Past capacity `padded_leaves` panics, so commitments with a root are
within capacity. -/
theorem length_le_of_commitmentsRoot {commitments : List NoteCommitment} {r : Bytes32}
    (h : (commitmentsRoot H commitments : Outcome ε Bytes32) = ok r) :
    commitments.length ≤ maxNoteComms := by
  by_contra hover
  have hpanic : (noteCommitmentLeaves H commitments : Outcome ε (List Bytes32)) =
      .panic "assertion failed: i < N" :=
    Merkle.paddedLeaves_panic (by rw [List.length_map]; omega)
  rw [commitmentsRoot, bind_def, hpanic, panic_bind] at h
  cases h

/-- `insert` adds the root of the commitments with the new one. -/
theorem insert_eq_ok_iff {self t : NoteTree} {note : NoteCommitment} :
    (self.insert H note : Outcome ε NoteTree) = ok t ↔
      ∃ r, (commitmentsRoot H (self.commitments ++ [note]) : Outcome ε Bytes32) = ok r ∧
        t = ⟨self.commitments ++ [note], Insert.insert r self.roots⟩ := by
  simp only [insert, commitmentsRoot, bind_def, bind_eq_ok, ok.injEq]
  constructor
  · rintro ⟨leaves, hleaves, r, hr, rfl⟩
    exact ⟨r, ⟨leaves, hleaves, hr⟩, rfl⟩
  · rintro ⟨r, ⟨leaves, hleaves, hr⟩, rfl⟩
    exact ⟨leaves, hleaves, r, hr, rfl⟩

/-- `from_iter` knows the root of its commitments only. -/
theorem fromIter_eq_ok_iff {commitments : List NoteCommitment} {t : NoteTree} :
    (fromIter H commitments : Outcome ε NoteTree) = ok t ↔
      ∃ r, (commitmentsRoot H commitments : Outcome ε Bytes32) = ok r ∧ t = ⟨commitments, {r}⟩ := by
  simp only [fromIter, commitmentsRoot, bind_def, bind_eq_ok, ok.injEq]
  constructor
  · rintro ⟨leaves, hleaves, r, hr, rfl⟩
    exact ⟨r, ⟨leaves, hleaves, hr⟩, rfl⟩
  · rintro ⟨r, ⟨leaves, hleaves, hr⟩, rfl⟩
    exact ⟨leaves, hleaves, r, hr, rfl⟩

/-- Within capacity, `insert` appends the commitment and adds one root. -/
theorem insert_ok {self : NoteTree} {note : NoteCommitment}
    (h : self.commitments.length < maxNoteComms) :
    ∃ r, (self.insert H note : Outcome ε NoteTree) =
      ok ⟨self.commitments ++ [note], Insert.insert r self.roots⟩ := by
  have hroom : (self.commitments ++ [note]).length ≤ maxNoteComms := by
    rw [List.length_append, List.length_singleton]
    omega
  obtain ⟨r, hr⟩ := commitmentsRoot_ok (H := H) (ε := ε) hroom
  exact ⟨r, insert_eq_ok_iff.mpr ⟨r, hr, rfl⟩⟩

/-- A tree at capacity panics on `insert`. -/
theorem insert_panic {self : NoteTree} {note : NoteCommitment}
    (h : maxNoteComms ≤ self.commitments.length) :
    (self.insert H note : Outcome ε NoteTree) = .panic "assertion failed: i < N" := by
  have hpanic : (noteCommitmentLeaves H (self.commitments ++ [note]) :
      Outcome ε (List Bytes32)) = .panic "assertion failed: i < N" :=
    Merkle.paddedLeaves_panic (by
      simp only [List.length_map, List.length_append, List.length_singleton]
      omega)
  simp only [insert, bind_def, hpanic, panic_bind]

/-- `insert` returns only below capacity, and then appends the commitment and
keeps every earlier root. -/
theorem insert_eq_ok {self t : NoteTree} {note : NoteCommitment}
    (h : (self.insert H note : Outcome ε NoteTree) = ok t) :
    self.commitments.length < maxNoteComms ∧ t.commitments = self.commitments ++ [note] ∧
      self.roots ⊆ t.roots := by
  obtain ⟨r, hr, rfl⟩ := insert_eq_ok_iff.mp h
  have hcap := length_le_of_commitmentsRoot hr
  rw [List.length_append, List.length_singleton] at hcap
  exact ⟨by omega, rfl, Finset.subset_insert _ _⟩

theorem fromIter_ok {commitments : List NoteCommitment}
    (h : commitments.length ≤ maxNoteComms) :
    ∃ r, (fromIter H commitments : Outcome ε NoteTree) = ok ⟨commitments, {r}⟩ := by
  obtain ⟨r, hr⟩ := commitmentsRoot_ok (H := H) (ε := ε) h
  exact ⟨r, fromIter_eq_ok_iff.mpr ⟨r, hr, rfl⟩⟩

/-- Within capacity, the witness of a commitment leads from its leaf hash to
the root: the membership check of the leadership and ptx guests accepts it. -/
theorem witness_pathRoot {self : NoteTree} (hcap : self.commitments.length ≤ maxNoteComms)
    {index : ℕ} (hindex : index < self.commitments.length) :
    ∃ p, (self.witness H index : Outcome ε (Option (List Merkle.PathNode))) = ok (some p) ∧
      (self.root H : Outcome ε Bytes32) =
        ok (Merkle.pathRoot H.sha256 (Merkle.leaf H.sha256 self.commitments[index].bytes.toList) p) := by
  obtain ⟨leaves, p, hleaves, hp, -, hroot⟩ :=
    @Merkle.pathRoot_paddedLeaves ε H.sha256 maxNoteComms (by rw [maxNoteComms, Nat.log2_two_pow])
      (self.commitments.map fun c => c.bytes.toList) (by rwa [List.length_map]) index
      (by rwa [List.length_map])
  refine ⟨p, ?_, ?_⟩
  · rw [witness, if_neg (Nat.not_le_of_lt hindex)]
    simp only [noteCommitmentLeaves, bind_def, hleaves, ok_bind, hp]
  · simp only [root, noteCommitmentLeaves, bind_def, hleaves, ok_bind, hroot, List.getElem_map]

/-- Over capacity, `witness` panics in `padded_leaves`, as `root` does. -/
theorem witness_panic {self : NoteTree} (hcap : maxNoteComms < self.commitments.length)
    {index : ℕ} (hindex : index < self.commitments.length) :
    (self.witness H index : Outcome ε (Option (List Merkle.PathNode))) =
      .panic "assertion failed: i < N" ∧
    (self.root H : Outcome ε Bytes32) = .panic "assertion failed: i < N" := by
  have hpanic : (noteCommitmentLeaves H self.commitments : Outcome ε (List Bytes32)) =
      .panic "assertion failed: i < N" :=
    Merkle.paddedLeaves_panic (by rwa [List.length_map])
  refine ⟨?_, ?_⟩
  · rw [witness, if_neg (Nat.not_le_of_lt hindex)]
    simp only [bind_def, hpanic, panic_bind]
  · simp only [root, bind_def, hpanic, panic_bind]

/-! ## The history of roots

A tree built by `from_iter` from `m` commitments and then grown by `insert`
knows the roots of its prefixes of `m` commitments or more, and no other. -/

theorem root_eq (self : NoteTree) :
    (self.root H : Outcome ε Bytes32) = commitmentsRoot H self.commitments :=
  rfl

/-- A valid root stays valid after an `insert`. -/
theorem isValidRoot_insert {self t : NoteTree} {note : NoteCommitment}
    (h : (self.insert H note : Outcome ε NoteTree) = ok t) {r : Bytes32}
    (hr : self.isValidRoot r = true) : t.isValidRoot r = true := by
  obtain ⟨-, -, hroots⟩ := insert_eq_ok h
  simp only [isValidRoot, decide_eq_true_eq] at hr ⊢
  exact hroots hr

/-- A sequence of inserts appends its commitments, within capacity, and a
valid root stays valid along it. -/
theorem insertMany_eq_ok {self t : NoteTree} {notes : List NoteCommitment}
    (h : (self.insertMany H notes : Outcome ε NoteTree) = ok t) :
    t.commitments = self.commitments ++ notes ∧
      ∀ r, self.isValidRoot r = true → t.isValidRoot r = true := by
  induction notes generalizing self with
  | nil =>
    rw [insertMany, List.foldlM_nil, pure_def, ok.injEq] at h
    subst h
    exact ⟨(List.append_nil _).symm, fun _ hr => hr⟩
  | cons note notes ih =>
    rw [insertMany, List.foldlM_cons, bind_def, bind_eq_ok] at h
    obtain ⟨next, hnext, hrest⟩ := h
    obtain ⟨hcommitments, hvalid⟩ := ih hrest
    obtain ⟨-, hnextCommitments, -⟩ := insert_eq_ok hnext
    refine ⟨by rw [hcommitments, hnextCommitments, List.append_assoc, List.singleton_append], ?_⟩
    exact fun r hr => hvalid r (isValidRoot_insert hnext hr)

/-- Inserts that stay within capacity all succeed. -/
theorem insertMany_ok {self : NoteTree} {notes : List NoteCommitment}
    (h : (self.commitments ++ notes).length ≤ maxNoteComms) :
    ∃ t, (self.insertMany H notes : Outcome ε NoteTree) = ok t := by
  induction notes generalizing self with
  | nil => exact ⟨self, rfl⟩
  | cons note notes ih =>
    have hroom : self.commitments.length < maxNoteComms := by
      simp only [List.length_append, List.length_cons] at h
      omega
    obtain ⟨r, hinsert⟩ : ∃ r, (self.insert H note : Outcome ε NoteTree) =
        ok ⟨self.commitments ++ [note], Insert.insert r self.roots⟩ := insert_ok hroom
    have hrest : ((⟨self.commitments ++ [note], Insert.insert r self.roots⟩ : NoteTree).commitments
        ++ notes).length ≤ maxNoteComms := by
      rwa [List.append_assoc, List.singleton_append]
    obtain ⟨t, ht⟩ := ih hrest
    refine ⟨t, ?_⟩
    rw [insertMany, List.foldlM_cons, bind_def, hinsert, ok_bind]
    exact ht

end NoteTree

/-- The roots a tree knows after it was built from `m` commitments and grown
by `insert`: exactly those of its prefixes of `m` commitments or more. The
default tree has this history for `m = 1`: it knows no root, not even the
root of no commitment. -/
structure RootHistory (ε : Type) (H : Hashes) (m : ℕ) (tree : NoteTree) : Prop where
  capacity : tree.commitments.length ≤ maxNoteComms
  start : m ≤ tree.commitments.length + 1
  roots : ∀ r, r ∈ tree.roots ↔ ∃ j, m ≤ j ∧ j ≤ tree.commitments.length ∧
    (commitmentsRoot H (tree.commitments.take j) : Outcome ε Bytes32) = ok r

namespace RootHistory

variable {H : Hashes}

theorem fromIter {commitments : List NoteCommitment} {t : NoteTree}
    (h : (NoteTree.fromIter H commitments : Outcome ε NoteTree) = ok t) :
    RootHistory ε H commitments.length t := by
  obtain ⟨r, hr, rfl⟩ := NoteTree.fromIter_eq_ok_iff.mp h
  refine ⟨NoteTree.length_le_of_commitmentsRoot hr, Nat.le_succ _, fun r' => ?_⟩
  rw [Finset.mem_singleton]
  constructor
  · rintro rfl
    exact ⟨commitments.length, le_rfl, le_rfl, by rwa [List.take_length]⟩
  · rintro ⟨j, hmj, hjL, hj⟩
    obtain rfl : j = commitments.length := le_antisymm hjL hmj
    rw [List.take_length, hr, ok.injEq] at hj
    exact hj.symm

theorem default : RootHistory ε H 1 (Inhabited.default : NoteTree) :=
  ⟨Nat.zero_le _, le_rfl, fun r => by
    constructor
    · intro hr
      exact absurd hr (Finset.notMem_empty r)
    · rintro ⟨j, h1, hj, -⟩
      exact absurd (h1.trans hj) (by decide)⟩

/-- `insert` adds the root of the whole new list of commitments, the prefix of
the new length; the shorter prefixes are those of the old list. -/
theorem insert {m : ℕ} {self t : NoteTree} {note : NoteCommitment}
    (hinv : RootHistory ε H m self) (h : (self.insert H note : Outcome ε NoteTree) = ok t) :
    RootHistory ε H m t := by
  obtain ⟨r, hr, rfl⟩ := NoteTree.insert_eq_ok_iff.mp h
  have hlength : (self.commitments ++ [note]).length = self.commitments.length + 1 := by
    rw [List.length_append, List.length_singleton]
  have htake : ∀ j ≤ self.commitments.length,
      (self.commitments ++ [note]).take j = self.commitments.take j :=
    fun j hj => List.take_append_of_le_length hj
  have hstart := hinv.start
  refine ⟨NoteTree.length_le_of_commitmentsRoot hr, by rw [hlength]; omega, fun r' => ?_⟩
  rw [Finset.mem_insert, hinv.roots r', hlength]
  constructor
  · rintro (rfl | ⟨j, hmj, hjL, hj⟩)
    · exact ⟨self.commitments.length + 1, by omega, le_rfl,
        by rwa [← hlength, List.take_length]⟩
    · exact ⟨j, hmj, Nat.le_succ_of_le hjL, by rwa [htake j hjL]⟩
  · rintro ⟨j, hmj, hjL, hj⟩
    rcases Nat.lt_or_ge j (self.commitments.length + 1) with hlt | hge
    · -- a prefix of the old commitments
      exact Or.inr ⟨j, hmj, Nat.le_of_lt_succ hlt, by rwa [← htake j (Nat.le_of_lt_succ hlt)]⟩
    · -- the whole new list
      obtain rfl : j = self.commitments.length + 1 := le_antisymm hjL hge
      rw [← hlength, List.take_length, hr, ok.injEq] at hj
      exact Or.inl hj.symm

theorem insertMany {m : ℕ} {self t : NoteTree} {notes : List NoteCommitment}
    (hinv : RootHistory ε H m self) (h : (self.insertMany H notes : Outcome ε NoteTree) = ok t) :
    RootHistory ε H m t := by
  rw [NoteTree.insertMany] at h
  exact foldlM_invariant (RootHistory ε H m) (fun _ _ _ hb hnext => hb.insert hnext) hinv h

/-- Every known root is the root of a prefix of the commitments. -/
theorem prefix_of_mem {m : ℕ} {tree : NoteTree} (hinv : RootHistory ε H m tree) {r : Bytes32}
    (hr : r ∈ tree.roots) :
    ∃ j ≤ tree.commitments.length,
      (commitmentsRoot H (tree.commitments.take j) : Outcome ε Bytes32) = ok r := by
  obtain ⟨j, -, hj, hroot⟩ := (hinv.roots r).mp hr
  exact ⟨j, hj, hroot⟩

/-- The current root is valid once the tree holds its first `m` commitments. -/
theorem root_valid {m : ℕ} {self : NoteTree} (hinv : RootHistory ε H m self)
    (hm : m ≤ self.commitments.length) :
    ∃ r, (self.root H : Outcome ε Bytes32) = ok r ∧ self.isValidRoot r = true := by
  obtain ⟨r, hr⟩ := NoteTree.commitmentsRoot_ok (H := H) (ε := ε) hinv.capacity
  refine ⟨r, (NoteTree.root_eq self).trans hr, ?_⟩
  rw [NoteTree.isValidRoot, decide_eq_true_eq, hinv.roots r]
  exact ⟨self.commitments.length, hm, le_rfl, by rwa [List.take_length]⟩

end RootHistory

/-- A note tree built by `from_iter` from `initial` and grown by inserting
`notes`, within `MAX_NOTE_COMMS`, is built; its valid roots are exactly the
roots of the prefixes of its commitments that hold `initial`; its current root
is valid; and a valid root stays valid after any later inserts. -/
theorem noteTree_valid_roots_are_prefix_roots (H : Hashes) (initial notes : List NoteCommitment)
    (hcapacity : (initial ++ notes).length ≤ maxNoteComms) :
    ∃ t, (do let t ← NoteTree.fromIter H initial; t.insertMany H notes : Outcome ε NoteTree) =
        ok t ∧
      t.commitments = initial ++ notes ∧
      (∀ r, t.isValidRoot r = true ↔ ∃ j, initial.length ≤ j ∧ j ≤ (initial ++ notes).length ∧
        (commitmentsRoot H ((initial ++ notes).take j) : Outcome ε Bytes32) = ok r) ∧
      (∃ r, (t.root H : Outcome ε Bytes32) = ok r ∧ t.isValidRoot r = true) ∧
      ∀ later t', (t.insertMany H later : Outcome ε NoteTree) = ok t' →
        ∀ r, t.isValidRoot r = true → t'.isValidRoot r = true := by
  obtain ⟨r0, hbuilt⟩ : ∃ r0, (NoteTree.fromIter H initial : Outcome ε NoteTree) =
      ok ⟨initial, {r0}⟩ :=
    NoteTree.fromIter_ok (by rw [List.length_append] at hcapacity; omega)
  obtain ⟨t, ht⟩ : ∃ t, (NoteTree.insertMany H ⟨initial, {r0}⟩ notes : Outcome ε NoteTree) =
      ok t :=
    NoteTree.insertMany_ok hcapacity
  have hinv : RootHistory ε H initial.length t := (RootHistory.fromIter hbuilt).insertMany ht
  have hcommitments : t.commitments = initial ++ notes := (NoteTree.insertMany_eq_ok ht).1
  refine ⟨t, by rw [bind_def, hbuilt, ok_bind, ht], hcommitments, fun r => ?_,
    hinv.root_valid (by rw [hcommitments, List.length_append]; omega),
    fun later t' hlater r hr => (NoteTree.insertMany_eq_ok hlater).2 r hr⟩
  rw [NoteTree.isValidRoot, decide_eq_true_eq, hinv.roots r, hcommitments]

/-- Hashes that map everything to zero. -/
def zeroHashes : Hashes := ⟨fun _ => Bytes32.zero, fun _ => Bytes32.zero⟩

/-- One commitment inserted into the tree of no commitment. -/
theorem noteTree_valid_roots_are_prefix_roots_one_insert :
    ([] ++ [⟨Bytes32.zero⟩] : List NoteCommitment).length ≤ maxNoteComms ∧
    ∃ t, (do let t ← NoteTree.fromIter zeroHashes []; t.insertMany zeroHashes [⟨Bytes32.zero⟩] :
          Outcome Empty NoteTree) = ok t ∧
      t.commitments = [] ++ [⟨Bytes32.zero⟩] ∧
      (∀ r, t.isValidRoot r = true ↔ ∃ j, ([] : List NoteCommitment).length ≤ j ∧
        j ≤ ([] ++ [⟨Bytes32.zero⟩] : List NoteCommitment).length ∧
        (commitmentsRoot zeroHashes (([] ++ [⟨Bytes32.zero⟩] : List NoteCommitment).take j) :
          Outcome Empty Bytes32) = ok r) ∧
      (∃ r, (t.root zeroHashes : Outcome Empty Bytes32) = ok r ∧ t.isValidRoot r = true) ∧
      ∀ later t', (t.insertMany zeroHashes later : Outcome Empty NoteTree) = ok t' →
        ∀ r, t.isValidRoot r = true → t'.isValidRoot r = true :=
  ⟨by decide, noteTree_valid_roots_are_prefix_roots zeroHashes [] [⟨Bytes32.zero⟩] (by decide)⟩

/-- Merkle paths are sound where the code builds them: over any power of two of
leaves, in the input and output trees of a partial transaction, and in the
note tree, which within capacity gives a witness to every commitment and over
capacity panics in `witness` as in `root`. -/
theorem merklePath_sound (H : Hashes) :
    (∀ leaves : List Bytes32, leaves.length = 2 ^ leaves.length.log2 →
      ∀ idx (hidx : idx < leaves.length), ∃ p,
        (Merkle.path H.sha256 leaves idx : Outcome ε (List Merkle.PathNode)) = ok p ∧
        p.length = leaves.length.log2 ∧
        (Merkle.root H.sha256 leaves : Outcome ε Bytes32) = ok (Merkle.pathRoot H.sha256 leaves[idx] p)) ∧
    (∀ ptx : PartialTxWitness, ptx.inputs.length ≤ maxInputs → ∀ idx < ptx.inputs.length,
      ∃ w, (ptx.inputWitness H.sha256 idx : Outcome ε PartialTxInputWitness) = ok w ∧
        ((ptx.commit H.sha256).inputRoot H.sha256 : Outcome ε Bytes32) = ok (w.inputRoot H.sha256)) ∧
    (∀ ptx : PartialTxWitness, ptx.outputs.length ≤ maxOutputs → ∀ idx < ptx.outputs.length,
      ∃ w, (ptx.outputWitness H.sha256 idx : Outcome ε PartialTxOutputWitness) = ok w ∧
        ((ptx.commit H.sha256).outputRoot H.sha256 : Outcome ε Bytes32) = ok (w.outputRoot H.sha256)) ∧
    (∀ (t : NoteTree) (i : ℕ) (hi : i < t.commitments.length),
      (t.commitments.length ≤ maxNoteComms ∧ ∃ p,
        (t.witness H i : Outcome ε (Option (List Merkle.PathNode))) = ok (some p) ∧
        (t.root H : Outcome ε Bytes32) =
          ok (Merkle.pathRoot H.sha256 (Merkle.leaf H.sha256 t.commitments[i].bytes.toList) p)) ∨
      (maxNoteComms < t.commitments.length ∧
        (t.witness H i : Outcome ε (Option (List Merkle.PathNode))) = .panic "assertion failed: i < N" ∧
        (t.root H : Outcome ε Bytes32) = .panic "assertion failed: i < N")) := by
  refine ⟨fun leaves hpow idx hidx => ?_, fun ptx hlen idx hidx => ?_, fun ptx hlen idx hidx => ?_,
    fun t i hi => ?_⟩
  · rw [← List.getD_eq_getElem leaves Bytes32.zero hidx]
    exact Merkle.pathRoot_path hpow hidx
  · exact ptx.inputWitness_inputRoot hlen hidx
  · exact ptx.outputWitness_outputRoot hlen hidx
  · rcases Nat.lt_or_ge maxNoteComms t.commitments.length with hover | hcap
    · exact .inr ⟨hover, NoteTree.witness_panic hover hi⟩
    · exact .inl ⟨hcap, NoteTree.witness_pathRoot hcap hi⟩

/-- A hash that sums the input's bytes into each output byte, offset by its
position. -/
def sumHash (bytes : Bytes) : Bytes32 :=
  Vector.ofFn fun i : Fin 32 => UInt8.ofNat ((bytes.map UInt8.toNat).sum + i.val)

/-- Four leaves and the path of the third, and a note tree of three commitments
and the witness of the second. -/
theorem merklePath_sound_four_leaves :
    (∃ p, (Merkle.path sumHash [Vector.replicate 32 1, Vector.replicate 32 2, Vector.replicate 32 3,
          Vector.replicate 32 4] 2 : Outcome Empty (List Merkle.PathNode)) = ok p ∧ p.length = 2 ∧
        (Merkle.root sumHash [Vector.replicate 32 1, Vector.replicate 32 2, Vector.replicate 32 3,
          Vector.replicate 32 4] : Outcome Empty Bytes32) =
          ok (Merkle.pathRoot sumHash (Vector.replicate 32 3) p)) ∧
    ∃ p, ((⟨[⟨Vector.replicate 32 1⟩, ⟨Vector.replicate 32 2⟩, ⟨Vector.replicate 32 3⟩], ∅⟩ :
          NoteTree).witness ⟨sumHash, sumHash⟩ 1 : Outcome Empty (Option (List Merkle.PathNode))) =
        ok (some p) ∧
      ((⟨[⟨Vector.replicate 32 1⟩, ⟨Vector.replicate 32 2⟩, ⟨Vector.replicate 32 3⟩], ∅⟩ :
          NoteTree).root ⟨sumHash, sumHash⟩ : Outcome Empty Bytes32) =
        ok (Merkle.pathRoot sumHash (Merkle.leaf sumHash (Vector.replicate 32 2).toList) p) := by
  obtain ⟨hleaves, -, -, hnotes⟩ := merklePath_sound (ε := Empty) ⟨sumHash, sumHash⟩
  refine ⟨hleaves _ (by decide) 2 (by decide), ?_⟩
  rcases hnotes ⟨[⟨Vector.replicate 32 1⟩, ⟨Vector.replicate 32 2⟩, ⟨Vector.replicate 32 3⟩], ∅⟩ 1
      (by decide) with ⟨-, hwitness⟩ | ⟨hover, -⟩
  · exact hwitness
  · exact absurd hover (by decide)

end NomosLedger
