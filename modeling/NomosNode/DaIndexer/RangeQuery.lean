import NomosNode.Lib.Outcome
import NomosNode.Lib.Bytes

/-!
# Range queries of the DA indexer

`nomos-services/data-availability/indexer/src/storage/adapters/rocksdb.rs`:
`get_range_stream` walks a range with `while current_index <= index_range.end`
and `Index::next`, which wraps at `u64::MAX`, and for each index loads the blob
id recorded there, the blob's light shares by a prefix load, and their shared
commitments. `load_prefix` reads from the prefix to the end of the key order, as
`prefix_iterator` does without a prefix extractor. The walk includes the end of
the half-open range, and at `u64::MAX` it never stops.
-/

namespace NomosDaIndexer

open Outcome

variable {ε : Type}

/-- `DA_VID_KEY_PREFIX`, `"da/vid/"`. -/
def daVidKeyPrefix : Bytes := [100, 97, 47, 118, 105, 100, 47]

/-- `"da/verified/"`, the common part of the verifier's prefixes. -/
def daVerifiedPrefix : Bytes := [100, 97, 47, 118, 101, 114, 105, 102, 105, 101, 100, 47]

/-- `DA_SHARED_COMMITMENTS_PREFIX`, `"da/verified/sc"`. -/
def daSharedCommitmentsPrefix : Bytes := daVerifiedPrefix ++ [115, 99]

/-- `DA_SHARE_PREFIX`, `"da/verified/bl"`. -/
def daSharePrefix : Bytes := daVerifiedPrefix ++ [98, 108]

/-- `key_bytes`: the prefix followed by the id. -/
def keyBytes (pre id : Bytes) : Bytes := pre ++ id

/-- `Index`: a `u64` kept as its eight big-endian bytes, so that the order derived on
the bytes is the order of the numbers. -/
@[ext] structure Index where
  value : UInt64
  deriving DecidableEq

namespace Index

/-- `Index::next`: `wrapping_add(1)`. -/
def next (self : Index) : Index := ⟨self.value + 1⟩

/-- `AsRef<[u8]>`: the big-endian bytes. -/
def asRef (self : Index) : Bytes := beBytes 8 self.value.toNat

end Index

/-- The entries of the RocksDB column, in key order. -/
structure RocksStore where
  entries : List (Bytes × Bytes)

namespace RocksStore

/-- `RocksBackend::load`. -/
def load (self : RocksStore) (key : Bytes) : Option Bytes := self.entries.lookup key

/-- `RocksBackend::load_prefix`: with no prefix extractor, `prefix_iterator` reads every
entry from the first key at or after the prefix to the end. -/
def loadPrefix (self : RocksStore) (pre : Bytes) : List Bytes :=
  (self.entries.filter fun e => decide (pre ≤ e.1)).map Prod.snd

end RocksStore

/-- The `StorageSerde` reads of the adapter. -/
structure StorageSerde (LightShare SharesCommitments : Type) where
  deserializeShare : Bytes → Option LightShare
  deserializeCommitments : Bytes → Option SharesCommitments

variable {LightShare SharesCommitments : Type}

/-- The indices `get_range_stream` loads, in the order it loads them:
`while current_index <= index_range.end`, then `current_index.next()`. -/
def rangeWalk (fuel : ℕ) (start end_ : Index) : Outcome ε (List Index) := do
  let (_, indices) ← loop (fun s : Index × List Index => decide (s.1.value ≤ end_.value))
    (fun s => ok (s.1.next, s.2 ++ [s.1])) fuel (start, [])
  ok indices

/-- One future of `get_range_stream`: no shares when no blob id is recorded at the index
or its shared commitments are missing; otherwise every value the prefix load of its
shares returns that reads as a light share, each with the commitments, which must read
back. -/
def rangeEntry (serde : StorageSerde LightShare SharesCommitments) (store : RocksStore)
    (appId : Bytes) (idx : Index) :
    Outcome ε (Index × List (LightShare × SharesCommitments)) :=
  match store.load (keyBytes daVidKeyPrefix (appId ++ idx.asRef)) with
  | none => ok (idx, [])
  | some id =>
    match store.load (keyBytes daSharedCommitmentsPrefix id) with
    | none => ok (idx, [])
    | some sharedCommitments =>
      let shares := (store.loadPrefix (keyBytes daSharePrefix id)).filterMap serde.deserializeShare
      match serde.deserializeCommitments sharedCommitments with
      | none => .panic "Failed to deserialize shared commitments"
      | some commitments => ok (idx, shares.map fun share => (share, commitments))

/-- The `GetRange` handler: the entries of the walked indices, collected from the
stream; `FuturesUnordered` yields them in the order they complete, so the reply is any
permutation of this list. -/
def getRange (fuel : ℕ) (serde : StorageSerde LightShare SharesCommitments)
    (store : RocksStore) (appId : Bytes) (start end_ : Index) :
    Outcome ε (List (Index × List (LightShare × SharesCommitments))) := do
  let indices ← rangeWalk fuel start end_
  indices.mapM (rangeEntry serde store appId)

/-! ## The walk -/

/-- The invariant of the walk from `start`: the indices loaded so far are those from
`start` up to the current one, which has not passed `end + 1`. -/
def Walked (start end_ : Index) (s : Index × List Index) : Prop :=
  start.value.toNat ≤ s.1.value.toNat ∧ s.1.value.toNat ≤ end_.value.toNat + 1 ∧
    s.2.map (fun i => i.value.toNat) =
      List.range' start.value.toNat (s.1.value.toNat - start.value.toNat)

theorem next_toNat {i : Index} (h : i.value.toNat < 2 ^ 64 - 1) :
    i.next.value.toNat = i.value.toNat + 1 := by
  rw [Index.next, UInt64.toNat_add]
  simp only [UInt64.toNat_one]
  omega

/-- Below `u64::MAX` the walk from `start` loads `start, …, end` and stops: the end of
the half-open range is loaded too. -/
theorem rangeWalk_eq {start end_ : Index} (hstart : start.value.toNat ≤ end_.value.toNat + 1)
    (hend : end_.value.toNat < 2 ^ 64 - 1) {fuel : ℕ}
    (hfuel : end_.value.toNat + 1 - start.value.toNat < fuel) :
    ∃ indices, (rangeWalk fuel start end_ : Outcome ε (List Index)) = ok indices ∧
      indices.map (fun i => i.value.toNat) =
        List.range' start.value.toNat (end_.value.toNat + 1 - start.value.toNat) := by
  have hstep : ∀ s, Walked start end_ s → (decide (s.1.value ≤ end_.value)) = true →
      ∃ t, (ok (s.1.next, s.2 ++ [s.1]) : Outcome ε (Index × List Index)) = ok t ∧
        Walked start end_ t ∧
        end_.value.toNat + 1 - t.1.value.toNat < end_.value.toNat + 1 - s.1.value.toNat := by
    rintro ⟨cur, acc⟩ ⟨hlo, hhi, hacc⟩ hcond
    dsimp only at hlo hhi hacc hcond
    have hle : cur.value.toNat ≤ end_.value.toNat :=
      UInt64.le_iff_toNat_le.mp (of_decide_eq_true hcond)
    have hnext := next_toNat (i := cur) (by omega)
    refine ⟨(cur.next, acc ++ [cur]), rfl, ⟨by dsimp only; omega, by dsimp only; omega, ?_⟩,
      by dsimp only; omega⟩
    dsimp only
    rw [List.map_append, hacc, hnext, show cur.value.toNat + 1 - start.value.toNat =
      (cur.value.toNat - start.value.toNat) + 1 by omega, List.range'_1_concat]
    simp only [List.map_cons, List.map_nil]
    congr 2
    omega
  obtain ⟨⟨cur, acc⟩, hloop, ⟨hlo, hhi, hacc⟩, hstop⟩ :=
    loop_spec (Walked start end_) (fun s => end_.value.toNat + 1 - s.1.value.toNat) hstep fuel
      (start, []) ⟨le_rfl, hstart, by simp⟩ hfuel
  dsimp only at hlo hhi hacc hstop
  have hcur : cur.value.toNat = end_.value.toNat + 1 := by
    have : ¬ cur.value ≤ end_.value := by simpa using hstop
    rw [UInt64.le_iff_toNat_le] at this
    omega
  refine ⟨acc, by rw [rangeWalk, bind_def, hloop, ok_bind], ?_⟩
  rw [hacc, hcur]

/-- At `u64::MAX` every index is at most the end, and the walk never stops. -/
theorem rangeWalk_max (start : Index) (fuel : ℕ) :
    (rangeWalk fuel start ⟨UInt64.ofNat (2 ^ 64 - 1)⟩ : Outcome ε (List Index)) = .div := by
  suffices h : ∀ fuel s, (loop (fun s : Index × List Index =>
      decide (s.1.value ≤ UInt64.ofNat (2 ^ 64 - 1))) (fun s => ok (s.1.next, s.2 ++ [s.1]))
      fuel s : Outcome ε (Index × List Index)) = .div by
    rw [rangeWalk, bind_def, h, div_bind]
  intro fuel
  induction fuel with
  | zero => intro s; rfl
  | succ fuel ih =>
    intro s
    have hcond : s.1.value ≤ UInt64.ofNat (2 ^ 64 - 1) := by
      rw [UInt64.le_iff_toNat_le]
      have := UInt64.toNat_lt s.1.value
      simp only [UInt64.toNat_ofNat']
      omega
    simp only [loop, hcond, decide_true, if_true, ok_bind, ih]

/-! ## The reply -/

/-- Every entry carries the index it was loaded for, and it is built without a panic as
long as stored commitments read back. -/
theorem rangeEntry_ok (serde : StorageSerde LightShare SharesCommitments) (store : RocksStore)
    (appId : Bytes) (hcommitments : ∀ b, (serde.deserializeCommitments b).isSome) (idx : Index) :
    ∃ shares, (rangeEntry serde store appId idx : Outcome ε _) = ok (idx, shares) := by
  unfold rangeEntry
  split
  · exact ⟨[], rfl⟩
  · split
    · exact ⟨[], rfl⟩
    · rename_i sharedCommitments _
      obtain ⟨commitments, hc⟩ := Option.isSome_iff_exists.mp (hcommitments sharedCommitments)
      simp only [hc]
      exact ⟨_, rfl⟩

/-- For every range `start..end` with `start <= end < u64::MAX`, and every store whose
shared commitments read back, the reply holds one entry for each index from `start` to
`end`, the end included; for `end = u64::MAX` the walk never finishes, whatever the
fuel. -/
theorem getRange_includes_end (serde : StorageSerde LightShare SharesCommitments)
    (store : RocksStore) (appId : Bytes) (hcommitments : ∀ b, (serde.deserializeCommitments b).isSome)
    {start end_ : Index} (hle : start.value.toNat ≤ end_.value.toNat)
    (hend : end_.value.toNat < 2 ^ 64 - 1) {fuel : ℕ}
    (hfuel : end_.value.toNat + 1 - start.value.toNat < fuel) :
    (∃ entries, (getRange fuel serde store appId start end_ : Outcome ε _) = ok entries ∧
      entries.map (fun e => e.1.value.toNat) =
        List.range' start.value.toNat (end_.value.toNat + 1 - start.value.toNat) ∧
      ∃ e ∈ entries, e.1 = end_) ∧
    ∀ fuel', (getRange fuel' serde store appId start ⟨UInt64.ofNat (2 ^ 64 - 1)⟩ :
      Outcome ε _) = .div := by
  refine ⟨?_, fun fuel' => by rw [getRange, bind_def, rangeWalk_max, div_bind]⟩
  obtain ⟨indices, hwalk, hindices⟩ := rangeWalk_eq (ε := ε) (by omega) hend hfuel
  obtain ⟨entries, hentries, hkeys⟩ := mapM_keys (l := indices)
    fun idx _ => rangeEntry_ok (ε := ε) serde store appId hcommitments idx
  have hmap : entries.map (fun e => e.1.value.toNat) = indices.map (fun i => i.value.toNat) := by
    rw [← hkeys, List.map_map]
    rfl
  have hlast : end_.value.toNat ∈ entries.map (fun e => e.1.value.toNat) := by
    rw [hmap, hindices, List.mem_range'_1]
    omega
  obtain ⟨e, he, hval⟩ := List.mem_map.mp hlast
  refine ⟨entries, by rw [getRange, bind_def, hwalk, ok_bind, hentries], hmap.trans hindices,
    e, he, Index.ext (UInt64.ext hval)⟩

/-- A serde that reads every value as a light share and every commitment as read. -/
def bytesSerde : StorageSerde Bytes Unit := ⟨some, fun _ => some ()⟩

/-- In key order: a share of blob `[2]`, the commitments of blob `[1]`, and blob
`[1]` recorded at index 0 of the empty app id. -/
def laterBlobStore : RocksStore :=
  ⟨[(keyBytes daSharePrefix ([2] ++ [0]), [7]), (keyBytes daSharedCommitmentsPrefix [1], []),
    (keyBytes daVidKeyPrefix ([] ++ Index.asRef ⟨0⟩), [1])]⟩

/-- A serde whose commitments always read back, and no share. -/
def unitSerde : StorageSerde Unit Unit := ⟨fun _ => none, fun _ => some ()⟩

theorem getRange_includes_end_of_empty_range :
    (∀ b, (unitSerde.deserializeCommitments b).isSome) ∧
      (∃ entries, (getRange 2 unitSerde ⟨[]⟩ [] ⟨0⟩ ⟨0⟩ : Outcome Unit _) = ok entries ∧
        entries.map (fun e => e.1.value.toNat) = List.range' 0 1 ∧ ∃ e ∈ entries, e.1 = ⟨0⟩) ∧
      ∀ fuel', (getRange fuel' unitSerde ⟨[]⟩ [] ⟨0⟩ ⟨UInt64.ofNat (2 ^ 64 - 1)⟩ :
        Outcome Unit _) = .div :=
  ⟨fun _ => rfl,
    getRange_includes_end unitSerde ⟨[]⟩ [] (fun _ => rfl) (by decide) (by decide) (by decide)⟩

end NomosDaIndexer
