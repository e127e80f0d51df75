import NomosNode.Core.Header

/-!
# Blocks and how a proposer builds them

`nomos-core/chain-defs/src/block`, `utils/select.rs` and `wire/bincode.rs`:
`BlockBuilder::build` selects from the mempool, serializes the two ordered sets
with `wire::serialize`, unwraps the result, and puts its Blake2b digest and
length in the header. The selectors take up to 16 MiB while `wire::serialize`
refuses encodings past `DATA_LIMIT = 2 ^ 18` bytes, so a selection between the
two makes `build` panic. Bincode writes a sequence as its `u64` length and its
elements; the encodings of transactions and blobs are parameters.
-/

namespace NomosCore

open Outcome CryptarchiaEngine

/-- `Index([u8; 8])`. -/
structure Index where
  bytes : Vector UInt8 8
  deriving DecidableEq

/-- `impl From<u64> for Index`: the big-endian bytes of the value. -/
def Index.ofU64 (value : ℕ) : Index := ⟨⟨(beBytes 8 value).toArray, by simp⟩⟩

structure Metadata where
  appId : Bytes32
  index : Index
  deriving DecidableEq

structure BlobInfo where
  id : Bytes32
  metadata : Metadata
  deriving DecidableEq

namespace BlobInfo

def blobId (self : BlobInfo) : Bytes32 := self.id

/-- `size_of_val(&self.id) + self.metadata.size()`, the sizes of three arrays. -/
def size (_self : BlobInfo) : ℕ := 32 + (32 + 8)

/-- The bincode encoding: the three arrays, without lengths. -/
def encode (self : BlobInfo) : Bytes :=
  self.id.toList ++ self.metadata.appId.toList ++ self.metadata.index.bytes.toList

@[simp] theorem length_encode (self : BlobInfo) : self.encode.length = 72 := by
  simp [encode]

end BlobInfo

structure Block (Id P Tx B : Type) where
  header : Header Id P
  clTransactions : List Tx
  blBlobs : List B

/-- The header builder, `header::Builder`. -/
structure Builder (Id P : Type) where
  parent : Id
  slot : Slot
  leaderProof : P
  orphanedLeaderProofs : List (Header Id P)

namespace Builder

variable {Id P : Type}

def new (parent : Id) (slot : Slot) (leaderProof : P) : Builder Id P :=
  ⟨parent, slot, leaderProof, []⟩

def build (self : Builder Id P) (contentId : ContentId) (contentSize : ℕ) : Header Id P :=
  ⟨self.parent, self.slot, contentSize, contentId, self.leaderProof, self.orphanedLeaderProofs⟩

end Builder

section Select

variable {T : Type}

/-- `select_from_till_fill_size::<SIZE, T>`: `take_while` over the items, adding
each item's measure to `current_size` and keeping it while the total stays
within `SIZE`. -/
def selectFromTillFillSize (size : ℕ) (measure : T → ℕ) (items : List T) : List T :=
  go 0 items
where
  go (currentSize : ℕ) : List T → List T
    | [] => []
    | item :: rest =>
      if currentSize + measure item ≤ size then item :: go (currentSize + measure item) rest
      else []

theorem selectFromTillFillSize.go_of_sum_le {size : ℕ} {measure : T → ℕ} :
    ∀ {items : List T} {currentSize : ℕ}, currentSize + (items.map measure).sum ≤ size →
      go size measure currentSize items = items
  | [], _, _ => rfl
  | item :: rest, currentSize, h => by
    rw [List.map_cons, List.sum_cons] at h
    rw [go, if_pos (by omega), go_of_sum_le (by omega)]

/-- Items whose sizes add up to at most `SIZE` are all selected. -/
theorem selectFromTillFillSize_of_sum_le {size : ℕ} {measure : T → ℕ} {items : List T}
    (h : (items.map measure).sum ≤ size) : selectFromTillFillSize size measure items = items :=
  selectFromTillFillSize.go_of_sum_le (by omega)

/-- `collect::<IndexSet<_>>()`: the first occurrence of each item, in order. -/
def collectIndexSet [DecidableEq T] (items : List T) : List T :=
  items.foldl (fun set item => if item ∈ set then set else set ++ [item]) []

theorem foldl_collectIndexSet [DecidableEq T] :
    ∀ {items set : List T}, items.Nodup → (∀ x ∈ items, x ∉ set) →
      items.foldl (fun set item => if item ∈ set then set else set ++ [item]) set = set ++ items
  | [], set, _, _ => by simp
  | item :: rest, set, hnodup, hfresh => by
    rw [List.nodup_cons] at hnodup
    rw [List.foldl_cons, if_neg (hfresh item List.mem_cons_self)]
    rw [foldl_collectIndexSet hnodup.2]
    · simp
    · intro x hx hmem
      rcases List.mem_append.mp hmem with hset | hitem
      · exact hfresh x (List.mem_cons_of_mem _ hx) hset
      · rw [List.mem_singleton] at hitem
        exact hnodup.1 (hitem ▸ hx)

/-- Distinct items are collected as they come. -/
theorem collectIndexSet_of_nodup [DecidableEq T] {items : List T} (h : items.Nodup) :
    collectIndexSet items = items := by
  rw [collectIndexSet, foldl_collectIndexSet h (fun _ _ => List.not_mem_nil), List.nil_append]

end Select

/-- `MB16`, the budget of the node's selectors. -/
def mb16 : ℕ := 1024 * 1024 * 16

/-- `DATA_LIMIT`: bincode serializes and deserializes at most 256 KiB. -/
def dataLimit : ℕ := 2 ^ 18

inductive BincodeError where
  | sizeLimit
  deriving DecidableEq

inductive WireError where
  | serialize (e : BincodeError)
  deriving DecidableEq

def WireError.debug : WireError → String
  | .serialize .sizeLimit => "Serialize(SizeLimit)"

section Build

variable {Id P Tx B : Type}

/-- `wire::serialize(&(&txs, &blobs))`. -/
def serializeContent (encodeTx : Tx → Bytes) (encodeBlob : B → Bytes) (txs : List Tx)
    (blobs : List B) : Outcome WireError Bytes :=
  let bytes := leBytes 8 txs.length ++ txs.flatMap encodeTx ++ leBytes 8 blobs.length ++
    blobs.flatMap encodeBlob
  if bytes.length ≤ dataLimit then ok bytes else err (.serialize .sizeLimit)

structure BlockBuilder (Id P Tx B : Type) where
  txSelector : List Tx → List Tx
  blobSelector : List B → List B
  headerBuilder : Builder Id P
  txs : Option (List Tx)
  blobs : Option (List B)

namespace BlockBuilder

def new (txSelector : List Tx → List Tx) (blobSelector : List B → List B)
    (headerBuilder : Builder Id P) : BlockBuilder Id P Tx B :=
  ⟨txSelector, blobSelector, headerBuilder, none, none⟩

def withTransactions (self : BlockBuilder Id P Tx B) (txs : List Tx) : BlockBuilder Id P Tx B :=
  { self with txs := some txs }

def withBlobsInfo (self : BlockBuilder Id P Tx B) (blobs : List B) : BlockBuilder Id P Tx B :=
  { self with blobs := some blobs }

variable [DecidableEq Tx] [DecidableEq B]

def build (H : Hashes) (encodeTx : Tx → Bytes) (encodeBlob : B → Bytes)
    (self : BlockBuilder Id P Tx B) : Outcome String (Block Id P Tx B) :=
  match self with
  | ⟨txSelector, blobSelector, headerBuilder, some txs, some blobs⟩ => do
    let txs := collectIndexSet (txSelector txs)
    let blobs := collectIndexSet (blobSelector blobs)
    let serializedContent ←
      unwrapResult WireError.debug (serializeContent encodeTx encodeBlob txs blobs)
    let contentSize ← if serializedContent.length < 2 ^ 32 then ok serializedContent.length
      else err ("Content is too big: " ++ toString serializedContent.length ++
        " out of 4294967295 max")
    let contentId : ContentId := ⟨H.blake2b serializedContent⟩
    let header := headerBuilder.build contentId contentSize
    ok ⟨header, txs, blobs⟩
  | _ => err "incomplete block"

variable {H : Hashes} {encodeTx : Tx → Bytes} {encodeBlob : B → Bytes}

/-- A built block carries the digest and the length of the serialization of its
own transactions and blobs. -/
theorem build_eq_ok {self : BlockBuilder Id P Tx B} {block : Block Id P Tx B}
    (h : self.build H encodeTx encodeBlob = ok block) :
    ∃ serializedContent, serializeContent encodeTx encodeBlob block.clTransactions
        block.blBlobs = ok serializedContent ∧
      block.header.contentId = ⟨H.blake2b serializedContent⟩ ∧
      block.header.contentSize = serializedContent.length := by
  obtain ⟨txSelector, blobSelector, headerBuilder, txs, blobs⟩ := self
  cases txs with
  | none => cases h
  | some txs =>
    cases blobs with
    | none => cases h
    | some blobs =>
      simp only [build, bind_def] at h
      cases hser : serializeContent encodeTx encodeBlob (collectIndexSet (txSelector txs))
          (collectIndexSet (blobSelector blobs)) with
      | ok serializedContent =>
        rw [hser, unwrapResult, ok_bind] at h
        split_ifs at h with hlen
        · rw [ok_bind, ok.injEq] at h
          subst h
          exact ⟨serializedContent, hser, rfl, rfl⟩
        · cases h
      | err e => rw [hser, unwrapResult] at h; cases h
      | panic m => rw [hser, unwrapResult] at h; cases h
      | div => rw [hser, unwrapResult] at h; cases h

/-- When the collected selections serialize to more than `DATA_LIMIT` bytes,
`build` panics on the `unwrap` of `wire::serialize`. -/
theorem build_of_too_large {txSelector : List Tx → List Tx} {blobSelector : List B → List B}
    {headerBuilder : Builder Id P} {txs : List Tx} {blobs : List B}
    (h : dataLimit < 8 + ((collectIndexSet (txSelector txs)).flatMap encodeTx).length + 8 +
      ((collectIndexSet (blobSelector blobs)).flatMap encodeBlob).length) :
    (BlockBuilder.new txSelector blobSelector headerBuilder |>.withTransactions txs
      |>.withBlobsInfo blobs).build H encodeTx encodeBlob =
      .panic "called `Result::unwrap()` on an `Err` value: Serialize(SizeLimit)" := by
  have hser : serializeContent encodeTx encodeBlob (collectIndexSet (txSelector txs))
      (collectIndexSet (blobSelector blobs)) = err (.serialize .sizeLimit) := by
    simp only [serializeContent, List.length_append, length_leBytes]
    rw [if_neg (by omega)]
  simp only [new, withTransactions, withBlobsInfo, build, bind_def, hser]
  rfl

end BlockBuilder

end Build

/-- The node's selectors: `FillSize<MB16, Tx>` measures a transaction by the
length of `as_bytes`, `FillSize<MB16, BlobInfo>` a blob information by `size`. -/
def txFillSize {Tx : Type} (asBytes : Tx → Bytes) : List Tx → List Tx :=
  selectFromTillFillSize mb16 fun tx => (asBytes tx).length

def blobFillSize : List BlobInfo → List BlobInfo :=
  selectFromTillFillSize mb16 BlobInfo.size

/-- A proposal with no transaction and 3641 blob informations with distinct ids:
the node's blob selector takes all of them (262152 bytes of 16 MiB), and their
serialization, 262168 bytes, exceeds `DATA_LIMIT`, so `build` panics. -/
theorem build_panics_on_selected_blobs {Id P Tx : Type} [DecidableEq Tx] (H : Hashes)
    (asBytes encodeTx : Tx → Bytes) (headerBuilder : Builder Id P) :
    (BlockBuilder.new (txFillSize asBytes) blobFillSize headerBuilder
      |>.withTransactions [] |>.withBlobsInfo ((List.range 3641).map fun i =>
        ⟨⟨(beBytes 32 i).toArray, by simp⟩, ⟨Bytes32.zero, Index.ofU64 0⟩⟩)).build H encodeTx
      BlobInfo.encode =
      .panic "called `Result::unwrap()` on an `Err` value: Serialize(SizeLimit)" := by
  set blobs : List BlobInfo := (List.range 3641).map fun i =>
    ⟨⟨(beBytes 32 i).toArray, by simp⟩, ⟨Bytes32.zero, Index.ofU64 0⟩⟩ with hblobs
  have hnodup : blobs.Nodup := by
    refine List.Nodup.map_on (fun i hi j hj hij => ?_) List.nodup_range
    have hbytes : beBytes 32 i = beBytes 32 j := by
      have := congrArg (fun b : BlobInfo => b.id.toList) hij
      simpa using this
    have hi' := List.mem_range.mp hi
    have hj' := List.mem_range.mp hj
    have hmod := beBytes_inj hbytes
    rwa [Nat.mod_eq_of_lt (by omega), Nat.mod_eq_of_lt (by omega)] at hmod
  have hlength : blobs.length = 3641 := by rw [hblobs, List.length_map, List.length_range]
  have hselect : blobFillSize blobs = blobs := by
    refine selectFromTillFillSize_of_sum_le ?_
    show (blobs.map fun _ => 32 + (32 + 8)).sum ≤ mb16
    rw [List.map_const', hlength, List.sum_replicate, mb16]
    norm_num
  have htxs : collectIndexSet (txFillSize asBytes []) = [] := rfl
  refine BlockBuilder.build_of_too_large ?_
  rw [htxs, hselect, collectIndexSet_of_nodup hnodup, List.flatMap_nil, List.length_nil,
    List.length_flatMap, List.map_congr_left (fun b _ => BlobInfo.length_encode b),
    List.map_const', hlength, List.sum_replicate, dataLimit]
  norm_num

end NomosCore
