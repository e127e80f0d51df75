import NomosNode.Lib.Outcome
import NomosNode.Lib.Bytes

/-!
# Length-prefixed framing of DA network messages

`nomos-da/network/messages/src/packing.rs`: a message is serialized with `wire`
and written behind its length as a big-endian `u16`. The size check lets
through a message of `MAX_MSG_LEN = 1 << 16` bytes, whose length the prefix
writes as `0`: every shorter message reads back and leaves the stream where the
writer left it, and one of exactly `MAX_MSG_LEN` bytes reads back as the empty
message. A stream is the list of its bytes; `wire::serialize` and
`wire::deserialize` are parameters.
-/

namespace NomosDaMessages

open Outcome

/-- The `io::Error`s of this module: `InvalidData` with its description, and
the end of the stream reached by `read_exact`. -/
inductive IoError
  | invalidData (description : String)
  | unexpectedEof
  deriving DecidableEq

/-- `MAX_MSG_LEN_BYTES`, the size of the `u16` length prefix. -/
def maxMsgLenBytes : ℕ := 2

/-- `MAX_MSG_LEN = 1 << (MAX_MSG_LEN_BYTES * 8)`. -/
def maxMsgLen : ℕ := 1 <<< (maxMsgLenBytes * 8)

theorem maxMsgLen_eq : maxMsgLen = 256 ^ maxMsgLenBytes := rfl

/-- `MessageTooLargeError(n)` converted to `io::Error`. -/
def messageTooLarge (n : ℕ) : IoError :=
  .invalidData ("Message too large. Maximum size is " ++ toString maxMsgLen ++
    ". Actual size is " ++ toString n)

section Packing

variable {M : Type}

/-- `pack`: `wire::serialize`, with its error made an `io::Error`. -/
def pack (serialize : M → Outcome IoError Bytes) (message : M) : Outcome IoError Bytes :=
  serialize message

def getPackedMessageSize (packedMessage : Bytes) : Outcome IoError ℕ :=
  let dataLength := packedMessage.length
  if dataLength > maxMsgLen then err (messageTooLarge dataLength) else ok dataLength

/-- The length prefix is `(data_length as u16).to_be_bytes()`: `beBytes`
keeps the length modulo `2 ^ 16`. -/
def prepareMessageForWriter (packedMessage : Bytes) : Outcome IoError Bytes := do
  let dataLength ← getPackedMessageSize packedMessage
  ok (beBytes maxMsgLenBytes dataLength ++ packedMessage)

/-- `pack_to_writer`, returning what the writer holds afterwards. -/
def packToWriter (serialize : M → Outcome IoError Bytes) (message : M) (writer : Bytes) :
    Outcome IoError Bytes := do
  let packedMessage ← pack serialize message
  let preparedPackedMessage ← prepareMessageForWriter packedMessage
  ok (writer ++ preparedPackedMessage)

/-- `read_exact` into a buffer of `n` bytes: the bytes read and the rest of
the stream. -/
def readExact (n : ℕ) (reader : Bytes) : Outcome IoError (Bytes × Bytes) :=
  if n ≤ reader.length then ok (reader.take n, reader.drop n) else err .unexpectedEof

def readDataLength (reader : Bytes) : Outcome IoError (ℕ × Bytes) := do
  let (lengthPrefix, reader) ← readExact maxMsgLenBytes reader
  ok (beNat lengthPrefix, reader)

/-- `unpack_from_reader`, returning the message and the rest of the stream. -/
def unpackFromReader (deserialize : Bytes → Outcome IoError M) (reader : Bytes) :
    Outcome IoError (M × Bytes) := do
  let (dataLength, reader) ← readDataLength reader
  let (data, reader) ← readExact dataLength reader
  let message ← deserialize data
  ok (message, reader)

/-- Messages written one after another by `pack_to_writer`. -/
def packAllToWriter (serialize : M → Outcome IoError Bytes) :
    List M → Bytes → Outcome IoError Bytes
  | [], writer => ok writer
  | message :: messages, writer =>
    (packToWriter serialize message writer).bind (packAllToWriter serialize messages)

/-- `unpack_from_reader` called `n` times on one stream. -/
def unpackManyFromReader (deserialize : Bytes → Outcome IoError M) :
    ℕ → Bytes → Outcome IoError (List M × Bytes)
  | 0, reader => ok ([], reader)
  | n + 1, reader => do
    let (message, reader) ← unpackFromReader deserialize reader
    let (messages, reader) ← unpackManyFromReader deserialize n reader
    ok (message :: messages, reader)

theorem readExact_append {n : ℕ} {data : Bytes} (rest : Bytes) (h : data.length = n) :
    readExact n (data ++ rest) = ok (data, rest) := by
  subst h
  simp [readExact]

/-- `pack_to_writer` fails exactly when serialization fails or the packed
message is longer than `MAX_MSG_LEN`. -/
theorem packToWriter_eq_ok {serialize : M → Outcome IoError Bytes} {message : M}
    {writer packed : Bytes} (hpacked : serialize message = ok packed)
    (hlength : packed.length ≤ maxMsgLen) :
    packToWriter serialize message writer =
      ok (writer ++ beBytes maxMsgLenBytes packed.length ++ packed) := by
  have hsize : getPackedMessageSize packed = ok packed.length := by
    simp [getPackedMessageSize, Nat.not_lt.mpr hlength]
  simp [packToWriter, pack, prepareMessageForWriter, hpacked, hsize]

theorem packToWriter_of_too_large {serialize : M → Outcome IoError Bytes} {message : M}
    {writer packed : Bytes} (hpacked : serialize message = ok packed)
    (hlength : maxMsgLen < packed.length) :
    packToWriter serialize message writer = err (messageTooLarge packed.length) := by
  simp [packToWriter, pack, prepareMessageForWriter, getPackedMessageSize, hpacked, hlength]

/-- A message framed with a length its prefix can hold reads back, and the
reader stops where the next frame starts. -/
theorem unpackFromReader_frame (deserialize : Bytes → Outcome IoError M) {packed : Bytes}
    (rest : Bytes) (hlength : packed.length < maxMsgLen) :
    unpackFromReader deserialize (beBytes maxMsgLenBytes packed.length ++ packed ++ rest) =
      (deserialize packed).bind fun message => ok (message, rest) := by
  have hprefix : beNat (beBytes maxMsgLenBytes packed.length) = packed.length := by
    rw [beNat_beBytes, ← maxMsgLen_eq, Nat.mod_eq_of_lt hlength]
  rw [List.append_assoc]
  simp only [unpackFromReader, readDataLength, readExact_append _ (length_beBytes _ _), hprefix,
    bind_def, ok_bind, readExact_append rest rfl]

/-- Framing round-trips over a stream: messages that serialize to fewer than
`MAX_MSG_LEN` bytes and deserialize back, written one after another, are read
back by as many calls of `unpack_from_reader`, in order, and the reader is
left where the writer stopped. -/
theorem unpackManyFromReader_packAllToWriter {serialize : M → Outcome IoError Bytes}
    {deserialize : Bytes → Outcome IoError M} :
    ∀ (messages : List M) (writer : Bytes),
      (∀ m ∈ messages, ∃ packed, serialize m = ok packed ∧ packed.length < maxMsgLen ∧
        deserialize packed = ok m) →
      ∃ stream, packAllToWriter serialize messages writer = ok (writer ++ stream) ∧
        ∀ rest, unpackManyFromReader deserialize messages.length (stream ++ rest) =
          ok (messages, rest)
  | [], writer, _ => ⟨[], by simp [packAllToWriter, unpackManyFromReader]⟩
  | m :: messages, writer, hmessages => by
    obtain ⟨packed, hpacked, hlength, hround⟩ := hmessages m List.mem_cons_self
    obtain ⟨stream, hwrite, hread⟩ := unpackManyFromReader_packAllToWriter messages
      (writer ++ beBytes maxMsgLenBytes packed.length ++ packed)
      fun m' hm' => hmessages m' (List.mem_cons_of_mem m hm')
    refine ⟨beBytes maxMsgLenBytes packed.length ++ packed ++ stream, ?_, fun rest => ?_⟩
    · rw [packAllToWriter, packToWriter_eq_ok hpacked hlength.le, ok_bind, hwrite]
      simp only [List.append_assoc]
    · have hframe := unpackFromReader_frame deserialize (stream ++ rest) hlength
      rw [List.append_assoc] at hframe
      simp only [List.length_cons, unpackManyFromReader, List.append_assoc, bind_def, hframe,
        hround, ok_bind, hread]

/-- A message of exactly `MAX_MSG_LEN` bytes passes the size check and is
written behind the prefix `[0, 0]`, so the reader takes it for an empty
message and stops at its first byte. -/
theorem packToWriter_max_size_desynchronizes (serialize : M → Outcome IoError Bytes)
    (deserialize : Bytes → Outcome IoError M) (message : M) (packed rest : Bytes)
    (hpacked : serialize message = ok packed) (hlength : packed.length = maxMsgLen) :
    packToWriter serialize message [] = ok (0 :: 0 :: packed) ∧
      unpackFromReader deserialize (0 :: 0 :: packed ++ rest) =
        (deserialize []).bind (fun m => ok (m, packed ++ rest)) ∧
      packed ++ rest ≠ rest := by
  have hprefix : beBytes maxMsgLenBytes maxMsgLen = [0, 0] := rfl
  refine ⟨?_, ?_, ?_⟩
  · rw [packToWriter_eq_ok hpacked hlength.le, hlength, hprefix]
    rfl
  · have hread := @readExact_append maxMsgLenBytes [0, 0] (packed ++ rest) rfl
    have hzero : beNat [0, 0] = 0 := rfl
    simp only [List.cons_append, List.nil_append] at hread
    simp only [unpackFromReader, readDataLength, bind_def, List.cons_append, hread, ok_bind, hzero]
    simp [readExact]
  · intro h
    have := congrArg List.length h
    simp [hlength, maxMsgLen, maxMsgLenBytes] at this

end Packing

/-- `DispersalErrorType`. -/
inductive DispersalErrorType
  | chunkSize
  | verification

/-- The index bincode writes for a variant. -/
def DispersalErrorType.index : DispersalErrorType → ℕ
  | .chunkSize => 0
  | .verification => 1

/-- `DispersalError`, with the description as the UTF-8 bytes of its string. -/
structure DispersalError where
  blobId : Bytes32
  errorType : DispersalErrorType
  errorDescription : Bytes

/-- The bincode encoding of a `DispersalError` under the `wire` options (fixed
width integers, little endian): the 32 bytes of the blob id, the variant index
as a `u32`, the length of the description as a `u64`, and its bytes. -/
def DispersalError.encode (e : DispersalError) : Bytes :=
  e.blobId.toList ++ leBytes 4 e.errorType.index ++ leBytes 8 e.errorDescription.length ++
    e.errorDescription

/-- The message of the module's own too-large test, with a description of
65492 dots in place of `MAX_MSG_LEN` of them: it serializes to exactly
`MAX_MSG_LEN` bytes. -/
def maxSizeDispersalError : DispersalError :=
  ⟨Bytes32.zero, .chunkSize, List.replicate 65492 46⟩

theorem length_encode_maxSizeDispersalError :
    maxSizeDispersalError.encode.length = maxMsgLen := by
  simp only [DispersalError.encode, maxSizeDispersalError, List.length_append,
    Vector.length_toList, length_leBytes, List.length_replicate]
  rfl

theorem packToWriter_max_size_dispersal_error :
    packToWriter (fun e => ok e.encode) maxSizeDispersalError [] =
        ok (0 :: 0 :: maxSizeDispersalError.encode) ∧
      unpackFromReader (fun _ => (err .unexpectedEof : Outcome IoError DispersalError))
          (0 :: 0 :: maxSizeDispersalError.encode ++ []) = err .unexpectedEof ∧
      maxSizeDispersalError.encode ++ [] ≠ [] := by
  obtain ⟨hwrite, hread, hne⟩ := packToWriter_max_size_desynchronizes
    (fun e => ok e.encode) (fun _ => err .unexpectedEof) maxSizeDispersalError
    maxSizeDispersalError.encode [] rfl length_encode_maxSizeDispersalError
  refine ⟨hwrite, ?_, hne⟩
  rw [hread]
  rfl

end NomosDaMessages
