import NomosNode.Lib.Outcome
import NomosNode.Lib.Bytes
import Mathlib.Algebra.GroupWithZero.Nat

/-!
# Sphinx packets of the blend network

`nomos-blend/message/src/sphinx`: parsing, `Packet::from_bytes` and `unpack`,
the length-preserving decryption of the routing information, and
`SphinxMessage::unwrap_message`, which a node runs on every message it receives.
`Packet::from_bytes` subtracts the header size from the length before checking
it, so a shorter message panics in a debug build; a longer one always parses,
and from there `unwrap_message` returns an error or a result. The primitives of
`sphinx_packet` are parameters, and the sizes are computed on `ℕ`.
-/

namespace NomosBlendMessage.Sphinx

open Outcome

abbrev Bytes16 := Vector UInt8 16

/-- `ASYM_KEY_SIZE`. -/
def asymKeySize : ℕ := 32

/-- `MAX_LAYERS`. -/
def maxLayers : ℕ := 5

/-- `HEADER_INTEGRITY_MAC_SIZE` of `sphinx_packet`, its security parameter. -/
def headerIntegrityMacSize : ℕ := 16

/-- `RoutingInformation::SIZE`, the size of a `RoutingFlag`. -/
def routingInformationSize : ℕ := 1

/-- The errors of `ConsistentLengthLayeredCipher`. -/
inductive CipherError
  | invalidCipherTextLength
  | invalidEncryptionParam
  | integrityMacVerificationFailed
  deriving DecidableEq

/-- `sphinx::error::Error`; an error of `sphinx_packet` is kept as its text. -/
inductive Error
  | sphinxPacketError (description : String)
  | invalidPacketBytes
  | invalidRoutingFlag (flag : UInt8)
  | invalidEncryptedRoutingInfoLength (length : ℕ)
  | consistentLengthLayeredEncryptionError (e : CipherError)
  deriving DecidableEq

/-- The keys one hop derives from the packet's ephemeral key. -/
structure RoutingKeys where
  streamCipherKey : Bytes16
  headerIntegrityHmacKey : Bytes16
  payloadKey : Bytes
  blindingFactor : Bytes32

/-- What this module calls of `sphinx_packet` and `x25519_dalek`. -/
structure Primitives where
  /-- `SphinxHeader::compute_routing_keys(ephemeral public key, private key)`. -/
  computeRoutingKeys : Bytes32 → Bytes32 → RoutingKeys
  /-- `generate_pseudorandom_bytes(key, STREAM_CIPHER_INIT_VECTOR, n)`. -/
  pseudorandomBytes : Bytes16 → (n : ℕ) → Vector UInt8 n
  /-- `mac.verify(key, data)`. -/
  verifyMac : Bytes16 → Bytes → Bytes16 → Bool
  /-- `compute_keyed_hmac::<Sha256>(key, data)`, cut to its first
  `HEADER_INTEGRITY_MAC_SIZE` bytes. -/
  computeMac : Bytes16 → Bytes → Bytes16
  /-- `Payload::from_bytes` and then `unwrap` with the payload key. -/
  unwrapPayload : Bytes → Bytes → Except String Bytes
  /-- `Payload::recover_plaintext`. -/
  recoverPlaintext : Bytes → Except String Bytes
  /-- `derive_next_ephemeral_public_key(current key, blinding factor)`. -/
  nextEphemeralPublicKey : Bytes32 → Bytes32 → Bytes32
  forwardHop : UInt8
  finalHop : UInt8

/-! ## Parsing -/

/-- `parse_bytes`: consecutive slices of the given sizes. -/
def parseBytes (data : Bytes) (sizes : List ℕ) : Outcome String (List Bytes) :=
  go 0 sizes
where
  go : ℕ → List ℕ → Outcome String (List Bytes)
    | _, [] => ok []
    | i, size :: sizes =>
      if i + size > data.length then
        err "The sum of sizes exceeds the length of the input slice"
      else (go (i + size) sizes).bind fun slices => ok ((data.drop i).take size :: slices)

/-- Sizes that fit after position `i` are cut into slices of those sizes,
which together are the bytes from `i` on. -/
theorem parseBytes.go_of_le (data : Bytes) :
    ∀ (sizes : List ℕ) (i : ℕ), i + sizes.sum ≤ data.length →
      ∃ slices, go data i sizes = ok slices ∧ slices.map List.length = sizes ∧
        slices.flatten = (data.drop i).take sizes.sum
  | [], _, _ => ⟨[], rfl, rfl, by simp⟩
  | size :: sizes, i, h => by
    rw [List.sum_cons] at h
    obtain ⟨slices, hgo, hlengths, hflatten⟩ :=
      parseBytes.go_of_le data sizes (i + size) (by omega)
    refine ⟨(data.drop i).take size :: slices, ?_, ?_, ?_⟩
    · rw [go, if_neg (by omega), hgo, ok_bind]
    · simp only [List.map_cons, hlengths, List.length_take, List.length_drop]
      congr 1
      omega
    · rw [List.flatten_cons, hflatten, List.sum_cons, List.take_add, List.drop_drop]

theorem parseBytes_of_le {data : Bytes} {sizes : List ℕ} (h : sizes.sum ≤ data.length) :
    ∃ slices, parseBytes data sizes = ok slices ∧ slices.map List.length = sizes ∧
      slices.flatten = data.take sizes.sum := by
  obtain ⟨slices, hgo, hlengths, hflatten⟩ := parseBytes.go_of_le data sizes 0 (by omega)
  exact ⟨slices, hgo, hlengths, by simpa using hflatten⟩

/-- `<[u8; n]>::try_from(slice).unwrap()`. -/
def tryIntoUnwrap {ε : Type} (n : ℕ) (b : Bytes) : Outcome ε (Vector UInt8 n) :=
  if h : b.length = n then ok ⟨b.toArray, by simpa using h⟩
  else .panic "called `Result::unwrap()` on an `Err` value: TryFromSliceError(())"

theorem tryIntoUnwrap_of_length {ε : Type} {n : ℕ} {b : Bytes} (h : b.length = n) :
    ∃ v, (tryIntoUnwrap n b : Outcome ε _) = ok v ∧ v.toList = b :=
  ⟨⟨b.toArray, by simpa using h⟩, by simp [tryIntoUnwrap, h], rfl⟩

/-! ## The layered cipher -/

section Cipher

variable (prim : Primitives) (dataSize : ℕ)

/-- `SINGLE_LAYER_SIZE = D::SIZE + HEADER_INTEGRITY_MAC_SIZE`. -/
def singleLayerSize : ℕ := dataSize + headerIntegrityMacSize

/-- `total_size(max_layers) = SINGLE_LAYER_SIZE * max_layers`. -/
def totalSize (maxLayers : ℕ) : ℕ := singleLayerSize dataSize * maxLayers

inductive StreamCipherOption
  | fromFront
  | fromBack

/-- `xor_in_place`, returning the new contents of `a`. -/
def xorInPlace {ε : Type} (a b : Bytes) : Outcome ε Bytes :=
  if a.length = b.length then ok (List.zipWith (· ^^^ ·) a b)
  else .panic "assertion `left == right` failed"

/-- `apply_streamcipher`: the pseudorandom bytes for the largest data, cut to
the length of `data` from the front or from the back, and xored in. -/
def applyStreamcipher {ε : Type} (maxLayers : ℕ) (data : Bytes) (key : Bytes16)
    (opt : StreamCipherOption) : Outcome ε Bytes := do
  let n := totalSize dataSize maxLayers + singleLayerSize dataSize
  let pseudorandomBytes := (prim.pseudorandomBytes key n).toList
  let pseudorandomBytes ← match opt with
    | .fromFront =>
      if data.length ≤ n then ok (pseudorandomBytes.take data.length)
      else .panic ("range end index " ++ toString data.length ++
        " out of range for slice of length " ++ toString n)
    | .fromBack => do
      let start ← subChecked n data.length
      ok (pseudorandomBytes.drop start)
  xorInPlace data pseudorandomBytes

/-- `ConsistentLengthLayeredCipher::unpack`: the data of this layer, the MAC
of the next one, and the next layer, which is as long as this one. -/
def unpack (maxLayers : ℕ) (mac : Bytes16) (encryptedTotalData : Bytes)
    (streamCipherKey integrityMacKey : Bytes16) : Outcome CipherError (Bytes × Bytes16 × Bytes) :=
  if encryptedTotalData.length ≠ totalSize dataSize maxLayers then
    err .invalidCipherTextLength
  else if !prim.verifyMac integrityMacKey encryptedTotalData mac then
    err .integrityMacVerificationFailed
  else do
    -- the truncated part of the next layer comes back as a zero filler
    let totalDataWithZeroFiller :=
      encryptedTotalData ++ List.replicate (singleLayerSize dataSize) 0
    let decrypted ← applyStreamcipher prim dataSize maxLayers totalDataWithZeroFiller
      streamCipherKey .fromFront
    let parsed ← unwrapResult String.quote (parseBytes decrypted
      [dataSize, headerIntegrityMacSize, totalSize dataSize maxLayers])
    let data ← getIndex parsed 0
    let nextMac ← getIndex parsed 1 >>= tryIntoUnwrap headerIntegrityMacSize
    let nextEncryptedData ← getIndex parsed 2
    ok (data, nextMac, nextEncryptedData)

theorem xorInPlace_of_length {ε : Type} {a b : Bytes} (h : a.length = b.length) :
    ∃ c, (xorInPlace a b : Outcome ε _) = ok c ∧ c.length = a.length :=
  ⟨List.zipWith (· ^^^ ·) a b, by simp [xorInPlace, h], by simp [h]⟩

theorem applyStreamcipher_fromFront {ε : Type} (maxLayers : ℕ) (data : Bytes) (key : Bytes16)
    (h : data.length ≤ totalSize dataSize maxLayers + singleLayerSize dataSize) :
    ∃ decrypted, (applyStreamcipher prim dataSize maxLayers data key .fromFront :
      Outcome ε _) = ok decrypted ∧ decrypted.length = data.length := by
  have hslice : ((prim.pseudorandomBytes key
      (totalSize dataSize maxLayers + singleLayerSize dataSize)).toList.take
        data.length).length = data.length := by
    simp only [List.length_take, Vector.length_toList]
    omega
  obtain ⟨c, hc, hlength⟩ := xorInPlace_of_length (ε := ε) hslice.symm
  exact ⟨c, by simp only [applyStreamcipher, if_pos h, bind_def, ok_bind, hc], hlength⟩

/-- Decryption keeps the length: a layer whose MAC verifies is always cut into
the data, the next MAC and a next layer of the same total size, and the
`unwrap` of the parse never panics. -/
theorem unpack_of_verified {maxLayers : ℕ} {mac : Bytes16} {encryptedTotalData : Bytes}
    {streamCipherKey integrityMacKey : Bytes16}
    (hlength : encryptedTotalData.length = totalSize dataSize maxLayers)
    (hmac : prim.verifyMac integrityMacKey encryptedTotalData mac = true) :
    ∃ data nextMac next, unpack prim dataSize maxLayers mac encryptedTotalData
        streamCipherKey integrityMacKey = ok (data, nextMac, next) ∧
      data.length = dataSize ∧ next.length = totalSize dataSize maxLayers := by
  obtain ⟨decrypted, hdecrypt, hdlength⟩ := applyStreamcipher_fromFront (ε := CipherError) prim
    dataSize maxLayers (encryptedTotalData ++ List.replicate (singleLayerSize dataSize) 0)
    streamCipherKey (by simp [hlength])
  have hsum : [dataSize, headerIntegrityMacSize, totalSize dataSize maxLayers].sum ≤
      decrypted.length := by
    simp [hdlength, hlength, singleLayerSize]
    omega
  obtain ⟨parsed, hparse, hlengths, -⟩ := parseBytes_of_le hsum
  simp only [List.map_eq_cons_iff, List.map_eq_nil_iff] at hlengths
  obtain ⟨data, _, rfl, hdata, macBytes, _, rfl, hmacBytes, next, _, rfl, hnext, rfl⟩ :=
    hlengths
  obtain ⟨nextMac, hnextMac, -⟩ := tryIntoUnwrap_of_length (ε := CipherError) hmacBytes
  refine ⟨data, nextMac, next, ?_, hdata, hnext⟩
  simp [unpack, hlength, hmac, hdecrypt, hparse, unwrapResult, getIndex, hnextMac]

/-- The layered cipher never panics: a layer is rejected for its length or its
MAC, or decrypted. -/
theorem unpack_returns (maxLayers : ℕ) (mac : Bytes16) (encryptedTotalData : Bytes)
    (streamCipherKey integrityMacKey : Bytes16) :
    (unpack prim dataSize maxLayers mac encryptedTotalData streamCipherKey
      integrityMacKey).Returns := by
  by_cases hlength : encryptedTotalData.length = totalSize dataSize maxLayers
  · by_cases hmac : prim.verifyMac integrityMacKey encryptedTotalData mac = true
    · obtain ⟨_, _, _, hok, -⟩ := unpack_of_verified prim dataSize hlength hmac
      rw [hok]
      trivial
    · simp [unpack, hlength, hmac]
  · simp [unpack, hlength]

end Cipher

/-! ## Routing information and packets -/

/-- `RoutingInformation::from_bytes`: the flag is the one byte. -/
def routingInformationFromBytes (data : Bytes) : Outcome Error UInt8 :=
  match data with
  | [flag] => ok flag
  | _ => err (.invalidEncryptedRoutingInfoLength data.length)

structure EncryptedRoutingInformation where
  mac : Bytes16
  encryptedRoutingInfo : Bytes

namespace EncryptedRoutingInformation

/-- `EncryptedRoutingInformation::size(max_layers)`. -/
def size (maxLayers : ℕ) : ℕ :=
  headerIntegrityMacSize + totalSize routingInformationSize maxLayers

def toBytes (self : EncryptedRoutingInformation) : Bytes :=
  self.mac.toList ++ self.encryptedRoutingInfo

def fromBytes (data : Bytes) (maxLayers : ℕ) : Outcome Error EncryptedRoutingInformation := do
  let parsed ← (parseBytes data
      [headerIntegrityMacSize, totalSize routingInformationSize maxLayers]).mapErr
    fun _ => .invalidEncryptedRoutingInfoLength data.length
  let mac ← getIndex parsed 0 >>= tryIntoUnwrap headerIntegrityMacSize
  let encryptedRoutingInfo ← getIndex parsed 1
  ok ⟨mac, encryptedRoutingInfo⟩

/-- `EncryptedRoutingInformation::unpack`: the routing flag of this hop and the
routing information for the next. -/
def unpack (prim : Primitives) (self : EncryptedRoutingInformation) (routingKey : RoutingKeys)
    (maxLayers : ℕ) : Outcome Error (UInt8 × EncryptedRoutingInformation) := do
  let (routingInfo, nextMac, nextEncryptedRoutingInfo) ←
    (Sphinx.unpack prim routingInformationSize maxLayers self.mac self.encryptedRoutingInfo
      routingKey.streamCipherKey routingKey.headerIntegrityHmacKey).mapErr
      .consistentLengthLayeredEncryptionError
  let flag ← routingInformationFromBytes routingInfo
  ok (flag, ⟨nextMac, nextEncryptedRoutingInfo⟩)

/-- Routing information of the right size always parses, and reads back. -/
theorem fromBytes_of_length {data : Bytes} {maxLayers : ℕ} (h : data.length = size maxLayers) :
    ∃ eri, fromBytes data maxLayers = ok eri ∧ eri.toBytes = data ∧
      eri.encryptedRoutingInfo.length = totalSize routingInformationSize maxLayers := by
  obtain ⟨parsed, hparse, hlengths, hflatten⟩ := parseBytes_of_le
    (show [headerIntegrityMacSize, totalSize routingInformationSize maxLayers].sum ≤
      data.length by simp [h, size])
  simp only [List.map_eq_cons_iff, List.map_eq_nil_iff] at hlengths
  obtain ⟨macBytes, _, rfl, hmac, rest, _, rfl, hrest, rfl⟩ := hlengths
  obtain ⟨mac, hmacOk, hmacList⟩ := tryIntoUnwrap_of_length (ε := Error) hmac
  have hsplit : macBytes ++ rest = data := by
    simpa [h, size, List.take_of_length_le] using hflatten
  refine ⟨⟨mac, rest⟩, ?_, ?_, hrest⟩
  · simp [fromBytes, hparse, getIndex, hmacOk]
  · rw [← hsplit, ← hmacList]
    rfl

theorem unpack_returns (prim : Primitives) (self : EncryptedRoutingInformation)
    (routingKey : RoutingKeys) (maxLayers : ℕ) :
    (self.unpack prim routingKey maxLayers).Returns := by
  refine Returns.bind ((returns_mapErr _ _).mpr (Sphinx.unpack_returns _ _ _ _ _ _ _))
    fun ⟨routingInfo, _, _⟩ _ => ?_
  refine Returns.bind ?_ fun _ _ => trivial
  unfold routingInformationFromBytes
  split <;> trivial

end EncryptedRoutingInformation

/-- The payload's functions report the errors of `sphinx_packet`. -/
def ofSphinxPacket {α : Type} : Except String α → Outcome Error α
  | .ok a => ok a
  | .error e => err (.sphinxPacketError e)

structure Header where
  ephemeralPublicKey : Bytes32
  encryptedRoutingInfo : EncryptedRoutingInformation

structure Packet where
  header : Header
  payload : Bytes

inductive UnpackedPacket
  | toForward (packet : Packet)
  | fullyUnpacked (payload : Bytes)

namespace Packet

def toBytes (self : Packet) : Bytes :=
  self.header.ephemeralPublicKey.toList ++ self.header.encryptedRoutingInfo.toBytes ++
    self.payload

/-- `Packet::from_bytes`; the size of the payload is computed first, with
`usize` subtraction. -/
def fromBytes (data : Bytes) (maxLayers : ℕ) : Outcome Error Packet := do
  let ephemeralPublicKeySize := asymKeySize
  let encryptedRoutingInfoSize := EncryptedRoutingInformation.size maxLayers
  let payloadSize ← subChecked data.length ephemeralPublicKeySize >>=
    fun n => subChecked n encryptedRoutingInfoSize
  let parsed ← (parseBytes data
    [ephemeralPublicKeySize, encryptedRoutingInfoSize, payloadSize]).mapErr
    fun _ => .invalidPacketBytes
  let ephemeralPublicKey ← getIndex parsed 0 >>= tryIntoUnwrap 32
  let encryptedRoutingInfo ← getIndex parsed 1 >>=
    fun bytes => EncryptedRoutingInformation.fromBytes bytes maxLayers
  let payload ← getIndex parsed 2
  ok ⟨⟨ephemeralPublicKey, encryptedRoutingInfo⟩, payload⟩

def buildNextPacket (prim : Primitives) (self : Packet) (routingKeys : RoutingKeys)
    (nextEncryptedRoutingInfo : EncryptedRoutingInformation) (payload : Bytes) : Packet :=
  ⟨⟨prim.nextEphemeralPublicKey self.header.ephemeralPublicKey routingKeys.blindingFactor,
    nextEncryptedRoutingInfo⟩, payload⟩

/-- `Packet::unpack` with the recipient's private key. -/
def unpack (prim : Primitives) (self : Packet) (privateKey : Bytes32) (maxLayers : ℕ) :
    Outcome Error UnpackedPacket := do
  let routingKeys := prim.computeRoutingKeys self.header.ephemeralPublicKey privateKey
  let payload ← ofSphinxPacket (prim.unwrapPayload routingKeys.payloadKey self.payload)
  let (flag, nextEncryptedRoutingInfo) ←
    self.header.encryptedRoutingInfo.unpack prim routingKeys maxLayers
  if flag = prim.forwardHop then
    ok (.toForward (self.buildNextPacket prim routingKeys nextEncryptedRoutingInfo payload))
  else if flag = prim.finalHop then do
    let plaintext ← ofSphinxPacket (prim.recoverPlaintext payload)
    ok (.fullyUnpacked plaintext)
  else err (.invalidRoutingFlag flag)

/-- A message shorter than the header makes the size computation of the
payload go below zero. -/
theorem fromBytes_of_short {data : Bytes} {maxLayers : ℕ}
    (h : data.length < asymKeySize + EncryptedRoutingInformation.size maxLayers) :
    fromBytes data maxLayers = .panic "attempt to subtract with overflow" := by
  by_cases hkey : data.length < asymKeySize
  · simp [fromBytes, subChecked_of_lt hkey]
  · have hrouting : data.length - asymKeySize < EncryptedRoutingInformation.size maxLayers := by
      omega
    simp [fromBytes, subChecked_of_le (Nat.not_lt.mp hkey), subChecked_of_lt hrouting]

/-- A message at least as long as the header always parses, into a packet
whose bytes are the message. -/
theorem fromBytes_of_le {data : Bytes} {maxLayers : ℕ}
    (h : asymKeySize + EncryptedRoutingInformation.size maxLayers ≤ data.length) :
    ∃ packet, fromBytes data maxLayers = ok packet ∧ packet.toBytes = data := by
  obtain ⟨parsed, hparse, hlengths, hflatten⟩ := parseBytes_of_le
    (show [asymKeySize, EncryptedRoutingInformation.size maxLayers,
      data.length - asymKeySize - EncryptedRoutingInformation.size maxLayers].sum ≤
        data.length by simp; omega)
  simp only [List.map_eq_cons_iff, List.map_eq_nil_iff] at hlengths
  obtain ⟨key, _, rfl, hkey, eriBytes, _, rfl, heri, payload, _, rfl, -, rfl⟩ := hlengths
  obtain ⟨ephemeralPublicKey, hkeyOk, hkeyList⟩ := tryIntoUnwrap_of_length (ε := Error)
    (show key.length = 32 from hkey)
  obtain ⟨eri, heriOk, heriBytes, -⟩ := EncryptedRoutingInformation.fromBytes_of_length heri
  have hsplit : key ++ (eriBytes ++ payload) = data := by
    have hsum : asymKeySize + (EncryptedRoutingInformation.size maxLayers +
        (data.length - asymKeySize - EncryptedRoutingInformation.size maxLayers)) =
          data.length := by omega
    simpa [hsum] using hflatten
  refine ⟨⟨⟨ephemeralPublicKey, eri⟩, payload⟩, ?_, ?_⟩
  · have hsub : (subChecked data.length asymKeySize >>= fun n =>
        subChecked n (EncryptedRoutingInformation.size maxLayers) : Outcome Error ℕ) =
          ok (data.length - asymKeySize - EncryptedRoutingInformation.size maxLayers) := by
      rw [subChecked_of_le (by omega), bind_def, ok_bind, subChecked_of_le (by omega)]
    simp only [fromBytes, bind_def] at hsub ⊢
    simp [hsub, hparse, getIndex, hkeyOk, heriOk]
  · rw [toBytes, hkeyList, heriBytes, List.append_assoc, hsplit]

/-- Unpacking a packet never panics. -/
theorem unpack_returns (prim : Primitives) (self : Packet) (privateKey : Bytes32)
    (maxLayers : ℕ) : (self.unpack prim privateKey maxLayers).Returns := by
  have hpayload : ∀ {α : Type} (x : Except String α), (ofSphinxPacket x).Returns := by
    intro α x
    cases x <;> trivial
  refine Returns.bind (hpayload _) fun payload _ => ?_
  refine Returns.bind (EncryptedRoutingInformation.unpack_returns _ _ _ _)
    fun ⟨flag, _⟩ _ => ?_
  dsimp only
  split_ifs
  · trivial
  · exact Returns.bind (hpayload _) fun _ _ => trivial
  · trivial

end Packet

/-- `SphinxMessage::unwrap_message`: the bytes of the packet for the next hop,
or the payload at the last one. -/
def unwrapMessage (prim : Primitives) (message : Bytes) (privateKey : Bytes32) :
    Outcome Error (Bytes × Bool) := do
  let packet ← Packet.fromBytes message maxLayers
  let unpackedPacket ← packet.unpack prim privateKey maxLayers
  match unpackedPacket with
  | .toForward packet => ok (packet.toBytes, false)
  | .fullyUnpacked payload => ok (payload, true)

/-- `unwrap_message` panics on exactly the messages shorter than the header of
`ASYM_KEY_SIZE + EncryptedRoutingInformation::size(MAX_LAYERS)` bytes, and on
every longer message returns `Ok` or `Err`. -/
theorem unwrapMessage_panics_on_short_messages (prim : Primitives) (message : Bytes)
    (privateKey : Bytes32) :
    (message.length < asymKeySize + EncryptedRoutingInformation.size maxLayers →
      unwrapMessage prim message privateKey = .panic "attempt to subtract with overflow") ∧
    (asymKeySize + EncryptedRoutingInformation.size maxLayers ≤ message.length →
      (unwrapMessage prim message privateKey).Returns) := by
  refine ⟨fun hshort => ?_, fun hlong => ?_⟩
  · simp [unwrapMessage, Packet.fromBytes_of_short hshort]
  · obtain ⟨packet, hpacket, -⟩ := Packet.fromBytes_of_le hlong
    rw [unwrapMessage, bind_def, hpacket, ok_bind]
    refine Returns.bind (Packet.unpack_returns _ _ _ _) fun unpacked _ => ?_
    cases unpacked <;> trivial

end NomosBlendMessage.Sphinx
