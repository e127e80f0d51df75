import NomosNode.Blend.Sphinx

/-!
# Layered encryption of the routing information

`ConsistentLengthLayeredCipher::encrypt` and `EncryptedRoutingInformation::new`:
the sending side of the cipher whose `unpack` is in `Blend.Sphinx`. A layer
holds its hop's data, the next layer's MAC and the next layer cut short by
`SINGLE_LAYER_SIZE` bytes, xored with the hop's keystream; the fillers at the
end of the last layer are the xor of the ends of the earlier keystreams, so
unpacking restores the cut bytes. The MAC and `random_bytes` are parameters.
-/

namespace NomosBlendMessage.Sphinx

open Outcome

/-- `layered_cipher::Key`. -/
structure Key where
  streamCipherKey : Bytes16
  integrityMacKey : Bytes16

/-- `EncryptionParam`: the data of one layer, `D::to_bytes()`, and its keys. -/
structure EncryptionParam where
  data : Bytes
  key : Key

/-- `&mut data[..stop]` handed to `f`, with the bounds check of the slice. -/
def updatePrefix {ε : Type} (stop : ℕ) (data : Bytes) (f : Bytes → Outcome ε Bytes) :
    Outcome ε Bytes :=
  if stop ≤ data.length then do
    let slice ← f (data.take stop)
    ok (slice ++ data.drop stop)
  else .panic ("range end index " ++ toString stop ++ " out of range for slice of length " ++
    toString data.length)

section Encrypt

variable (prim : Primitives) (dataSize : ℕ)

/-- `build_fillers`: zeros, one layer size for each hop, and the keystream of
the `i`-th hop xored from its back into the first `i + 1` layer sizes. -/
def buildFillers {ε : Type} (maxLayers : ℕ) (params : List EncryptionParam) : Outcome ε Bytes :=
  (params.map (·.key.streamCipherKey)).zipIdx.foldlM
    (fun fillers (key, i) => updatePrefix ((i + 1) * singleLayerSize dataSize) fillers
      fun slice => applyStreamcipher prim dataSize maxLayers slice key .fromBack)
    (List.replicate (singleLayerSize dataSize * params.length) 0)

/-- `build_last_layer`: the data of the last hop and random bytes, encrypted,
and then the fillers. -/
def buildLastLayer (randomBytes : (n : ℕ) → Vector UInt8 n) (maxLayers : ℕ)
    (params : List EncryptionParam) : Outcome CipherError (Bytes × Bytes16) := do
  let lastParam ← match params.getLast? with
    | some lastParam => ok lastParam
    | none => err .invalidEncryptionParam
  let fillers ← buildFillers prim dataSize maxLayers (params.take (params.length - 1))
  let size ← subChecked (totalSize dataSize maxLayers) dataSize
  let size ← subChecked size fillers.length
  let encrypted ← applyStreamcipher prim dataSize maxLayers
    (lastParam.data ++ (randomBytes size).toList) lastParam.key.streamCipherKey .fromFront
  let encrypted := encrypted ++ fillers
  let mac := prim.computeMac lastParam.key.integrityMacKey encrypted
  if encrypted.length = totalSize dataSize maxLayers then ok (encrypted, mac)
  else .panic "assertion `left == right` failed"

/-- `build_intermediate_layer`: the hop's data, the next MAC and the next layer
without its last layer size, encrypted. -/
def buildIntermediateLayer {ε : Type} (maxLayers : ℕ) (param : EncryptionParam)
    (nextMac : Bytes16) (nextEncryptedData : Bytes) : Outcome ε (Bytes × Bytes16) := do
  let kept ← subChecked nextEncryptedData.length (singleLayerSize dataSize)
  let totalData := param.data ++ nextMac.toList ++ nextEncryptedData.take kept
  let encrypted ← applyStreamcipher prim dataSize maxLayers totalData
    param.key.streamCipherKey .fromFront
  let mac := prim.computeMac param.key.integrityMacKey encrypted
  if encrypted.length = totalSize dataSize maxLayers then ok (encrypted, mac)
  else .panic "assertion `left == right` failed"

/-- `encrypt`: the last layer first, then the others wrapped around it from the
inside out. -/
def encrypt (randomBytes : (n : ℕ) → Vector UInt8 n) (maxLayers : ℕ)
    (params : List EncryptionParam) : Outcome CipherError (Bytes × Bytes16) :=
  if params.isEmpty ∨ maxLayers < params.length then err .invalidEncryptionParam
  else do
    let last ← buildLastLayer prim dataSize randomBytes maxLayers params
    (params.take (params.length - 1)).reverse.foldlM
      (fun layer param => buildIntermediateLayer prim dataSize maxLayers param layer.2 layer.1) last

/-- The hops of a route unpack one layer each, in turn, each with its keys:
what each `unpack` returns. -/
def unpackHops (maxLayers : ℕ) : List Key → Bytes16 → Bytes →
    Outcome CipherError (List (Bytes × Bytes16 × Bytes))
  | [], _, _ => ok []
  | key :: keys, mac, encrypted => do
    let layer ← unpack prim dataSize maxLayers mac encrypted key.streamCipherKey
      key.integrityMacKey
    let layers ← unpackHops maxLayers keys layer.2.1 layer.2.2
    ok (layer :: layers)

/-- The route delivers each hop its data, and every layer it passes on has
the full size. -/
def Delivers (maxLayers : ℕ) (params : List EncryptionParam) (mac : Bytes16)
    (encrypted : Bytes) : Prop :=
  ∃ layers, unpackHops prim dataSize maxLayers (params.map (·.key)) mac encrypted = ok layers ∧
    layers.map (·.1) = params.map (·.data) ∧
    ∀ layer ∈ layers, layer.2.2.length = totalSize dataSize maxLayers

/-- The keystream of a key, as long as `apply_streamcipher` draws it. -/
def keystream (maxLayers : ℕ) (key : Bytes16) : Bytes :=
  (prim.pseudorandomBytes key (totalSize dataSize maxLayers + singleLayerSize dataSize)).toList

/-- What `unpack` decrypts: the layer and a layer size of zeros, xored with
the keystream. -/
def decrypted (maxLayers : ℕ) (encrypted : Bytes) (key : Bytes16) : Bytes :=
  List.zipWith (· ^^^ ·) (encrypted ++ List.replicate (singleLayerSize dataSize) 0)
    (keystream prim dataSize maxLayers key)

/-- One more hop in front: the filler grows by a layer size of zeros, and the
end of the hop's keystream is xored in. -/
def fillerStep (maxLayers : ℕ) (filler : Bytes) (key : Bytes16) : Bytes :=
  List.zipWith (· ^^^ ·) (filler ++ List.replicate (singleLayerSize dataSize) 0)
    ((keystream prim dataSize maxLayers key).drop (totalSize dataSize maxLayers - filler.length))

/-- The end of the layer of the hop after the hops with these keys. -/
def filler (maxLayers : ℕ) (keys : List Bytes16) : Bytes :=
  keys.foldl (fillerStep prim dataSize maxLayers) []

end Encrypt

/-! ## The keystream and the fillers -/

section Fillers

variable {prim : Primitives} {dataSize maxLayers : ℕ}

@[simp] theorem length_keystream (key : Bytes16) :
    (keystream prim dataSize maxLayers key).length =
      totalSize dataSize maxLayers + singleLayerSize dataSize := by
  simp [keystream]

/-- From the front, the stream cipher xors in the keystream. -/
theorem applyStreamcipher_fromFront_eq {ε : Type} {data : Bytes} {key : Bytes16}
    (h : data.length ≤ totalSize dataSize maxLayers + singleLayerSize dataSize) :
    (applyStreamcipher prim dataSize maxLayers data key .fromFront : Outcome ε Bytes) =
      ok (List.zipWith (· ^^^ ·) data (keystream prim dataSize maxLayers key)) := by
  simp only [applyStreamcipher, if_pos h, bind_def, ok_bind, xorInPlace]
  rw [if_pos (by simp; omega), ← zipWith_take_length]
  rfl

/-- From the back, it xors in the end of the keystream. -/
theorem applyStreamcipher_fromBack_eq {ε : Type} {data : Bytes} {key : Bytes16}
    (h : data.length ≤ totalSize dataSize maxLayers + singleLayerSize dataSize) :
    (applyStreamcipher prim dataSize maxLayers data key .fromBack : Outcome ε Bytes) =
      ok (List.zipWith (· ^^^ ·) data ((keystream prim dataSize maxLayers key).drop
        (totalSize dataSize maxLayers + singleLayerSize dataSize - data.length))) := by
  simp only [applyStreamcipher, subChecked, if_pos h, bind_def, ok_bind, xorInPlace]
  rw [if_pos (by simp; omega)]
  rfl

theorem length_fillerStep {filler : Bytes} (key : Bytes16)
    (h : filler.length ≤ totalSize dataSize maxLayers) :
    (fillerStep prim dataSize maxLayers filler key).length =
      filler.length + singleLayerSize dataSize := by
  simp only [fillerStep, List.length_zipWith, List.length_append, List.length_replicate,
    List.length_drop, length_keystream]
  omega

theorem length_foldl_fillerStep : ∀ (keys : List Bytes16) (filler : Bytes),
    filler.length + keys.length * singleLayerSize dataSize ≤ totalSize dataSize maxLayers →
    (keys.foldl (fillerStep prim dataSize maxLayers) filler).length =
      filler.length + keys.length * singleLayerSize dataSize
  | [], _, _ => by simp
  | key :: keys, filler, h => by
    rw [List.length_cons, Nat.succ_mul] at h
    rw [List.foldl_cons, length_foldl_fillerStep keys _ (by rw [length_fillerStep key (by omega)]; omega),
      length_fillerStep key (by omega), List.length_cons, Nat.succ_mul]
    omega

theorem length_filler {keys : List Bytes16}
    (h : keys.length * singleLayerSize dataSize ≤ totalSize dataSize maxLayers) :
    (filler prim dataSize maxLayers keys).length = keys.length * singleLayerSize dataSize := by
  rw [filler, length_foldl_fillerStep keys [] (by simpa using h), List.length_nil, Nat.zero_add]

theorem filler_concat (keys : List Bytes16) (key : Bytes16) :
    filler prim dataSize maxLayers (keys ++ [key]) =
      fillerStep prim dataSize maxLayers (filler prim dataSize maxLayers keys) key :=
  List.foldl_concat _ _ _ _

/-- The loop of `build_fillers`, from hop `i` on: the fillers so far followed by
zeros for the hops still to come. -/
theorem foldlM_buildFillers {ε : Type} : ∀ (keys : List Bytes16) (i : ℕ) (filler : Bytes),
    filler.length = i * singleLayerSize dataSize →
    (i + keys.length) * singleLayerSize dataSize ≤ totalSize dataSize maxLayers →
    (keys.zipIdx i).foldlM
      (fun fillers (key, i) => updatePrefix ((i + 1) * singleLayerSize dataSize) fillers
        fun slice => applyStreamcipher prim dataSize maxLayers slice key .fromBack)
      (filler ++ List.replicate (keys.length * singleLayerSize dataSize) 0) =
      (ok (keys.foldl (fillerStep prim dataSize maxLayers) filler) : Outcome ε Bytes)
  | [], _, _, _, _ => by simp
  | key :: keys, i, filler, hlen, hfit => by
    rw [List.length_cons] at hfit
    have hfit' : (i + 1 + keys.length) * singleLayerSize dataSize ≤ totalSize dataSize maxLayers := by
      rwa [show i + 1 + keys.length = i + (keys.length + 1) by omega]
    have hsucc : (i + 1) * singleLayerSize dataSize = i * singleLayerSize dataSize + singleLayerSize dataSize :=
      Nat.succ_mul i _
    have hhop : (i + 1) * singleLayerSize dataSize ≤ totalSize dataSize maxLayers :=
      (Nat.mul_le_mul_right _ (Nat.le_add_right _ _)).trans hfit'
    have hsplit : filler ++ List.replicate ((keys.length + 1) * singleLayerSize dataSize) 0 =
        (filler ++ List.replicate (singleLayerSize dataSize) 0) ++
          List.replicate (keys.length * singleLayerSize dataSize) 0 := by
      rw [List.append_assoc, ← List.replicate_add, Nat.succ_mul, Nat.add_comm]
    have hprefix : (filler ++ List.replicate (singleLayerSize dataSize) 0).length =
        (i + 1) * singleLayerSize dataSize := by
      rw [List.length_append, List.length_replicate, hlen, hsucc]
    have hstep : (applyStreamcipher prim dataSize maxLayers
        (filler ++ List.replicate (singleLayerSize dataSize) 0) key .fromBack : Outcome ε Bytes) =
        ok (fillerStep prim dataSize maxLayers filler key) := by
      rw [applyStreamcipher_fromBack_eq (by omega), fillerStep, hprefix, hlen, hsucc,
        Nat.add_sub_add_right]
    rw [List.zipIdx_cons, List.foldlM_cons, List.length_cons, hsplit]
    simp only [updatePrefix, List.length_append, List.length_replicate, hprefix,
      List.take_left' hprefix, List.drop_left' hprefix, hstep, bind_def, ok_bind]
    rw [if_pos (by omega)]
    exact foldlM_buildFillers keys (i + 1) _
      (by rw [length_fillerStep key (by omega), hlen, hsucc]) hfit'

/-- `build_fillers` computes the filler of its hops. -/
theorem buildFillers_eq {ε : Type} {params : List EncryptionParam}
    (h : params.length * singleLayerSize dataSize ≤ totalSize dataSize maxLayers) :
    (buildFillers prim dataSize maxLayers params : Outcome ε Bytes) =
      ok (filler prim dataSize maxLayers (params.map (·.key.streamCipherKey))) := by
  have hinit : List.replicate (singleLayerSize dataSize * params.length) (0 : UInt8) =
      [] ++ List.replicate ((params.map (·.key.streamCipherKey)).length * singleLayerSize dataSize) 0 := by
    rw [List.nil_append, List.length_map, Nat.mul_comm]
  rw [buildFillers, hinit]
  exact foldlM_buildFillers _ 0 [] (by simp) (by simpa using h)

end Fillers

/-! ## Unpacking a layer -/

section Unpack

variable {prim : Primitives} {dataSize maxLayers : ℕ}

theorem parseBytes_triple {data : Bytes} {a b c : ℕ} (h : a + b + c ≤ data.length) :
    parseBytes data [a, b, c] =
      ok [data.take a, (data.drop a).take b, (data.drop (a + b)).take c] := by
  have h1 : ¬ a > data.length := by omega
  have h2 : ¬ a + b > data.length := by omega
  have h3 : ¬ a + b + c > data.length := by omega
  simp only [parseBytes, parseBytes.go, Nat.zero_add, if_neg h1, if_neg h2, if_neg h3, ok_bind,
    List.drop_zero]

theorem length_decrypted (encrypted : Bytes) (key : Bytes16)
    (h : encrypted.length = totalSize dataSize maxLayers) :
    (decrypted prim dataSize maxLayers encrypted key).length =
      totalSize dataSize maxLayers + singleLayerSize dataSize := by
  simp [decrypted, h]

/-- Decrypting a layer of the full size encrypted with the same key gives the
plaintext back, followed by the end of the keystream. -/
theorem decrypted_zipWith_keystream {total : Bytes} {key : Bytes16}
    (h : total.length = totalSize dataSize maxLayers) :
    decrypted prim dataSize maxLayers
        (List.zipWith (· ^^^ ·) total (keystream prim dataSize maxLayers key)) key =
      total ++ (keystream prim dataSize maxLayers key).drop (totalSize dataSize maxLayers) := by
  rw [decrypted, zipWith_xor_append_cancel _ _ _ (by simp; omega), h,
    zipWith_replicate_zero_xor, List.take_of_length_le (by simp)]

/-- A layer of the full size whose MAC verifies is cut into the first bytes of
what it decrypts to, the MAC after them and the rest. -/
theorem unpack_eq {mac : Bytes16} {encrypted : Bytes} {key : Key}
    (hlength : encrypted.length = totalSize dataSize maxLayers)
    (hmac : prim.verifyMac key.integrityMacKey encrypted mac = true) :
    ∃ nextMac : Bytes16, unpack prim dataSize maxLayers mac encrypted key.streamCipherKey
        key.integrityMacKey =
        ok ((decrypted prim dataSize maxLayers encrypted key.streamCipherKey).take dataSize, nextMac,
          (decrypted prim dataSize maxLayers encrypted key.streamCipherKey).drop
            (singleLayerSize dataSize)) ∧
      nextMac.toList = ((decrypted prim dataSize maxLayers encrypted key.streamCipherKey).drop
        dataSize).take headerIntegrityMacSize := by
  have hdlen := @length_decrypted prim dataSize maxLayers encrypted key.streamCipherKey hlength
  have hdec : (applyStreamcipher prim dataSize maxLayers
      (encrypted ++ List.replicate (singleLayerSize dataSize) 0) key.streamCipherKey .fromFront :
        Outcome CipherError Bytes) =
      ok (decrypted prim dataSize maxLayers encrypted key.streamCipherKey) :=
    applyStreamcipher_fromFront_eq (by simp [hlength])
  have hparse : parseBytes (decrypted prim dataSize maxLayers encrypted key.streamCipherKey)
      [dataSize, headerIntegrityMacSize, totalSize dataSize maxLayers] =
      ok [(decrypted prim dataSize maxLayers encrypted key.streamCipherKey).take dataSize,
        ((decrypted prim dataSize maxLayers encrypted key.streamCipherKey).drop dataSize).take
          headerIntegrityMacSize,
        ((decrypted prim dataSize maxLayers encrypted key.streamCipherKey).drop
          (dataSize + headerIntegrityMacSize)).take (totalSize dataSize maxLayers)] :=
    parseBytes_triple (by rw [hdlen, singleLayerSize]; omega)
  obtain ⟨nextMac, hnextMac, hnextList⟩ := @tryIntoUnwrap_of_length CipherError
    headerIntegrityMacSize (((decrypted prim dataSize maxLayers encrypted
      key.streamCipherKey).drop dataSize).take headerIntegrityMacSize)
    (by rw [List.length_take, List.length_drop, hdlen, singleLayerSize]; omega)
  have hrest : ((decrypted prim dataSize maxLayers encrypted key.streamCipherKey).drop
      (dataSize + headerIntegrityMacSize)).take (totalSize dataSize maxLayers) =
      (decrypted prim dataSize maxLayers encrypted key.streamCipherKey).drop
        (singleLayerSize dataSize) :=
    List.take_of_length_le (by rw [List.length_drop, hdlen, singleLayerSize]; omega)
  refine ⟨nextMac, ?_, hnextList⟩
  rw [unpack, if_neg (by simp [hlength]), if_neg (by simp [hmac])]
  simp only [hdec, bind_def, ok_bind, hparse, unwrapResult, getIndex, List.getElem?_cons_zero,
    List.getElem?_cons_succ, expect_some, hnextMac, hrest]

theorem delivers_nil (mac : Bytes16) (encrypted : Bytes) :
    Delivers prim dataSize maxLayers [] mac encrypted :=
  ⟨[], rfl, rfl, fun _ h => absurd h List.not_mem_nil⟩

end Unpack

/-! ## Building the layers -/

section Layers

variable {prim : Primitives} {dataSize maxLayers : ℕ}

/-- The last layer: the last hop's data and random bytes encrypted, then the
filler of the hops before it. -/
theorem buildLastLayer_spec (randomBytes : (n : ℕ) → Vector UInt8 n)
    {above : List EncryptionParam} {last : EncryptionParam}
    (hlast : last.data.length = dataSize)
    (hfit : (above.length + 1) * singleLayerSize dataSize ≤ totalSize dataSize maxLayers) :
    ∃ encrypted, buildLastLayer prim dataSize randomBytes maxLayers (above ++ [last]) =
        ok (encrypted, prim.computeMac last.key.integrityMacKey encrypted) ∧
      encrypted.length = totalSize dataSize maxLayers ∧
      encrypted.drop (totalSize dataSize maxLayers - above.length * singleLayerSize dataSize) =
        filler prim dataSize maxLayers (above.map (·.key.streamCipherKey)) ∧
      (decrypted prim dataSize maxLayers encrypted last.key.streamCipherKey).take dataSize =
        last.data := by
  have hsucc : (above.length + 1) * singleLayerSize dataSize =
      above.length * singleLayerSize dataSize + (dataSize + headerIntegrityMacSize) :=
    Nat.succ_mul _ _
  have hfill := @buildFillers_eq prim dataSize maxLayers CipherError above (by omega)
  have hflen := @length_filler prim dataSize maxLayers (above.map (·.key.streamCipherKey))
    (by rw [List.length_map]; omega)
  rw [List.length_map] at hflen
  have htake : (above ++ [last]).take ((above ++ [last]).length - 1) = above := by simp
  obtain ⟨plain, hplainDef⟩ : ∃ plain, plain = last.data ++ (randomBytes
      (totalSize dataSize maxLayers - dataSize - above.length * singleLayerSize dataSize)).toList :=
    ⟨_, rfl⟩
  have hplain : plain.length = totalSize dataSize maxLayers - above.length * singleLayerSize dataSize := by
    rw [hplainDef, List.length_append, Vector.length_toList, hlast]
    omega
  have henc : (applyStreamcipher prim dataSize maxLayers plain last.key.streamCipherKey .fromFront :
      Outcome CipherError Bytes) =
      ok (List.zipWith (· ^^^ ·) plain (keystream prim dataSize maxLayers last.key.streamCipherKey)) :=
    applyStreamcipher_fromFront_eq (by omega)
  have henclen : (List.zipWith (· ^^^ ·) plain
      (keystream prim dataSize maxLayers last.key.streamCipherKey)).length =
      totalSize dataSize maxLayers - above.length * singleLayerSize dataSize := by
    rw [List.length_zipWith, hplain, length_keystream]
    omega
  have hlen : (List.zipWith (· ^^^ ·) plain (keystream prim dataSize maxLayers
      last.key.streamCipherKey) ++ filler prim dataSize maxLayers
        (above.map (·.key.streamCipherKey))).length = totalSize dataSize maxLayers := by
    rw [List.length_append, henclen, hflen]
    omega
  refine ⟨_, ?_, hlen, List.drop_left' henclen, ?_⟩
  · simp only [buildLastLayer, List.getLast?_concat, htake, hfill, bind_def, ok_bind,
      subChecked_of_le (show dataSize ≤ totalSize dataSize maxLayers by omega),
      hflen, subChecked_of_le (show above.length * singleLayerSize dataSize ≤
        totalSize dataSize maxLayers - dataSize by omega), ← hplainDef, henc]
    rw [if_pos hlen]
  · -- decrypting gives the data and random bytes back first
    rw [decrypted, List.append_assoc, zipWith_xor_append_cancel _ _ _ (by simp; omega),
      List.take_append_of_le_length (by omega), hplainDef, List.take_left' hlast]

end Layers

section RoundTrip

variable {prim : Primitives} {dataSize maxLayers : ℕ}
  (hverify : ∀ key data mac, prim.verifyMac key data mac = decide (prim.computeMac key data = mac))

include hverify

/-- A layer of the full size, under the MAC of its hop's key, delivers the
hop's data when it decrypts to it, and then the rest of the route when what
follows the data does. -/
theorem delivers_cons {p : EncryptionParam} {rest : List EncryptionParam} {encrypted : Bytes}
    (hlength : encrypted.length = totalSize dataSize maxLayers)
    (hdata : (decrypted prim dataSize maxLayers encrypted p.key.streamCipherKey).take dataSize =
      p.data)
    (hnext : ∀ nextMac : Bytes16, nextMac.toList =
      ((decrypted prim dataSize maxLayers encrypted p.key.streamCipherKey).drop dataSize).take
        headerIntegrityMacSize →
      Delivers prim dataSize maxLayers rest nextMac
        ((decrypted prim dataSize maxLayers encrypted p.key.streamCipherKey).drop
          (singleLayerSize dataSize))) :
    Delivers prim dataSize maxLayers (p :: rest) (prim.computeMac p.key.integrityMacKey encrypted)
      encrypted := by
  obtain ⟨nextMac, hunpack, hlist⟩ := @unpack_eq prim dataSize maxLayers
    (prim.computeMac p.key.integrityMacKey encrypted) encrypted p.key hlength
    (by rw [hverify]; exact decide_eq_true rfl)
  obtain ⟨layers, hhops, hdatas, hlens⟩ := hnext nextMac hlist
  refine ⟨((decrypted prim dataSize maxLayers encrypted p.key.streamCipherKey).take dataSize,
    nextMac, (decrypted prim dataSize maxLayers encrypted p.key.streamCipherKey).drop
      (singleLayerSize dataSize)) :: layers, ?_, ?_, ?_⟩
  · simp only [List.map_cons, unpackHops, hunpack, bind_def, ok_bind, hhops]
  · rw [List.map_cons, List.map_cons, hdatas, hdata]
  · intro layer hmem
    rcases List.mem_cons.mp hmem with rfl | hmem
    · simp [length_decrypted _ _ hlength]
    · exact hlens layer hmem

/-- Wrapping a layer: the new layer has the full size, ends in the filler of
the hops above it, and delivers its hop's data and then the wrapped layer. -/
theorem buildIntermediateLayer_spec {ε : Type} {above : List Bytes16} {param : EncryptionParam}
    {rest : List EncryptionParam} {nextMac : Bytes16} {next : Bytes}
    (hdata : param.data.length = dataSize)
    (hfit : (above.length + 2) * singleLayerSize dataSize ≤ totalSize dataSize maxLayers)
    (hnext : next.length = totalSize dataSize maxLayers)
    (hfill : next.drop (totalSize dataSize maxLayers - (above.length + 1) * singleLayerSize dataSize) =
      filler prim dataSize maxLayers (above ++ [param.key.streamCipherKey]))
    (hrest : Delivers prim dataSize maxLayers rest nextMac next) :
    ∃ encrypted, (buildIntermediateLayer prim dataSize maxLayers param nextMac next :
        Outcome ε (Bytes × Bytes16)) =
        ok (encrypted, prim.computeMac param.key.integrityMacKey encrypted) ∧
      encrypted.length = totalSize dataSize maxLayers ∧
      encrypted.drop (totalSize dataSize maxLayers - above.length * singleLayerSize dataSize) =
        filler prim dataSize maxLayers above ∧
      Delivers prim dataSize maxLayers (param :: rest)
        (prim.computeMac param.key.integrityMacKey encrypted) encrypted := by
  have hS : singleLayerSize dataSize = dataSize + headerIntegrityMacSize := rfl
  have hsucc : (above.length + 1) * singleLayerSize dataSize =
      above.length * singleLayerSize dataSize + singleLayerSize dataSize := Nat.succ_mul _ _
  have hsucc2 : (above.length + 2) * singleLayerSize dataSize =
      above.length * singleLayerSize dataSize + singleLayerSize dataSize + singleLayerSize dataSize := by
    rw [Nat.add_mul, Nat.two_mul, Nat.add_assoc]
  have hφlen := @length_filler prim dataSize maxLayers above (by omega)
  have hmaclen : nextMac.toList.length = headerIntegrityMacSize := by simp [headerIntegrityMacSize]
  have hstep : next.drop (totalSize dataSize maxLayers - (above.length + 1) * singleLayerSize dataSize) =
      List.zipWith (· ^^^ ·) (filler prim dataSize maxLayers above ++
        List.replicate (singleLayerSize dataSize) 0)
        ((keystream prim dataSize maxLayers param.key.streamCipherKey).drop
          (totalSize dataSize maxLayers - above.length * singleLayerSize dataSize)) := by
    rw [hfill, filler_concat, fillerStep, hφlen]
  have hend : next.drop (totalSize dataSize maxLayers - singleLayerSize dataSize) =
      (keystream prim dataSize maxLayers param.key.streamCipherKey).drop
        (totalSize dataSize maxLayers) := by
    rw [show totalSize dataSize maxLayers - singleLayerSize dataSize =
        (totalSize dataSize maxLayers - (above.length + 1) * singleLayerSize dataSize) +
          above.length * singleLayerSize dataSize by omega, ← List.drop_drop, hstep,
      List.drop_zipWith, ← hφlen, List.drop_left' rfl, List.drop_drop, hφlen,
      zipWith_replicate_zero_xor, List.take_of_length_le (by simp; omega)]
    congr 1
    omega
  obtain ⟨total, htotalDef⟩ : ∃ total, total = param.data ++ nextMac.toList ++
      next.take (totalSize dataSize maxLayers - singleLayerSize dataSize) := ⟨_, rfl⟩
  have htotal : total.length = totalSize dataSize maxLayers := by
    rw [htotalDef, List.length_append, List.length_append, hdata, hmaclen, List.length_take, hnext]
    omega
  have henc : (applyStreamcipher prim dataSize maxLayers total param.key.streamCipherKey .fromFront :
      Outcome ε Bytes) =
      ok (List.zipWith (· ^^^ ·) total (keystream prim dataSize maxLayers param.key.streamCipherKey)) :=
    applyStreamcipher_fromFront_eq (by omega)
  have hlen : (List.zipWith (· ^^^ ·) total
      (keystream prim dataSize maxLayers param.key.streamCipherKey)).length =
      totalSize dataSize maxLayers := by
    rw [List.length_zipWith, htotal, length_keystream]
    omega
  have htail : total.drop (totalSize dataSize maxLayers - above.length * singleLayerSize dataSize) =
      List.zipWith (· ^^^ ·) (filler prim dataSize maxLayers above)
        ((keystream prim dataSize maxLayers param.key.streamCipherKey).drop
          (totalSize dataSize maxLayers - above.length * singleLayerSize dataSize)) := by
    rw [htotalDef, List.drop_append, List.drop_eq_nil_of_le
      (by rw [List.length_append, hdata, hmaclen]; omega), List.nil_append,
      List.length_append, hdata, hmaclen, List.drop_take, ← hS,
      show totalSize dataSize maxLayers - above.length * singleLayerSize dataSize -
        singleLayerSize dataSize = totalSize dataSize maxLayers -
          (above.length + 1) * singleLayerSize dataSize by omega,
      hstep, show totalSize dataSize maxLayers - singleLayerSize dataSize -
        (totalSize dataSize maxLayers - (above.length + 1) * singleLayerSize dataSize) =
          (filler prim dataSize maxLayers above).length by omega,
      List.take_zipWith, List.take_left' rfl, ← zipWith_take_length]
  have hdec := @decrypted_zipWith_keystream prim dataSize maxLayers _ param.key.streamCipherKey htotal
  refine ⟨_, ?_, hlen, ?_, delivers_cons hverify hlen ?_ fun nm hnm => ?_⟩
  · simp only [buildIntermediateLayer, hnext, subChecked_of_le (show singleLayerSize dataSize ≤
      totalSize dataSize maxLayers by omega), bind_def, ok_bind, ← htotalDef, henc]
    rw [if_pos hlen]
  · rw [List.drop_zipWith, htail, zipWith_xor_cancel _ _
      (by rw [List.length_drop, length_keystream, hφlen]; omega)]
  · rw [hdec, List.take_append_of_le_length (by omega), htotalDef, List.append_assoc,
      List.take_left' hdata]
  · -- the next MAC and the wrapped layer come back as they were
    have hmac : nm = nextMac := by
      apply Vector.toList_inj.mp
      rw [hnm, hdec, htotalDef, List.append_assoc, List.append_assoc, List.drop_left' hdata,
        List.take_left' hmaclen]
    have hnextBack : (total ++ (keystream prim dataSize maxLayers param.key.streamCipherKey).drop
        (totalSize dataSize maxLayers)).drop (singleLayerSize dataSize) = next := by
      rw [htotalDef, List.append_assoc, List.drop_left'
        (by rw [List.length_append, hdata, hmaclen]; rfl), ← hend, List.take_append_drop]
    rw [hmac, hdec, hnextBack]
    exact hrest

/-- The loop of `encrypt`, over the hops between `above` and the layer built so
far: each wrap keeps the full size and the filler of the hops above, and the
route delivers one more hop. -/
theorem foldrM_buildIntermediateLayer (inner : List EncryptionParam) :
    ∀ (above rest : List EncryptionParam)
    (encrypted : Bytes) (mac : Bytes16), (∀ p ∈ inner, p.data.length = dataSize) →
    (above.length + inner.length + 1) * singleLayerSize dataSize ≤ totalSize dataSize maxLayers →
    encrypted.length = totalSize dataSize maxLayers →
    encrypted.drop (totalSize dataSize maxLayers -
      (above.length + inner.length) * singleLayerSize dataSize) =
      filler prim dataSize maxLayers ((above ++ inner).map (·.key.streamCipherKey)) →
    Delivers prim dataSize maxLayers rest mac encrypted →
    ∃ encrypted' mac', inner.foldrM (fun param layer =>
        buildIntermediateLayer prim dataSize maxLayers param layer.2 layer.1) (encrypted, mac) =
        (ok (encrypted', mac') : Outcome CipherError (Bytes × Bytes16)) ∧
      encrypted'.length = totalSize dataSize maxLayers ∧
      encrypted'.drop (totalSize dataSize maxLayers - above.length * singleLayerSize dataSize) =
        filler prim dataSize maxLayers (above.map (·.key.streamCipherKey)) ∧
      Delivers prim dataSize maxLayers (inner ++ rest) mac' encrypted' := by
  induction inner with
  | nil =>
    intro above rest encrypted mac _ _ hlength hfill hrest
    refine ⟨encrypted, mac, rfl, hlength, ?_, hrest⟩
    rwa [List.length_nil, Nat.add_zero, List.append_nil] at hfill
  | cons param inner ih =>
    intro above rest encrypted mac hdata hfit hlength hfill hrest
    have hcount : (above ++ [param]).length + inner.length = above.length + (param :: inner).length := by
      simp only [List.length_append, List.length_cons, List.length_nil]
      omega
    obtain ⟨wrapped, wrappedMac, hfold, hwrappedLength, hwrappedFill, hwrappedRest⟩ :=
      ih (above ++ [param]) rest encrypted mac
        (fun p hp => hdata p (List.mem_cons_of_mem _ hp)) (by rwa [hcount])
        hlength (by rwa [hcount, List.append_assoc, List.singleton_append])
        hrest
    have hfit' : ((above.map (·.key.streamCipherKey)).length + 2) * singleLayerSize dataSize ≤
        totalSize dataSize maxLayers := by
      rw [List.length_map]
      exact (Nat.mul_le_mul_right _ (by simp only [List.length_cons]; omega)).trans hfit
    have hfill' : wrapped.drop (totalSize dataSize maxLayers -
        ((above.map (·.key.streamCipherKey)).length + 1) * singleLayerSize dataSize) =
        filler prim dataSize maxLayers (above.map (·.key.streamCipherKey) ++
          [param.key.streamCipherKey]) := by
      rw [List.length_map]
      rw [List.length_append, List.length_singleton] at hwrappedFill
      simpa only [List.map_append, List.map_cons, List.map_nil] using hwrappedFill
    obtain ⟨layer, hbuild, hlayerLength, hlayerFill, hlayerRest⟩ :=
      @buildIntermediateLayer_spec prim dataSize maxLayers hverify CipherError
        (above.map (·.key.streamCipherKey)) param (inner ++ rest) wrappedMac wrapped
        (hdata param List.mem_cons_self) hfit' hwrappedLength hfill' hwrappedRest
    refine ⟨layer, _, ?_, hlayerLength, by rwa [List.length_map] at hlayerFill, hlayerRest⟩
    rw [List.foldrM_cons, bind_def, hfold, ok_bind]
    exact hbuild

/-- Every route of one to `max_layers` hops, each with data of `D::SIZE`
bytes, is encrypted, and then delivers each hop its own data. -/
theorem encrypt_delivers (randomBytes : (n : ℕ) → Vector UInt8 n) {params : List EncryptionParam}
    (hne : params ≠ []) (hcount : params.length ≤ maxLayers)
    (hdata : ∀ p ∈ params, p.data.length = dataSize) :
    ∃ encrypted mac, encrypt prim dataSize randomBytes maxLayers params = ok (encrypted, mac) ∧
      encrypted.length = totalSize dataSize maxLayers ∧
      Delivers prim dataSize maxLayers params mac encrypted := by
  obtain ⟨above, last, rfl⟩ := (List.eq_nil_or_concat' params).resolve_left hne
  rw [List.length_append, List.length_singleton] at hcount
  have hfit : (above.length + 1) * singleLayerSize dataSize ≤ totalSize dataSize maxLayers := by
    rw [totalSize, Nat.mul_comm]
    exact Nat.mul_le_mul_left _ hcount
  obtain ⟨layer, hlast, hlength, hfill, hlastData⟩ := @buildLastLayer_spec prim dataSize maxLayers
    randomBytes above last (hdata last (by simp)) hfit
  obtain ⟨encrypted, mac, hfold, hlength', -, hdelivers⟩ :=
    foldrM_buildIntermediateLayer hverify above [] [last] layer _
      (fun p hp => hdata p (List.mem_append_left _ hp)) (by simpa using hfit) hlength
      (by simpa using hfill)
      (delivers_cons hverify hlength hlastData fun _ _ => delivers_nil _ _)
  refine ⟨encrypted, mac, ?_, hlength', by simpa using hdelivers⟩
  have htake : (above ++ [last]).take ((above ++ [last]).length - 1) = above := by simp
  rw [encrypt, if_neg (by simp; omega)]
  simp only [hlast, bind_def, ok_bind, htake, List.foldlM_reverse]
  exact hfold

end RoundTrip

/-! ## Encrypted routing information -/

namespace EncryptedRoutingInformation

/-- `layered_cipher_key`. -/
def layeredCipherKey (routingKey : RoutingKeys) : Key :=
  ⟨routingKey.streamCipherKey, routingKey.headerIntegrityHmacKey⟩

/-- `EncryptedRoutingInformation::new`: the routing flag of every hop, in
layers under the hops' keys; the last hop's flag is `FINAL_HOP`. -/
def new (prim : Primitives) (randomBytes : (n : ℕ) → Vector UInt8 n)
    (routingKeys : List RoutingKeys) (maxLayers : ℕ) : Outcome Error EncryptedRoutingInformation := do
  let params := routingKeys.zipIdx.map fun (routingKey, i) =>
    ({ data := [if i = routingKeys.length - 1 then prim.finalHop else prim.forwardHop]
       key := layeredCipherKey routingKey } : EncryptionParam)
  let (encrypted, mac) ← (encrypt prim routingInformationSize randomBytes maxLayers params).mapErr
    .consistentLengthLayeredEncryptionError
  ok ⟨mac, encrypted⟩

/-- The hops of a route unpack the routing information in turn, each with its
keys: the flags they read. -/
def unpackRoute (prim : Primitives) (maxLayers : ℕ) :
    List RoutingKeys → EncryptedRoutingInformation → Outcome Error (List UInt8)
  | [], _ => ok []
  | routingKey :: routingKeys, self => do
    let (flag, next) ← self.unpack prim routingKey maxLayers
    let flags ← unpackRoute prim maxLayers routingKeys next
    ok (flag :: flags)

variable {prim : Primitives} {maxLayers : ℕ}

/-- Layers that deliver one-byte data deliver those bytes as routing flags. -/
theorem unpackRoute_of_unpackHops : ∀ (routingKeys : List RoutingKeys) (flags : List UInt8)
    (mac : Bytes16) (encrypted : Bytes) (layers : List (Bytes × Bytes16 × Bytes)),
    unpackHops prim routingInformationSize maxLayers (routingKeys.map layeredCipherKey) mac
      encrypted = ok layers →
    layers.map (·.1) = flags.map (fun flag => [flag]) →
    unpackRoute prim maxLayers routingKeys { mac, encryptedRoutingInfo := encrypted } = ok flags
  | [], flags, _, _, layers, hhops, hflags => by
    rw [List.map_nil, unpackHops, ok.injEq] at hhops
    subst hhops
    rw [List.map_nil, eq_comm, List.map_eq_nil_iff] at hflags
    rw [hflags, unpackRoute]
  | routingKey :: routingKeys, flags, mac, encrypted, layers, hhops, hflags => by
    rw [List.map_cons, unpackHops, bind_def, bind_eq_ok] at hhops
    obtain ⟨layer, hunpack, hrest⟩ := hhops
    rw [bind_def, bind_eq_ok] at hrest
    obtain ⟨rest, hrestHops, hlayers⟩ := hrest
    rw [ok.injEq] at hlayers
    subst hlayers
    obtain ⟨flag, flags', rfl, hflag, hflags'⟩ := List.map_eq_cons_iff.mp hflags.symm
    obtain ⟨data, nextMac, next⟩ := layer
    dsimp only at hflag hrestHops
    subst hflag
    have hnext := unpackRoute_of_unpackHops routingKeys flags' nextMac next rest hrestHops
      hflags'.symm
    simp only [unpackRoute, EncryptedRoutingInformation.unpack, layeredCipherKey] at hunpack ⊢
    simp only [hunpack, bind_def, mapErr_ok, ok_bind, routingInformationFromBytes, hnext]

/-- The flags of `new`: `FORWARD_HOP` for every hop but the last. -/
theorem zipIdx_map_flag {α : Type} (forwardHop finalHop : UInt8) {l : List α} (hne : l ≠ []) :
    l.zipIdx.map (fun (_, i) => if i = l.length - 1 then finalHop else forwardHop) =
      List.replicate (l.length - 1) forwardHop ++ [finalHop] := by
  obtain ⟨init, last, rfl⟩ := (List.eq_nil_or_concat' l).resolve_left hne
  rw [List.zipIdx_append, List.map_append, List.length_append, List.length_singleton,
    Nat.add_sub_cancel]
  congr 1
  · -- the hops before the last have indices below it
    refine List.eq_replicate_iff.mpr ⟨by simp, fun flag hflag => ?_⟩
    obtain ⟨⟨x, i⟩, hp, rfl⟩ := List.mem_map.mp hflag
    have hi := (List.mem_zipIdx hp).2.1
    simp only [Nat.zero_add] at hi
    simp [Nat.ne_of_lt hi]
  · simp

/-- The routing information of every route of one to `max_layers` hops is
built, and the hops read `FORWARD_HOP` in turn and the last `FINAL_HOP`. -/
theorem new_unpackRoute
    (hverify : ∀ key data mac, prim.verifyMac key data mac = decide (prim.computeMac key data = mac))
    (randomBytes : (n : ℕ) → Vector UInt8 n) {routingKeys : List RoutingKeys}
    (hne : routingKeys ≠ []) (hcount : routingKeys.length ≤ maxLayers) :
    ∃ eri, new prim randomBytes routingKeys maxLayers = ok eri ∧
      unpackRoute prim maxLayers routingKeys eri =
        ok (List.replicate (routingKeys.length - 1) prim.forwardHop ++ [prim.finalHop]) := by
  let params := routingKeys.zipIdx.map fun (routingKey, i) =>
    ({ data := [if i = routingKeys.length - 1 then prim.finalHop else prim.forwardHop]
       key := layeredCipherKey routingKey } : EncryptionParam)
  have hkeys : params.map (·.key) = routingKeys.map layeredCipherKey :=
    calc params.map (·.key) = (routingKeys.zipIdx.map Prod.fst).map layeredCipherKey := by
          simp only [params, List.map_map]
          rfl
      _ = routingKeys.map layeredCipherKey := by rw [List.zipIdx_map_fst]
  have hdatas : params.map (·.data) = (List.replicate (routingKeys.length - 1) prim.forwardHop ++
      [prim.finalHop]).map (fun flag => [flag]) := by
    rw [← zipIdx_map_flag prim.forwardHop prim.finalHop hne, List.map_map, List.map_map]
    rfl
  obtain ⟨encrypted, mac, henc, -, layers, hhops, hlayers, -⟩ :=
    @encrypt_delivers prim routingInformationSize maxLayers hverify randomBytes params
      (by simpa [params] using hne) (by simpa [params] using hcount)
      (fun p hp => by
        obtain ⟨⟨routingKey, i⟩, -, rfl⟩ := List.mem_map.mp hp
        rfl)
  refine ⟨⟨mac, encrypted⟩, ?_, ?_⟩
  · simp only [new, bind_def]
    rw [henc]
    rfl
  · rw [hkeys] at hhops
    exact unpackRoute_of_unpackHops routingKeys _ mac encrypted layers hhops (hlayers.trans hdatas)

end EncryptedRoutingInformation

/-- The layered cipher round-trips, for any keystream and any MAC whose
`verify` is comparison with `compute_mac`: a route of one to `max_layers`
hops is encrypted, and the hops unpacking in turn each get their own data and
pass on a layer of the full size; the routing information of such a route
reads `FORWARD_HOP` at every hop and `FINAL_HOP` at the last. -/
theorem layeredCipher_round_trip (prim : Primitives)
    (hverify : ∀ key data mac, prim.verifyMac key data mac = decide (prim.computeMac key data = mac))
    (randomBytes : (n : ℕ) → Vector UInt8 n) :
    (∀ (dataSize maxLayers : ℕ) (params : List EncryptionParam), params ≠ [] →
      params.length ≤ maxLayers → (∀ p ∈ params, p.data.length = dataSize) →
      ∃ encrypted mac, encrypt prim dataSize randomBytes maxLayers params = ok (encrypted, mac) ∧
        encrypted.length = totalSize dataSize maxLayers ∧
        Delivers prim dataSize maxLayers params mac encrypted) ∧
    (∀ (maxLayers : ℕ) (routingKeys : List RoutingKeys), routingKeys ≠ [] →
      routingKeys.length ≤ maxLayers →
      ∃ eri, EncryptedRoutingInformation.new prim randomBytes routingKeys maxLayers = ok eri ∧
        EncryptedRoutingInformation.unpackRoute prim maxLayers routingKeys eri =
          ok (List.replicate (routingKeys.length - 1) prim.forwardHop ++ [prim.finalHop])) :=
  ⟨fun _ _ _ hne hcount hdata => encrypt_delivers hverify randomBytes hne hcount hdata,
    fun _ _ hne hcount => EncryptedRoutingInformation.new_unpackRoute hverify randomBytes hne hcount⟩

/-- A MAC that adds the key to the sum of the data's bytes. -/
def sumMac (key : Bytes16) (data : Bytes) : Bytes16 :=
  Vector.ofFn fun i : Fin 16 => key.get i + UInt8.ofNat (data.map UInt8.toNat).sum

/-- Primitives whose keystream depends on the key and the position, with the
MAC `sumMac`, which `verify` compares with. -/
def mixingPrimitives : Primitives where
  computeRoutingKeys _ _ := ⟨Vector.replicate 16 0, Vector.replicate 16 0, [], Bytes32.zero⟩
  pseudorandomBytes key n := Vector.ofFn fun i : Fin n =>
    key.get ⟨i.val % 16, Nat.mod_lt _ (by decide)⟩ + UInt8.ofNat i.val
  verifyMac key data mac := decide (sumMac key data = mac)
  computeMac := sumMac
  unwrapPayload _ payload := .ok payload
  recoverPlaintext payload := .ok payload
  nextEphemeralPublicKey key _ := key
  forwardHop := 1
  finalHop := 0

theorem verifyMac_mixingPrimitives (key : Bytes16) (data : Bytes) (mac : Bytes16) :
    mixingPrimitives.verifyMac key data mac = decide (mixingPrimitives.computeMac key data = mac) := by
  -- one proposition, decided by instances found in two contexts
  simp only [mixingPrimitives]
  congr

/-- Three layers of two bytes each, under distinct keys. -/
def threeHopParams : List EncryptionParam :=
  [⟨[1, 2], ⟨Vector.replicate 16 1, Vector.replicate 16 4⟩⟩,
    ⟨[3, 4], ⟨Vector.replicate 16 2, Vector.replicate 16 5⟩⟩,
    ⟨[5, 6], ⟨Vector.replicate 16 3, Vector.replicate 16 6⟩⟩]

/-- The routing keys of a route of three hops. -/
def threeHopKeys : List RoutingKeys :=
  [⟨Vector.replicate 16 1, Vector.replicate 16 4, [], Bytes32.zero⟩,
    ⟨Vector.replicate 16 2, Vector.replicate 16 5, [], Bytes32.zero⟩,
    ⟨Vector.replicate 16 3, Vector.replicate 16 6, [], Bytes32.zero⟩]

/-- A route of three hops filling `max_layers = 3`: the layers are encrypted and
delivered hop by hop, with fillers at the second and third, and the routing
information reads forward, forward, final. -/
theorem layeredCipher_round_trip_three_hops :
    (∃ encrypted mac, encrypt mixingPrimitives 2 (fun n => Vector.replicate n 7) 3 threeHopParams =
        ok (encrypted, mac) ∧ encrypted.length = totalSize 2 3 ∧
        Delivers mixingPrimitives 2 3 threeHopParams mac encrypted) ∧
    ∃ eri, EncryptedRoutingInformation.new mixingPrimitives (fun n => Vector.replicate n 7)
        threeHopKeys 3 = ok eri ∧
      EncryptedRoutingInformation.unpackRoute mixingPrimitives 3 threeHopKeys eri =
        ok [mixingPrimitives.forwardHop, mixingPrimitives.forwardHop, mixingPrimitives.finalHop] := by
  obtain ⟨hencrypt, hroute⟩ :=
    layeredCipher_round_trip mixingPrimitives
      verifyMac_mixingPrimitives (fun n => Vector.replicate n 7)
  exact ⟨hencrypt 2 3 threeHopParams (List.cons_ne_nil _ _) (by decide) (by decide),
    hroute 3 threeHopKeys (List.cons_ne_nil _ _) (by decide)⟩

end NomosBlendMessage.Sphinx
