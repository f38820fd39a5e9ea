/-
  StClickHouse.Wire.Framed
  **FRAMES THAT DECODE.**

  A payload cut into frames that `encode_frame` has written and whose sizes are within
  the caps of the reader; and whatever `decode_frame` accepts is such a frame
  (`frames_round_trip`).
-/
import StClickHouse.Wire.Frame

namespace StClickHouse

open ByteReader List

/-! ## §1. Frames within the caps. -/

/-- A frame that `encode_frame` has written. -/
structure Encoded (codec : Codec) where
  payload : Bytes
  method : CompressionMethod
  wire : Bytes
  encoded : encodeFrame codec payload method = .ok wire

/-- One that is within the caps of the reader. -/
structure Framed (codec : Codec) extends Encoded codec where
  wire_small : wire.length ≤ checksumLen + maxFrameSize
  payload_small : payload.length ≤ maxFrameSize

section Copy

variable {codec : Codec} {method : CompressionMethod} {payload : Bytes}
  (hbody : frameBody codec method payload = .ok payload)

/-- A payload that is its own body, in a frame. -/
def Encoded.copy (h : headerLen + payload.length < 2 ^ 32) : Encoded codec where
  payload := payload
  method := method
  wire := codec.cityHash128 (frameContent method payload.length payload)
    ++ frameContent method payload.length payload
  encoded := by
    rw [encodeFrame, hbody]
    show (if headerLen + payload.length ≥ 2 ^ 32 then _ else _) = _
    rw [if_neg (by omega), if_neg (by omega)]

theorem Encoded.length_copy (lawful : codec.Lawful) (h : headerLen + payload.length < 2 ^ 32) :
    (Encoded.copy hbody h).wire.length = frameHeaderTotal + payload.length := by
  simp only [Encoded.copy, frameContent, length_append, length_cons, leBytes_length,
    lawful.hash_length, frameHeaderTotal, checksumLen, headerLen]
  omega

def Framed.copy (lawful : codec.Lawful) (h : headerLen + payload.length ≤ maxFrameSize) :
    Framed codec where
  toEncoded := .copy hbody (Nat.lt_of_le_of_lt h (by decide))
  wire_small := by
    rw [Encoded.length_copy hbody lawful, frameHeaderTotal]
    omega
  payload_small := Nat.le_trans (Nat.le_add_left _ _) h

end Copy

theorem copyCodec_body (method : CompressionMethod) (payload : Bytes) :
    frameBody copyCodec method payload = .ok payload := by
  cases method <;> rfl

namespace Encoded

variable {codec : Codec}

/-- What `encode_frame` has written: the body, and the parts of the frame around it. -/
theorem parts (f : Encoded codec) : ∃ body, frameBody codec f.method f.payload = .ok body ∧
    headerLen + body.length < 2 ^ 32 ∧ f.payload.length < 2 ^ 32 ∧
    f.wire = codec.cityHash128 (frameContent f.method f.payload.length body)
      ++ frameContent f.method f.payload.length body := by
  have hencoded := f.encoded
  rw [encodeFrame] at hencoded
  obtain ⟨body, hbody, hrest⟩ := RustText.bind_eq_ok hencoded
  refine ⟨body, hbody, ?_⟩
  split at hrest
  · cases hrest
  split at hrest
  · cases hrest
  · injection hrest with hwire
    exact ⟨by omega, by omega, hwire.symm⟩

theorem fromByte_byte (method : CompressionMethod) :
    CompressionMethod.fromByte method.byte = some method := by
  cases method <;> rfl

variable (lawful : codec.Lawful) (f : Encoded codec)
include lawful

theorem layout : ∃ checksum body, checksum.length = checksumLen ∧
    codec.cityHash128 (frameContent f.method f.payload.length body) = checksum ∧
    frameBody codec f.method f.payload = .ok body ∧
    f.wire = checksum ++ ([f.method.byte] ++ leBytes 4 (headerLen + body.length)
      ++ leBytes 4 f.payload.length ++ body) ∧
    headerLen + body.length < 2 ^ 32 ∧ f.payload.length < 2 ^ 32 := by
  obtain ⟨body, hbody, hsize, hpayload, hwire⟩ := f.parts
  refine ⟨_, body, lawful.hash_length _, rfl, hbody, ?_, hsize, hpayload⟩
  rw [hwire]
  unfold frameContent
  simp

theorem length_wire : frameHeaderTotal ≤ f.wire.length := by
  obtain ⟨checksum, body, hchecksum, _, _, hwire, _, _⟩ := f.layout lawful
  rw [hwire]
  simp [hchecksum, leBytes_length, frameHeaderTotal, checksumLen, headerLen]
  omega

theorem compressedSize_header :
    checksumLen + compressedSize (f.wire.take frameHeaderTotal) = f.wire.length := by
  obtain ⟨checksum, body, hchecksum, _, _, hwire, hsize, _⟩ := f.layout lawful
  have hsizeBytes : ((f.wire.take frameHeaderTotal).drop 17).take 4
      = leBytes 4 (headerLen + body.length) := by
    have hsplit : f.wire = (checksum ++ [f.method.byte]) ++ (leBytes 4 (headerLen + body.length)
        ++ (leBytes 4 f.payload.length ++ body)) := by
      rw [hwire]
      simp
    have hlen : (checksum ++ [f.method.byte]).length = 17 := by simp [hchecksum, checksumLen]
    rw [drop_take, take_take, hsplit, drop_left' hlen]
    exact take_left' (leBytes_length 4 _)
  unfold compressedSize
  rw [hsizeBytes, leNat_leBytes (by simpa using hsize), hwire]
  simp [hchecksum, leBytes_length, checksumLen, headerLen]
  omega

theorem method_sniffed :
    CompressionMethod.fromByte ((f.wire.take (checksumLen + 1)).getD checksumLen 0) = some f.method := by
  obtain ⟨checksum, body, hchecksum, _, _, hwire, _, _⟩ := f.layout lawful
  have hbyte : (f.wire.take (checksumLen + 1)).getD checksumLen 0 = f.method.byte := by
    rw [hwire, ← hchecksum]
    simp
  rw [hbyte, fromByte_byte]

/-- The frame as it is sniffed: one byte, the rest of the checksum with the method, the
sizes, and the body. -/
theorem sniffed : ∃ first checksum sizes body,
    f.wire = first ++ (checksum ++ (sizes ++ body)) ∧ first.length = 1 ∧
    checksum.length = checksumLen ∧ sizes.length = frameHeaderTotal - checksumLen - 1 ∧
    CompressionMethod.fromByte ((first ++ checksum).getD checksumLen 0) = some f.method ∧
    first ++ checksum ++ sizes = f.wire.take frameHeaderTotal ∧
    body.length = compressedSize (f.wire.take frameHeaderTotal) - headerLen ∧
    f.wire.take frameHeaderTotal ++ body = f.wire := by
  have hlong : 25 ≤ f.wire.length := f.length_wire lawful
  have hmethod := f.method_sniffed lawful
  have hseventeen : f.wire.take 17 = f.wire.take 1 ++ (f.wire.drop 1).take 16 :=
    take_add (i := 1) (j := 16)
  have hheader : f.wire.take 25 = f.wire.take 17 ++ (f.wire.drop 17).take 8 :=
    take_add (i := 17) (j := 8)
  refine ⟨f.wire.take 1, (f.wire.drop 1).take 16, (f.wire.drop 17).take 8, f.wire.drop 25,
    ?_, ?_, ?_, ?_, ?_, ?_, ?_, take_append_drop _ _⟩
  · rw [← append_assoc, ← hseventeen, ← append_assoc, ← hheader, take_append_drop]
  · rw [length_take]
    omega
  · rw [length_take, length_drop]
    exact Nat.min_eq_left (by omega)
  · rw [length_take, length_drop]
    exact Nat.min_eq_left (by omega)
  · rw [← hseventeen]
    exact hmethod
  · rw [← hseventeen, ← hheader]
    rfl
  have hsize := f.compressedSize_header lawful
  rw [length_drop]
  unfold checksumLen headerLen at *
  omega

end Encoded

variable {checksum : Bytes}

namespace Framed

variable {codec : Codec} (lawful : codec.Lawful) (f : Framed codec)
include lawful

omit lawful in
theorem frameSizes_header {body : Bytes} (hchecksum : checksum.length = checksumLen)
    (hwire : f.wire = checksum ++ ([f.method.byte] ++ leBytes 4 (headerLen + body.length)
      ++ leBytes 4 f.payload.length ++ body))
    (hsize : headerLen + body.length < 2 ^ 32) (hpayload : f.payload.length < 2 ^ 32) :
    frameSizes ([f.method.byte] ++ leBytes 4 (headerLen + body.length) ++ leBytes 4 f.payload.length)
      = .ok (f.method, headerLen + body.length, f.payload.length) := by
  have hcompressed : leNat ((([f.method.byte] ++ leBytes 4 (headerLen + body.length)
      ++ leBytes 4 f.payload.length).drop 1).take 4) = headerLen + body.length := by
    show leNat ((leBytes 4 (headerLen + body.length) ++ leBytes 4 f.payload.length).take 4) = _
    rw [take_left' (leBytes_length 4 _), leNat_leBytes (by simpa using hsize)]
  have huncompressed : leNat ((([f.method.byte] ++ leBytes 4 (headerLen + body.length)
      ++ leBytes 4 f.payload.length).drop 5).take 4) = f.payload.length := by
    rw [drop_left' (by simp [leBytes_length]),
      take_of_length_le (by rw [leBytes_length]), leNat_leBytes (by simpa using hpayload)]
  have hsmall : headerLen + body.length ≤ maxFrameSize := by
    have hlength := f.wire_small
    rw [hwire] at hlength
    simp [hchecksum, leBytes_length, checksumLen, headerLen] at hlength ⊢
    omega
  have hpayloadSmall := f.payload_small
  have hmethod : CompressionMethod.fromByte (([f.method.byte] ++ leBytes 4 (headerLen + body.length)
      ++ leBytes 4 f.payload.length).headD 0) = some f.method := Encoded.fromByte_byte _
  unfold frameSizes
  rw [hcompressed, huncompressed, hmethod]
  dsimp only
  rw [if_neg (by omega), if_neg (by omega), if_neg (by omega)]

/-- **A frame decodes to its payload**, and the bytes after it are left. -/
theorem decodeFrame_framed (rest : Bytes) :
    decodeFrame codec (f.wire ++ rest) = (.ok f.payload, rest) := by
  obtain ⟨checksum, body, hchecksum, hhash, hbody, hwire, hsize, hpayload⟩ := f.layout lawful
  let header := [f.method.byte] ++ leBytes 4 (headerLen + body.length) ++ leBytes 4 f.payload.length
  have hheader : header.length = headerLen := by simp [header, leBytes_length, headerLen]
  have hstream : f.wire ++ rest = checksum ++ (header ++ (body ++ rest)) := by
    rw [hwire]
    simp [header]
  have hread : ∀ (pre post : Bytes) (n : Nat), pre.length = n →
      (readExact n : Read Bytes Bytes) (pre ++ post) = (.ok pre, post) := by
    intro pre post n hn
    rw [readExact_list (by simp [← hn]), ← hn, take_left, drop_left]
  have hopen : openFrame codec f.method f.payload.length checksum header body = .ok f.payload := by
    unfold openFrame
    rw [if_neg (by rw [← hhash]; simp [frameContent, header])]
    cases hmethod : f.method with
    | none =>
      rw [hmethod] at hbody
      cases hbody
      exact if_neg (by simp)
    | lz4 =>
      rw [hmethod] at hbody
      show (codec.decompress .lz4 body f.payload.length >>= _) = _
      rw [lawful.decompress_compress hbody]
      exact if_neg (by simp)
    | zstd =>
      rw [hmethod] at hbody
      show (codec.decompress .zstd body f.payload.length >>= _) = _
      rw [lawful.decompress_compress hbody]
      exact if_neg (by simp)
  unfold decodeFrame
  rw [hstream, bind_ok (hread checksum _ _ hchecksum), bind_ok (hread header _ _ hheader)]
  rw [f.frameSizes_header hchecksum hwire hsize hpayload]
  show (readExact (headerLen + body.length - headerLen) >>= _) (body ++ rest) = _
  rw [bind_ok (hread body rest _ (by omega)), hopen]
  rfl

theorem decodeFrameBytes_framed : decodeFrameBytes codec f.wire = .ok f.payload := by
  have hdecode := f.decodeFrame_framed lawful []
  rw [append_nil] at hdecode
  unfold decodeFrameBytes
  rw [hdecode]

end Framed

/-! ## §2. Whatever is accepted is a frame. -/

theorem leBytes_leNat : ∀ bs : Bytes, leBytes bs.length (leNat bs) = bs
  | [] => rfl
  | b :: bs => by
    have hb : b.toNat < 256 := b.toNat_lt
    have hlow : (b.toNat + 256 * leNat bs) % 256 = b.toNat := by omega
    have hhigh : (b.toNat + 256 * leNat bs) / 256 = leNat bs := by omega
    show UInt8.ofNat ((b.toNat + 256 * leNat bs) % 256)
      :: leBytes bs.length ((b.toNat + 256 * leNat bs) / 256) = b :: bs
    rw [hlow, hhigh, leBytes_leNat bs, UInt8.ofNat_toNat]

variable {method : CompressionMethod}

theorem byte_of_fromByte {b : UInt8} (h : CompressionMethod.fromByte b = some method) :
    b = method.byte := by
  unfold CompressionMethod.fromByte at h
  split at h
  · cases h
    assumption
  split at h
  · cases h
    assumption
  · split at h <;> cases h
    assumption

/-- The nine header bytes that pass the checks, and the sizes they declare. -/
theorem frameSizes_ok {header : Bytes} {compressed size : Nat}
    (hlen : header.length = headerLen) (h : frameSizes header = .ok (method, compressed, size)) :
    header = method.byte :: (leBytes 4 compressed ++ leBytes 4 size) ∧ headerLen ≤ compressed ∧
      compressed ≤ maxFrameSize ∧ size ≤ maxFrameSize := by
  unfold frameSizes at h
  dsimp only at h
  split at h
  · cases h
  next method' hmethod =>
    split at h
    · cases h
    split at h
    · cases h
    split at h
    · cases h
    cases h
    refine ⟨?_, by omega, by omega, by omega⟩
    rcases header with _ | ⟨b, sizes⟩
    · cases hlen
    have hsizes : sizes.length = 8 := by simpa [headerLen] using hlen
    have hfirst := leBytes_leNat (sizes.take 4)
    have hsecond := leBytes_leNat ((sizes.drop 4).take 4)
    rw [length_take_of_le (by omega)] at hfirst
    rw [length_take_of_le (by rw [length_drop]; omega)] at hsecond
    show b :: sizes = method.byte :: (leBytes 4 (leNat (sizes.take 4))
      ++ leBytes 4 (leNat ((sizes.drop 4).take 4)))
    have hbyte : b = method.byte := byte_of_fromByte hmethod
    have hrest : (sizes.drop 4).take 4 = sizes.drop 4 :=
      take_of_length_le (by rw [length_drop]; omega)
    rw [hfirst, hsecond, hbyte, hrest, take_append_drop]

theorem openFrame_ok {codec : Codec} {size : Nat} {header body payload : Bytes}
    (h : openFrame codec method size checksum header body = .ok payload) :
    codec.cityHash128 (header ++ body) = checksum ∧ payload.length = size := by
  unfold openFrame at h
  split at h
  · cases h
  next hhash =>
    have hdeclared : ∀ data : Result Bytes, (data >>= fun decompressed =>
        if decompressed.length ≠ size then
          .error (.compression ("decompressed length " ++ toString decompressed.length
            ++ " != uncompressed_size " ++ toString size ++ " declared in header"))
        else .ok decompressed) = .ok payload → payload.length = size := by
      intro data hdata
      obtain ⟨decompressed, _, hdata⟩ := RustText.bind_eq_ok hdata
      split at hdata <;> cases hdata
      next hsize =>
        exact Decidable.not_not.mp hsize
    refine ⟨Decidable.not_not.mp hhash, ?_⟩
    cases method with
    | none => exact hdeclared (.ok body) h
    | lz4 | zstd => exact hdeclared _ h

/-- **Frames round trip, and nothing else is accepted.**  A payload whose two sizes are
within the caps is written as a frame that decodes to it and takes up all its bytes; and
what is accepted is the checksum of a header and a body, that header and body, with both
sizes within the caps and as many bytes as declared. -/
theorem frames_round_trip {codec : Codec} (lawful : codec.Lawful) :
    (∀ payload method body, frameBody codec method payload = .ok body →
      headerLen + body.length ≤ maxFrameSize → payload.length ≤ maxFrameSize →
      ∃ wire, encodeFrame codec payload method = .ok wire ∧
        ∀ rest : Bytes, decodeFrame codec (wire ++ rest) = (.ok payload, rest)) ∧
    (∀ bytes payload rest : Bytes, decodeFrame codec bytes = (.ok payload, rest) →
      ∃ method body, headerLen + body.length ≤ maxFrameSize ∧ payload.length ≤ maxFrameSize ∧
        bytes = codec.cityHash128 (frameContent method payload.length body)
          ++ frameContent method payload.length body ++ rest) := by
  constructor
  · intro payload method body hbody hsize hpayload
    have hfield : maxFrameSize < 2 ^ 32 := by decide
    let content := frameContent method payload.length body
    have hencoded : encodeFrame codec payload method = .ok (codec.cityHash128 content ++ content) := by
      rw [encodeFrame, hbody]
      show (if _ then _ else if _ then _ else _) = _
      rw [if_neg (by omega), if_neg (by omega)]
    have hwire : (codec.cityHash128 content ++ content).length ≤ checksumLen + maxFrameSize := by
      rw [length_append, lawful.hash_length]
      simp only [content, frameContent, length_cons, length_append, leBytes_length]
      unfold headerLen at hsize
      unfold checksumLen
      omega
    let framed : Framed codec := ⟨⟨payload, method, _, hencoded⟩, hwire, hpayload⟩
    exact ⟨_, hencoded, framed.decodeFrame_framed lawful⟩
  · intro bytes payload rest h
    obtain ⟨checksum, s₁, hchecksum, h₁⟩ := bind_eq_ok_iff.mp h
    obtain ⟨header, s₂, hheader, h₂⟩ := bind_eq_ok_iff.mp h₁
    obtain ⟨⟨method, compressed, size⟩, s₃, hlift, h₃⟩ := bind_eq_ok_iff.mp h₂
    obtain ⟨hsizes, rfl⟩ := liftExcept_eq_ok_iff.mp hlift
    obtain ⟨body, s₄, hbody, h₄⟩ := bind_eq_ok_iff.mp h₃
    obtain ⟨hopen, rfl⟩ := liftExcept_eq_ok_iff.mp h₄
    obtain ⟨rfl, _⟩ := readExact_list_iff.mp hchecksum
    obtain ⟨rfl, hheaderLen⟩ := readExact_list_iff.mp hheader
    obtain ⟨rfl, hbodyLen⟩ := readExact_list_iff.mp hbody
    obtain ⟨rfl, hmin, hcompressed, hsize⟩ := frameSizes_ok hheaderLen hsizes
    obtain ⟨rfl, rfl⟩ := openFrame_ok hopen
    have hbodySize : headerLen + body.length = compressed := by omega
    refine ⟨method, body, by omega, hsize, ?_⟩
    subst hbodySize
    simp [frameContent]

/-- A compressed frame of two bytes, and one byte behind it. -/
theorem frames_round_trip_pair :
    copyCodec.Lawful ∧ ∃ wire, encodeFrame copyCodec [7, 8] .lz4 = .ok wire ∧
      decodeFrame copyCodec (wire ++ [5]) = (.ok [7, 8], [5]) := by
  obtain ⟨wire, hwire, hdecode⟩ := (frames_round_trip copyCodec_lawful).1 [7, 8] .lz4 [7, 8] rfl
    (by decide) (by decide)
  exact ⟨copyCodec_lawful, wire, hwire, hdecode [5]⟩

end StClickHouse
