/-
  StClickHouse.Wire.Frame
  **COMPRESSION FRAMES.**

  A frame is a 16-byte checksum, a 9-byte header (method and the two sizes) and
  the compressed body (`compression/mod.rs`, and the same text again in
  `sync/compression/mod.rs`).  The hash and the two compressors are foreign code,
  so they are a parameter: `Codec` gives the functions, `Codec.Lawful` what is
  promised of them.
-/
import StClickHouse.Wire.Primitives

namespace StClickHouse

open ByteReader

/-! ## §1. Frames. -/

/-- `CompressionMethod`. -/
inductive CompressionMethod where
  | none
  | lz4
  | zstd
  deriving Repr, DecidableEq

/-- The method byte on the wire. -/
def CompressionMethod.byte : CompressionMethod → UInt8
  | .none => 0x02
  | .lz4 => 0x82
  | .zstd => 0x90

/-- `CompressionMethod::from_byte`. -/
def CompressionMethod.fromByte (b : UInt8) : Option CompressionMethod :=
  if b = 0x02 then some .none
  else if b = 0x82 then some .lz4
  else if b = 0x90 then some .zstd
  else Option.none

/-- The foreign functions: the 128-bit hash as its 16 bytes, and the compressors of
the methods other than `none`.  A method whose feature is off fails. -/
structure Codec where
  cityHash128 : Bytes → Bytes
  compress : CompressionMethod → Bytes → Result Bytes
  /-- The second argument is the declared size, which bounds the output. -/
  decompress : CompressionMethod → Bytes → Nat → Result Bytes

/-- What is promised of the foreign functions. -/
structure Codec.Lawful (codec : Codec) : Prop where
  hash_length (bs : Bytes) : (codec.cityHash128 bs).length = 16
  decompress_compress {method : CompressionMethod} {data body : Bytes} :
    codec.compress method data = .ok body → codec.decompress method body data.length = .ok data

/-- Compressors that copy, and a hash of zeros. -/
def copyCodec : Codec where
  cityHash128 _ := List.replicate 16 0
  compress _ data := .ok data
  decompress _ body _ := .ok body

theorem copyCodec_lawful : copyCodec.Lawful where
  hash_length _ := List.length_replicate
  decompress_compress h := by
    injection h with h
    rw [h]
    rfl

/-- Length of the checksum. -/
def checksumLen : Nat := 16

/-- Length of the method and size header. -/
def headerLen : Nat := 9

/-- Checksum and header. -/
def frameHeaderTotal : Nat := checksumLen + headerLen

/-- Largest frame, compressed and uncompressed (64 MiB). -/
def maxFrameSize : Nat := 64 * 1024 * 1024

/-- Largest decompressed body of one packet (1 GiB). -/
def maxBlockBytes : Nat := 1024 * 1024 * 1024

/-- `{b:02x}`. -/
def hexByte (b : UInt8) : String :=
  String.ofList [Nat.digitChar (b.toNat / 16), Nat.digitChar (b.toNat % 16)]

/-- The header and body of a frame, which the checksum covers. -/
def frameContent (method : CompressionMethod) (size : Nat) (body : Bytes) : Bytes :=
  method.byte :: (leBytes 4 (headerLen + body.length) ++ leBytes 4 size ++ body)

/-- The body of a frame. -/
def frameBody (codec : Codec) (method : CompressionMethod) (data : Bytes) : Result Bytes :=
  match method with
  | .none => .ok data
  | method => codec.compress method data

/-- `encode_frame`. -/
def encodeFrame (codec : Codec) (data : Bytes) (method : CompressionMethod) : Result Bytes := do
  let body ← frameBody codec method data
  if headerLen + body.length ≥ 2 ^ 32 then
    .error (.compression ("compressed frame of " ++ toString (headerLen + body.length)
      ++ " bytes exceeds the u32 wire size field"))
  else if data.length ≥ 2 ^ 32 then
    .error (.compression ("uncompressed payload of " ++ toString data.length
      ++ " bytes exceeds the u32 wire size field"))
  else
    let content := frameContent method data.length body
    .ok (codec.cityHash128 content ++ content)

/-- The compressed size in the first 25 bytes of a frame. -/
def compressedSize (frame : Bytes) : Nat := leNat ((frame.drop 17).take 4)

/-- The checks of `decode_frame` on the 9 header bytes: method and sizes. -/
def frameSizes (header : Bytes) : Result (CompressionMethod × Nat × Nat) :=
  let compressed := leNat ((header.drop 1).take 4)
  let uncompressed := leNat ((header.drop 5).take 4)
  match CompressionMethod.fromByte (header.headD 0) with
  | none => .error (.compression ("unknown compression method byte: 0x" ++ hexByte (header.headD 0)))
  | some method =>
    if compressed < headerLen then
      .error (.compression ("compressed_size " ++ toString compressed ++ " < header length "
        ++ toString headerLen))
    else if compressed > maxFrameSize then
      .error (.compression ("compressed_size " ++ toString compressed ++ " exceeds "
        ++ toString maxFrameSize ++ " byte frame cap"))
    else if uncompressed > maxFrameSize then
      .error (.compression ("uncompressed_size " ++ toString uncompressed ++ " exceeds "
        ++ toString maxFrameSize ++ " byte frame cap"))
    else .ok (method, compressed, uncompressed)

/-- The rest of `decode_frame`: checksum, decompression and declared size. -/
def openFrame (codec : Codec) (method : CompressionMethod) (uncompressed : Nat)
    (checksum header body : Bytes) : Result Bytes := do
  if codec.cityHash128 (header ++ body) ≠ checksum then
    .error (.compression
      "compression frame checksum mismatch (CityHash128) — corruption suspected")
  else
    let decompressed ← match method with
      | .none => .ok body
      | method => codec.decompress method body uncompressed
    if decompressed.length ≠ uncompressed then
      .error (.compression ("decompressed length " ++ toString decompressed.length
        ++ " != uncompressed_size " ++ toString uncompressed ++ " declared in header"))
    else .ok decompressed

/-- `decode_frame`. -/
def decodeFrame {σ : Type} [ByteStream Error σ] (codec : Codec) : Read σ Bytes := do
  let checksum ← readExact checksumLen
  let header ← readExact headerLen
  let (method, compressed, uncompressed) ← liftExcept (frameSizes header)
  let body ← readExact (compressed - headerLen)
  liftExcept (openFrame codec method uncompressed checksum header body)

/-- `decode_frame_bytes`. -/
def decodeFrameBytes (codec : Codec) (data : Bytes) : Result Bytes :=
  match (decodeFrame codec data).1 with
  | .ok payload => .ok payload
  | .error (.error e) => .error e
  | .error .depth => .error (.io .unexpectedEof)

/-! ## §2. A stream of frames, read as the bytes inside them. -/

/-- `checked_block_bytes`; its callers keep only that it failed. -/
def checkedBlockBytes (acc add : Nat) : Option Nat :=
  if acc + add ≥ usizeBound then none
  else if acc + add > maxBlockBytes then none
  else some (acc + add)

theorem checkedBlockBytes_of_le {acc add : Nat} (h : acc + add ≤ maxBlockBytes) :
    checkedBlockBytes acc add = some (acc + add) := by
  unfold checkedBlockBytes
  have hword : maxBlockBytes < usizeBound := by decide
  rw [if_neg (by omega), if_neg (by omega)]

/-- A stream whose reads can be given a time limit: no result is a limit that ran
out, and the bytes that had been taken by then are gone. -/
class Timed (σ : Type) where
  within {α : Type} : Read σ α → Read σ (Option α)

export Timed (within)

/-- A list of bytes answers at once. -/
instance : Timed Bytes where
  within x := do return some (← x)

/-- `DecompressingStream`: the decompressed bytes not yet served, and the bytes of
the next frame that have been read already.  `maxPulls` is the model's own bound
on the frames pulled for one read. -/
structure Inflating (σ : Type) where
  codec : Codec
  maxPulls : Nat
  inner : σ
  /-- Decompressed, or in plain mode sniffed, bytes not yet served. -/
  buf : Bytes
  plain : Bool
  produced : Nat
  /-- The header of the frame that is next, once it has been read. -/
  frame : Bytes

namespace Inflating

variable {σ : Type} [ByteStream Error σ]

/-- Read the inner stream. -/
def onInner {α : Type} (x : Read σ α) : Read (Inflating σ) α := fun z =>
  match x z.inner with
  | (res, s) => (res, { z with inner := s })

/-- The four phases of `poll_pull_frame`, with the transport's pauses left out:
header, sizes, body, and decoding. -/
def pullFrame : Read (Inflating σ) Unit := fun z =>
  let header : Read (Inflating σ) Bytes :=
    if z.frame = [] then onInner (readExact frameHeaderTotal) else pure z.frame
  let pull : Read (Inflating σ) Bytes := do
    let header ← header
    let size := compressedSize header
    if size < headerLen then fail (.io .invalidData)
    else if size > maxFrameSize then fail (.io .invalidData)
    else
      let body ← onInner (readExact (size - headerLen))
      return header ++ body
  match pull z with
  | (.error e, z') => (.error e, z')
  | (.ok frame, z') =>
    let z' := { z' with frame := [] }
    match decodeFrameBytes z.codec frame with
    | .error _ => (.error (.error (.io .invalidData)), z')
    | .ok payload =>
      match checkedBlockBytes z'.produced payload.length with
      | none => (.error (.error (.io .invalidData)), z')
      | some produced => (.ok (), { z' with produced := produced, buf := payload })

/-- Exactly `n` bytes: from the buffer, then in plain mode from the inner stream and
otherwise from further frames. -/
def serve : Nat → Nat → Read (Inflating σ) Bytes
  | fuel, n => fun z =>
    if n ≤ z.buf.length then (.ok (z.buf.take n), { z with buf := z.buf.drop n })
    else if z.plain then
      (do
        let bs ← onInner (readExact (n - z.buf.length))
        return z.buf ++ bs) { z with buf := [] }
    else
      match fuel with
      | 0 => (.error .depth, z)
      | fuel + 1 =>
        (do
          pullFrame
          let bs ← serve fuel (n - z.buf.length)
          return z.buf ++ bs) { z with buf := [] }

instance : ByteStream Error (Inflating σ) where
  readExact n := fun z => serve z.maxPulls n z

variable [Timed σ] {α : Type}

/-- `DecompressingStream::new`, and the body read through it: 17 bytes are sniffed,
and what does not look like a frame is read as it stands. -/
def inflate (codec : Codec) (maxPulls : Nat) (body : Read (Inflating σ) α) :
    Read σ α := do
  let through (buf : Bytes) (plain : Bool) (frame : Bytes) : Read σ α := fun s =>
    match body ⟨codec, maxPulls, s, buf, plain, 0, frame⟩ with
    | (res, z) => (res, z.inner)
  let first ← readExact 1
  match ← within (readExact (ε := Error) (σ := σ) checksumLen) with
  | none => through first true []
  | some rest =>
    let sniff := first ++ rest
    match CompressionMethod.fromByte (sniff.getD checksumLen 0) with
    | none => through sniff true []
    | some _ =>
      let frame := sniff ++ (← readExact (frameHeaderTotal - checksumLen - 1))
      if compressedSize frame < headerLen then through frame true []
      else if compressedSize frame > maxFrameSize then
        fail (.compression ("compressed_size " ++ toString (compressedSize frame) ++ " exceeds "
          ++ toString maxFrameSize ++ " byte frame cap"))
      else through [] false frame

end Inflating

end StClickHouse
