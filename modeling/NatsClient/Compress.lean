import NatsClient.Text
import NatsClient.GoError
import NatsClient.Header

namespace NatsClient

def minPayloadCompressBytes : Nat := 32 * 1024

def maxPayloadDecompressBytes : Nat := 64 * 1024 * 1024

def encodingBrotli := "br"
def encodingGzip := "gzip"

inductive PayloadCompressionMode
  | off
  | auto
  | gzip
  | brotli
  -- Any other value of the uint8.
  | other
  deriving DecidableEq, Repr

-- A compression package outside the repository. `expand` is what its reader
-- yields: the bytes up to the end of the stream, and the error that ends it.
structure Algorithm where
  compress : Bytes → Except GoError Bytes
  expand : Bytes → Bytes × Option GoError

-- Expanding what was compressed yields the plain bytes and a clean end.
def Algorithm.Inverts (algo : Algorithm) : Prop :=
  ∀ plain packed, algo.compress plain = .ok packed → algo.expand packed = (plain, none)

structure Compressors where
  brotli : Algorithm
  gzip : Algorithm

-- io.ReadAll over an io.LimitReader: an error behind the limit is never met.
def readAllLimited (limit : Nat) (stream : Bytes × Option GoError) : Except GoError Bytes :=
  if limit ≤ stream.1.length then .ok (stream.1.take limit)
  else match stream.2 with
    | none => .ok stream.1
    | some e => .error e

-- decompressBrotli and decompressGzip, which differ in their name only.
def Algorithm.decompress (algo : Algorithm) (name : String) (data : Bytes) :
    Except GoError Bytes :=
  match readAllLimited (maxPayloadDecompressBytes + 1) (algo.expand data) with
  | .error e => .error (.wrap (name ++ " decompress: ") e "")
  | .ok out =>
    if maxPayloadDecompressBytes < out.length then
      .error (.wrap "" (.sentinel .errPayloadTooLarge)
        (": " ++ name ++ " exceeds " ++ toString maxPayloadDecompressBytes ++ " bytes"))
    else .ok out

def decompressPayload (comp : Compressors) (data : Bytes) (encoding : String) :
    Except GoError Bytes :=
  let name := toLower (trimSpace encoding)
  if name = "" ∨ name = "identity" then .ok data
  else if name = encodingBrotli then comp.brotli.decompress "brotli" data
  else if name = encodingGzip then comp.gzip.decompress "gzip" data
  else .error (.wrap "" (.sentinel .errUnsupportedContentEncoding) (": " ++ quoted encoding))

-- One algorithm with the shrink-only rule.
def shrink (algo : Algorithm) (encoding : String) (plain : Bytes) : Option (Bytes × String) :=
  match algo.compress plain with
  | .ok packed => if packed.length < plain.length then some (packed, encoding) else none
  | .error _ => none

-- The result is none where the source returns ok = false with the plain bytes.
def maybeCompressPayload (comp : Compressors) (plain : Bytes) : Option (Bytes × String) :=
  if plain.length ≤ minPayloadCompressBytes then none
  else (shrink comp.brotli encodingBrotli plain).or (shrink comp.gzip encodingGzip plain)

def compressPayloadAlgo (comp : Compressors) (plain : Bytes) (encoding : String) :
    Option (Bytes × String) :=
  if plain.length ≤ minPayloadCompressBytes then none
  else if encoding = encodingGzip then shrink comp.gzip encoding plain
  else if encoding = encodingBrotli then shrink comp.brotli encoding plain
  else none

-- The switch of applyPayloadCompression over its mode.
def compressed (comp : Compressors) (mode : PayloadCompressionMode) (data : Bytes) :
    Option (Bytes × String) :=
  match mode with
  | .off => none
  | .auto => maybeCompressPayload comp data
  | .gzip => compressPayloadAlgo comp data encodingGzip
  | .brotli => compressPayloadAlgo comp data encodingBrotli
  | .other => none

def contentEncodingFromHeader (h : Option Header) : String :=
  match h with
  | none => ""
  | some h => Header.get h headerContentEncoding

-- A nil header map is none. The map of the caller is updated in place by the
-- source; here the updated map is returned.
def applyPayloadCompression (comp : Compressors) (mode : PayloadCompressionMode) (data : Bytes)
    (h : Option Header) : Bytes × Option Header :=
  if mode = .off then (data, h)
  else if contentEncodingFromHeader h ≠ "" then (data, h)
  else match compressed comp mode data with
    | none => (data, h)
    | some (out, enc) => (out, some ((h.getD ∅).insert headerContentEncoding [enc]))

-- What was compressed is expanded again up to the limit, and refused beyond it.
theorem Algorithm.decompress_compress {algo : Algorithm} (hinv : algo.Inverts)
    {plain packed : Bytes} (hc : algo.compress plain = .ok packed) (name : String) :
    (plain.length ≤ maxPayloadDecompressBytes → algo.decompress name packed = .ok plain) ∧
    (maxPayloadDecompressBytes < plain.length →
      ∃ e, algo.decompress name packed = .error e ∧ e.is .errPayloadTooLarge = true) := by
  unfold Algorithm.decompress
  rw [hinv plain packed hc]
  constructor
  · intro hlen
    have hread : readAllLimited (maxPayloadDecompressBytes + 1) (plain, none) = .ok plain := by
      simp only [readAllLimited]
      rw [if_neg (by omega)]
    rw [hread]
    simp only
    rw [if_neg (by omega)]
  · intro hlen
    have hread : readAllLimited (maxPayloadDecompressBytes + 1) (plain, none) =
        .ok (plain.take (maxPayloadDecompressBytes + 1)) := by
      simp only [readAllLimited]
      rw [if_pos (by omega)]
    have htake : maxPayloadDecompressBytes <
        (plain.take (maxPayloadDecompressBytes + 1)).length := by
      rw [List.length_take]
      omega
    rw [hread]
    simp only
    rw [if_pos htake]
    exact ⟨_, rfl, rfl⟩

theorem shrink_eq_some {algo : Algorithm} {encoding enc : String} {plain out : Bytes}
    (hs : shrink algo encoding plain = some (out, enc)) :
    enc = encoding ∧ algo.compress plain = .ok out := by
  unfold shrink at hs
  split at hs
  next packed hc =>
    split_ifs at hs
    cases hs
    exact ⟨rfl, hc⟩
  next _ => cases hs

theorem decompressPayload_br (comp : Compressors) (data : Bytes) :
    decompressPayload comp data encodingBrotli = comp.brotli.decompress "brotli" data := by
  have hname : toLower (trimSpace encodingBrotli) = encodingBrotli := by decide
  simp only [decompressPayload, hname]
  rw [if_neg (by decide), if_pos trivial]

theorem decompressPayload_gzip (comp : Compressors) (data : Bytes) :
    decompressPayload comp data encodingGzip = comp.gzip.decompress "gzip" data := by
  have hname : toLower (trimSpace encodingGzip) = encodingGzip := by decide
  simp only [decompressPayload, hname]
  rw [if_neg (by decide), if_neg (by decide), if_pos trivial]

-- A mode compresses with one of the two algorithms and names it.
theorem compressed_eq_some {comp : Compressors} {mode : PayloadCompressionMode}
    {data out : Bytes} {enc : String} (hc : compressed comp mode data = some (out, enc)) :
    (enc = encodingBrotli ∧ comp.brotli.compress data = .ok out) ∨
      (enc = encodingGzip ∧ comp.gzip.compress data = .ok out) := by
  cases mode with
  | off => cases hc
  | other => cases hc
  | auto =>
    simp only [compressed, maybeCompressPayload] at hc
    split at hc
    · cases hc
    · rcases Option.or_eq_some_iff.mp hc with hs | ⟨_, hs⟩
      · exact .inl (shrink_eq_some hs)
      · exact .inr (shrink_eq_some hs)
  | gzip =>
    simp only [compressed, compressPayloadAlgo] at hc
    split at hc
    · cases hc
    · exact .inr (shrink_eq_some (by simpa using hc))
  | brotli =>
    simp only [compressed, compressPayloadAlgo] at hc
    split at hc
    · cases hc
    · rw [if_neg (by decide), if_pos trivial] at hc
      exact .inl (shrink_eq_some hc)

-- Whatever a mode compresses is named by an encoding that expands it again, unless it
-- is beyond the limit.
theorem compressed_decompress {comp : Compressors} (hbr : comp.brotli.Inverts)
    (hgz : comp.gzip.Inverts) {mode : PayloadCompressionMode} {data out : Bytes} {enc : String}
    (hc : compressed comp mode data = some (out, enc)) :
    enc ≠ "" ∧
    (data.length ≤ maxPayloadDecompressBytes → decompressPayload comp out enc = .ok data) ∧
    (maxPayloadDecompressBytes < data.length →
      ∃ e, decompressPayload comp out enc = .error e ∧ e.is .errPayloadTooLarge = true) := by
  rcases compressed_eq_some hc with ⟨rfl, hpacked⟩ | ⟨rfl, hpacked⟩
  · rw [decompressPayload_br]
    exact ⟨by decide, Algorithm.decompress_compress hbr hpacked "brotli"⟩
  · rw [decompressPayload_gzip]
    exact ⟨by decide, Algorithm.decompress_compress hgz hpacked "gzip"⟩

end NatsClient
