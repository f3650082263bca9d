import NatsClient.Consumer

namespace NatsClient

theorem maybeDecompressMsg_of_absent (comp : Compressors) (msg : Msg)
    (hkey : headerContentEncoding ∉ msg.header) : maybeDecompressMsg comp msg = .ok msg := by
  have henc : Header.get msg.header headerContentEncoding = "" := by
    simp [Header.get, Finmap.lookup_eq_none.mpr hkey]
  simp [maybeDecompressMsg, henc]

-- The entry that the publisher adds is the only one that the consumer takes away.
theorem erase_insert_of_notMem (h : Header) {key : String} (hkey : key ∉ h)
    (values : List String) : (h.insert key values).erase key = h := by
  apply Finmap.ext_lookup
  intro other
  by_cases hother : other = key
  · subst hother
    rw [Finmap.lookup_erase, Finmap.lookup_eq_none.mpr hkey]
  · rw [Finmap.lookup_erase_ne hother, Finmap.lookup_insert_of_ne _ hother]

theorem maybeDecompressMsg_insert (comp : Compressors) (msg : Msg) {out : Bytes} {enc : String}
    (hkey : headerContentEncoding ∉ msg.header) (henc : enc ≠ "") :
    maybeDecompressMsg comp
        { msg with data := out, header := msg.header.insert headerContentEncoding [enc] } =
      (decompressPayload comp out enc).map fun plain => { msg with data := plain } := by
  simp only [maybeDecompressMsg, Header.get_insert_self, henc, if_false,
    erase_insert_of_notMem msg.header hkey]
  cases decompressPayload comp out enc <;> rfl

-- The message that arrives when a message is compressed on its way out. A nil header
-- map has no entries.
def sentMsg (comp : Compressors) (mode : PayloadCompressionMode) (msg : Msg)
    (h : Option Header) : Msg :=
  let sent := applyPayloadCompression comp mode msg.data h
  { msg with data := sent.1, header := sent.2.getD ∅ }

theorem sentMsg_of_plain {comp : Compressors} {mode : PayloadCompressionMode} {msg : Msg}
    {h : Option Header} (hh : h.getD ∅ = msg.header)
    (hplain : compressed comp mode msg.data = none) : sentMsg comp mode msg h = msg := by
  unfold sentMsg applyPayloadCompression
  rw [hplain]
  split_ifs <;> simp [hh]

theorem sentMsg_of_compressed {comp : Compressors} {mode : PayloadCompressionMode} {msg : Msg}
    {h : Option Header} (hh : h.getD ∅ = msg.header) (hkey : headerContentEncoding ∉ msg.header)
    {out : Bytes} {enc : String} (hc : compressed comp mode msg.data = some (out, enc)) :
    sentMsg comp mode msg h =
      { msg with data := out, header := msg.header.insert headerContentEncoding [enc] } := by
  have hmode : mode ≠ .off := by
    rintro rfl
    cases hc
  have hfree : contentEncodingFromHeader h = "" := by
    cases h with
    | none => rfl
    | some entries =>
      have hkey' : headerContentEncoding ∉ entries := by rwa [← hh] at hkey
      simp [contentEncodingFromHeader, Header.get, Finmap.lookup_eq_none.mpr hkey']
  simp [sentMsg, applyPayloadCompression, hmode, hfree, hc, hh]

-- What becomes of a message that was compressed.
theorem decompress_sentMsg {comp : Compressors} (hbr : comp.brotli.Inverts)
    (hgz : comp.gzip.Inverts) {mode : PayloadCompressionMode} {msg : Msg} {h : Option Header}
    (hh : h.getD ∅ = msg.header) (hkey : headerContentEncoding ∉ msg.header)
    (hc : compressed comp mode msg.data ≠ none) :
    (msg.data.length ≤ maxPayloadDecompressBytes →
      maybeDecompressMsg comp (sentMsg comp mode msg h) = .ok msg) ∧
    (maxPayloadDecompressBytes < msg.data.length →
      ∃ e, maybeDecompressMsg comp (sentMsg comp mode msg h) = .error e ∧
        e.is .errPayloadTooLarge = true) := by
  obtain ⟨⟨out, enc⟩, hpacked⟩ := Option.ne_none_iff_exists'.mp hc
  obtain ⟨henc, hfits, hlarge⟩ := compressed_decompress hbr hgz hpacked
  rw [sentMsg_of_compressed hh hkey hpacked, maybeDecompressMsg_insert comp msg hkey henc]
  constructor
  · intro hlen
    rw [hfits hlen]
    rfl
  · intro hlen
    obtain ⟨e, he, hlimit⟩ := hlarge hlen
    rw [he]
    exact ⟨e, rfl, hlimit⟩

-- A message that names no encoding comes back whole, unless it was compressed and is
-- beyond the limit of the consumer. Then the consumer says so.
theorem compression_round_trip_iff (comp : Compressors) (hbr : comp.brotli.Inverts)
    (hgz : comp.gzip.Inverts) (mode : PayloadCompressionMode) (msg : Msg) (h : Option Header)
    (hh : h.getD ∅ = msg.header) (hkey : headerContentEncoding ∉ msg.header) :
    (maybeDecompressMsg comp (sentMsg comp mode msg h) = .ok msg ↔
      msg.data.length ≤ maxPayloadDecompressBytes ∨ compressed comp mode msg.data = none) ∧
    (maybeDecompressMsg comp (sentMsg comp mode msg h) = .ok msg ∨
      ∃ e, maybeDecompressMsg comp (sentMsg comp mode msg h) = .error e ∧
        e.is .errPayloadTooLarge = true) := by
  by_cases hc : compressed comp mode msg.data = none
  · rw [sentMsg_of_plain hh hc, maybeDecompressMsg_of_absent comp msg hkey]
    simp [hc]
  · obtain ⟨hfits, hlarge⟩ := decompress_sentMsg hbr hgz hh hkey hc
    by_cases hlen : msg.data.length ≤ maxPayloadDecompressBytes
    · exact ⟨⟨fun _ => .inl hlen, fun _ => hfits hlen⟩, .inl (hfits hlen)⟩
    · obtain ⟨e, he, hlimit⟩ := hlarge (by omega)
      refine ⟨⟨fun hok => ?_, fun hcond => ?_⟩, .inr ⟨e, he, hlimit⟩⟩
      · rw [he] at hok
        cases hok
      · exact (hcond.elim hlen hc).elim

-- A compressor that shrinks one payload.
def packer (large : Bytes) : Algorithm where
  compress plain := .ok (if plain = large then [1] else 0 :: plain)
  expand
    | [1] => (large, none)
    | 0 :: plain => (plain, none)
    | _ => ([], some (.foreign "corrupt input" []))

theorem packer_inverts (large : Bytes) : (packer large).Inverts := by
  rintro plain packed ⟨⟩
  split_ifs with h
  · rw [h]
    rfl
  · cases plain <;> rfl

theorem packer_compressed {large : Bytes} (h : minPayloadCompressBytes < large.length) :
    compressed ⟨packer large, packer large⟩ .brotli large = some ([1], encodingBrotli) := by
  have hlen : ¬ large.length ≤ minPayloadCompressBytes := by omega
  have hone : 1 < large.length := by
    unfold minPayloadCompressBytes at h
    omega
  simp [compressed, compressPayloadAlgo, shrink, packer, hlen, hone, encodingBrotli, encodingGzip]

-- A message with a payload of some length, all of one byte.
def uniform (length : Nat) : Msg := ⟨"orders.new", "", ∅, List.replicate length 7, true⟩

theorem compression_round_trip_iff_uniform :
    let comp : Compressors := ⟨packer (uniform 32769).data, packer (uniform 32769).data⟩
    compressed comp .brotli (uniform 32769).data = some ([1], encodingBrotli) ∧
      maybeDecompressMsg comp (sentMsg comp .brotli (uniform 32769) none) =
        .ok (uniform 32769) := by
  have hlen : (uniform 32769).data.length = 32769 := List.length_replicate
  refine ⟨packer_compressed (by rw [hlen]; decide), ?_⟩
  refine (compression_round_trip_iff _ (packer_inverts _) (packer_inverts _) .brotli
    (uniform 32769) none rfl (Finmap.notMem_empty)).1.mpr (.inl ?_)
  rw [hlen]
  decide

-- One byte more than the consumer takes.
theorem compression_beyond_limit :
    let msg := uniform (maxPayloadDecompressBytes + 1)
    let comp : Compressors := ⟨packer msg.data, packer msg.data⟩
    comp.brotli.Inverts ∧ comp.gzip.Inverts ∧ headerContentEncoding ∉ msg.header ∧
      maybeDecompressMsg comp (sentMsg comp .brotli msg none) ≠ .ok msg := by
  intro msg comp
  have hlen : msg.data.length = maxPayloadDecompressBytes + 1 := List.length_replicate
  have hc : compressed comp .brotli msg.data ≠ none := by
    rw [packer_compressed (by rw [hlen]; decide)]
    exact Option.some_ne_none _
  have hkey : headerContentEncoding ∉ msg.header := Finmap.notMem_empty
  refine ⟨packer_inverts _, packer_inverts _, hkey, ?_⟩
  have hh : (none : Option Header).getD ∅ = msg.header := rfl
  obtain ⟨e, he, -⟩ := (decompress_sentMsg (packer_inverts _) (packer_inverts _) hh hkey hc).2
    (by omega)
  rw [he]
  simp

end NatsClient
