import Webserv.Request.ChunkedRequest

/-!
# Chunked and plain bodies

The chunk loop reads the data of a chunk as a line and only then compares its length with the
size, and it bounds the encoded body where `parseBody` bounds the body itself.  So a body is
decoded the same way chunked and plain if and only if no chunk holds a `CRLF` and the encoding
is within the bound.
-/

namespace Webserv

open Text HttpParser MessageBodyParser

/-- A chunk of arbitrary bytes. -/
structure DataChunk where
  sizeLine : Str
  data : Str
  sizeLine_ne_nil : sizeLine ≠ []
  sizeLine_hex : ∀ c ∈ sizeLine, isxdigit c = true
  size_eq : ofDigits 16 sizeLine = data.length
  data_ne_nil : data ≠ []

namespace DataChunk

def text (c : DataChunk) : Str := c.sizeLine ++ CRLF ++ c.data ++ CRLF

/-- A chunk whose data is a line. -/
def toChunk (c : DataChunk) (h : ¬ CRLF <:+: c.data) : Chunk where
  sizeLine := c.sizeLine
  data := c.data
  sizeLine_ne_nil := c.sizeLine_ne_nil
  sizeLine_hex := c.sizeLine_hex
  size_eq := c.size_eq
  data_ne_nil := c.data_ne_nil
  data_free := h

end DataChunk

def encodeChunks (chunks : List DataChunk) : Str :=
  chunks.flatMap DataChunk.text ++ lit "0" ++ CRLF ++ CRLF

/-- The body that is divided into these chunks. -/
def joinChunks (chunks : List DataChunk) : Str := chunks.flatMap (·.data)

theorem encodeChunks_nil : encodeChunks [] = List.replicate 1 48 ++ CRLF ++ CRLF := rfl

theorem encodeChunks_cons (c : DataChunk) (chunks : List DataChunk) :
    encodeChunks (c :: chunks) =
      c.sizeLine ++ CRLF ++ (c.data ++ CRLF ++ encodeChunks chunks) := by
  simp only [encodeChunks, DataChunk.text, List.flatMap_cons, List.append_assoc]

theorem length_le_encodeChunks (chunks : List DataChunk) :
    chunks.length < (encodeChunks chunks).length + 1 := by
  induction chunks with
  | nil => simp
  | cons c chunks ih =>
    rw [encodeChunks_cons]
    simp only [List.length_append, List.length_cons]
    have hCRLF : CRLF.length = 2 := rfl
    omega

/-- The line that the loop takes for the data ends at the first `CRLF` of the data. -/
theorem readChunks_cutChunk {buffer rest : Str} {offset : Nat} (c : DataChunk) (fuel : Nat)
    (body : Str) (hdata : CRLF <:+: c.data) (hmax : (c.data.length : Int) ≤ intMax)
    (hle : offset ≤ buffer.length)
    (h : buffer.drop offset = c.sizeLine ++ CRLF ++ (c.data ++ CRLF ++ rest)) :
    readChunks buffer (fuel + 1) offset body =
      .error (.parseError HttpStatus.badRequest "chunk_size error") := by
  obtain ⟨i, hi⟩ := Option.isSome_iff_exists.mp (find_isSome_iff.mpr hdata)
  obtain ⟨line, tail, hsplit, -, hline⟩ := find_CRLF_eq_some_iff.mp hi
  obtain ⟨-, hrest, hle'⟩ :=
    getLine_of_drop hle (isLine_hex c.sizeLine_ne_nil c.sizeLine_hex).2 h
  have htail : buffer.drop (offset + c.sizeLine.length + 2) =
      line ++ CRLF ++ (tail ++ CRLF ++ rest) := by
    rw [hrest, hsplit]
    simp only [List.append_assoc]
  have hget := (getLine_of_drop hle' hline htail).1
  have hlen : line.length < c.data.length := by
    rw [hsplit, List.length_append, List.length_append]
    have hCRLF : CRLF.length = 2 := rfl
    omega
  have hpos := List.length_pos_of_ne_nil c.data_ne_nil
  rw [readChunks_sizeLine fuel body hle c.sizeLine_ne_nil c.sizeLine_hex
    (by rw [c.size_eq]; exact hmax) h, c.size_eq, if_neg (by omega), hget, Except.ok_bind]
  dsimp only
  rw [if_pos (by omega)]

theorem readChunks_encodeChunks {buffer : Str} {chunks : List DataChunk} {fuel offset : Nat}
    {body : Str} (hmax : buffer.length ≤ kMaxBodyLength) (hle : offset ≤ buffer.length)
    (h : buffer.drop offset = encodeChunks chunks) (hfuel : chunks.length < fuel) :
    readChunks buffer fuel offset body =
      if ∀ c ∈ chunks, ¬ CRLF <:+: c.data then .ok (body ++ joinChunks chunks)
      else .error (.parseError HttpStatus.badRequest "chunk_size error") := by
  induction chunks generalizing fuel offset body with
  | nil =>
    obtain ⟨fuel, rfl⟩ := Nat.exists_eq_add_one.mpr (Nat.lt_of_le_of_lt (Nat.zero_le _) hfuel)
    rw [encodeChunks_nil] at h
    have hzero := ofDigits_zeros 1
    rw [readChunks_sizeLine fuel body hle (by simp) (isxdigit_zeros 1) (by rw [hzero]; decide) h,
      if_pos hzero, if_pos (by simp), joinChunks, List.flatMap_nil, List.append_nil]
  | cons c chunks ih =>
    obtain ⟨fuel, rfl⟩ := Nat.exists_eq_add_one.mpr (Nat.lt_of_le_of_lt (Nat.zero_le _) hfuel)
    rw [encodeChunks_cons] at h
    have hint := data_le_intMax hmax h
    by_cases hdata : CRLF <:+: c.data
    · rw [readChunks_cutChunk c fuel body hdata hint hle h, if_neg]
      intro hall
      exact hall c (List.mem_cons_self ..) hdata
    · obtain ⟨next, hle', hnext, hround⟩ :=
        readChunks_chunk (c.toChunk hdata) fuel body hint hle h
      have hfuel' : chunks.length < fuel := by
        rw [List.length_cons] at hfuel
        omega
      rw [hround, ih hle' hnext hfuel']
      simp only [List.forall_mem_cons, hdata, not_false_eq_true, true_and, joinChunks,
        List.flatMap_cons, DataChunk.toChunk, List.append_assoc]

theorem parseChunkedBody_encodeChunks (chunks : List DataChunk) :
    parseChunkedBody (encodeChunks chunks) =
      if (encodeChunks chunks).length > kMaxBodyLength then
        .error (.parseError HttpStatus.payloadTooLarge "body is too long")
      else if ∀ c ∈ chunks, ¬ CRLF <:+: c.data then .ok (joinChunks chunks)
      else .error (.parseError HttpStatus.badRequest "chunk_size error") := by
  rw [parseChunkedBody]
  by_cases hmax : (encodeChunks chunks).length > kMaxBodyLength
  · rw [if_pos hmax, if_pos hmax]
  · rw [if_neg hmax, if_neg hmax, readChunks_encodeChunks (Nat.le_of_not_gt hmax)
      (Nat.zero_le _) rfl (length_le_encodeChunks chunks), List.nil_append]

theorem parseBody_whole {body : Str} (hmax : body.length ≤ kMaxBodyLength) :
    parseBody body body.length = .ok body := by
  rw [parseBody, if_neg (by omega), if_neg (by omega), List.take_length]

/-- A body is decoded alike chunked and plain if and only if no chunk holds a line terminator
and the encoding itself is no longer than a body may be. -/
theorem parseChunkedBody_eq_parseBody_iff (chunks : List DataChunk)
    (hmax : (joinChunks chunks).length ≤ kMaxBodyLength) :
    (parseChunkedBody (encodeChunks chunks) = .ok (joinChunks chunks) ∧
        parseChunkedBody (encodeChunks chunks) =
          parseBody (joinChunks chunks) (joinChunks chunks).length) ↔
      (∀ c ∈ chunks, ¬ CRLF <:+: c.data) ∧ (encodeChunks chunks).length ≤ kMaxBodyLength := by
  rw [parseBody_whole hmax, and_self, parseChunkedBody_encodeChunks]
  by_cases hlen : (encodeChunks chunks).length > kMaxBodyLength
  · rw [if_pos hlen]
    exact iff_of_false (by rintro ⟨⟩) (fun h => by omega)
  · rw [if_neg hlen]
    by_cases hfree : ∀ c ∈ chunks, ¬ CRLF <:+: c.data
    · rw [if_pos hfree]
      exact iff_of_true rfl ⟨hfree, by omega⟩
    · rw [if_neg hfree]
      exact iff_of_false (by rintro ⟨⟩) (fun h => hfree h.1)

set_option maxRecDepth 2000 in
/-- Two chunks, the second of which starts with a line feed. -/
def helloChunks : List DataChunk :=
  [⟨lit "5", lit "hello", by decide, by decide, by decide, by decide⟩,
    ⟨lit "2", lit "\n!", by decide, by decide, by decide, by decide⟩]

theorem parseChunkedBody_eq_parseBody_iff_hello :
    (parseChunkedBody (encodeChunks helloChunks) = .ok (joinChunks helloChunks) ∧
        parseChunkedBody (encodeChunks helloChunks) =
          parseBody (joinChunks helloChunks) (joinChunks helloChunks).length) ↔
      (∀ c ∈ helloChunks, ¬ CRLF <:+: c.data) ∧
        (encodeChunks helloChunks).length ≤ kMaxBodyLength :=
  parseChunkedBody_eq_parseBody_iff helloChunks (by decide)

set_option maxRecDepth 2000 in
/-- One chunk of four bytes, two of which end a line. -/
def lineChunk : DataChunk := ⟨lit "4", lit "a\r\nb", by decide, by decide, by decide, by decide⟩

theorem parseChunkedBody_lineChunk :
    (joinChunks [lineChunk]).length ≤ kMaxBodyLength ∧
      parseBody (joinChunks [lineChunk]) (joinChunks [lineChunk]).length =
        .ok (joinChunks [lineChunk]) ∧
      ¬ (parseChunkedBody (encodeChunks [lineChunk]) = .ok (joinChunks [lineChunk])) := by
  decide

end Webserv
