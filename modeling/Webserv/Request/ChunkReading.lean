import Webserv.Request.ChunkDecoding

/-!
# What the chunk loop reads

Each round of the loop reads a chunk, or ends the loop: at a size of zero, at a size line that
is no number, or at data of another length.  So a buffer that the loop decodes starts with
chunks and a last size line, and one that it calls an internal error starts with chunks and a
line that is no size.
-/

namespace Webserv

open Text HttpParser MessageBodyParser
open HttpRequestParser (errorStatus)

/-- A hexadecimal number that fits an `int`. -/
structure SizeLine (line : Str) : Prop where
  ne_nil : line ≠ []
  hex : ∀ c ∈ line, isxdigit c = true
  le_intMax : (ofDigits 16 line : Int) ≤ intMax

def Chunk.text (c : Chunk) : Str := c.sizeLine ++ CRLF ++ c.data ++ CRLF

theorem Chunk.text_append (c : Chunk) (rest : Str) :
    c.text ++ rest = c.sizeLine ++ CRLF ++ (c.data ++ CRLF ++ rest) := by
  simp only [text, List.append_assoc]

theorem hexStringToInt_of_not_sizeLine {line : Str} (h : ¬ SizeLine line) :
    ∃ e, utility.hexStringToInt line = .error e ∧
      errorStatus e = HttpStatus.internalServerError := by
  by_cases hhex : line ≠ [] ∧ ∀ c ∈ line, isxdigit c = true
  · have hbig : ¬ (ofDigits 16 line : Int) ≤ intMax := fun hle => h ⟨hhex.1, hhex.2, hle⟩
    refine ⟨.outOfRange "stoi", ?_, rfl⟩
    rw [hexStringToInt_hex hhex.1 hhex.2, if_neg hbig]
  · obtain ⟨what, hwhat⟩ := hexStringToInt_of_not_hex hhex
    exact ⟨.invalidArgument what, hwhat, rfl⟩

/-! ## One round -/

/-- How one round of the loop ends. -/
inductive Round (buffer : Str) (fuel offset : Nat) (body : Str) : Prop
  | rejects {e : Exn} (h : readChunks buffer (fuel + 1) offset body = .error e)
      (code : errorStatus e = HttpStatus.badRequest)
  | noSize {line rest : Str} {e : Exn} (split : buffer.drop offset = line ++ CRLF ++ rest)
      (free : ¬ CRLF <:+: line) (noSize : ¬ SizeLine line)
      (h : readChunks buffer (fuel + 1) offset body = .error e)
      (code : errorStatus e = HttpStatus.internalServerError)
  | last {line rest : Str} (split : buffer.drop offset = line ++ CRLF ++ rest)
      (size : SizeLine line) (zero : ofDigits 16 line = 0)
      (h : readChunks buffer (fuel + 1) offset body = .ok body)
  | chunk (c : Chunk) {rest : Str} {next : Nat} (split : buffer.drop offset = c.text ++ rest)
      (hnext : buffer.drop next = rest) (hle : next ≤ buffer.length)
      (h : readChunks buffer (fuel + 1) offset body =
        readChunks buffer fuel next (body ++ c.data))

theorem readChunks_of_getLine_error {buffer : Str} {offset : Nat} {e : Exn}
    (h : getLine buffer offset = .error e) (fuel : Nat) (body : Str) :
    readChunks buffer (fuel + 1) offset body = .error e := by
  rw [readChunks, h, Except.error_bind]

theorem readChunks_of_not_sizeLine {buffer line rest : Str} {offset : Nat}
    (hle : offset ≤ buffer.length) (split : buffer.drop offset = line ++ CRLF ++ rest)
    (free : ¬ CRLF <:+: line) (hline : ¬ SizeLine line) (fuel : Nat) (body : Str) :
    ∃ e, readChunks buffer (fuel + 1) offset body = .error e ∧
      errorStatus e = HttpStatus.internalServerError := by
  obtain ⟨e, he, hcode⟩ := hexStringToInt_of_not_sizeLine hline
  refine ⟨e, ?_, hcode⟩
  rw [readChunks, (getLine_of_drop hle free split).1, Except.ok_bind]
  dsimp only
  rw [he, Except.error_bind]

theorem readChunks_round {buffer : Str} {offset : Nat} (hle : offset ≤ buffer.length)
    (fuel : Nat) (body : Str) : Round buffer fuel offset body := by
  rcases Except.ok_or_error (getLine buffer offset) with ⟨⟨line, next⟩, hget⟩ | ⟨e, hget⟩
  · obtain ⟨-, rfl, hfree, rest, hsplit⟩ := getLine_ok_iff.mp hget
    by_cases hsize : SizeLine line
    · have hround := readChunks_sizeLine fuel body hle hsize.ne_nil hsize.hex hsize.le_intMax hsplit
      by_cases hzero : ofDigits 16 line = 0
      · rw [if_pos hzero] at hround
        exact .last hsplit hsize hzero hround
      · rw [if_neg hzero] at hround
        obtain ⟨-, hrest, hle'⟩ := getLine_of_drop hle hfree hsplit
        rcases Except.ok_or_error (getLine buffer (offset + line.length + 2)) with
          ⟨⟨data, after⟩, hdata⟩ | ⟨e, hdata⟩
        · rw [hdata, Except.ok_bind] at hround
          dsimp only at hround
          by_cases hlen : data.length = ofDigits 16 line
          · rw [if_neg (not_not.mpr hlen)] at hround
            obtain ⟨-, rfl, hdataFree, tail, htail⟩ := getLine_ok_iff.mp hdata
            obtain ⟨-, hafter, hleAfter⟩ := getLine_of_drop hle' hdataFree htail
            have hne : data ≠ [] := by
              intro hnil
              rw [hnil] at hlen
              exact hzero hlen.symm
            let c : Chunk := ⟨line, data, hsize.ne_nil, hsize.hex, hlen.symm, hne, hdataFree⟩
            refine .chunk c ?_ hafter hleAfter hround
            rw [hsplit, c.text_append, ← hrest, htail]
          · rw [if_pos hlen] at hround
            exact .rejects hround rfl
        · rw [hdata, Except.error_bind] at hround
          exact .rejects hround (by rw [getLine_error hdata]; rfl)
    · obtain ⟨e, he, hcode⟩ := readChunks_of_not_sizeLine hle hsplit hfree hsize fuel body
      exact .noSize hsplit hfree hsize he hcode
  · exact .rejects (readChunks_of_getLine_error hget fuel body) (by rw [getLine_error hget]; rfl)

/-! ## All rounds -/

/-- A buffer that is decoded: chunks and a last size line. -/
theorem readChunks_ok {buffer : Str} {fuel offset : Nat} {body result : Str}
    (hle : offset ≤ buffer.length) (h : readChunks buffer fuel offset body = .ok result) :
    ∃ (chunks : List Chunk) (line rest : Str),
      buffer.drop offset = chunks.flatMap Chunk.text ++ (line ++ CRLF ++ rest) ∧
        SizeLine line ∧ ofDigits 16 line = 0 ∧ result = body ++ chunks.flatMap (·.data) := by
  induction fuel generalizing offset body with
  | zero => cases h
  | succ fuel ih =>
    cases readChunks_round hle fuel body with
    | rejects he => rw [he] at h; cases h
    | noSize _ _ _ he => rw [he] at h; cases h
    | @last line rest split size zero hok =>
      rw [hok] at h
      refine ⟨[], line, rest, by simpa using split, size, zero, ?_⟩
      rw [← Except.ok.inj h, List.flatMap_nil, List.append_nil]
    | chunk c split hnext hle' hround =>
      rw [hround] at h
      obtain ⟨chunks, line, rest, hsplit, hsize, hzero, hresult⟩ := ih hle' h
      refine ⟨c :: chunks, line, rest, ?_, hsize, hzero, ?_⟩
      · rw [split, ← hnext, hsplit, List.flatMap_cons, List.append_assoc c.text]
      · rw [hresult, List.flatMap_cons, List.append_assoc]

/-- Behind chunks that it reads the loop goes on. -/
theorem readChunks_chunks {buffer after : Str} {chunks : List Chunk} {fuel offset : Nat}
    {body : Str} (hmax : buffer.length ≤ kMaxBodyLength) (hle : offset ≤ buffer.length)
    (h : buffer.drop offset = chunks.flatMap Chunk.text ++ after) (hfuel : chunks.length ≤ fuel) :
    ∃ next, next ≤ buffer.length ∧ buffer.drop next = after ∧
      readChunks buffer fuel offset body =
        readChunks buffer (fuel - chunks.length) next (body ++ chunks.flatMap (·.data)) := by
  induction chunks generalizing fuel offset body with
  | nil => exact ⟨offset, hle, h, by simp⟩
  | cons c chunks ih =>
    rw [List.length_cons] at hfuel
    obtain ⟨fuel, rfl⟩ := Nat.exists_eq_add_one.mpr (Nat.lt_of_lt_of_le (Nat.succ_pos _) hfuel)
    rw [List.flatMap_cons, List.append_assoc, c.text_append] at h
    have hint := data_le_intMax hmax h
    obtain ⟨next, hle', hnext, hround⟩ := readChunks_chunk c fuel body hint hle h
    obtain ⟨last, hleLast, hlast, hrest⟩ := ih hle' hnext (Nat.le_of_succ_le_succ hfuel)
    refine ⟨last, hleLast, hlast, ?_⟩
    rw [hround, hrest, List.flatMap_cons, List.append_assoc, List.length_cons,
      Nat.add_sub_add_right]

theorem length_le_flatMap_text (chunks : List Chunk) :
    chunks.length ≤ (chunks.flatMap Chunk.text).length := by
  induction chunks with
  | nil => exact Nat.le_refl _
  | cons c chunks ih =>
    rw [List.flatMap_cons, List.length_append, List.length_cons, Chunk.text]
    simp only [List.length_append]
    have hCRLF : CRLF.length = 2 := rfl
    omega

/-- The text reads as chunks up to a line that is no size. -/
def NoSizeBehindChunks (text : Str) : Prop :=
  ∃ (chunks : List Chunk) (line rest : Str),
    text = chunks.flatMap Chunk.text ++ (line ++ CRLF ++ rest) ∧ ¬ CRLF <:+: line ∧ ¬ SizeLine line

theorem readChunks_noSize {buffer : Str} {fuel offset : Nat} {body : Str} {e : Exn}
    (hle : offset ≤ buffer.length) (h : readChunks buffer fuel offset body = .error e)
    (hcode : errorStatus e = HttpStatus.internalServerError) :
    NoSizeBehindChunks (buffer.drop offset) := by
  have hne : HttpStatus.badRequest ≠ HttpStatus.internalServerError := by decide
  induction fuel generalizing offset body with
  | zero =>
    rw [← Except.error.inj h] at hcode
    exact absurd hcode hne
  | succ fuel ih =>
    cases readChunks_round hle fuel body with
    | @rejects e' he hbad =>
      obtain rfl : e' = e := Except.error.inj (he.symm.trans h)
      exact absurd (hbad.symm.trans hcode) hne
    | @noSize line rest _ split free noSize he _ =>
      exact ⟨[], line, rest, by simpa using split, free, noSize⟩
    | last _ _ _ hok => rw [hok] at h; cases h
    | chunk c split hnext hle' hround =>
      rw [hround] at h
      obtain ⟨chunks, line, rest, hsplit, hfree, hsize⟩ := ih hle' h
      refine ⟨c :: chunks, line, rest, ?_, hfree, hsize⟩
      rw [split, ← hnext, hsplit, List.flatMap_cons, List.append_assoc c.text]

/-- Within the length of a body, the loop fails with an internal error if and only if it meets a
line that is no size. -/
theorem parseChunkedBody_internal_iff {buffer : Str} (hmax : buffer.length ≤ kMaxBodyLength) :
    (∃ e, parseChunkedBody buffer = .error e ∧
        errorStatus e = HttpStatus.internalServerError) ↔ NoSizeBehindChunks buffer := by
  rw [parseChunkedBody, if_neg (Nat.not_lt.mpr hmax)]
  constructor
  · rintro ⟨e, he, hcode⟩
    exact readChunks_noSize (Nat.zero_le _) he hcode
  · rintro ⟨chunks, line, rest, hsplit, hfree, hsize⟩
    have hlen : chunks.length ≤ buffer.length := by
      have hle := length_le_flatMap_text chunks
      rw [hsplit, List.length_append]
      omega
    obtain ⟨next, hle, hnext, hrun⟩ :=
      readChunks_chunks hmax (Nat.zero_le _) hsplit (Nat.le_succ_of_le hlen)
    rw [hrun, show buffer.length + 1 - chunks.length = (buffer.length - chunks.length) + 1 by omega]
    exact readChunks_of_not_sizeLine hle hnext hfree hsize _ _

end Webserv
