import Webserv.Request.ChunkReading

/-!
# The grammar of a chunked body

The loop of `parseChunkedBody` has no bound of its own: every round moves the offset behind two
lines, so it ends.  It returns exactly for a buffer of chunks and a line of zeros, and the buffer
can be divided in one way only.
-/

namespace Webserv

open Text HttpParser MessageBodyParser

/-! ## The end of the loop -/

/-- The rounds of `while (42)`, up to the one that ends it. -/
inductive ChunkLoop (buffer : Str) : Nat → Str → Except Exn Str → Prop
  | noSizeLine {offset : Nat} {body : Str} {e : Exn} (line : getLine buffer offset = .error e) :
    ChunkLoop buffer offset body (.error e)
  | noSize {offset next : Nat} {body sizeLine : Str} {e : Exn}
    (line : getLine buffer offset = .ok (sizeLine, next))
    (size : utility.hexStringToInt sizeLine = .error e) : ChunkLoop buffer offset body (.error e)
  | last {offset next : Nat} {body sizeLine : Str}
    (line : getLine buffer offset = .ok (sizeLine, next))
    (size : utility.hexStringToInt sizeLine = .ok 0) : ChunkLoop buffer offset body (.ok body)
  | noData {offset next : Nat} {body sizeLine : Str} {n : Int} {e : Exn}
    (line : getLine buffer offset = .ok (sizeLine, next))
    (size : utility.hexStringToInt sizeLine = .ok n) (hn : n ≠ 0)
    (data : getLine buffer next = .error e) : ChunkLoop buffer offset body (.error e)
  | otherLength {offset next after : Nat} {body sizeLine data : Str} {n : Int}
    (line : getLine buffer offset = .ok (sizeLine, next))
    (size : utility.hexStringToInt sizeLine = .ok n) (hn : n ≠ 0)
    (hdata : getLine buffer next = .ok (data, after)) (length : data.length ≠ sizeOfInt n) :
    ChunkLoop buffer offset body
      (.error (.parseError HttpStatus.badRequest "chunk_size error"))
  | chunk {offset next after : Nat} {body sizeLine data : Str} {n : Int} {result : Except Exn Str}
    (line : getLine buffer offset = .ok (sizeLine, next))
    (size : utility.hexStringToInt sizeLine = .ok n) (hn : n ≠ 0)
    (hdata : getLine buffer next = .ok (data, after)) (length : data.length = sizeOfInt n)
    (rounds : ChunkLoop buffer after (body ++ data) result) : ChunkLoop buffer offset body result

theorem getLine_next_le {buffer line : Str} {offset next : Nat}
    (h : getLine buffer offset = .ok (line, next)) : offset + 2 ≤ next ∧ next ≤ buffer.length := by
  obtain ⟨hle, rfl, hfree, rest, hrest⟩ := getLine_ok_iff.mp h
  obtain ⟨-, -, hnext⟩ := getLine_of_drop hle hfree hrest
  exact ⟨by omega, hnext⟩

/-- The fuel outlasts the loop. -/
theorem chunkLoop_readChunks {buffer : Str} {fuel offset : Nat} (hle : offset ≤ buffer.length)
    (hfuel : buffer.length < offset + fuel) (body : Str) :
    ChunkLoop buffer offset body (readChunks buffer fuel offset body) := by
  induction fuel generalizing offset body with
  | zero => omega
  | succ fuel ih =>
    rw [readChunks]
    rcases Except.ok_or_error (getLine buffer offset) with ⟨⟨sizeLine, next⟩, hline⟩ | ⟨e, hline⟩
    · rw [hline, Except.ok_bind]
      dsimp only
      rcases Except.ok_or_error (utility.hexStringToInt sizeLine) with ⟨n, hsize⟩ | ⟨e, hsize⟩
      · rw [hsize, Except.ok_bind]
        by_cases hn : n = 0
        · subst hn
          exact .last hline hsize
        · rw [if_neg hn]
          rcases Except.ok_or_error (getLine buffer next) with ⟨⟨data, after⟩, hdata⟩ | ⟨e, hdata⟩
          · rw [hdata, Except.ok_bind]
            dsimp only
            obtain ⟨hnext, -⟩ := getLine_next_le hline
            obtain ⟨hafter, hleAfter⟩ := getLine_next_le hdata
            by_cases hlength : data.length = sizeOfInt n
            · rw [if_neg (not_not.mpr hlength)]
              exact .chunk hline hsize hn hdata hlength (ih hleAfter (by omega) _)
            · rw [if_pos hlength]
              exact .otherLength hline hsize hn hdata hlength
          · rw [hdata, Except.error_bind]
            exact .noData hline hsize hn hdata
      · rw [hsize, Except.error_bind]
        exact .noSize hline hsize
    · rw [hline, Except.error_bind]
      exact .noSizeLine hline

/-! ## The last size line -/

theorem digitVal_eq_zero {c : Byte} (h : isxdigit c = true) (hzero : (digitVal c).getD 0 = 0) :
    c = 48 := by
  have hdigits : ∀ d : Byte, isxdigit d = true → hexDigit d = 0 → d = 48 := by decide +kernel
  rw [digitVal_hex c h, Option.getD_some] at hzero
  exact hdigits c h hzero

/-- A hexadecimal number of value 0 consists of zeros. -/
theorem ofDigits_eq_zero_iff {s : Str} (h : ∀ c ∈ s, isxdigit c = true) :
    ofDigits 16 s = 0 ↔ s = List.replicate s.length 48 := by
  constructor
  · intro hzero
    refine List.eq_replicate_of_mem ?_
    induction s using List.reverseRecOn with
    | nil => simp
    | append_singleton s c ih =>
      rw [ofDigits_concat] at hzero
      rw [List.forall_mem_append, List.forall_mem_singleton] at h ⊢
      exact ⟨ih h.1 (by omega), digitVal_eq_zero h.2 (by omega)⟩
  · intro heq
    rw [heq]
    exact ofDigits_zeros _

/-! ## The division of the buffer -/

/-- Chunks, a line of zeros, and whatever follows it. -/
def ChunkedText (buffer : Str) (chunks : List Chunk) (zeros : Nat) (rest : Str) : Prop :=
  buffer = chunks.flatMap Chunk.text ++ (List.replicate (zeros + 1) 48 ++ CRLF ++ rest)

theorem Chunk.eq_of_text {c d : Chunk} {rest rest' : Str}
    (h : c.text ++ rest = d.text ++ rest') : c = d ∧ rest = rest' := by
  simp only [text_append, List.append_assoc] at h
  obtain ⟨hsize, h⟩ := line_unique CR_ne_LF (isLine_hex c.sizeLine_ne_nil c.sizeLine_hex).2
    (isLine_hex d.sizeLine_ne_nil d.sizeLine_hex).2 h
  obtain ⟨hdata, hrest⟩ := line_unique CR_ne_LF c.data_free d.data_free h
  cases c
  cases d
  obtain rfl := hsize
  obtain rfl := hdata
  exact ⟨rfl, hrest⟩

/-- No chunk starts like the last size line. -/
theorem Chunk.text_ne_zeros (c : Chunk) {zeros : Nat} {rest rest' : Str} :
    c.text ++ rest ≠ List.replicate (zeros + 1) 48 ++ CRLF ++ rest' := by
  intro h
  simp only [text_append, List.append_assoc] at h
  obtain ⟨hsize, -⟩ := line_unique CR_ne_LF (isLine_hex c.sizeLine_ne_nil c.sizeLine_hex).2
    (isLine_hex (by simp) (isxdigit_zeros (zeros + 1))).2 h
  have hzero := c.size_eq
  rw [hsize, ofDigits_zeros] at hzero
  exact c.data_ne_nil (List.length_eq_zero_iff.mp hzero.symm)

theorem ChunkedText.unique {buffer rest rest' : Str} {chunks chunks' : List Chunk}
    {zeros zeros' : Nat} (h : ChunkedText buffer chunks zeros rest)
    (h' : ChunkedText buffer chunks' zeros' rest') :
    chunks = chunks' ∧ zeros = zeros' ∧ rest = rest' := by
  unfold ChunkedText at h h'
  rw [h] at h'
  clear h
  induction chunks generalizing chunks' with
  | nil =>
    cases chunks' with
    | nil =>
      simp only [List.flatMap_nil, List.nil_append, List.append_assoc] at h'
      obtain ⟨hzeros, hrest⟩ := line_unique CR_ne_LF
        (isLine_hex (by simp) (isxdigit_zeros (zeros + 1))).2
        (isLine_hex (by simp) (isxdigit_zeros (zeros' + 1))).2 h'
      have hlen := congrArg List.length hzeros
      simp only [List.length_replicate] at hlen
      exact ⟨rfl, by omega, hrest⟩
    | cons c chunks' =>
      rw [List.flatMap_nil, List.nil_append, List.flatMap_cons, List.append_assoc c.text] at h'
      exact absurd h'.symm c.text_ne_zeros
  | cons c chunks ih =>
    cases chunks' with
    | nil =>
      rw [List.flatMap_nil, List.nil_append, List.flatMap_cons, List.append_assoc c.text] at h'
      exact absurd h' c.text_ne_zeros
    | cons d chunks' =>
      rw [List.flatMap_cons, List.flatMap_cons, List.append_assoc c.text,
        List.append_assoc d.text] at h'
      obtain ⟨rfl, htail⟩ := Chunk.eq_of_text h'
      obtain ⟨rfl, hzeros, hrest⟩ := ih htail
      exact ⟨rfl, hzeros, hrest⟩

/-! ## The buffers that are decoded -/

theorem SizeLine.zeros {line : Str} (h : SizeLine line) (hzero : ofDigits 16 line = 0) :
    ∃ zeros, line = List.replicate (zeros + 1) 48 := by
  have hpos := List.length_pos_of_ne_nil h.ne_nil
  refine ⟨line.length - 1, ?_⟩
  rw [Nat.sub_add_cancel hpos]
  exact (ofDigits_eq_zero_iff h.hex).mp hzero

theorem ChunkedText.parseChunkedBody_ok {buffer rest : Str} {chunks : List Chunk} {zeros : Nat}
    (h : ChunkedText buffer chunks zeros rest) (hmax : buffer.length ≤ kMaxBodyLength) :
    parseChunkedBody buffer = .ok (chunks.flatMap (·.data)) := by
  have hlen : chunks.length ≤ buffer.length := by
    have hle := length_le_flatMap_text chunks
    have hlength := congrArg List.length (show buffer = _ from h)
    rw [List.length_append] at hlength
    omega
  have hdrop : buffer.drop 0 =
      chunks.flatMap Chunk.text ++ (List.replicate (zeros + 1) 48 ++ CRLF ++ rest) := h
  obtain ⟨next, hle, hnext, hrun⟩ : ∃ next, next ≤ buffer.length ∧
      buffer.drop next = List.replicate (zeros + 1) 48 ++ CRLF ++ rest ∧
      readChunks buffer (buffer.length + 1) 0 [] =
        readChunks buffer (buffer.length + 1 - chunks.length) next
          ([] ++ chunks.flatMap (·.data)) :=
    readChunks_chunks hmax (Nat.zero_le _) hdrop (Nat.le_succ_of_le hlen)
  have hzero := ofDigits_zeros (zeros + 1)
  rw [parseChunkedBody, if_neg (Nat.not_lt.mpr hmax), hrun,
    show buffer.length + 1 - chunks.length = (buffer.length - chunks.length) + 1 by omega,
    readChunks_sizeLine _ _ hle (by simp) (isxdigit_zeros _) (by rw [hzero]; decide) hnext,
    if_pos hzero, List.nil_append]

/-- The loop ends on every buffer, it returns a body exactly for the chunks of one, and the chunks
are determined. -/
theorem parseChunkedBody_iff (buffer : Str) :
    (buffer.length ≤ kMaxBodyLength → ChunkLoop buffer 0 [] (parseChunkedBody buffer)) ∧
      (∀ body, parseChunkedBody buffer = .ok body ↔ buffer.length ≤ kMaxBodyLength ∧
        ∃ chunks zeros rest, ChunkedText buffer chunks zeros rest ∧
          body = chunks.flatMap (·.data)) ∧
      ∀ chunks zeros rest chunks' zeros' rest', ChunkedText buffer chunks zeros rest →
        ChunkedText buffer chunks' zeros' rest' →
          chunks = chunks' ∧ zeros = zeros' ∧ rest = rest' := by
  refine ⟨fun hmax => ?_, fun body => ⟨fun h => ?_, ?_⟩, fun _ _ _ _ _ _ h h' => h.unique h'⟩
  · rw [parseChunkedBody, if_neg (Nat.not_lt.mpr hmax)]
    exact chunkLoop_readChunks (Nat.zero_le _) (by omega) []
  · have hmax : buffer.length ≤ kMaxBodyLength := by
      by_contra hlong
      rw [parseChunkedBody, if_pos (by omega)] at h
      cases h
    rw [parseChunkedBody, if_neg (Nat.not_lt.mpr hmax)] at h
    obtain ⟨chunks, line, rest, hsplit, hsize, hzero, hbody⟩ := readChunks_ok (Nat.zero_le _) h
    obtain ⟨zeros, rfl⟩ := hsize.zeros hzero
    exact ⟨hmax, chunks, zeros, rest, hsplit, hbody⟩
  · rintro ⟨hmax, chunks, zeros, rest, htext, rfl⟩
    exact htext.parseChunkedBody_ok hmax

end Webserv
