import Webserv.Request.Framing
import Webserv.Request.HexNumber

/-!
# Chunked requests

A chunked body is a block of lines, size lines and data lines in turn, that a line of zeros and
an empty line end.  So `0 CRLF CRLF` stands at its end only, although the parser looks for it by
a rule of its own, and a chunked request is finished by its last segment wherever it is cut
behind its header.
-/

namespace Webserv

open Text HttpParser HttpRequestParser

/-! ## The text of a chunked body -/

/-- One chunk: a hexadecimal line that gives the size of the data, and the data. -/
structure Chunk where
  sizeLine : Str
  data : Str
  sizeLine_ne_nil : sizeLine ≠ []
  sizeLine_hex : ∀ c ∈ sizeLine, isxdigit c = true
  size_eq : ofDigits 16 sizeLine = data.length
  data_ne_nil : data ≠ []
  data_free : ¬ CRLF <:+: data

/-- The chunks, a line of `zeros + 1` zeros, and an empty line. -/
def chunkedText (chunks : List Chunk) (zeros : Nat) : Str :=
  chunks.flatMap (fun c => c.sizeLine ++ CRLF ++ c.data ++ CRLF) ++
    List.replicate (zeros + 1) 48 ++ CRLF ++ CRLF

/-- The lines of a chunked body. -/
def chunkedLines (chunks : List Chunk) (zeros : Nat) : List Str :=
  chunks.flatMap (fun c => [c.sizeLine, c.data]) ++ [List.replicate (zeros + 1) 48]

theorem isLine_hex {s : Str} (hne : s ≠ []) (hs : ∀ c ∈ s, isxdigit c = true) :
    IsLine CR LF s := by
  refine ⟨hne, fun h => ?_⟩
  exact absurd (hs CR (h.subset (List.mem_cons_self ..))) (by decide)

theorem isxdigit_zeros (n : Nat) : ∀ c ∈ List.replicate n (48 : Byte), isxdigit c = true := by
  intro c hc
  rw [List.eq_of_mem_replicate hc]
  decide

theorem chunkedLines_isLine (chunks : List Chunk) (zeros : Nat) :
    ∀ l ∈ chunkedLines chunks zeros, IsLine CR LF l := by
  intro l hl
  rcases List.mem_append.mp hl with hl | hl
  · obtain ⟨c, -, hl⟩ := List.mem_flatMap.mp hl
    simp only [List.mem_cons, List.not_mem_nil, or_false] at hl
    rcases hl with rfl | rfl
    · exact isLine_hex c.sizeLine_ne_nil c.sizeLine_hex
    · exact ⟨c.data_ne_nil, c.data_free⟩
  · rw [List.mem_singleton.mp hl]
    exact isLine_hex (by simp) (isxdigit_zeros _)

theorem chunkedText_nil (zeros : Nat) :
    chunkedText [] zeros = List.replicate (zeros + 1) 48 ++ CRLF ++ CRLF := rfl

theorem chunkedText_cons (c : Chunk) (chunks : List Chunk) (zeros : Nat) :
    chunkedText (c :: chunks) zeros =
      c.sizeLine ++ CRLF ++ (c.data ++ CRLF ++ chunkedText chunks zeros) := by
  simp only [chunkedText, List.flatMap_cons, List.append_assoc]

theorem chunkedText_eq_unlines (chunks : List Chunk) (zeros : Nat) :
    chunkedText chunks zeros = unlines CRLF (chunkedLines chunks zeros) ++ CRLF := by
  induction chunks with
  | nil => simp [chunkedText_nil, chunkedLines, unlines]
  | cons c chunks ih =>
    rw [chunkedText_cons, ih]
    simp only [chunkedLines, List.flatMap_cons, List.cons_append, List.nil_append,
      unlines_cons_append, List.append_assoc]

/-- A chunked body ends with its first empty line. -/
theorem chunkedText_headerBlock (chunks : List Chunk) (zeros : Nat) :
    HeaderBlock (chunkedText chunks zeros) := by
  rw [chunkedText_eq_unlines]
  exact headerBlock_unlines (by simp [chunkedLines]) (chunkedLines_isLine chunks zeros)

theorem chunkedEnd_eq : chunkedEnd = 48 :: (CRLF ++ CRLF) := by decide

theorem chunkedEnd_infix_chunkedText (chunks : List Chunk) (zeros : Nat) :
    chunkedEnd <:+: chunkedText chunks zeros := by
  rw [chunkedEnd_eq]
  refine ⟨chunks.flatMap (fun c => c.sizeLine ++ CRLF ++ c.data ++ CRLF) ++
    List.replicate zeros 48, [], ?_⟩
  rw [chunkedText, List.replicate_succ']
  simp

/-- A part of a chunked body that lacks its last byte does not show its end. -/
theorem not_chunkedEnd_infix {chunks : List Chunk} {zeros : Nat} {part more : Str}
    (h : part ++ more = chunkedText chunks zeros) (hmore : more ≠ []) :
    ¬ chunkedEnd <:+: part := by
  intro hend
  have hinside : CRLF ++ CRLF <:+: chunkedEnd := by decide
  have hpart : part <+: (chunkedText chunks zeros).dropLast := by
    rw [← h, List.dropLast_append_of_ne_nil hmore]
    exact List.prefix_append _ _
  exact (chunkedText_headerBlock chunks zeros).not_infix_dropLast
    ((hinside.trans hend).trans hpart.isInfix)

/-! ## Reading the chunks -/

/-- One round of the loop behind a size line. -/
theorem readChunks_sizeLine {buffer sizeLine rest : Str} {offset : Nat} (fuel : Nat) (body : Str)
    (hle : offset ≤ buffer.length) (hne : sizeLine ≠ [])
    (hhex : ∀ c ∈ sizeLine, isxdigit c = true) (hmax : (ofDigits 16 sizeLine : Int) ≤ intMax)
    (h : buffer.drop offset = sizeLine ++ CRLF ++ rest) :
    MessageBodyParser.readChunks buffer (fuel + 1) offset body =
      if ofDigits 16 sizeLine = 0 then .ok body
      else getLine buffer (offset + sizeLine.length + 2) >>= fun p =>
        if p.1.length ≠ ofDigits 16 sizeLine then
          .error (.parseError HttpStatus.badRequest "chunk_size error")
        else MessageBodyParser.readChunks buffer fuel p.2 (body ++ p.1) := by
  have hline := (getLine_of_drop hle (isLine_hex hne hhex).2 h).1
  have hconv := sizeOfInt_natCast hmax
  rw [MessageBodyParser.readChunks, hline, Except.ok_bind]
  dsimp only
  rw [hexStringToInt_ok hne hhex hmax, Except.ok_bind, hconv]
  by_cases hzero : ofDigits 16 sizeLine = 0
  · rw [if_pos hzero, if_pos (by rw [hzero]; rfl)]
    rfl
  · rw [if_neg hzero, if_neg (by omega)]
    refine bind_congr fun p => ?_
    by_cases hsize : p.1.length = ofDigits 16 sizeLine
    · rw [if_neg (not_not.mpr hsize), if_neg (not_not.mpr hsize)]
    · rw [if_pos hsize, if_pos hsize]
      rfl

/-- One round of the loop on a whole chunk. -/
theorem readChunks_chunk {buffer rest : Str} {offset : Nat} (c : Chunk) (fuel : Nat) (body : Str)
    (hmax : (c.data.length : Int) ≤ intMax) (hle : offset ≤ buffer.length)
    (h : buffer.drop offset = c.sizeLine ++ CRLF ++ (c.data ++ CRLF ++ rest)) :
    ∃ next, next ≤ buffer.length ∧ buffer.drop next = rest ∧
      MessageBodyParser.readChunks buffer (fuel + 1) offset body =
        MessageBodyParser.readChunks buffer fuel next (body ++ c.data) := by
  obtain ⟨-, hrest, hle'⟩ :=
    getLine_of_drop hle (isLine_hex c.sizeLine_ne_nil c.sizeLine_hex).2 h
  obtain ⟨hdata, hnext, hle''⟩ := getLine_of_drop hle' c.data_free hrest
  have hpos := List.length_pos_of_ne_nil c.data_ne_nil
  refine ⟨_, hle'', hnext, ?_⟩
  rw [readChunks_sizeLine fuel body hle c.sizeLine_ne_nil c.sizeLine_hex
    (by rw [c.size_eq]; exact hmax) h, c.size_eq, if_neg (by omega), hdata, Except.ok_bind]
  dsimp only
  rw [if_neg (by simp)]

/-- The size of data that stand in the buffer fits an `int`. -/
theorem data_le_intMax {buffer line data rest : Str} {offset : Nat}
    (hmax : buffer.length ≤ kMaxBodyLength)
    (h : buffer.drop offset = line ++ CRLF ++ (data ++ CRLF ++ rest)) :
    (data.length : Int) ≤ intMax := by
  have hdrop := congrArg List.length h
  simp only [List.length_drop, List.length_append] at hdrop
  exact le_intMax (by omega)

theorem readChunks_chunkedText {buffer : Str} {chunks : List Chunk} {zeros fuel offset : Nat}
    {body : Str} (hmax : buffer.length ≤ kMaxBodyLength) (hle : offset ≤ buffer.length)
    (h : buffer.drop offset = chunkedText chunks zeros) (hfuel : chunks.length < fuel) :
    MessageBodyParser.readChunks buffer fuel offset body =
      .ok (body ++ chunks.flatMap (·.data)) := by
  induction chunks generalizing fuel offset body with
  | nil =>
    obtain ⟨fuel, rfl⟩ := Nat.exists_eq_add_one.mpr (Nat.lt_of_le_of_lt (Nat.zero_le _) hfuel)
    rw [chunkedText_nil] at h
    have hzero := ofDigits_zeros (zeros + 1)
    rw [readChunks_sizeLine fuel body hle (by simp) (isxdigit_zeros _)
      (by rw [hzero]; decide) h, if_pos hzero, List.flatMap_nil, List.append_nil]
  | cons c chunks ih =>
    obtain ⟨fuel, rfl⟩ := Nat.exists_eq_add_one.mpr (Nat.lt_of_le_of_lt (Nat.zero_le _) hfuel)
    rw [chunkedText_cons] at h
    have hint := data_le_intMax hmax h
    obtain ⟨next, hle', hnext, hround⟩ := readChunks_chunk c fuel body hint hle h
    have hfuel' : chunks.length < fuel := by
      rw [List.length_cons] at hfuel
      omega
    rw [hround, ih hle' hnext hfuel', List.flatMap_cons, List.append_assoc]

theorem length_le_chunkedText (chunks : List Chunk) (zeros : Nat) :
    chunks.length < (chunkedText chunks zeros).length + 1 := by
  induction chunks with
  | nil => simp
  | cons c chunks ih =>
    rw [chunkedText_cons]
    simp only [List.length_append, List.length_cons]
    have hCRLF : CRLF.length = 2 := rfl
    omega

theorem parseChunkedBody_chunkedText {chunks : List Chunk} {zeros : Nat}
    (hmax : (chunkedText chunks zeros).length ≤ kMaxBodyLength) :
    MessageBodyParser.parseChunkedBody (chunkedText chunks zeros) =
      .ok (chunks.flatMap (·.data)) := by
  rw [MessageBodyParser.parseChunkedBody, if_neg (by omega)]
  exact readChunks_chunkedText hmax (Nat.zero_le _) rfl (length_le_chunkedText chunks zeros)

/-! ## A chunked request in segments -/

/-- A chunked request as a client sends it. -/
structure ChunkedRequest where
  headerText : Str
  header : RequestHeader
  chunks : List Chunk
  zeros : Nat
  block : HeaderBlock headerText
  accepted : RequestHeaderParser.parse headerText = .ok header
  chunked : header.headerMap[lit "transfer-encoding"]? = some (lit "chunked")
  body_le : (chunkedText chunks zeros).length ≤ kMaxBodyLength

namespace ChunkedRequest

def text (r : ChunkedRequest) : Str := r.headerText ++ chunkedText r.chunks r.zeros

theorem splitHeader_part (r : ChunkedRequest) (part : Str) :
    splitHeader (r.headerText ++ part) = some (r.headerText, part) :=
  splitHeader_eq_some_iff.mpr ⟨r.block, rfl⟩

theorem isChunked (r : ChunkedRequest) : r.header.transferEncodingIsChunked = true :=
  decide_eq_true r.chunked

theorem verdict_part (r : ChunkedRequest) {part more : Str}
    (h : part ++ more = chunkedText r.chunks r.zeros) (hmore : more ≠ []) :
    Verdict.ofText (r.headerText ++ part) = .waiting r.header := by
  refine Verdict.ofText_eq_waiting_iff.mpr
    ⟨_, _, r.splitHeader_part part, r.accepted, r.isChunked, ?_, not_chunkedEnd_infix h hmore⟩
  have hheader := (parse_header_ok r.accepted).1
  have hbody := r.body_le
  rw [← h, List.length_append] at hbody
  omega

theorem verdict_text (r : ChunkedRequest) :
    Verdict.ofText r.text = .accepted r.header (r.chunks.flatMap (·.data)) := by
  have hheader := (parse_header_ok r.accepted).1
  have hbody := r.body_le
  exact Verdict.ofText_eq_accepted_iff.mpr ⟨_, _, r.splitHeader_part _, r.accepted,
    Or.inl ⟨r.isChunked, by omega, chunkedEnd_infix_chunkedText r.chunks r.zeros,
      parseChunkedBody_chunkedText r.body_le⟩⟩

/-- The segments of a request, the first of which contains its header. -/
structure Segments (r : ChunkedRequest) (segments : List Str) : Prop where
  ne_nil : ∀ s ∈ segments, s ≠ []
  flatten_eq : segments.flatten = r.text
  first : ∃ first others, segments = first :: others ∧ r.headerText <:+: first

/-- The first segment starts with the header. -/
theorem Segments.headerText_prefix {r : ChunkedRequest} {first : Str} {others : List Str}
    (h : r.Segments (first :: others)) : r.headerText <+: first := by
  obtain ⟨first', others', heq, hinside⟩ := h.first
  obtain ⟨rfl, rfl⟩ := List.cons.inj heq
  have hfirst : first <+: r.text := by
    rw [← h.flatten_eq, List.flatten_cons]
    exact List.prefix_append _ _
  exact List.prefix_of_prefix_length_le (List.prefix_append _ _) hfirst hinside.length_le

/-- Some of the segments hold the header and a part of the body. -/
theorem Segments.flatten_done {r : ChunkedRequest} {done more : List Str}
    (h : r.Segments (done ++ more)) (hdone : done ≠ []) :
    ∃ part, done.flatten = r.headerText ++ part ∧
      part ++ more.flatten = chunkedText r.chunks r.zeros := by
  cases done with
  | nil => exact absurd rfl hdone
  | cons first others =>
    obtain ⟨t, ht⟩ := h.headerText_prefix
    refine ⟨t ++ others.flatten, by rw [List.flatten_cons, ← ht, List.append_assoc], ?_⟩
    have htext := h.flatten_eq
    rw [text, List.cons_append, List.flatten_cons, List.flatten_append, ← ht, List.append_assoc,
      List.append_cancel_left_eq] at htext
    rw [List.append_assoc, htext]

theorem Segments.verdict_done {r : ChunkedRequest} {done more : List Str}
    (h : r.Segments (done ++ more)) (hdone : done ≠ []) (hmore : more ≠ []) :
    Verdict.ofText done.flatten = .waiting r.header := by
  obtain ⟨part, hpart, hbody⟩ := h.flatten_done hdone
  rw [hpart]
  refine r.verdict_part hbody ?_
  intro hnil
  obtain ⟨s, hs⟩ := List.exists_mem_of_ne_nil more hmore
  exact h.ne_nil s (List.mem_append_right _ hs) (List.flatten_eq_nil_iff.mp hnil s hs)

/-- After some of the segments the connection has their text and the server of the header. -/
theorem Segments.receiveAll_done {r : ChunkedRequest} {done more : List Str}
    (h : r.Segments (done ++ more)) (hdone : done ≠ []) (conf : ServerConfig) (port : Nat)
    (config : WebservConfig) :
    (Session.start conf).receiveAll (done.map (⟨·, port, config⟩)) =
      ⟨done.flatten, chosenServer config port conf (some r.header)⟩ := by
  induction done using List.reverseRecOn generalizing more with
  | nil => exact absurd rfl hdone
  | append_singleton done d ih =>
    rw [List.append_assoc] at h
    rw [List.map_append, List.map_singleton, Session.receiveAll_concat]
    by_cases hnil : done = []
    · subst hnil
      obtain ⟨t, rfl⟩ := Segments.headerText_prefix h
      have hheader : (Verdict.ofText (r.headerText ++ t)).header = some r.header :=
        Verdict.header_ofText_eq_some_iff.mpr ⟨_, _, r.splitHeader_part t, r.accepted⟩
      rw [List.map_nil, Session.receiveAll_nil,
        Session.receive_of_not_waiting (Session.start_not_isWaiting conf), hheader]
      simp [Session.start]
    · have hwaiting := h.verdict_done hnil (by simp)
      rw [ih h hnil, Session.receive_of_waiting (by rw [Session.verdict, hwaiting]; rfl)]
      simp

theorem segments_whole (r : ChunkedRequest) : r.Segments [r.text] where
  ne_nil := by
    intro s hs
    rw [List.mem_singleton.mp hs, text, chunkedText]
    simp [CRLF]
  flatten_eq := by simp
  first := ⟨_, _, rfl, (List.prefix_append _ _).isInfix⟩

end ChunkedRequest

/-- A chunked request is finished by its last segment, wherever it is cut. -/
theorem HttpRequestParser.parseAll_chunkedRequest (conf : ServerConfig) (history : List ParseCall)
    (hidle : (parseAll (fresh conf) history).parseStatus ≠ .chunkedBody) (port : Nat)
    (config : WebservConfig) (hport : port ∈ config.ports) (r : ChunkedRequest)
    (segments : List Str) (hsegments : r.Segments segments) :
    let feed := fun part : List Str =>
      parseAll (parseAll (fresh conf) history) (part.map (⟨·, port, config⟩))
    (∀ done more, segments = done ++ more → done ≠ [] → more ≠ [] →
        (feed done).finished = false ∧ (feed done).errorOccured = false) ∧
      (feed segments).finished = true ∧
      (feed segments).buildRequest.body = r.chunks.flatMap (·.data) ∧
      feed segments = feed [r.text] := by
  intro feed
  have hconfigured : ∀ part : List Str,
      ∀ c ∈ part.map (fun s => (⟨s, port, config⟩ : ParseCall)), c.Configured := by
    intro part c hc
    obtain ⟨s, -, rfl⟩ := List.mem_map.mp hc
    exact hport
  obtain ⟨conf', hfeed⟩ := Session.parseAll_idle hidle
  have hdone : ∀ {segs done more : List Str}, r.Segments segs → segs = done ++ more → done ≠ [] →
      feed done = report (chosenServer config port conf' (some r.header)) done.flatten
        (Verdict.ofText done.flatten) := by
    intro segs done more hsegs hsplit hne
    subst hsplit
    rw [show feed done = _ from hfeed _ (by simpa using hne) (hconfigured done),
      hsegs.receiveAll_done hne conf' port config]
    rfl
  have hall : ∀ {segs : List Str}, r.Segments segs →
      feed segs = report (chosenServer config port conf' (some r.header)) r.text
        (.accepted r.header (r.chunks.flatMap (·.data))) := by
    intro segs hsegs
    obtain ⟨first, others, hcons, -⟩ := hsegs.first
    rw [hdone hsegs (List.append_nil segs).symm (by rw [hcons]; simp), hsegs.flatten_eq,
      r.verdict_text]
  refine ⟨?_, ?_, ?_, (hall hsegments).trans (hall r.segments_whole).symm⟩
  · intro done more hsplit hne hmore
    rw [hdone hsegments hsplit hne]
    subst hsplit
    rw [hsegments.verdict_done hne hmore]
    exact ⟨rfl, rfl⟩
  · rw [hall hsegments]
    rfl
  · rw [hall hsegments]
    rfl

set_option maxRecDepth 2000 in
/-- A request with a chunk whose data ends with the letter `CR`. -/
def postChunked : ChunkedRequest where
  headerText := lit "POST / HTTP/1.1\r\nHost: a\r\nTransfer-Encoding: chunked\r\n\r\n"
  header :=
    ⟨⟨lit "POST", lit "/", lit "HTTP/1.1"⟩,
      .ofList [(lit "host", lit "a"), (lit "transfer-encoding", lit "chunked")], lit "a"⟩
  chunks := [⟨lit "02", lit "0\r", by decide, by decide, by decide, by decide, by decide⟩]
  zeros := 1
  block := by decide
  accepted := by decide
  chunked := by decide
  body_le := by decide

theorem parseAll_chunkedRequest_three_segments :
    let segments := [postChunked.headerText ++ lit "0", lit "2\r\n0\r\r\n00\r\n", lit "\r\n"]
    (HttpRequestParser.parseAll
      (parseAll (fresh default) [⟨lit "no request", 80, oneServer 80⟩])
      (segments.map (⟨·, 80, oneServer 80⟩))).buildRequest.body = lit "0\r" := by
  intro segments
  have hsegments : postChunked.Segments segments := {
    ne_nil := by decide
    flatten_eq := by decide
    first := ⟨_, _, rfl, by decide⟩ }
  exact (HttpRequestParser.parseAll_chunkedRequest default [⟨lit "no request", 80, oneServer 80⟩]
    (by decide) 80 (oneServer 80) (by decide) postChunked segments hsegments).2.2.1

end Webserv
