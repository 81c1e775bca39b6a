import Webserv.Request.ErrorCodes
import Webserv.Request.HeaderLines
import Webserv.Request.Session

/-!
# The invariant of the parser object

What holds of the fields after every call, over all sequences of calls: the status is never left
inside a step of `parse`, and each status fixes the other fields.
-/

namespace Webserv

open Text HttpParser HttpRequestParser

/-! ## Bodies -/

theorem length_parseBody {buffer body : Str} {n : Nat}
    (h : MessageBodyParser.parseBody buffer n = .ok body) :
    body.length = n ∧ n ≤ kMaxBodyLength := by
  unfold MessageBodyParser.parseBody at h
  split at h
  · cases h
  · next hmax =>
    split at h
    · cases h
    · next hlen =>
      rw [← Except.ok.inj h]
      exact ⟨List.length_take_of_le (by omega), by omega⟩

theorem length_readChunks {buffer body result : Str} {fuel offset : Nat}
    (h : MessageBodyParser.readChunks buffer fuel offset body = .ok result)
    (hbody : body.length ≤ offset) (hoffset : offset ≤ buffer.length) :
    result.length ≤ buffer.length := by
  induction fuel generalizing offset body with
  | zero => cases h
  | succ fuel ih =>
    obtain ⟨⟨size, next⟩, hsize, h⟩ := Except.bind_eq_ok_iff.mp h
    obtain ⟨n, -, h⟩ := Except.bind_eq_ok_iff.mp h
    dsimp only at h
    split at h
    · rw [← Except.ok.inj h]
      omega
    · obtain ⟨⟨data, last⟩, hdata, h⟩ := Except.bind_eq_ok_iff.mp h
      obtain ⟨-, hnext, -, -⟩ := getLine_ok_iff.mp hsize
      obtain ⟨hle, hlast, -, rest, hrest⟩ := getLine_ok_iff.mp hdata
      have hlen := congrArg List.length hrest
      simp only [List.length_drop, List.length_append, CRLF, List.length_cons, List.length_nil]
        at hlen
      dsimp only at h
      split at h
      · cases h
      · refine ih h ?_ ?_
        · rw [List.length_append]
          omega
        · omega

theorem length_parseChunkedBody {buffer body : Str}
    (h : MessageBodyParser.parseChunkedBody buffer = .ok body) :
    body.length ≤ kMaxBodyLength := by
  unfold MessageBodyParser.parseChunkedBody at h
  split at h
  · cases h
  · next hmax =>
    have hlen := length_readChunks h (Nat.le_refl 0) (Nat.zero_le _)
    omega

/-! ## Accepted headers -/

theorem accepted_ne_empty {block : Str} {header : RequestHeader}
    (h : RequestHeaderParser.parse block = .ok header) : header ≠ .empty := by
  obtain ⟨-, line, -, -, -, -, hline, -⟩ := parse_header_ok h
  obtain ⟨-, -, -, hmethod⟩ := requestLine_ok hline
  intro hempty
  rw [hempty] at hmethod
  rcases hmethod with h | h | h <;> cases h

/-! ## The segments of the current request -/

/-- The request to which the last of the calls belongs starts with the call `c`: after the calls
before it nothing was waiting, and from `c` on the parser waited until the last one. -/
structure StartedBy (servConfig : ServerConfig) (before : List ParseCall) (c : ParseCall)
    (others : List ParseCall) : Prop where
  starts : (parseAll (fresh servConfig) before).parseStatus ≠ .chunkedBody
  waits : ∀ i < others.length,
    (parseAll (fresh servConfig) (before ++ c :: others.take i)).parseStatus = .chunkedBody

/-- What holds of the parser object after a call, in terms of the segments of the current
request. -/
structure Settled (p : HttpRequestParser) (first : Str) (others : List Str) : Prop where
  status : p.parseStatus = .chunkedBody ∨ p.parseStatus = .done ∨ p.parseStatus = .error
  ofDone : p.parseStatus = .done →
    (fetchUnparsedHeader first >>= RequestHeaderParser.parse) = .ok p.parsedHeader ∧
      p.parsedBody.length ≤ kMaxBodyLength ∧
      (p.parsedHeader.transferEncodingIsChunked = false →
        p.parsedHeader.contentLength = .ok p.parsedBody.length)
  ofChunkedBody : p.parseStatus = .chunkedBody →
    (fetchUnparsedHeader first >>= RequestHeaderParser.parse) = .ok p.parsedHeader ∧
      p.parsedHeader.headerMap[lit "transfer-encoding"]? = some (lit "chunked") ∧
      p.parsedBody = [] ∧ p.chunkedRequest = first ++ others.flatten ∧
      CRLF ++ CRLF <:+: p.chunkedRequest ∧
      p.chunkedRequest.length ≤ kMaxHeaderLength + kMaxBodyLength
  ofError : p.parseStatus = .error →
    p.parsedBody = [] ∧ p.errorCode ∈ errorCodes ∧
      (p.parsedHeader = .empty ↔
        ¬ ∃ header, (fetchUnparsedHeader first >>= RequestHeaderParser.parse) = .ok header)

namespace Session

theorem started_receiveAll {s : Session} (hs : s.verdict.isWaiting = false) {calls : List ParseCall}
    (hne : calls ≠ []) :
    ∃ before c others, calls = before ++ c :: others ∧
      (s.receiveAll before).verdict.isWaiting = false ∧
      (∀ i < others.length,
        (s.receiveAll (before ++ c :: others.take i)).verdict.isWaiting = true) ∧
      (s.receiveAll calls).text = c.unparsedStr ++ (others.map (·.unparsedStr)).flatten := by
  induction calls using List.reverseRecOn with
  | nil => exact absurd rfl hne
  | append_singleton calls d ih =>
    rw [receiveAll_concat]
    cases hwaiting : (s.receiveAll calls).verdict.isWaiting with
    | false =>
      refine ⟨calls, d, [], rfl, hwaiting, by simp, ?_⟩
      rw [receive_of_not_waiting hwaiting]
      simp
    | true =>
      have hcalls : calls ≠ [] := by
        intro hnil
        rw [hnil, receiveAll_nil, hs] at hwaiting
        cases hwaiting
      obtain ⟨before, c, others, rfl, hbefore, hwaits, htext⟩ := ih hcalls
      refine ⟨before, c, others ++ [d], by simp, hbefore, ?_, ?_⟩
      · intro i hi
        rw [List.length_append, List.length_singleton] at hi
        rcases Nat.lt_or_ge i others.length with hlt | hge
        · rw [List.take_append_of_le_length (Nat.le_of_lt hlt)]
          exact hwaits i hlt
        · rw [show i = others.length by omega, List.take_left' rfl]
          exact hwaiting
      · rw [receive_of_waiting hwaiting]
        simp [htext]

end Session

/-- The object that shows the verdict on a text is settled, if the text starts with a segment
that has the same header. -/
theorem settled_report (servConfig : ServerConfig) {first : Str} {others : List Str}
    (hheader : (Verdict.ofText (first ++ others.flatten)).header = (Verdict.ofText first).header) :
    Settled
      (report servConfig (first ++ others.flatten) (Verdict.ofText (first ++ others.flatten)))
      first others := by
  cases hverdict : Verdict.ofText (first ++ others.flatten) with
  | waiting header =>
    rw [hverdict] at hheader
    obtain ⟨block, rest, hsplit, -, hchunked, hlen, -⟩ := Verdict.ofText_eq_waiting_iff.mp hverdict
    have htext := (splitHeader_eq_some_iff.mp hsplit).2
    refine ⟨Or.inl rfl, (by rintro ⟨⟩), fun _ => ?_, (by rintro ⟨⟩)⟩
    refine ⟨fetchUnparsedHeader_bind_parse.mpr hheader.symm, of_decide_eq_true hchunked, rfl, ?_⟩
    have hrequest : (report servConfig (first ++ others.flatten) (.waiting header)).chunkedRequest =
        first ++ others.flatten := by
      simp [report, Verdict.header, hchunked]
    rw [hrequest]
    refine ⟨rfl, splitHeader_infix hsplit, ?_⟩
    rw [htext, List.length_append]
    exact hlen
  | accepted header body =>
    rw [hverdict] at hheader
    refine ⟨Or.inr (Or.inl rfl), fun _ => ?_, (by rintro ⟨⟩), (by rintro ⟨⟩)⟩
    refine ⟨fetchUnparsedHeader_bind_parse.mpr hheader.symm, ?_⟩
    obtain ⟨block, rest, -, -, hbody⟩ := Verdict.ofText_eq_accepted_iff.mp hverdict
    rcases hbody with ⟨hchunked, -, -, hbody⟩ | ⟨-, hbody⟩
    · refine ⟨length_parseChunkedBody hbody, fun h => ?_⟩
      exact absurd (hchunked.symm.trans h) (by decide)
    · obtain ⟨n, hn, hbody⟩ := Except.bind_eq_ok_iff.mp hbody
      obtain ⟨hlen, hmax⟩ := length_parseBody hbody
      have hbody_le : body.length ≤ kMaxBodyLength := by rw [hlen]; exact hmax
      exact ⟨hbody_le, fun _ => by rw [← hlen] at hn; exact hn⟩
  | rejected header code =>
    rw [hverdict] at hheader
    refine ⟨Or.inr (Or.inr rfl), (by rintro ⟨⟩), (by rintro ⟨⟩), fun _ => ?_⟩
    refine ⟨rfl, code_mem_errorCodes hverdict, ?_⟩
    simp only [fetchUnparsedHeader_bind_parse, ← hheader]
    cases header with
    | none => exact iff_of_true rfl (by rintro ⟨_, ⟨⟩⟩)
    | some header =>
      obtain ⟨block, rest, -, hparse⟩ := Verdict.header_ofText_eq_some_iff.mp hheader.symm
      exact iff_of_false (accepted_ne_empty hparse) (fun h => h ⟨header, rfl⟩)

/-- After every call the parser object is settled. -/
theorem HttpRequestParser.parseAll_settled (servConfig : ServerConfig) (calls : List ParseCall)
    (hne : calls ≠ []) (hcalls : ∀ c ∈ calls, c.Configured) :
    ∃ before c others, calls = before ++ c :: others ∧ StartedBy servConfig before c others ∧
      Settled (parseAll (fresh servConfig) calls) c.unparsedStr
        (others.map (·.unparsedStr)) := by
  obtain ⟨before, c, others, rfl, hbefore, hwaits, htext⟩ :=
    Session.started_receiveAll (Session.start_not_isWaiting servConfig) hne
  have hstatus : ∀ done, done <+: before ++ c :: others →
      ((parseAll (fresh servConfig) done).parseStatus = .chunkedBody ↔
        ((Session.start servConfig).receiveAll done).verdict.isWaiting = true) :=
    fun done hdone =>
      Session.parseAll_parseStatus_iff (fun d hd => hcalls d (hdone.subset hd)) servConfig
  have hwaitsAt : ∀ i < others.length,
      (parseAll (fresh servConfig) (before ++ c :: others.take i)).parseStatus = .chunkedBody := by
    intro i hi
    refine (hstatus _ ?_).mpr (hwaits i hi)
    rw [List.prefix_append_right_inj, List.cons_prefix_cons]
    exact ⟨rfl, List.take_prefix i others⟩
  refine ⟨before, c, others, rfl, ⟨?_, hwaitsAt⟩, ?_⟩
  · intro h
    rw [hstatus before (List.prefix_append _ _), hbefore] at h
    cases h
  · have hheader : (Verdict.ofText
        (c.unparsedStr ++ (others.map (·.unparsedStr)).flatten)).header =
          (Verdict.ofText c.unparsedStr).header := by
      cases others with
      | nil => rw [List.map_nil, List.flatten_nil, List.append_nil]
      | cons d rest =>
        -- the first segment waits, so it has the header already
        have hfirst := hwaits 0 (by simp)
        rw [List.take_zero, Session.receiveAll_concat, Session.receive_of_not_waiting hbefore]
          at hfirst
        cases hverdict : Verdict.ofText c.unparsedStr with
        | waiting header =>
          refine Verdict.header_ofText_append ?_ _
          rw [hverdict]
          rfl
        | accepted header body => rw [Session.verdict, hverdict] at hfirst; cases hfirst
        | rejected header code => rw [Session.verdict, hverdict] at hfirst; cases hfirst
    rw [Session.parseAll_fresh hne hcalls, Session.shown, Session.verdict, htext]
    exact settled_report _ hheader

theorem parseAll_settled_three_calls :
    let calls : List ParseCall :=
      [⟨lit "GET / HTTP/1.1\r\nHost: a\r\n\r\n", 80, oneServer 80⟩,
        ⟨lit "GET / HTTP/1.1\r\nHost: a\r\nTransfer-Encoding: chunked\r\n\r\n1\r\n", 80,
          oneServer 80⟩,
        ⟨lit "a\r\n", 80, oneServer 80⟩]
    ∃ before c others, calls = before ++ c :: others ∧ StartedBy default before c others ∧
      Settled (parseAll (fresh default) calls) c.unparsedStr (others.map (·.unparsedStr)) :=
  HttpRequestParser.parseAll_settled default _ (by simp) (by decide)

end Webserv
