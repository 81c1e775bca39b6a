import Webserv.Request.ErrorCodes
import Webserv.Request.HeaderLines
import Webserv.Request.Session
import Webserv.Server.ClientSocket

/-!
# Where one request ends and the next begins

A client sends requests one after the other, and the buffers that arrive are cut anywhere.  The
parser reads a request without chunked coding from a single buffer and drops what the buffer
holds behind it, so it finds the requests of the stream if and only if every buffer is exactly
one of them.
-/

namespace Webserv

open Text HttpParser HttpRequestParser

/-- A request without chunked coding, as a client sends it. -/
structure PlainRequest where
  headerText : Str
  header : RequestHeader
  body : Str
  block : HeaderBlock headerText
  accepted : RequestHeaderParser.parse headerText = .ok header
  notChunked : header.transferEncodingIsChunked = false
  length : header.contentLength = .ok body.length
  body_le : body.length ≤ kMaxBodyLength

namespace PlainRequest

def text (r : PlainRequest) : Str := r.headerText ++ r.body

theorem verdict_text (r : PlainRequest) : Verdict.ofText r.text = .accepted r.header r.body := by
  have hsplit : splitHeader r.text = some (r.headerText, r.body) :=
    splitHeader_eq_some_iff.mpr ⟨r.block, rfl⟩
  refine Verdict.ofText_eq_accepted_iff.mpr ⟨_, _, hsplit, r.accepted, Or.inr ⟨r.notChunked, ?_⟩⟩
  have hmax := r.body_le
  rw [r.length, Except.ok_bind, MessageBodyParser.parseBody, if_neg (by omega), if_neg (by omega),
    List.take_length]

end PlainRequest

/-- The stream of a client that sends these requests. -/
def requestStream (reqs : List PlainRequest) : Str := (reqs.map PlainRequest.text).flatten

namespace ClientSocket

/-- The requests that `generateRequest` builds, buffer by buffer. -/
def takenRequests (port : Nat) (config : WebservConfig) :
    HttpRequestParser → List Str → List HttpRequest
  | _, [] => []
  | p, buffer :: rest =>
    let p := parse p buffer port config
    if p.finished || p.errorOccured then p.buildRequest :: takenRequests port config p rest
    else takenRequests port config p rest

end ClientSocket

/-! ## Verdicts, buffer by buffer -/

/-- The verdicts other than `waiting` while a text grows by these buffers. -/
def verdicts : Str → List Str → List Verdict
  | _, [] => []
  | text, buffer :: rest =>
    let next := if (Verdict.ofText text).isWaiting then text ++ buffer else buffer
    if (Verdict.ofText next).isWaiting then verdicts next rest
    else Verdict.ofText next :: verdicts next rest

theorem verdicts_of_ended {text : Str} (h : (Verdict.ofText text).isWaiting = false) (buffer : Str)
    (rest : List Str) :
    verdicts text (buffer :: rest) =
      if (Verdict.ofText buffer).isWaiting then verdicts buffer rest
      else Verdict.ofText buffer :: verdicts buffer rest := by
  simp [verdicts, h]

theorem ended_of_mem_verdicts {v : Verdict} {text : Str} {buffers : List Str}
    (h : v ∈ verdicts text buffers) : v.isWaiting = false ∧ ∃ t, Verdict.ofText t = v := by
  induction buffers generalizing text with
  | nil => cases h
  | cons buffer rest ih =>
    rw [verdicts] at h
    generalize (if (Verdict.ofText text).isWaiting then text ++ buffer else buffer) = next at h
    split at h
    · exact ih h
    · next hwaiting =>
      rcases List.mem_cons.mp h with rfl | h
      · exact ⟨Bool.eq_false_iff.mpr hwaiting, _, rfl⟩
      · exact ih h

namespace Verdict

/-- What a request built from the verdict shows. -/
def answer (v : Verdict) : RequestHeader × Str × Str :=
  match v with
  | waiting header => (header, [], HttpStatus.ok)
  | accepted header body => (header, body, HttpStatus.ok)
  | rejected header code => (header.getD .empty, [], code)

theorem buildRequest_report (servConfig : ServerConfig) (text : Str) (v : Verdict) :
    ((report servConfig text v).buildRequest.header, (report servConfig text v).buildRequest.body,
      (report servConfig text v).buildRequest.responseStatusCode) = v.answer := by
  cases v <;> rfl

/-- Only an accepted request is answered with 200. -/
theorem answer_ofText_eq {text body : Str} {header : RequestHeader}
    (hwaiting : (ofText text).isWaiting = false)
    (h : (ofText text).answer = (header, body, HttpStatus.ok)) :
    ofText text = .accepted header body := by
  cases hv : ofText text with
  | waiting header' => rw [hv] at hwaiting; cases hwaiting
  | accepted header' body' =>
    rw [hv] at h
    simp only [answer, Prod.mk.injEq, and_true] at h
    rw [h.1, h.2]
  | rejected header' code =>
    rw [hv] at h
    have hcode : code = HttpStatus.ok := (Prod.mk.inj (Prod.mk.inj h).2).2
    exact absurd (hcode ▸ code_mem_errorCodes hv) (by decide)

end Verdict

/-- The requests taken are the verdicts, when the parser object follows the connection `s`. -/
theorem takenRequests_eq {port : Nat} {config : WebservConfig} (hport : port ∈ config.ports)
    {p : HttpRequestParser} {s : Session}
    (hp : ∀ buffer, parse p buffer port config = (s.receive ⟨buffer, port, config⟩).shown)
    (buffers : List Str) :
    (ClientSocket.takenRequests port config p buffers).map
        (fun q => (q.header, q.body, q.responseStatusCode)) =
      (verdicts s.text buffers).map Verdict.answer := by
  induction buffers generalizing p s with
  | nil => rfl
  | cons buffer rest ih =>
    have htext : (s.receive ⟨buffer, port, config⟩).text =
        if (Verdict.ofText s.text).isWaiting then s.text ++ buffer else buffer := by
      unfold Session.receive Session.verdict
      split <;> rfl
    have hrest := ih (p := (s.receive ⟨buffer, port, config⟩).shown)
      fun next => Session.parseCall_shown (c := ⟨next, port, config⟩) hport
    rw [ClientSocket.takenRequests, verdicts, hp buffer, ← htext]
    cases hwaiting : (s.receive ⟨buffer, port, config⟩).verdict with
    | waiting header =>
      rw [if_neg (by simp [Session.shown, hwaiting, report, statusOf, finished, errorOccured]),
        if_pos (by rw [show Verdict.ofText _ = _ from hwaiting]; rfl)]
      exact hrest
    | accepted header body =>
      rw [if_pos (by simp [Session.shown, hwaiting, report, statusOf, finished]),
        if_neg (by rw [show Verdict.ofText _ = _ from hwaiting]; simp [Verdict.isWaiting]),
        List.map_cons, List.map_cons, hrest]
      exact congrArg (· :: _) (Verdict.buildRequest_report ..)
    | rejected header code =>
      rw [if_pos (by simp [Session.shown, hwaiting, report, statusOf, errorOccured]),
        if_neg (by rw [show Verdict.ofText _ = _ from hwaiting]; simp [Verdict.isWaiting]),
        List.map_cons, List.map_cons, hrest]
      exact congrArg (· :: _) (Verdict.buildRequest_report ..)

theorem eq_accepted_of_answers {reqs : List PlainRequest} {vs : List Verdict}
    (hvs : ∀ v ∈ vs, v.isWaiting = false ∧ ∃ t, Verdict.ofText t = v)
    (h : vs.map Verdict.answer = reqs.map fun r => (r.header, r.body, HttpStatus.ok)) :
    vs = reqs.map fun r => .accepted r.header r.body := by
  induction reqs generalizing vs with
  | nil => exact List.map_eq_nil_iff.mp h
  | cons r reqs ih =>
    cases vs with
    | nil => cases h
    | cons v vs =>
      rw [List.forall_mem_cons] at hvs
      obtain ⟨⟨hwaiting, t, rfl⟩, hvs⟩ := hvs
      rw [List.map_cons, List.map_cons] at h
      obtain ⟨hhead, htail⟩ := List.cons.inj h
      rw [Verdict.answer_ofText_eq hwaiting hhead, ih hvs htail, List.map_cons]

/-- A text that waits leads to a verdict on a chunked request, if to any. -/
theorem verdicts_head_of_waiting {text : Str} {header : RequestHeader}
    (h : Verdict.ofText text = .waiting header) {buffers : List Str} {v : Verdict}
    {more : List Verdict} (hv : verdicts text buffers = v :: more) : v.header = some header := by
  induction buffers generalizing text with
  | nil => cases hv
  | cons buffer rest ih =>
    have hheader : (Verdict.ofText (text ++ buffer)).header = some header :=
      Verdict.header_ofText_append (by rw [h]; rfl) buffer
    rw [verdicts, h] at hv
    simp only [Verdict.isWaiting, if_true] at hv
    split at hv
    · next hwaiting =>
      cases hnext : Verdict.ofText (text ++ buffer) with
      | waiting header' =>
        rw [hnext] at hheader
        exact ih (hnext.trans (congrArg Verdict.waiting (Option.some.inj hheader))) hv
      | accepted _ _ => rw [hnext] at hwaiting; cases hwaiting
      | rejected _ _ => rw [hnext] at hwaiting; cases hwaiting
    · rw [← (List.cons.inj hv).1]
      exact hheader

/-! ## Where a request can stand in the stream -/

theorem HeaderBlock.not_infix_dropLast {block : Str} (h : HeaderBlock block) :
    ¬ CRLF ++ CRLF <:+: block.dropLast := by
  obtain ⟨a, rfl, hfirst⟩ := headerBlock_iff.mp h
  rw [List.dropLast_append_of_ne_nil (by decide)]
  exact hfirst

/-- A header block that ends early enough in `block ++ body` ends where `block` does. -/
theorem headerBlock_end {block block' before body rest : Str} (hblock : HeaderBlock block)
    (hblock' : HeaderBlock block') (h : before ++ (block' ++ rest) = block ++ body)
    (hlen : body.length ≤ rest.length) : block = before ++ block' ∧ rest = body := by
  rw [← List.append_assoc] at h
  rcases List.append_eq_append_iff.mp h with ⟨c, hc, hrest⟩ | ⟨c, hc, hrest⟩
  · cases hnil : c with
    | nil =>
      rw [hnil] at hc hrest
      exact ⟨by rw [hc, List.append_nil], hrest⟩
    | cons d t =>
      exfalso
      apply hblock.not_infix_dropLast
      rw [hc, List.dropLast_append_of_ne_nil (by rw [hnil]; simp)]
      obtain ⟨a, ha, -⟩ := headerBlock_iff.mp hblock'
      exact ⟨before ++ a, c.dropLast, by rw [ha]; simp only [List.append_assoc]⟩
  · have hlenc := congrArg List.length hrest
    rw [List.length_append] at hlenc
    obtain rfl : c = [] := List.eq_nil_of_length_eq_zero (by omega)
    rw [List.append_nil] at hc
    exact ⟨hc.symm, hrest.symm⟩

/-- What is read as a request is its header block, its body, and what was dropped. -/
theorem accepted_plain_split {text body : Str} {header : RequestHeader}
    (h : Verdict.ofText text = .accepted header body)
    (hchunked : header.transferEncodingIsChunked = false)
    (hlength : header.contentLength = .ok body.length) :
    ∃ block rest, HeaderBlock block ∧ RequestHeaderParser.parse block = .ok header ∧
      text = block ++ rest ∧ body.length ≤ rest.length := by
  obtain ⟨block, rest, hsplit, hparse, hbody⟩ := Verdict.ofText_eq_accepted_iff.mp h
  obtain ⟨hblock, htext⟩ := splitHeader_eq_some_iff.mp hsplit
  refine ⟨block, rest, hblock, hparse, htext, ?_⟩
  rcases hbody with ⟨hc, -⟩ | ⟨-, hbody⟩
  · rw [hchunked] at hc
    cases hc
  · rw [hlength, Except.ok_bind, MessageBodyParser.parseBody] at hbody
    split at hbody
    · cases hbody
    · split at hbody
      · cases hbody
      · omega

/-- A buffer read as the request `r`, somewhere in the bytes of `r` and of what follows: nothing
of the request is behind it. -/
theorem suffix_of_accepted {r : PlainRequest} {buffer more following : Str}
    (h : Verdict.ofText buffer = .accepted r.header r.body)
    (hsuffix : buffer ++ more <:+ r.text ++ following) : more <:+ following := by
  obtain ⟨block, rest, hblock, -, rfl, hlen⟩ := accepted_plain_split h r.notChunked r.length
  have hmore : more <:+ r.text ++ following := (List.suffix_append _ more).trans hsuffix
  rcases Nat.le_total more.length following.length with hle | hle
  · exact List.suffix_of_suffix_length_le hmore (List.suffix_append _ _) hle
  · obtain ⟨v, rfl⟩ := List.suffix_of_suffix_length_le (List.suffix_append _ _) hmore hle
    obtain ⟨before, hbefore⟩ := hsuffix
    have hbytes : before ++ (block ++ (rest ++ v)) = r.headerText ++ r.body := by
      have hall : (before ++ (block ++ (rest ++ v))) ++ following = r.text ++ following := by
        rw [← hbefore]
        simp only [List.append_assoc]
      exact List.append_cancel_right hall
    have hbody := (headerBlock_end r.block hblock hbytes (by rw [List.length_append]; omega)).2
    have hlenv := congrArg List.length hbody
    rw [List.length_append] at hlenv
    obtain rfl : v = [] := List.eq_nil_of_length_eq_zero (by omega)
    exact List.suffix_refl _

/-- A buffer read as the request `r` and inside its bytes is the whole request. -/
theorem eq_text_of_accepted {r : PlainRequest} {buffer : Str}
    (h : Verdict.ofText buffer = .accepted r.header r.body) (hsuffix : buffer <:+ r.text) :
    buffer = r.text := by
  obtain ⟨block, rest, hblock, hparse, rfl, hlen⟩ := accepted_plain_split h r.notChunked r.length
  obtain ⟨before, hbefore⟩ := hsuffix
  obtain ⟨hbytes, hbody⟩ := headerBlock_end r.block hblock hbefore hlen
  have heq : block = r.headerText :=
    headerBlock_suffix r.block hblock ⟨before, hbytes.symm⟩ r.accepted hparse
  rw [heq, hbody]
  rfl

/-! ## The requests of a stream -/

/-- Buffers at the end of the stream that are read as all of its requests are these requests.
The induction is on the requests that are left. -/
theorem buffers_eq_of_verdicts {reqs : List PlainRequest} {buffers : List Str} {text : Str}
    (hne : ∀ b ∈ buffers, b ≠ []) (hstream : buffers.flatten <:+ requestStream reqs)
    (hwaiting : (Verdict.ofText text).isWaiting = false)
    (h : verdicts text buffers = reqs.map fun r => .accepted r.header r.body) :
    buffers = reqs.map PlainRequest.text := by
  induction reqs generalizing buffers text with
  | nil =>
    cases buffers with
    | nil => rfl
    | cons b rest =>
      have hnil : (b :: rest).flatten = [] := List.suffix_nil.mp hstream
      rw [List.flatten_cons] at hnil
      exact absurd (List.append_eq_nil_iff.mp hnil).1 (hne b (List.mem_cons_self ..))
  | cons r reqs ih =>
    cases buffers with
    | nil => cases h
    | cons b rest =>
      rw [verdicts_of_ended hwaiting, List.map_cons] at h
      have hb : Verdict.ofText b = .accepted r.header r.body ∧
          verdicts b rest = reqs.map fun r => .accepted r.header r.body := by
        cases hv : Verdict.ofText b with
        | waiting header =>
          rw [hv] at h
          have hheader : some r.header = some header := verdicts_head_of_waiting hv h
          obtain ⟨-, -, -, -, hchunked, -, -⟩ := Verdict.ofText_eq_waiting_iff.mp hv
          rw [← Option.some.inj hheader, r.notChunked] at hchunked
          cases hchunked
        | accepted header body =>
          rw [hv] at h
          exact List.cons.inj h
        | rejected header code =>
          rw [hv] at h
          exact List.cons.inj h
      rw [List.flatten_cons, requestStream, List.map_cons, List.flatten_cons] at hstream
      have hrest := ih (fun c hc => hne c (List.mem_cons_of_mem _ hc))
        (suffix_of_accepted hb.1 hstream) (by rw [hb.1]; rfl) hb.2
      rw [hrest, List.suffix_append_inj_of_length_eq rfl] at hstream
      rw [List.map_cons, eq_text_of_accepted hb.1 hstream.1, hrest]

theorem verdicts_requests (reqs : List PlainRequest) {text : Str}
    (hwaiting : (Verdict.ofText text).isWaiting = false) :
    verdicts text (reqs.map PlainRequest.text) =
      reqs.map fun r => .accepted r.header r.body := by
  induction reqs generalizing text with
  | nil => rfl
  | cons r reqs ih =>
    rw [List.map_cons, verdicts_of_ended hwaiting, List.map_cons, r.verdict_text,
      if_neg (by simp [Verdict.isWaiting]), ih (by rw [r.verdict_text]; rfl)]

/-- The requests of a stream are found if and only if each buffer is exactly one of them. -/
theorem takenRequests_eq_iff (servConfig : ServerConfig) (port : Nat) (config : WebservConfig)
    (hport : port ∈ config.ports) (reqs : List PlainRequest) (buffers : List Str)
    (hbuffers : ∀ b ∈ buffers, b ≠ [] ∧ b.length ≤ ClientSocket.kRecvBufferSize)
    (hstream : buffers.flatten = requestStream reqs) :
    (ClientSocket.takenRequests port config (fresh servConfig) buffers).map
          (fun q => (q.header, q.body, q.responseStatusCode)) =
        reqs.map (fun r => (r.header, r.body, HttpStatus.ok)) ↔
      buffers = reqs.map PlainRequest.text := by
  rw [takenRequests_eq hport (s := Session.start servConfig)
    fun buffer => Session.parseCall_fresh (c := ⟨buffer, port, config⟩) hport servConfig]
  constructor
  · intro h
    refine buffers_eq_of_verdicts (fun b hb => (hbuffers b hb).1)
      (by rw [hstream]) (Session.start_not_isWaiting servConfig) ?_
    exact eq_accepted_of_answers (fun v hv => ended_of_mem_verdicts hv) h
  · intro h
    rw [h, verdicts_requests reqs (Session.start_not_isWaiting servConfig), List.map_map]
    rfl

/-- A request with a body of two bytes. -/
def postHi : PlainRequest where
  headerText := lit "POST / HTTP/1.1\r\nHost: a\r\nContent-Length: 2\r\n\r\n"
  header :=
    ⟨⟨lit "POST", lit "/", lit "HTTP/1.1"⟩,
      .ofList [(lit "host", lit "a"), (lit "content-length", lit "2")], lit "a"⟩
  body := lit "hi"
  block := by decide
  accepted := by decide
  notChunked := by decide
  length := by decide
  body_le := by decide

theorem takenRequests_eq_iff_two_requests :
    (ClientSocket.takenRequests 80 (oneServer 80) (fresh default) [postHi.text, postHi.text]).map
          (fun q => (q.header, q.body, q.responseStatusCode)) =
        [postHi, postHi].map (fun r => (r.header, r.body, HttpStatus.ok)) ↔
      [postHi.text, postHi.text] = [postHi, postHi].map PlainRequest.text :=
  takenRequests_eq_iff default 80 (oneServer 80) (by decide) [postHi, postHi] _ (by decide) rfl

/-- One request whose last byte arrives in a buffer of its own is lost. -/
theorem takenRequests_cut_request :
    let buffers := [postHi.text.dropLast, lit "i"]
    buffers.flatten = requestStream [postHi] ∧
      (∀ b ∈ buffers, b ≠ [] ∧ b.length ≤ ClientSocket.kRecvBufferSize) ∧
      (ClientSocket.takenRequests 80 (oneServer 80) (fresh default) buffers).map
          (fun q => (q.header, q.body, q.responseStatusCode)) ≠
        [(postHi.header, postHi.body, HttpStatus.ok)] := by
  decide

end Webserv
