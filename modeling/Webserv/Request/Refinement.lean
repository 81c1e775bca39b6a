import Webserv.Request.Verdict

/-!
# `parse` shows the verdict

The fields of the parser object are a function of the text received so far for the current
request: `report` is the object that shows a verdict.  One call of `parse` leads from one such
object to another.
-/

namespace Webserv

open Text HttpParser

namespace HttpRequestParser

def statusOf : Verdict → ParseStatus
  | .waiting _ => .chunkedBody
  | .accepted _ _ => .done
  | .rejected _ _ => .error

def bodyOf : Verdict → Str
  | .accepted _ body => body
  | _ => []

def codeOf : Verdict → Str
  | .rejected _ code => code
  | _ => []

def report (servConfig : ServerConfig) (text : Str) (v : Verdict) : HttpRequestParser where
  parseStatus := statusOf v
  parsedHeader := v.header.getD .empty
  parsedBody := bodyOf v
  chunkedRequest := if v.header.any (·.transferEncodingIsChunked) then text else []
  errorCode := codeOf v
  servConfig := servConfig

/-! ## The steps of the `try` block -/

theorem findHeaderEnd_eq (text : Str) :
    findHeaderEnd text =
      match splitHeader text with
      | none => .error (.parseError HttpStatus.badRequest "No header_end")
      | some (block, _) => .ok block.length := by
  unfold findHeaderEnd splitHeader
  rw [findFrom, if_pos (Nat.zero_le _), List.drop_zero]
  cases h : find (CRLF ++ CRLF) text with
  | none => rfl
  | some i =>
    have hle := find_add_length_le (by decide) h
    have hlen : (text.take (i + 4)).length = i + 4 := List.length_take_of_le hle
    simp [hlen]

theorem fetchUnparsedHeader_eq (text : Str) :
    fetchUnparsedHeader text =
      match splitHeader text with
      | none => .error (.parseError HttpStatus.badRequest "No header_end")
      | some (block, _) => .ok block := by
  unfold fetchUnparsedHeader
  rw [findHeaderEnd_eq]
  cases h : splitHeader text with
  | none => rfl
  | some p =>
    obtain ⟨block, rest⟩ := p
    obtain ⟨-, rfl⟩ := splitHeader_eq_some_iff.mp h
    simp [substr, substr?]

theorem fetchUnparsedBody_eq (text : Str) :
    fetchUnparsedBody text =
      match splitHeader text with
      | none => .error (.parseError HttpStatus.badRequest "No header_end")
      | some (_, rest) => .ok rest := by
  unfold fetchUnparsedBody
  rw [findHeaderEnd_eq]
  cases h : splitHeader text with
  | none => rfl
  | some p =>
    obtain ⟨block, rest⟩ := p
    obtain ⟨-, rfl⟩ := splitHeader_eq_some_iff.mp h
    simp [substr, substr?]

theorem parseRequestHeader_run (text : Str) (p : HttpRequestParser) :
    (parseRequestHeader text).run p =
      match fetchUnparsedHeader text >>= RequestHeaderParser.parse with
      | .error e => (.error e, p)
      | .ok header =>
        (.ok header,
          { p with
            parseStatus := if header.transferEncodingIsChunked then .chunkedBody else .body }) := by
  unfold parseRequestHeader
  cases hblock : fetchUnparsedHeader text with
  | error e => simp
  | ok block =>
    cases hparse : RequestHeaderParser.parse block with
    | error e => simp [hparse]
    | ok header =>
      by_cases hchunked : header.transferEncodingIsChunked = true <;>
        simp [hparse, hchunked, changeStatus]

theorem clearStep_run (p : HttpRequestParser) :
    clearStep.run p =
      (.ok (),
        if p.parseStatus = .done ∨ p.parseStatus = .error then fresh p.servConfig else p) := by
  unfold clearStep
  split <;> simp_all [clear, changeStatus, fresh]

theorem headerStep_run_of_ne {p : HttpRequestParser} (h : p.parseStatus ≠ .header) (text : Str)
    (port : Nat) (config : WebservConfig) : (headerStep text port config).run p = (.ok (), p) := by
  simp [headerStep, h]

theorem headerStep_run_error {p : HttpRequestParser} (h : p.parseStatus = .header) {text : Str}
    {e : Exn} (hparse : fetchUnparsedHeader text >>= RequestHeaderParser.parse = .error e)
    (port : Nat) (config : WebservConfig) :
    (headerStep text port config).run p = (.error e, p) := by
  simp [headerStep, h, Method.run_bind, parseRequestHeader_run, hparse]

theorem headerStep_run_ok {p : HttpRequestParser} (h : p.parseStatus = .header) {text : Str}
    {header : RequestHeader} {port : Nat} {config : WebservConfig} {servConfig : ServerConfig}
    (hparse : fetchUnparsedHeader text >>= RequestHeaderParser.parse = .ok header)
    (hserv : config.findServerConfig port header.host = .ok servConfig) :
    (headerStep text port config).run p =
      (.ok (),
        { p with
          parseStatus := if header.transferEncodingIsChunked then .chunkedBody else .body
          parsedHeader := header
          servConfig := servConfig }) := by
  simp [headerStep, h, Method.run_bind, parseRequestHeader_run, hparse, hserv]

theorem headerStep_run_noServer {p : HttpRequestParser} (h : p.parseStatus = .header) {text : Str}
    {header : RequestHeader} {port : Nat} {config : WebservConfig} {e : Exn}
    (hparse : fetchUnparsedHeader text >>= RequestHeaderParser.parse = .ok header)
    (hserv : config.findServerConfig port header.host = .error e) :
    (headerStep text port config).run p =
      (.error e,
        { p with
          parseStatus := if header.transferEncodingIsChunked then .chunkedBody else .body
          parsedHeader := header }) := by
  simp [headerStep, h, Method.run_bind, parseRequestHeader_run, hparse, hserv]

theorem bodyStep_run_of_ne {p : HttpRequestParser} (h : p.parseStatus ≠ .body) (text : Str) :
    (bodyStep text).run p = (.ok (), p) := by
  simp [bodyStep, h]

theorem bodyStep_run {p : HttpRequestParser} (h : p.parseStatus = .body) {text block rest : Str}
    (hsplit : splitHeader text = some (block, rest)) :
    (bodyStep text).run p =
      match p.parsedHeader.contentLength >>= MessageBodyParser.parseBody rest with
      | .error e => (.error e, p)
      | .ok body => (.ok (), { p with parseStatus := .done, parsedBody := body }) := by
  have hbody : fetchUnparsedBody text = .ok rest := by rw [fetchUnparsedBody_eq, hsplit]
  simp only [bodyStep, Method.run_get_bind, h, if_true]
  cases hlen : p.parsedHeader.contentLength with
  | error e => simp
  | ok n =>
    cases hparse : MessageBodyParser.parseBody rest n with
    | error e => simp [parseBody, Method.run_bind, hbody, hparse]
    | ok body => simp [parseBody, Method.run_bind, hbody, hparse, changeStatus]

theorem chunkedStep_run_of_ne {p : HttpRequestParser} (h : p.parseStatus ≠ .chunkedBody)
    (text : Str) : (chunkedStep text).run p = (.ok (), p) := by
  simp [chunkedStep, h]

theorem chunkedStep_run {p : HttpRequestParser} (h : p.parseStatus = .chunkedBody)
    {text block rest : Str} (hsplit : splitHeader (p.chunkedRequest ++ text) = some (block, rest)) :
    (chunkedStep text).run p =
      if block.length + rest.length > kMaxHeaderLength + kMaxBodyLength then
        (.error (.parseError HttpStatus.payloadTooLarge "body is too long"),
          { p with chunkedRequest := p.chunkedRequest ++ text })
      else if chunkedEnd <:+: rest then
        match MessageBodyParser.parseChunkedBody rest with
        | .error e => (.error e, { p with chunkedRequest := p.chunkedRequest ++ text })
        | .ok body =>
          (.ok (),
            { p with
              parseStatus := .done
              parsedBody := body
              chunkedRequest := p.chunkedRequest ++ text })
      else (.ok (), { p with chunkedRequest := p.chunkedRequest ++ text }) := by
  have hend : findHeaderEnd (p.chunkedRequest ++ text) = .ok block.length := by
    rw [findHeaderEnd_eq, hsplit]
  have hbody : fetchUnparsedBody (p.chunkedRequest ++ text) = .ok rest := by
    rw [fetchUnparsedBody_eq, hsplit]
  obtain ⟨-, htext⟩ := splitHeader_eq_some_iff.mp hsplit
  have hlen : (p.chunkedRequest ++ text).length = block.length + rest.length := by
    rw [htext, List.length_append]
  have hfind : (findFrom (p.chunkedRequest ++ text) chunkedEnd block.length).isSome ↔
      chunkedEnd <:+: rest := by
    rw [findFrom_isSome_iff (by omega), htext, List.drop_left' rfl]
  simp only [chunkedStep, Method.run_get_bind, Method.run_ite, h, if_true,
    Method.run_modify_bind, hlen]
  by_cases hlong : block.length + rest.length > kMaxHeaderLength + kMaxBodyLength
  · simp [hlong]
  · by_cases hfound : chunkedEnd <:+: rest
    · cases hparse : MessageBodyParser.parseChunkedBody rest with
      | error e =>
        simp [hlong, hend, hfind, hfound, hbody, parseChunkedBody, Method.run_bind, hparse]
      | ok body =>
        simp [hlong, hend, hfind, hfound, hbody, parseChunkedBody, Method.run_bind, hparse,
          changeStatus]
    · simp [hlong, hend, hfind, hfound]

/-- The server that answers a request: chosen once its header is accepted, and until then the
one of the previous request. -/
def chosenServer (config : WebservConfig) (port : Nat) (previous : ServerConfig) :
    Option RequestHeader → ServerConfig
  | none => previous
  | some header =>
    match config.findServerConfig port header.host with
    | .ok servConfig => servConfig
    | .error _ => previous

/-! ## One call -/

theorem settle_chunkedStep {header : RequestHeader} {text more block rest : Str}
    (servConfig : ServerConfig) (hchunked : header.transferEncodingIsChunked = true)
    (hsplit : splitHeader (text ++ more) = some (block, rest)) :
    settle ((chunkedStep more).run (report servConfig text (.waiting header))) =
      report servConfig (text ++ more) (Verdict.ofRest header block rest) := by
  have hrequest : (report servConfig text (.waiting header)).chunkedRequest = text := by
    simp [report, Verdict.header, hchunked]
  rw [chunkedStep_run rfl (by rw [hrequest]; exact hsplit), hrequest]
  simp only [Verdict.ofRest, hchunked, if_true]
  by_cases hlong : block.length + rest.length > kMaxHeaderLength + kMaxBodyLength
  · rw [if_pos hlong, if_pos hlong]
    simp [settle, report, statusOf, bodyOf, codeOf, Verdict.header, errorStatus, hchunked]
  · rw [if_neg hlong, if_neg hlong]
    by_cases hend : chunkedEnd <:+: rest
    · rw [if_pos hend, if_pos hend]
      cases MessageBodyParser.parseChunkedBody rest <;>
        simp [settle, report, statusOf, bodyOf, codeOf, Verdict.header, Verdict.ofBody, hchunked]
    · rw [if_neg hend, if_neg hend]
      simp [settle, report, statusOf, bodyOf, codeOf, Verdict.header, hchunked]

/-- After `clear`, or at the start, one call shows the verdict on its segment. -/
theorem parse_fresh {port : Nat} {config : WebservConfig} (hport : port ∈ config.ports)
    (servConfig : ServerConfig) (text : Str) :
    parse (fresh servConfig) text port config =
      report (chosenServer config port servConfig (Verdict.ofText text).header) text
        (Verdict.ofText text) := by
  have hclear : clearStep.run (fresh servConfig) = (.ok (), fresh servConfig) := by
    rw [clearStep_run]
    rfl
  rw [parse, parseTry, Method.run_bind_ok hclear]
  have hheader := fetchUnparsedHeader_eq text
  cases hsplit : splitHeader text with
  | none =>
    rw [hsplit] at hheader
    rw [Method.run_bind_error (headerStep_run_error rfl (by rw [hheader]; rfl) port config),
      Verdict.ofText, hsplit]
    rfl
  | some p =>
    obtain ⟨block, rest⟩ := p
    rw [hsplit] at hheader
    cases hparse : RequestHeaderParser.parse block with
    | error e =>
      rw [Method.run_bind_error
        (headerStep_run_error rfl (by rw [hheader]; exact hparse) port config)]
      simp only [Verdict.ofText, hsplit, hparse]
      rfl
    | ok header =>
      obtain ⟨conf, hconf⟩ := WebservConfig.findServerConfig_isOk hport header.host
      have hverdict : Verdict.ofText text = Verdict.ofRest header block rest := by
        simp only [Verdict.ofText, hsplit, hparse]
      have hserv : chosenServer config port servConfig (Verdict.ofText text).header = conf := by
        rw [hverdict, Verdict.header_ofRest]
        simp only [chosenServer, hconf]
      rw [Method.run_bind_ok (headerStep_run_ok rfl (by rw [hheader]; exact hparse) hconf),
        hserv, hverdict]
      by_cases hchunked : header.transferEncodingIsChunked = true
      · have hstate :
            ({ fresh servConfig with
                parseStatus := if header.transferEncodingIsChunked then .chunkedBody else .body
                parsedHeader := header
                servConfig := conf } : HttpRequestParser) =
              report conf [] (.waiting header) := by
          simp [fresh, report, statusOf, bodyOf, codeOf, Verdict.header, hchunked]
        rw [hstate, Method.run_bind_ok (bodyStep_run_of_ne (by simp [report, statusOf]) text)]
        exact settle_chunkedStep conf hchunked hsplit
      · simp only [Verdict.ofRest, hchunked]
        rw [Method.run_bind, bodyStep_run rfl hsplit]
        cases hbody : header.contentLength >>= MessageBodyParser.parseBody rest with
        | error e =>
          simp [settle, report, statusOf, bodyOf, codeOf, Verdict.header, Verdict.ofBody,
            fresh, hchunked]
        | ok body =>
          simp [chunkedStep_run_of_ne, settle, report, statusOf, bodyOf, codeOf,
            Verdict.header, Verdict.ofBody, fresh, hchunked]

/-- On a port without a server every request fails. -/
theorem parse_unconfigured {port : Nat} {config : WebservConfig} (hport : port ∉ config.ports)
    (servConfig : ServerConfig) (text : Str) :
    (parse (fresh servConfig) text port config).errorOccured = true := by
  have hclear : clearStep.run (fresh servConfig) = (.ok (), fresh servConfig) := by
    rw [clearStep_run]
    rfl
  rw [parse, parseTry, Method.run_bind_ok hclear]
  cases hparse : fetchUnparsedHeader text >>= RequestHeaderParser.parse with
  | error e =>
    rw [Method.run_bind_error (headerStep_run_error rfl hparse port config)]
    rfl
  | ok header =>
    obtain ⟨e, he⟩ := WebservConfig.findServerConfig_isError hport header.host
    rw [Method.run_bind_error (headerStep_run_noServer rfl hparse he)]
    rfl

/-- A call on a parser that has answered starts afresh. -/
theorem parse_of_ended {p : HttpRequestParser} (h : p.finished ∨ p.errorOccured) (text : Str)
    (port : Nat) (config : WebservConfig) :
    parse p text port config = parse (fresh p.servConfig) text port config := by
  have hstatus : p.parseStatus = .done ∨ p.parseStatus = .error := by
    simpa [finished, errorOccured] using h
  have hclear : clearStep.run (fresh p.servConfig) = (.ok (), fresh p.servConfig) := by
    rw [clearStep_run]
    rfl
  rw [parse, parse, parseTry, Method.run_bind, Method.run_bind, hclear, clearStep_run,
    if_pos hstatus]

/-- A call on a parser that waits shows the verdict on the text received so far. -/
theorem parse_waiting {text : Str} {header : RequestHeader}
    (hwaiting : Verdict.ofText text = .waiting header) (servConfig : ServerConfig) (more : Str)
    (port : Nat) (config : WebservConfig) :
    parse (report servConfig text (Verdict.ofText text)) more port config =
      report servConfig (text ++ more) (Verdict.ofText (text ++ more)) := by
  obtain ⟨block, rest, hsplit, hparse, hchunked, -, -⟩ := Verdict.ofText_eq_waiting_iff.mp hwaiting
  have hmore := splitHeader_append hsplit more
  have hverdict : Verdict.ofText (text ++ more) = Verdict.ofRest header block (rest ++ more) := by
    simp only [Verdict.ofText, hmore, hparse]
  have hclear : clearStep.run (report servConfig text (.waiting header)) =
      (.ok (), report servConfig text (.waiting header)) := by
    rw [clearStep_run]
    rfl
  rw [hwaiting, hverdict, parse, parseTry, Method.run_bind_ok hclear,
    Method.run_bind_ok (headerStep_run_of_ne (by simp [report, statusOf]) more port config),
    Method.run_bind_ok (bodyStep_run_of_ne (by simp [report, statusOf]) more)]
  exact settle_chunkedStep servConfig hchunked hmore

end HttpRequestParser

end Webserv
