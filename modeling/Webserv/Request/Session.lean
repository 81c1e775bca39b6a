import Webserv.Request.Refinement

/-!
# The calls of one connection

A connection calls `parse` once for every buffer it receives.  The abstract connection is the
text of the current request and the server chosen last.  It takes the next buffer in by
appending it while the request waits for more, and by starting a new text otherwise, and the
parser object shows its verdict after every call.  The outcome of a sequence of calls is
therefore independent of the calls that came before, as soon as these have been answered.
-/

namespace Webserv

open Text HttpParser

/-- The arguments of one call of `HttpRequestParser::parse`. -/
structure ParseCall where
  unparsedStr : Str
  port : Nat
  config : WebservConfig

def ParseCall.Configured (c : ParseCall) : Prop := c.port ∈ c.config.ports

instance (c : ParseCall) : Decidable c.Configured := inferInstanceAs (Decidable (_ ∈ _))

namespace HttpRequestParser

def parseCall (p : HttpRequestParser) (c : ParseCall) : HttpRequestParser :=
  parse p c.unparsedStr c.port c.config

def parseAll (p : HttpRequestParser) (calls : List ParseCall) : HttpRequestParser :=
  calls.foldl parseCall p

theorem parseAll_concat (p : HttpRequestParser) (calls : List ParseCall) (c : ParseCall) :
    parseAll p (calls ++ [c]) = parseCall (parseAll p calls) c := by
  rw [parseAll, List.foldl_append]
  rfl

/-- The text that the call `c` completes: all of a chunked request so far, or what the call
brings. -/
def currentText (p : HttpRequestParser) (c : ParseCall) : Str :=
  if p.parseStatus = .chunkedBody then p.chunkedRequest ++ c.unparsedStr else c.unparsedStr

/-- The call `c` starts a request and its buffer has a header that `RequestHeaderParser`
accepts. -/
def AcceptsHeader (p : HttpRequestParser) (c : ParseCall) : Prop :=
  p.parseStatus ≠ .chunkedBody ∧
    ∃ header, (fetchUnparsedHeader c.unparsedStr >>= RequestHeaderParser.parse) = .ok header

theorem fetchUnparsedHeader_bind_parse {text : Str} {header : RequestHeader} :
    (fetchUnparsedHeader text >>= RequestHeaderParser.parse) = .ok header ↔
      (Verdict.ofText text).header = some header := by
  rw [Verdict.header_ofText_eq_some_iff, fetchUnparsedHeader_eq]
  cases splitHeader text with
  | none => simp
  | some p =>
    obtain ⟨block, rest⟩ := p
    simp

end HttpRequestParser

open HttpRequestParser

/-! ## The abstract connection -/

structure Session where
  text : Str
  servConfig : ServerConfig

namespace Session

def verdict (s : Session) : Verdict := Verdict.ofText s.text

def shown (s : Session) : HttpRequestParser := report s.servConfig s.text s.verdict

/-- Before the first call. -/
def start (servConfig : ServerConfig) : Session := ⟨[], servConfig⟩

def receive (s : Session) (c : ParseCall) : Session :=
  if s.verdict.isWaiting then ⟨s.text ++ c.unparsedStr, s.servConfig⟩
  else
    ⟨c.unparsedStr,
      chosenServer c.config c.port s.servConfig (Verdict.ofText c.unparsedStr).header⟩

def receiveAll (s : Session) (calls : List ParseCall) : Session := calls.foldl receive s

@[simp] theorem receiveAll_nil (s : Session) : s.receiveAll [] = s := rfl

@[simp] theorem receiveAll_cons (s : Session) (c : ParseCall) (calls : List ParseCall) :
    s.receiveAll (c :: calls) = (s.receive c).receiveAll calls := rfl

theorem receiveAll_concat (s : Session) (calls : List ParseCall) (c : ParseCall) :
    s.receiveAll (calls ++ [c]) = (s.receiveAll calls).receive c := by
  rw [receiveAll, List.foldl_append]
  rfl

theorem receiveAll_append (s : Session) (calls more : List ParseCall) :
    s.receiveAll (calls ++ more) = (s.receiveAll calls).receiveAll more :=
  List.foldl_append

@[simp] theorem start_not_isWaiting (servConfig : ServerConfig) :
    (start servConfig).verdict.isWaiting = false := by
  rfl

theorem receive_of_waiting {s : Session} (h : s.verdict.isWaiting = true) (c : ParseCall) :
    s.receive c = ⟨s.text ++ c.unparsedStr, s.servConfig⟩ := by
  rw [receive, if_pos h]

theorem receive_of_not_waiting {s : Session} (h : s.verdict.isWaiting = false) (c : ParseCall) :
    s.receive c =
      ⟨c.unparsedStr,
        chosenServer c.config c.port s.servConfig (Verdict.ofText c.unparsedStr).header⟩ := by
  rw [receive, if_neg (by simp [h])]

/-- A waiting verdict is the only one shown by the status `PARSE_CHUNKED_BODY`. -/
theorem shown_parseStatus_iff (s : Session) :
    s.shown.parseStatus = .chunkedBody ↔ s.verdict.isWaiting = true := by
  cases h : s.verdict <;> simp [shown, report, statusOf, h, Verdict.isWaiting]

/-! ## The parser object follows the abstract connection -/

theorem parseCall_shown {s : Session} {c : ParseCall} (hc : c.Configured) :
    parseCall s.shown c = (s.receive c).shown := by
  cases hwaiting : s.verdict.isWaiting with
  | true =>
    rw [receive_of_waiting hwaiting]
    cases hverdict : s.verdict with
    | waiting header => exact parse_waiting hverdict s.servConfig c.unparsedStr c.port c.config
    | accepted header body => rw [hverdict] at hwaiting; cases hwaiting
    | rejected header code => rw [hverdict] at hwaiting; cases hwaiting
  | false =>
    have hended : s.shown.finished ∨ s.shown.errorOccured := by
      cases hverdict : s.verdict with
      | waiting header => rw [hverdict] at hwaiting; cases hwaiting
      | accepted header body => exact Or.inl (by simp [shown, hverdict, report, statusOf, finished])
      | rejected header code =>
        exact Or.inr (by simp [shown, hverdict, report, statusOf, errorOccured])
    rw [receive_of_not_waiting hwaiting, parseCall, parse_of_ended hended]
    exact parse_fresh hc s.servConfig c.unparsedStr

theorem parseCall_fresh {c : ParseCall} (hc : c.Configured) (servConfig : ServerConfig) :
    parseCall (fresh servConfig) c = ((start servConfig).receive c).shown := by
  rw [receive_of_not_waiting (start_not_isWaiting servConfig)]
  exact parse_fresh hc servConfig c.unparsedStr

theorem parseAll_shown {s : Session} {calls : List ParseCall}
    (hcalls : ∀ c ∈ calls, c.Configured) :
    parseAll s.shown calls = (s.receiveAll calls).shown := by
  induction calls generalizing s with
  | nil => rfl
  | cons c rest ih =>
    rw [List.forall_mem_cons] at hcalls
    rw [receiveAll_cons, ← ih hcalls.2, ← parseCall_shown hcalls.1]
    rfl

theorem parseAll_fresh {calls : List ParseCall} (hne : calls ≠ [])
    (hcalls : ∀ c ∈ calls, c.Configured) (servConfig : ServerConfig) :
    parseAll (fresh servConfig) calls = ((start servConfig).receiveAll calls).shown := by
  cases calls with
  | nil => exact absurd rfl hne
  | cons c rest =>
    rw [List.forall_mem_cons] at hcalls
    rw [receiveAll_cons, ← parseAll_shown hcalls.2, ← parseCall_fresh hcalls.1]
    rfl

/-- The calls that follow an answer see nothing of the object but its server. -/
theorem parseAll_of_ended {p : HttpRequestParser} (hended : p.finished ∨ p.errorOccured)
    {calls : List ParseCall} (hne : calls ≠ []) :
    parseAll p calls = parseAll (fresh p.servConfig) calls := by
  cases calls with
  | nil => exact absurd rfl hne
  | cons c rest =>
    exact congrArg (parseAll · rest) (parse_of_ended hended c.unparsedStr c.port c.config)

theorem parseAll_parseStatus_iff {calls : List ParseCall} (hcalls : ∀ c ∈ calls, c.Configured)
    (servConfig : ServerConfig) :
    (parseAll (fresh servConfig) calls).parseStatus = .chunkedBody ↔
      ((start servConfig).receiveAll calls).verdict.isWaiting = true := by
  by_cases hne : calls = []
  · subst hne
    exact iff_of_false (fun h => nomatch h) (by simp)
  · rw [parseAll_fresh hne hcalls, shown_parseStatus_iff]

/-- Between two calls the object is new, has answered, or waits. -/
inductive Resting : HttpRequestParser → Prop
  | new (servConfig : ServerConfig) : Resting (fresh servConfig)
  | answered {p : HttpRequestParser} (h : p.finished ∨ p.errorOccured) : Resting p
  | waits {s : Session} (h : s.verdict.isWaiting = true) : Resting s.shown

theorem resting_shown (s : Session) : Resting s.shown := by
  cases hverdict : s.verdict with
  | waiting header => exact .waits (by rw [hverdict]; rfl)
  | accepted header body => exact .answered (Or.inl (by rw [shown, hverdict]; rfl))
  | rejected header code => exact .answered (Or.inr (by rw [shown, hverdict]; rfl))

theorem resting_parseCall_fresh (servConfig : ServerConfig) (c : ParseCall) :
    Resting (parseCall (fresh servConfig) c) := by
  by_cases hport : c.port ∈ c.config.ports
  · rw [parseCall_fresh hport]
    exact resting_shown _
  · exact .answered (Or.inr (parse_unconfigured hport servConfig c.unparsedStr))

/-- The port of the call does not matter. -/
theorem resting_parseCall {p : HttpRequestParser} (h : Resting p) (c : ParseCall) :
    Resting (parseCall p c) := by
  cases h with
  | new servConfig => exact resting_parseCall_fresh servConfig c
  | answered hended =>
    rw [parseCall, parse_of_ended hended]
    exact resting_parseCall_fresh p.servConfig c
  | @waits s hwaiting =>
    cases hverdict : s.verdict with
    | waiting header =>
      rw [parseCall, shown, verdict, parse_waiting hverdict]
      exact resting_shown ⟨_, _⟩
    | accepted header body => rw [hverdict] at hwaiting; cases hwaiting
    | rejected header code => rw [hverdict] at hwaiting; cases hwaiting

theorem resting_parseAll (servConfig : ServerConfig) (calls : List ParseCall) :
    Resting (parseAll (fresh servConfig) calls) :=
  List.foldlRecOn calls parseCall (.new servConfig) fun _ h c _ => resting_parseCall h c

/-- A parser that waits for nothing answers the next calls as a new one does. -/
theorem parseAll_idle {servConfig : ServerConfig} {history : List ParseCall}
    (hidle : (parseAll (fresh servConfig) history).parseStatus ≠ .chunkedBody) :
    ∃ conf, ∀ calls : List ParseCall, calls ≠ [] → (∀ c ∈ calls, c.Configured) →
      parseAll (parseAll (fresh servConfig) history) calls =
        ((start conf).receiveAll calls).shown := by
  have hresting := resting_parseAll servConfig history
  generalize parseAll (fresh servConfig) history = p at hidle hresting
  cases hresting with
  | new conf => exact ⟨conf, fun calls hne hcalls => parseAll_fresh hne hcalls conf⟩
  | answered hended =>
    refine ⟨p.servConfig, fun calls hne hcalls => ?_⟩
    rw [parseAll_of_ended hended hne, parseAll_fresh hne hcalls]
  | @waits s hwaiting => exact absurd ((shown_parseStatus_iff s).mpr hwaiting) hidle

/-! ## The text of a call -/

theorem receive_text_eq {s : Session} (hwaiting : s.verdict.isWaiting = true) (c : ParseCall) :
    (s.receive c).text = s.shown.currentText c := by
  rw [currentText, if_pos ((shown_parseStatus_iff s).mpr hwaiting), receive_of_waiting hwaiting]
  cases hverdict : s.verdict with
  | waiting header =>
    obtain ⟨-, -, -, -, hchunked, -⟩ := Verdict.ofText_eq_waiting_iff.mp hverdict
    simp [shown, hverdict, report, Verdict.header, hchunked]
  | accepted header body => rw [hverdict] at hwaiting; cases hwaiting
  | rejected header code => rw [hverdict] at hwaiting; cases hwaiting

theorem parseCall_fresh_eq_report (servConfig : ServerConfig) (c : ParseCall) :
    (¬ c.Configured ∧ (parseCall (fresh servConfig) c).errorOccured = true) ∨
      ∃ conf, parseCall (fresh servConfig) c =
        report conf c.unparsedStr (.ofText c.unparsedStr) := by
  by_cases hc : c.Configured
  · rw [parseCall_fresh hc, receive_of_not_waiting (start_not_isWaiting servConfig)]
    exact Or.inr ⟨_, rfl⟩
  · exact Or.inl ⟨hc, parse_unconfigured hc servConfig c.unparsedStr⟩

/-- Every call shows the verdict on its text, or fails for want of a server. -/
theorem parseCall_eq_report {p : HttpRequestParser} (h : Resting p) (c : ParseCall) :
    (¬ c.Configured ∧ (parseCall p c).errorOccured = true) ∨
      ∃ conf, parseCall p c = report conf (p.currentText c) (.ofText (p.currentText c)) := by
  cases h with
  | new servConfig => exact parseCall_fresh_eq_report servConfig c
  | answered hended =>
    have hstatus : p.parseStatus ≠ .chunkedBody := by
      intro hchunked
      rcases hended with h | h
      · rw [finished, hchunked] at h
        cases h
      · rw [errorOccured, hchunked] at h
        cases h
    rw [currentText, if_neg hstatus, parseCall, parse_of_ended hended]
    exact parseCall_fresh_eq_report p.servConfig c
  | @waits s hwaiting =>
    rw [← receive_text_eq hwaiting, receive_of_waiting hwaiting]
    cases hverdict : s.verdict with
    | waiting header =>
      refine Or.inr ⟨s.servConfig, ?_⟩
      rw [parseCall, shown, verdict]
      exact parse_waiting hverdict s.servConfig c.unparsedStr c.port c.config
    | accepted header body => rw [hverdict] at hwaiting; cases hwaiting
    | rejected header code => rw [hverdict] at hwaiting; cases hwaiting

theorem parseAll_concat_eq_report (conf : ServerConfig) (history : List ParseCall) {c : ParseCall}
    (hc : c.Configured) :
    ∃ servConfig, parseAll (fresh conf) (history ++ [c]) =
      report servConfig (currentText (parseAll (fresh conf) history) c)
        (.ofText (currentText (parseAll (fresh conf) history) c)) := by
  rw [parseAll_concat]
  exact (parseCall_eq_report (resting_parseAll conf history) c).resolve_left fun h => h.1 hc

/-- A call that finishes shows an accepted text. -/
theorem accepted_of_finished {conf : ServerConfig} {history : List ParseCall} {c : ParseCall}
    (h : (parseAll (fresh conf) (history ++ [c])).finished = true) :
    ∃ servConfig header body,
      Verdict.ofText (currentText (parseAll (fresh conf) history) c) = .accepted header body ∧
        parseAll (fresh conf) (history ++ [c]) =
          report servConfig (currentText (parseAll (fresh conf) history) c)
            (.accepted header body) := by
  rw [parseAll_concat] at h ⊢
  rcases parseCall_eq_report (resting_parseAll conf history) c with ⟨-, herror⟩ | ⟨servConfig, heq⟩
  · simp only [finished, errorOccured, decide_eq_true_eq] at h herror
    rw [h] at herror
    cases herror
  · rw [heq] at h ⊢
    cases hverdict : Verdict.ofText (currentText (parseAll (fresh conf) history) c) with
    | waiting header => rw [hverdict] at h; cases h
    | accepted header body => exact ⟨servConfig, header, body, rfl, rfl⟩
    | rejected header code => rw [hverdict] at h; cases h

/-! ## Two connections with the same calls -/

theorem receive_text {s t : Session} (h : s.text = t.text) (c : ParseCall) :
    (s.receive c).text = (t.receive c).text := by
  have hverdict : s.verdict = t.verdict := congrArg Verdict.ofText h
  unfold receive
  rw [hverdict]
  split
  · exact congrArg (· ++ c.unparsedStr) h
  · rfl

theorem receiveAll_text {s t : Session} (h : s.text = t.text) (calls : List ParseCall) :
    (s.receiveAll calls).text = (t.receiveAll calls).text := by
  induction calls generalizing s t with
  | nil => exact h
  | cons c rest ih => exact ih (receive_text h c)

/-- An accepted header fixes the server, whatever it was before. -/
theorem receive_eq_of_accepted {s t : Session} (h : s.text = t.text) {c : ParseCall}
    (hc : c.Configured) (hwaiting : t.verdict.isWaiting = false) {header : RequestHeader}
    (hheader : (Verdict.ofText c.unparsedStr).header = some header) :
    s.receive c = t.receive c := by
  have hverdict : s.verdict = t.verdict := congrArg Verdict.ofText h
  obtain ⟨conf, hconf⟩ := WebservConfig.findServerConfig_isOk hc header.host
  rw [receive_of_not_waiting (by rw [hverdict, hwaiting]), receive_of_not_waiting hwaiting,
    hheader]
  simp only [chosenServer, hconf]

/-- Once a header has been accepted the two connections are equal. -/
theorem receiveAll_eq_of_accepted {s t : Session} (h : s.text = t.text)
    {before after : List ParseCall} {c : ParseCall} (hc : c.Configured)
    (hwaiting : (t.receiveAll before).verdict.isWaiting = false) {header : RequestHeader}
    (hheader : (Verdict.ofText c.unparsedStr).header = some header) :
    s.receiveAll (before ++ c :: after) = t.receiveAll (before ++ c :: after) := by
  rw [receiveAll_append, receiveAll_append, receiveAll_cons, receiveAll_cons,
    receive_eq_of_accepted (receiveAll_text h before) hc hwaiting hheader]

theorem shown_congr {s t : Session} (h : s.text = t.text) :
    s.shown = { t.shown with servConfig := s.servConfig } := by
  have hverdict : s.verdict = t.verdict := congrArg Verdict.ofText h
  simp only [shown, report, hverdict, h]

end Session

namespace HttpRequestParser

/-- No data of an answered request is visible in a later one. -/
theorem parseAll_history_irrelevant (conf conf' : ServerConfig) (history calls : List ParseCall)
    (hended : (parseAll (fresh conf) history).finished ∨
      (parseAll (fresh conf) history).errorOccured)
    (hcalls : ∀ c ∈ calls, c.Configured) :
    ∀ done, done ≠ [] → done <+: calls →
      let old := parseAll (parseAll (fresh conf) history) done
      let new := parseAll (fresh conf') done
      old.finished = new.finished ∧ old.errorOccured = new.errorOccured ∧
        old.buildRequest.header = new.buildRequest.header ∧
        old.buildRequest.body = new.buildRequest.body ∧
        old.buildRequest.responseStatusCode = new.buildRequest.responseStatusCode ∧
        ((∃ before c after, done = before ++ c :: after ∧
            AcceptsHeader (parseAll (fresh conf') before) c) →
          old.buildRequest.serverConfig = new.buildRequest.serverConfig) := by
  intro done hne hinit old new
  have hdone : ∀ c ∈ done, c.Configured := fun c hc => hcalls c (hinit.subset hc)
  let s := Session.start (parseAll (fresh conf) history).servConfig
  let t := Session.start conf'
  have htext : s.text = t.text := rfl
  have hold : old = (s.receiveAll done).shown := by
    rw [show old = parseAll (fresh s.servConfig) done from Session.parseAll_of_ended hended hne]
    exact Session.parseAll_fresh hne hdone s.servConfig
  have hnew : new = (t.receiveAll done).shown := Session.parseAll_fresh hne hdone conf'
  have heq : old = { new with servConfig := old.servConfig } := by
    rw [hold, hnew]
    exact Session.shown_congr (Session.receiveAll_text htext done)
  refine ⟨by rw [heq]; rfl, by rw [heq]; rfl, by rw [heq]; rfl, by rw [heq]; rfl,
    by rw [heq]; rfl, ?_⟩
  intro haccepts
  obtain ⟨before, c, after, rfl, hstatus, header, hheader⟩ := haccepts
  have hbefore : ∀ d ∈ before, d.Configured := fun d hd => hdone d (List.mem_append_left _ hd)
  have hwaiting : (t.receiveAll before).verdict.isWaiting = false := by
    rw [← Bool.not_eq_true, ← Session.parseAll_parseStatus_iff hbefore]
    exact hstatus
  have hsessions : s.receiveAll (before ++ c :: after) = t.receiveAll (before ++ c :: after) :=
    Session.receiveAll_eq_of_accepted htext (hdone c (by simp)) hwaiting
      (fetchUnparsedHeader_bind_parse.mp hheader)
  rw [hold, hnew, hsessions]

/-- A server on one port. -/
def oneServer (port : Nat) : WebservConfig :=
  .ofServConfs [{ (default : ServerConfig) with port := port }]

theorem parseAll_history_irrelevant_two_requests :
    let history : List ParseCall := [⟨lit "no request", 80, oneServer 80⟩]
    let call : ParseCall := ⟨lit "GET / HTTP/1.1\r\nHost: a\r\n\r\n", 80, oneServer 80⟩
    let old := parseAll (parseAll (fresh default) history) [call]
    old.finished = (parseAll (fresh default) [call]).finished ∧ old.finished = true := by
  intro history call old
  have hcall : ∀ c ∈ [call], c.Configured := by decide
  have h := parseAll_history_irrelevant default default history [call] (Or.inr (by decide)) hcall
    [call] (by simp) (List.prefix_refl _)
  exact ⟨h.1, by decide⟩

end HttpRequestParser

end Webserv
