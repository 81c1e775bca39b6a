import Webserv.Response.Access
import Webserv.Server.ClientEvents

/-!
# The server of a request and of its response

The server is chosen twice: by the parser, when it accepts a header, and by `generateResponse`,
for the host of the request it has.  A request whose header is not accepted has no host, and
carries the server that the parser had stored before.
-/

namespace Webserv

open Text HttpRequestParser Session

namespace HttpRequestParser

/-- The stored server is the one for the stored header. -/
def Matches (config : WebservConfig) (port : Nat) (p : HttpRequestParser) : Prop :=
  config.findServerConfig port p.parsedHeader.host = .ok p.servConfig

/-- The buffer has a header that is accepted. -/
def HasHeader (text : Str) : Prop :=
  ∃ header, (fetchUnparsedHeader text >>= RequestHeaderParser.parse) = .ok header

section

variable {config : WebservConfig} {port : Nat}

/-- A call on a parser that waits keeps the header and the server. -/
theorem matches_of_waiting {p : HttpRequestParser} (h : Resting p)
    (hwaiting : p.parseStatus = .chunkedBody) (hmatches : Matches config port p) (text : Str) :
    Matches config port (p.parse text port config) := by
  cases h with
  | new servConfig => cases hwaiting
  | answered hended =>
    simp only [finished, errorOccured, hwaiting] at hended
    simp at hended
  | @waits s hs =>
    cases hverdict : s.verdict with
    | waiting header =>
      obtain ⟨block, rest, hsplit, hparse, -⟩ := Verdict.ofText_eq_waiting_iff.mp hverdict
      have hheader : (Verdict.ofText (s.text ++ text)).header = some header := by
        simp only [Verdict.ofText, splitHeader_append hsplit, hparse, Verdict.header_ofRest]
      have hcall : s.shown.parse text port config =
          report s.servConfig (s.text ++ text) (Verdict.ofText (s.text ++ text)) :=
        parse_waiting hverdict s.servConfig text port config
      rw [hcall, Matches, report, hheader]
      rw [Matches, shown, report, hverdict] at hmatches
      exact hmatches
    | accepted header body => rw [hverdict] at hs; cases hs
    | rejected header code => rw [hverdict] at hs; cases hs

/-- A call on any other parser shows the verdict on its text. -/
theorem parse_of_not_waiting {p : HttpRequestParser} (h : Resting p)
    (hwaiting : p.parseStatus ≠ .chunkedBody) (hport : port ∈ config.ports) (text : Str) :
    p.parse text port config =
      report (chosenServer config port p.servConfig (Verdict.ofText text).header) text
        (Verdict.ofText text) := by
  cases h with
  | new servConfig => exact parse_fresh hport servConfig text
  | answered hended =>
    rw [parse_of_ended hended]
    exact parse_fresh hport p.servConfig text
  | waits hs => exact absurd ((shown_parseStatus_iff _).mpr hs) hwaiting

theorem matches_of_hasHeader {p : HttpRequestParser} (h : Resting p)
    (hwaiting : p.parseStatus ≠ .chunkedBody) (hport : port ∈ config.ports) {text : Str}
    (hheader : HasHeader text) : Matches config port (p.parse text port config) := by
  obtain ⟨header, hheader⟩ := hheader
  obtain ⟨conf, hconf⟩ := WebservConfig.findServerConfig_isOk hport header.host
  rw [parse_of_not_waiting h hwaiting hport, Matches, report,
    fetchUnparsedHeader_bind_parse.mp hheader]
  simp only [Option.getD_some, chosenServer, hconf]

/-- Without a header the call fails, and the server stays as it was. -/
theorem parse_of_not_hasHeader {p : HttpRequestParser} (h : Resting p)
    (hwaiting : p.parseStatus ≠ .chunkedBody) (hport : port ∈ config.ports) {text : Str}
    (hheader : ¬ HasHeader text) :
    (p.parse text port config).errorOccured = true ∧
      (p.parse text port config).parsedHeader = .empty ∧
        (p.parse text port config).servConfig = p.servConfig := by
  have hnone : (Verdict.ofText text).header = none := by
    rw [Option.eq_none_iff_forall_not_mem]
    intro header hmem
    exact hheader ⟨header, fetchUnparsedHeader_bind_parse.mpr hmem⟩
  rw [parse_of_not_waiting h hwaiting hport, hnone]
  cases hverdict : Verdict.ofText text with
  | waiting header => rw [hverdict] at hnone; cases hnone
  | accepted header body => rw [hverdict] at hnone; cases hnone
  | rejected header code =>
    rw [hverdict] at hnone
    obtain rfl : header = none := hnone
    exact ⟨rfl, rfl, rfl⟩

end

end HttpRequestParser

/-- A property of all prefixes that every step keeps under a condition of its own. -/
theorem forall_prefix_iff {α : Type*} {P : List α → Prop} {Q : List α → α → Prop} (hstart : P [])
    (hstep : ∀ done x, P done → (P (done ++ [x]) ↔ Q done x)) (xs : List α) :
    (∀ done, done <+: xs → P done) ↔ ∀ done x, done ++ [x] <+: xs → Q done x := by
  induction xs using List.reverseRecOn with
  | nil =>
    refine iff_of_true (fun done hdone => ?_) fun done x hdone => ?_
    · rw [List.prefix_nil.mp hdone]
      exact hstart
    · exact absurd (List.prefix_nil.mp hdone) (by simp)
  | append_singleton xs y ih =>
    simp only [List.prefix_concat_iff]
    constructor
    · intro h done x hdone
      rcases hdone with heq | hdone
      · obtain ⟨rfl, hx⟩ := List.append_inj' heq rfl
        obtain rfl : x = y := List.singleton_inj.mp hx
        exact (hstep done x (h done (Or.inr List.prefix_rfl))).mp (h _ (Or.inl rfl))
      · exact ih.mp (fun done hdone => h done (Or.inr hdone)) done x hdone
    · intro h done hdone
      have hbefore : ∀ done, done <+: xs → P done :=
        ih.mpr fun done x hdone => h done x (Or.inr hdone)
      rcases hdone with rfl | hdone
      · exact (hstep xs y (hbefore xs List.prefix_rfl)).mpr (h xs y (Or.inl rfl))
      · exact hbefore done hdone

namespace ClientSocket

/-- What may happen on a connection, with what the system calls return. -/
inductive ClientEvent
  | readable (received : Option Str) (os : Os)
  | writable (send : Send)

def handle (config : WebservConfig) : ClientEvent → ClientM Unit
  | .readable received os => handleReadEvent received os config
  | .writable send => handleWriteEvent send

/-- The client after these events, whatever they threw. -/
def after (config : WebservConfig) (clnt : ClientSocket) (events : List ClientEvent) :
    ClientSocket :=
  events.foldl (fun clnt event => ((handle config event).run clnt).2) clnt

theorem after_concat (config : WebservConfig) (clnt : ClientSocket) (events : List ClientEvent)
    (event : ClientEvent) :
    clnt.after config (events ++ [event]) =
      ((handle config event).run (clnt.after config events)).2 := by
  rw [after, List.foldl_append]
  rfl

/-- A request that is complete carries the server that `generateResponse` finds for it, and so
does its DTO. -/
def SameServer (config : WebservConfig) (clnt : ClientSocket) : Prop :=
  completes clnt.requestParser →
    ∃ request conf, clnt.currentRequest = some request ∧
      request = clnt.requestParser.buildRequest ∧
      config.findServerConfig clnt.port request.header.host = .ok conf ∧
      request.serverConfig = conf ∧
      (HttpRequestConverter.toDTO request).host = conf.host ∧
      (HttpRequestConverter.toDTO request).port = conf.port ∧
      (HttpRequestConverter.toDTO request).servernames = conf.server

/-- A buffer that begins a request has a header that is accepted, or the server that is stored is
the one for a request without a host. -/
def KeepsServer (config : WebservConfig) (clnt : ClientSocket) : ClientEvent → Prop
  | .readable (some bytes) _ =>
    bytes = [] ∨ clnt.requestParser.parseStatus = .chunkedBody ∨ HasHeader (cStr bytes) ∨
      config.findServerConfig clnt.port [] = .ok clnt.requestParser.servConfig
  | _ => True

/-- What holds of a client after any events. -/
structure Linked (config : WebservConfig) (clnt : ClientSocket) : Prop where
  resting : Resting clnt.requestParser
  port : clnt.port ∈ config.ports
  waiting : clnt.requestParser.parseStatus = .chunkedBody →
    Matches config clnt.port clnt.requestParser
  request : completes clnt.requestParser →
    clnt.currentRequest = some clnt.requestParser.buildRequest

section

variable {config : WebservConfig} {clnt : ClientSocket}

theorem Linked.sameServer_iff_matches (h : Linked config clnt) :
    SameServer config clnt ↔
      (completes clnt.requestParser → Matches config clnt.port clnt.requestParser) := by
  constructor
  · intro hsame hcompletes
    obtain ⟨request, conf, _, rfl, hfind, rfl, _⟩ := hsame hcompletes
    exact hfind
  · intro hmatches hcompletes
    exact ⟨_, _, h.request hcompletes, rfl, hmatches hcompletes, rfl, rfl, rfl, rfl⟩

/-- The parser and the request of a client that has received something. -/
theorem handleReadEvent_parses {bytes : Str} (hbytes : bytes ≠ []) (os : Os) :
    let clnt' := ((handleReadEvent (some bytes) os config).run clnt).2
    clnt'.requestParser = clnt.requestParser.parse (cStr bytes) clnt.port config ∧
      clnt'.port = clnt.port ∧
      (completes clnt'.requestParser →
        clnt'.currentRequest = some clnt'.requestParser.buildRequest) := by
  intro clnt'
  by_cases hcompletes : completes (clnt.fed bytes config).requestParser
  · cases hresponse : responseTo os clnt.port config
        (clnt.fed bytes config).requestParser.buildRequest with
    | ok response =>
      have hclnt : clnt' = (clnt.fed bytes config).answered response :=
        congrArg Prod.snd (handleReadEvent_answers hbytes hcompletes hresponse)
      rw [hclnt]
      exact ⟨rfl, rfl, fun _ => rfl⟩
    | error e =>
      have hclnt : clnt' = (clnt.fed bytes config).requested :=
        congrArg Prod.snd (handleReadEvent_throws hbytes hcompletes hresponse)
      rw [hclnt]
      exact ⟨rfl, rfl, fun _ => rfl⟩
  · have hclnt : clnt' = clnt.fed bytes config :=
      congrArg Prod.snd (handleReadEvent_waits hbytes hcompletes os)
    rw [hclnt]
    exact ⟨rfl, rfl, fun h => absurd h hcompletes⟩

/-- A write event leaves the parser and the request alone. -/
theorem handleWriteEvent_keeps (send : Send) :
    let clnt' := ((handleWriteEvent send).run clnt).2
    clnt'.requestParser = clnt.requestParser ∧ clnt'.port = clnt.port ∧
      clnt'.currentRequest = clnt.currentRequest := by
  intro clnt'
  cases hresponse : clnt.currentResponse with
  | none =>
    have hclnt : clnt' = clnt := by
      have hsend : (sendResponse send).run clnt = (.error .undefined, clnt) := by
        rw [sendResponse, Method.run_get_bind, hresponse]
        rfl
      exact congrArg Prod.snd (Method.run_bind_error hsend _)
    rw [hclnt]
    exact ⟨rfl, rfl, rfl⟩
  | some response =>
    by_cases hsend : send = .sent (HttpResponseSerializer.serialize response).size
    · have hclnt : clnt' = clnt.delivered response :=
        congrArg Prod.snd (hsend ▸ handleWriteEvent_sent hresponse)
      rw [hclnt]
      exact ⟨rfl, rfl, rfl⟩
    · obtain ⟨e, hrun⟩ := handleWriteEvent_throws hresponse hsend
      have hclnt : clnt' = clnt := congrArg Prod.snd hrun
      rw [hclnt]
      exact ⟨rfl, rfl, rfl⟩

theorem Linked.of_parsed {clnt' : ClientSocket} (h : Linked config clnt)
    (hparser : clnt'.requestParser = clnt.requestParser) (hport : clnt'.port = clnt.port)
    (hrequest : clnt'.currentRequest = clnt.currentRequest) : Linked config clnt' where
  resting := hparser ▸ h.resting
  port := hport ▸ h.port
  waiting := by
    rw [hparser, hport]
    exact h.waiting
  request := by
    rw [hparser, hrequest]
    exact h.request

/-- What a buffer leaves in a parser, and when the stored server is the right one. -/
theorem Linked.parse (h : Linked config clnt) {bytes : Str} (hbytes : bytes ≠ []) (os : Os) :
    let p := clnt.requestParser.parse (cStr bytes) clnt.port config
    (p.parseStatus = .chunkedBody → Matches config clnt.port p) ∧
      ((completes p → Matches config clnt.port p) ↔
        KeepsServer config clnt (.readable (some bytes) os)) := by
  intro p
  by_cases hwaiting : clnt.requestParser.parseStatus = .chunkedBody
  · have hmatches : Matches config clnt.port p :=
      matches_of_waiting h.resting hwaiting (h.waiting hwaiting) _
    exact ⟨fun _ => hmatches, iff_of_true (fun _ => hmatches) (Or.inr (Or.inl hwaiting))⟩
  by_cases hheader : HasHeader (cStr bytes)
  · have hmatches : Matches config clnt.port p :=
      matches_of_hasHeader h.resting hwaiting h.port hheader
    exact ⟨fun _ => hmatches, iff_of_true (fun _ => hmatches) (Or.inr (Or.inr (Or.inl hheader)))⟩
  obtain ⟨herror, hempty, hserver⟩ := parse_of_not_hasHeader h.resting hwaiting h.port hheader
  have hmatches : Matches config clnt.port p ↔
      config.findServerConfig clnt.port [] = .ok clnt.requestParser.servConfig := by
    rw [Matches, hempty, hserver]
    rfl
  refine ⟨fun hchunked => ?_, ?_⟩
  · rw [errorOccured, hchunked] at herror
    cases herror
  · rw [hmatches]
    show _ ↔ bytes = [] ∨ _ ∨ _ ∨ _
    rw [or_iff_right hbytes, or_iff_right hwaiting, or_iff_right hheader]
    exact ⟨fun hall => hall (Or.inr herror), fun hfind _ => hfind⟩

theorem Linked.sameServer_of_parsed {clnt' : ClientSocket} (h : Linked config clnt)
    (hparser : clnt'.requestParser = clnt.requestParser) (hport : clnt'.port = clnt.port)
    (hrequest : clnt'.currentRequest = clnt.currentRequest) (hsame : SameServer config clnt) :
    SameServer config clnt' := by
  rw [(h.of_parsed hparser hport hrequest).sameServer_iff_matches, hparser, hport]
  exact h.sameServer_iff_matches.mp hsame

/-- One event: the servers agree behind it exactly when the stored one may be kept. -/
theorem Linked.step (h : Linked config clnt) (event : ClientEvent) :
    Linked config ((handle config event).run clnt).2 ∧
      (SameServer config clnt →
        (SameServer config ((handle config event).run clnt).2 ↔
          KeepsServer config clnt event)) := by
  cases event with
  | writable send =>
    obtain ⟨hparser, hport, hrequest⟩ := @handleWriteEvent_keeps clnt send
    exact ⟨h.of_parsed hparser hport hrequest, fun hsame =>
      iff_of_true (h.sameServer_of_parsed hparser hport hrequest hsame) trivial⟩
  | readable received os =>
    cases received with
    | none => exact ⟨h, fun hsame => iff_of_true hsame trivial⟩
    | some bytes =>
      by_cases hbytes : bytes = []
      · subst hbytes
        exact ⟨h.of_parsed rfl rfl rfl, fun hsame =>
          iff_of_true (h.sameServer_of_parsed rfl rfl rfl hsame) (Or.inl rfl)⟩
      obtain ⟨hparser, hport, hrequest⟩ := @handleReadEvent_parses config clnt bytes hbytes os
      obtain ⟨hwaiting, hiff⟩ := h.parse hbytes os
      have hlinked : Linked config ((handle config (.readable (some bytes) os)).run clnt).2 := by
        refine ⟨?_, hport.symm ▸ h.port, ?_, hrequest⟩
        · rw [handle, hparser]
          exact resting_parseCall h.resting ⟨cStr bytes, clnt.port, config⟩
        · rw [handle, hparser, hport]
          exact hwaiting
      refine ⟨hlinked, fun _ => ?_⟩
      rw [hlinked.sameServer_iff_matches, handle, hparser, hport]
      exact hiff

theorem linked_new {acceptedFd : Int} {port : Nat} {conf : ServerConfig}
    (hport : (new acceptedFd port conf).port ∈ config.ports) :
    Linked config (new acceptedFd port conf) where
  resting := .new conf
  port := hport
  waiting := fun h => nomatch h
  request := by
    rintro (h | h) <;> cases h

theorem Linked.after (h : Linked config clnt) (events : List ClientEvent) :
    Linked config (clnt.after config events) := by
  induction events using List.reverseRecOn with
  | nil => exact h
  | append_singleton events event ih =>
    rw [after_concat]
    exact (ih.step event).1

end

/-- Behind every event of a connection the request carries the server of its response, exactly
when every buffer that begins a request has a header that is accepted or finds the server for a
request without a host in the parser. -/
theorem sameServer_iff (conf : ServerConfig) (config : WebservConfig) (acceptedFd : Int)
    (port : Nat) (hport : (new acceptedFd port conf).port ∈ config.ports)
    (events : List ClientEvent) :
    (∀ done, done <+: events → SameServer config ((new acceptedFd port conf).after config done)) ↔
      ∀ done event, done ++ [event] <+: events →
        KeepsServer config ((new acceptedFd port conf).after config done) event := by
  have hlinked := linked_new hport
  have hstart : SameServer config (new acceptedFd port conf) := by
    rintro (h | h) <;> cases h
  refine forall_prefix_iff hstart (fun done event hsame => ?_) events
  rw [after_concat]
  exact ((hlinked.after done).step event).2 hsame

open HttpResponseBuilder (siteOs)

theorem sameServer_iff_no_request :
    (∀ done, done <+: [ClientEvent.readable (some (lit "no request")) siteOs] →
        SameServer (oneServer 80) ((new 80 3 default).after (oneServer 80) done)) ↔
      ∀ done event, done ++ [event] <+: [.readable (some (lit "no request")) siteOs] →
        KeepsServer (oneServer 80) ((new 80 3 default).after (oneServer 80) done) event :=
  sameServer_iff default (oneServer 80) 80 3 (by decide) _

/-- Two servers on one port. -/
def twoServers : WebservConfig :=
  .ofServConfs [{ (default : ServerConfig) with port := 80, server := [lit "a"] },
    { (default : ServerConfig) with port := 80, server := [lit "b"] }]

/-- A request to the second server, and then no request. -/
theorem not_sameServer :
    ¬ ∀ (conf : ServerConfig) (config : WebservConfig) (acceptedFd : Int) (port : Nat),
      (new acceptedFd port conf).port ∈ config.ports → ∀ events : List ClientEvent,
        SameServer config ((new acceptedFd port conf).after config events) := by
  intro h
  let request := lit "GET / HTTP/1.1\r\nHost: b\r\n\r\n"
  let first := ((handleReadEvent (some request) siteOs twoServers).run (new 80 3 default)).2
  -- the whole response is sent
  let sent : Send := .sent <| (first.currentResponse.map fun response =>
    (HttpResponseSerializer.serialize response).size).getD 0
  let second := ((handleWriteEvent sent).run first).2
  have hsame := h default twoServers 80 3 (by decide)
    [.readable (some request) siteOs, .writable sent,
      .readable (some (lit "no request")) siteOs]
  change SameServer twoServers
    ((handleReadEvent (some (lit "no request")) siteOs twoServers).run second).2 at hsame
  obtain ⟨hfirst, hport₁, -⟩ :=
    @handleReadEvent_parses twoServers (new 80 3 default) request (by decide) siteOs
  obtain ⟨hsecond, hport₂, -⟩ := @handleWriteEvent_keeps first sent
  obtain ⟨hthird, hport₃, -⟩ :=
    @handleReadEvent_parses twoServers second (lit "no request") (by decide) siteOs
  have hparser : second.requestParser =
      (fresh default).parse (cStr request) 80 twoServers := hsecond.trans hfirst
  have hport : second.port = 80 := hport₂.trans hport₁
  rw [hparser, hport] at hthird
  have hcompletes : completes
      (((fresh default).parse (cStr request) 80 twoServers).parse (cStr (lit "no request")) 80
        twoServers) := by decide
  obtain ⟨_, conf, -, rfl, hfind, rfl, -⟩ := hsame (hthird.symm ▸ hcompletes)
  rw [hthird, hport₃, hport] at hfind
  exact absurd hfind (by decide)

end ClientSocket

end Webserv
