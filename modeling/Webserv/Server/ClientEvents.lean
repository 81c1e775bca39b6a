import Webserv.Request.Session
import Webserv.Server.ClientSocket

/-!
# What happens on one connection

The read and the write event of a client, and what always holds of it: the parser has seen what
was received, and each response was built from the request that the receive before it completed.
-/

namespace Webserv

open Text HttpRequestParser

namespace ClientSocket

/-! ## The read event -/

/-- The client when these bytes are parsed. -/
def fed (clnt : ClientSocket) (bytes : Str) (config : WebservConfig) : ClientSocket :=
  { clnt with
    requestParser := clnt.requestParser.parse (cStr bytes) clnt.port config
    history := clnt.history ++ [.received bytes] }

/-- The parser has a request for the builder. -/
def completes (p : HttpRequestParser) : Prop := p.finished = true ∨ p.errorOccured = true

instance (p : HttpRequestParser) : Decidable (completes p) := by
  unfold completes
  infer_instance

/-- The client when the request is taken from the parser. -/
def requested (clnt : ClientSocket) : ClientSocket :=
  { clnt with currentRequest := some clnt.requestParser.buildRequest }

def responded (clnt : ClientSocket) (response : HttpResponse) : ClientSocket :=
  { clnt with currentResponse := some response }

/-- The client at the end of a read event that completes a request. -/
def answered (clnt : ClientSocket) (response : HttpResponse) : ClientSocket :=
  { clnt.requested.responded response with state := .write }

/-- The client when `send` took the response. -/
def recorded (clnt : ClientSocket) (response : HttpResponse) : ClientSocket :=
  { clnt with history := clnt.history ++ [.sent response] }

/-- The client at the end of a write event. -/
def delivered (clnt : ClientSocket) (response : HttpResponse) : ClientSocket :=
  { clnt.recorded response with state := .read }

theorem handleReadEvent_failed (os : Os) (config : WebservConfig) (clnt : ClientSocket) :
    (handleReadEvent none os config).run clnt =
      (.error (.std (.runtimeError "recv() failed")), clnt) := rfl

theorem handleReadEvent_eof (os : Os) (config : WebservConfig) (clnt : ClientSocket) :
    (handleReadEvent (some []) os config).run clnt = (.ok (), { clnt with state := .close }) := rfl

section

variable {bytes : Str} {config : WebservConfig} {clnt : ClientSocket}

theorem completes_iff {p : HttpRequestParser} :
    completes p ↔ (p.finished || p.errorOccured) = true := by
  rw [completes, Bool.or_eq_true]

theorem generateRequest_completes (h : completes (clnt.fed bytes config).requestParser) :
    (generateRequest bytes config).run clnt = (.ok (), (clnt.fed bytes config).requested) := by
  rw [generateRequest, Method.run_modify_bind, Method.run_get_bind, Method.run_ite]
  exact if_pos (completes_iff.mp h)

theorem generateRequest_waits (h : ¬ completes (clnt.fed bytes config).requestParser) :
    (generateRequest bytes config).run clnt = (.ok (), clnt.fed bytes config) := by
  rw [generateRequest, Method.run_modify_bind, Method.run_get_bind, Method.run_ite]
  exact if_neg fun hor => h (completes_iff.mpr hor)

theorem handleReadEvent_waits (hbytes : bytes ≠ [])
    (h : ¬ completes (clnt.fed bytes config).requestParser) (os : Os) :
    (handleReadEvent (some bytes) os config).run clnt = (.ok (), clnt.fed bytes config) := by
  have hrecv : (recvFromClient (some bytes)).run clnt = (.ok bytes, clnt) := rfl
  rw [handleReadEvent, Method.run_bind_ok hrecv, if_neg hbytes,
    Method.run_bind_ok (generateRequest_waits h), Method.run_get_bind, Method.run_ite]
  exact if_neg fun hor => h (completes_iff.mpr hor)

theorem generateResponse_ok {os : Os} {request : HttpRequest} {response : HttpResponse}
    (hrequest : clnt.currentRequest = some request)
    (h : responseTo os clnt.port config request = .ok response) :
    (generateResponse os config).run clnt = (.ok (), clnt.responded response) := by
  have hlift : (liftM (responseTo os clnt.port config request) : ClientM HttpResponse).run clnt =
      (.ok response, clnt) := by
    rw [Method.run_lift, h]
  rw [generateResponse, Method.run_get_bind, hrequest]
  exact Method.run_bind_ok hlift _

theorem generateResponse_error {os : Os} {request : HttpRequest} {e : Raised}
    (hrequest : clnt.currentRequest = some request)
    (h : responseTo os clnt.port config request = .error e) :
    (generateResponse os config).run clnt = (.error e, clnt) := by
  have hlift : (liftM (responseTo os clnt.port config request) : ClientM HttpResponse).run clnt =
      (.error e, clnt) := by
    rw [Method.run_lift, h]
  rw [generateResponse, Method.run_get_bind, hrequest]
  exact Method.run_bind_error hlift _

/-- The end of the read event, once a request is complete. -/
theorem handleReadEvent_completes (hbytes : bytes ≠ [])
    (h : completes (clnt.fed bytes config).requestParser) (os : Os) :
    (handleReadEvent (some bytes) os config).run clnt =
      (generateResponse os config >>= fun _ => modify fun clnt => { clnt with state := .write }).run
        (clnt.fed bytes config).requested := by
  have hrecv : (recvFromClient (some bytes)).run clnt = (.ok bytes, clnt) := rfl
  rw [handleReadEvent, Method.run_bind_ok hrecv, if_neg hbytes,
    Method.run_bind_ok (generateRequest_completes h), Method.run_get_bind, Method.run_ite]
  exact if_pos (completes_iff.mp h)

theorem handleReadEvent_answers (hbytes : bytes ≠ [])
    (h : completes (clnt.fed bytes config).requestParser) {os : Os} {response : HttpResponse}
    (hresponse : responseTo os clnt.port config (clnt.fed bytes config).requestParser.buildRequest =
      .ok response) :
    (handleReadEvent (some bytes) os config).run clnt =
      (.ok (), (clnt.fed bytes config).answered response) := by
  have hgenerate : (generateResponse os config).run (clnt.fed bytes config).requested =
      (.ok (), (clnt.fed bytes config).requested.responded response) :=
    generateResponse_ok rfl hresponse
  rw [handleReadEvent_completes hbytes h]
  exact Method.run_bind_ok hgenerate _

theorem handleReadEvent_throws (hbytes : bytes ≠ [])
    (h : completes (clnt.fed bytes config).requestParser) {os : Os} {e : Raised}
    (hresponse : responseTo os clnt.port config (clnt.fed bytes config).requestParser.buildRequest =
      .error e) :
    (handleReadEvent (some bytes) os config).run clnt =
      (.error e, (clnt.fed bytes config).requested) := by
  have hgenerate : (generateResponse os config).run (clnt.fed bytes config).requested =
      (.error e, (clnt.fed bytes config).requested) := generateResponse_error rfl hresponse
  rw [handleReadEvent_completes hbytes h]
  exact Method.run_bind_error hgenerate _

theorem handleWriteEvent_sent {response : HttpResponse}
    (h : clnt.currentResponse = some response) :
    (handleWriteEvent (.sent (HttpResponseSerializer.serialize response).size)).run clnt =
      (.ok (), clnt.delivered response) := by
  have hsend : (sendResponse (.sent (HttpResponseSerializer.serialize response).size)).run clnt =
      (.ok (), clnt.recorded response) := by
    rw [sendResponse, Method.run_get_bind, h]
    dsimp only
    rw [if_neg (not_not.mpr rfl)]
    rfl
  rw [handleWriteEvent, Method.run_bind_ok hsend]
  rfl

/-- Everything else that `send` may do leaves the handler. -/
theorem handleWriteEvent_throws {response : HttpResponse}
    (h : clnt.currentResponse = some response) {send : Send}
    (hsend : send ≠ .sent (HttpResponseSerializer.serialize response).size) :
    ∃ e, (handleWriteEvent send).run clnt = (.error e, clnt) := by
  have hthrow : ∃ e, (sendResponse send).run clnt = (.error e, clnt) := by
    rw [sendResponse, Method.run_get_bind, h]
    cases send with
    | failed => exact ⟨_, rfl⟩
    | sigpipe => exact ⟨_, rfl⟩
    | sent size =>
      dsimp only
      rw [if_pos fun heq => hsend (congrArg Send.sent heq)]
      exact ⟨_, rfl⟩
  obtain ⟨e, hthrow⟩ := hthrow
  exact ⟨e, Method.run_bind_error hthrow _⟩

end

/-! ## The history of a connection -/

/-- What was received, as calls of the parser. -/
def inputs (port : Nat) (config : WebservConfig) (history : List Transfer) : List ParseCall :=
  history.filterMap fun
    | .received bytes => some ⟨cStr bytes, port, config⟩
    | .sent _ => none

/-- The last receive completed a request, and this is the response to it. -/
def AnswersLast (conf : ServerConfig) (port : Nat) (config : WebservConfig)
    (history : List Transfer) (response : HttpResponse) : Prop :=
  ∃ before bytes, history = before ++ [.received bytes] ∧
    completes (parseAll (fresh conf) (inputs port config history)) ∧
    ∃ os, responseTo os port config
      (parseAll (fresh conf) (inputs port config history)).buildRequest = .ok response

/-- A client in `WRITE` holds the request its last receive completed and the response to it. -/
def Pending (conf : ServerConfig) (config : WebservConfig) (clnt : ClientSocket) : Prop :=
  ∃ response, clnt.currentRequest = some clnt.requestParser.buildRequest ∧
    clnt.currentResponse = some response ∧
    AnswersLast conf clnt.port config clnt.history response

/-- What holds of a client between two events. -/
structure Sound (conf : ServerConfig) (config : WebservConfig) (clnt : ClientSocket) : Prop where
  parser : clnt.requestParser = parseAll (fresh conf) (inputs clnt.port config clnt.history)
  sent : ∀ before response after, clnt.history = before ++ .sent response :: after →
    AnswersLast conf clnt.port config before response
  pending : clnt.state = .write → Pending conf config clnt

/-- An element behind a list is the marked one or stands behind it. -/
theorem concat_eq_append_cons {α : Type*} {h before after : List α} {x y : α}
    (heq : h ++ [x] = before ++ y :: after) :
    (h = before ∧ x = y) ∨ ∃ after', h = before ++ y :: after' := by
  rcases List.eq_nil_or_concat after with rfl | ⟨after', last, rfl⟩
  · obtain ⟨hinit, hlast⟩ := List.append_inj' heq rfl
    exact Or.inl ⟨hinit, List.singleton_inj.mp hlast⟩
  · rw [List.concat_eq_append, ← List.cons_append, ← List.append_assoc] at heq
    exact Or.inr ⟨after', (List.append_inj' heq rfl).1⟩

section

variable {conf : ServerConfig} {config : WebservConfig} {clnt : ClientSocket}

theorem sound_new (conf : ServerConfig) (config : WebservConfig) (acceptedFd : Int) (port : Nat) :
    Sound conf config (new acceptedFd port conf) where
  parser := rfl
  sent := fun before _ _ h => absurd h.symm (by simp [new])
  pending := fun h => nomatch h

theorem Sound.fed (h : Sound conf config clnt) (hstate : clnt.state ≠ .write) (bytes : Str) :
    Sound conf config (clnt.fed bytes config) where
  parser := by
    have hinputs : inputs clnt.port config (clnt.history ++ [.received bytes]) =
        inputs clnt.port config clnt.history ++ [⟨cStr bytes, clnt.port, config⟩] :=
      List.filterMap_append
    change clnt.requestParser.parse (cStr bytes) clnt.port config = _
    rw [h.parser]
    exact (congrArg _ hinputs).trans (parseAll_concat _ _ _) |>.symm
  sent := by
    intro before response after heq
    rcases concat_eq_append_cons heq with ⟨-, hlast⟩ | ⟨after', heq'⟩
    · cases hlast
    · exact h.sent before response after' heq'
  pending := fun hwrite => absurd hwrite hstate

theorem Sound.answered {bytes : Str} (h : Sound conf config (clnt.fed bytes config))
    (hcompletes : completes (clnt.fed bytes config).requestParser) {os : Os}
    {response : HttpResponse}
    (hresponse : responseTo os clnt.port config (clnt.fed bytes config).requestParser.buildRequest =
      .ok response) :
    Sound conf config ((clnt.fed bytes config).answered response) where
  parser := h.parser
  sent := h.sent
  pending := by
    intro _
    rw [h.parser] at hcompletes hresponse
    exact ⟨response, rfl, rfl, clnt.history, bytes, rfl, hcompletes, os, hresponse⟩

theorem Sound.delivered (h : Sound conf config clnt) (hstate : clnt.state = .write)
    {response : HttpResponse} (hresponse : clnt.currentResponse = some response) :
    Sound conf config (clnt.delivered response) where
  parser := by
    have hinputs : inputs clnt.port config (clnt.history ++ [.sent response]) =
        inputs clnt.port config clnt.history :=
      (List.filterMap_append).trans (List.append_nil _)
    exact h.parser.trans (congrArg _ hinputs.symm)
  sent := by
    intro before response' after heq
    rcases concat_eq_append_cons heq with ⟨rfl, hlast⟩ | ⟨after', heq'⟩
    · obtain ⟨response'', -, hresponse', hanswers⟩ := h.pending hstate
      rw [hresponse] at hresponse'
      obtain rfl := Option.some.inj hresponse'
      obtain rfl := Transfer.sent.inj hlast
      exact hanswers
    · exact h.sent before response' after' heq'
  pending := fun h => nomatch h

theorem Sound.closed (h : Sound conf config clnt) :
    Sound conf config { clnt with state := .close } :=
  ⟨h.parser, h.sent, fun h => nomatch h⟩

end

end ClientSocket

end Webserv
