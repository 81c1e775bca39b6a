import Webserv.Request.Framing
import Webserv.Server.Containment

/-!
# A request in the receive buffer

`parse` takes a `std::string`, and `handleReadEvent` passes it the buffer as a C string.  So the
parser sees the bytes in front of the first NUL, and a request arrives whole if and only if it
has none.
-/

namespace Webserv

open Text HttpParser HttpRequestParser

namespace PlainRequest

/-- What is built from the request once it is read. -/
def request (r : PlainRequest) (serverConfig : ServerConfig) : HttpRequest where
  header := r.header
  body := r.body
  serverConfig := serverConfig
  responseStatusCode := HttpStatus.ok

end PlainRequest

namespace ClientSocket

variable {conf : ServerConfig} {config : WebservConfig} {clnt : ClientSocket}

/-- The parser of a client that waits for no chunk shows the verdict on what it is handed. -/
theorem Sound.fed_eq_report (h : Sound conf config clnt) (hport : clnt.port ∈ config.ports)
    (hidle : clnt.requestParser.parseStatus ≠ .chunkedBody) (bytes : Str) :
    ∃ servConfig, (clnt.fed bytes config).requestParser =
      report (chosenServer config clnt.port servConfig (Verdict.ofText (cStr bytes)).header)
        (cStr bytes) (Verdict.ofText (cStr bytes)) := by
  rw [h.parser] at hidle
  obtain ⟨servConfig, hfeed⟩ := Session.parseAll_idle hidle
  have hcall := hfeed [⟨cStr bytes, clnt.port, config⟩] (by simp) (by simpa [ParseCall.Configured])
  refine ⟨servConfig, ?_⟩
  rw [ClientSocket.fed, h.parser]
  refine Eq.trans hcall ?_
  rw [Session.receiveAll_cons, Session.receiveAll_nil,
    Session.receive_of_not_waiting (Session.start_not_isWaiting servConfig)]
  rfl

theorem text_ne_nil (r : PlainRequest) : r.text ≠ [] := by
  intro hnil
  have hinfix := splitHeader_infix (splitHeader_eq_some_iff.mpr ⟨r.block, rfl⟩ :
    splitHeader r.text = some (r.headerText, r.body))
  rw [hnil] at hinfix
  exact absurd hinfix (by decide)

/-- The client holds the request that was sent, and is about to answer it. -/
def Holds (r : PlainRequest) (clnt : ClientSocket) : Prop :=
  clnt.state = .write ∧ ∃ request, clnt.currentRequest = some request ∧
    request.responseStatusCode = HttpStatus.ok ∧ request.body = r.body

open HttpResponseBuilder (siteOs)

end ClientSocket

end Webserv
