import Webserv.Request.ErrorCodes
import Webserv.Request.Session
import Webserv.Response.ErrorResponse
import Webserv.Server.ClientSocket

/-!
# The status of a rejected request

The code the parser decided on is passed through request, DTO and builder.  The builder looks at
it behind `getcwd` and behind the split of the path, so it is replaced when one of them fails.
-/

namespace Webserv

open Text HttpRequestParser HttpResponseBuilder

theorem toInt_errorCodes : ∀ code ∈ errorCodes, decimalInt (utility.toInt code) = code := by decide

theorem statusOk_notMem_errorCodes : HttpStatus.ok ∉ errorCodes := by decide

theorem Session.errorCode_mem {s : Session} (h : s.shown.errorOccured = true) :
    s.shown.errorCode ∈ errorCodes := by
  cases hverdict : s.verdict with
  | waiting header =>
    rw [shown, hverdict] at h
    cases h
  | accepted header body =>
    rw [shown, hverdict] at h
    cases h
  | rejected header code =>
    rw [shown, hverdict]
    exact code_mem_errorCodes hverdict

/-- A response to a request that the parser rejected. -/
theorem ClientSocket.responseTo_rejected (os : Os) {port : Nat} {config : WebservConfig}
    (hport : port ∈ config.ports) {request : HttpRequest}
    (hcode : request.responseStatusCode ∈ errorCodes) :
    ∃ r, responseTo os port config request = .ok r ∧
      (r.statusCode = request.responseStatusCode ↔
        request.responseStatusCode = HttpStatus.internalServerError ∨
          (os.getcwd ≠ none ∧ Path.HasSlash request.header.requestLine.uri)) := by
  obtain ⟨conf, hconf⟩ := WebservConfig.findServerConfig_isOk hport request.header.host
  let req := HttpRequestConverter.toDTO request
  let b := HttpResponseBuilder.new (ConfigConverter.toDTO conf)
  have hresponse : responseTo os port config request = ((build os req).run b).1 := by
    rw [responseTo, hconf]
    rfl
  have hstatus : req.responseStatusCode ≠ HttpStatus.ok := fun h =>
    statusOk_notMem_errorCodes (h ▸ hcode)
  have hanswer : ∀ status b', Answers status b' ((build os req).run b) →
      ∃ r, responseTo os port config request = .ok r ∧ r.statusCode = decimalInt status := by
    intro status b' h
    obtain ⟨r, _, hrun, herror, -⟩ := h
    exact ⟨r, by rw [hresponse, hrun], herror.statusCode⟩
  have hreplaced : ∀ b', Answers 500 b' ((build os req).run b) →
      ¬ (os.getcwd ≠ none ∧ Path.HasSlash request.header.requestLine.uri) →
      ∃ r, responseTo os port config request = .ok r ∧
        (r.statusCode = request.responseStatusCode ↔
          request.responseStatusCode = HttpStatus.internalServerError ∨
            (os.getcwd ≠ none ∧ Path.HasSlash request.header.requestLine.uri)) := by
    intro b' h hnot
    obtain ⟨r, hr, hcode⟩ := hanswer 500 b' h
    refine ⟨r, hr, ?_⟩
    rw [hcode, or_iff_left hnot]
    exact eq_comm
  cases hcwd : os.getcwd with
  | none => exact hcwd ▸ hreplaced b (build_noCwd hcwd req b) (fun h => h.1 hcwd)
  | some cwd =>
    by_cases hslash : Path.HasSlash req.path
    · obtain ⟨r, hr, heq⟩ := hanswer _ b (build_failed_request hcwd hslash hstatus b)
      refine ⟨r, hr, iff_of_true ?_ (Or.inr ⟨by simp, hslash⟩)⟩
      rw [heq]
      exact toInt_errorCodes _ hcode
    · exact hcwd ▸ hreplaced b (build_noSlash hcwd hslash b) (fun h => hslash h.2)

/-- The code of a rejected request reaches its response if and only if nothing fails on the
way. -/
theorem statusCode_preserved_iff (servConfig : ServerConfig) (port : Nat) (config : WebservConfig)
    (hport : port ∈ config.ports) (buffers : List Str) (os : Os)
    (herror : (parseAll (fresh servConfig) (buffers.map (⟨·, port, config⟩))).errorOccured) :
    let p := parseAll (fresh servConfig) (buffers.map (⟨·, port, config⟩))
    ∃ r, ClientSocket.responseTo os port config p.buildRequest = .ok r ∧
      (r.statusCode = p.errorCode ↔
        p.errorCode = HttpStatus.internalServerError ∨
          (os.getcwd ≠ none ∧ Path.HasSlash p.parsedHeader.requestLine.uri)) := by
  intro p
  have hne : buffers.map (fun s => (⟨s, port, config⟩ : ParseCall)) ≠ [] := by
    intro h
    rw [h] at herror
    cases herror
  have hcalls : ∀ c ∈ buffers.map (fun s => (⟨s, port, config⟩ : ParseCall)), c.Configured := by
    intro c hc
    obtain ⟨s, -, rfl⟩ := List.mem_map.mp hc
    exact hport
  have hp : p = _ := Session.parseAll_fresh hne hcalls servConfig
  have hcode : p.errorCode ∈ errorCodes := by
    have herror : p.errorOccured := herror
    rw [hp] at herror ⊢
    exact Session.errorCode_mem herror
  have hrequest : p.buildRequest.responseStatusCode = p.errorCode := if_pos herror
  have hresponse := ClientSocket.responseTo_rejected os hport (hrequest ▸ hcode)
  rw [hrequest] at hresponse
  exact hresponse

/-- A file system with a current directory and nothing in it. -/
def emptyOs : Os where
  getcwd := some (lit "/")
  opendir := fun _ => none
  access := fun _ => false
  ifstream := fun _ => none
  stat := fun _ => none
  now := lit "Thu Jan  1 00:00:00 1970\n"
  cgi := .silent

theorem statusCode_preserved_iff_short_body :
    let p := parseAll (fresh default)
      ([lit "GET / HTTP/1.1\r\nHost: a\r\nContent-Length: 1\r\n\r\n"].map (⟨·, 80, oneServer 80⟩))
    ∃ r, ClientSocket.responseTo emptyOs 80 (oneServer 80) p.buildRequest = .ok r ∧
      (r.statusCode = p.errorCode ↔
        p.errorCode = HttpStatus.internalServerError ∨
          (emptyOs.getcwd ≠ none ∧ Path.HasSlash p.parsedHeader.requestLine.uri)) :=
  statusCode_preserved_iff default 80 (oneServer 80) (by decide) _ emptyOs (by decide)

/-- A bad request is answered as an internal error. -/
theorem statusCode_of_no_request :
    let p := parseAll (fresh default) [⟨lit "no request", 80, oneServer 80⟩]
    p.errorOccured = true ∧ p.errorCode = lit "400" ∧
      ∃ r, ClientSocket.responseTo emptyOs 80 (oneServer 80) p.buildRequest = .ok r ∧
        r.statusCode = lit "500" := by
  refine ⟨by decide, by decide, _, rfl, by decide⟩

end Webserv
