import Webserv.Config.ServerConfig
import Webserv.Control.Method
import Webserv.Request.MessageBodyParser
import Webserv.Request.RequestHeader

/-!
# `HttpRequestParser`

One parser object lives as long as its connection.  `parse` takes what one `recv` returned and
leaves the outcome in the fields.  An exception thrown inside `parse` keeps the assignments made
before the throw.
-/

namespace Webserv

open Text HttpParser

/-- `HttpRequest` -/
structure HttpRequest where
  header : RequestHeader
  body : Str
  serverConfig : ServerConfig
  responseStatusCode : Str
  deriving Inhabited, DecidableEq

inductive ParseStatus
  | header
  | body
  | chunkedBody
  | done
  | error
  deriving DecidableEq, Repr

structure HttpRequestParser where
  parseStatus : ParseStatus
  parsedHeader : RequestHeader
  parsedBody : Str
  chunkedRequest : Str
  errorCode : Str
  servConfig : ServerConfig

abbrev ParserM := Method HttpRequestParser Exn

namespace HttpRequestParser

/-- The constructor.  The numbers of `serv_config_` are not initialised, so the whole field is
an argument. -/
def fresh (servConfig : ServerConfig) : HttpRequestParser :=
  ⟨.header, .empty, [], [], [], servConfig⟩

def findHeaderEnd (unparsedReq : Str) : Except Exn Nat :=
  match findFrom unparsedReq (CRLF ++ CRLF) 0 with
  | none => .error (.parseError HttpStatus.badRequest "No header_end")
  | some pos => .ok (pos + 4)

def fetchUnparsedHeader (unparsedReq : Str) : Except Exn Str := do
  substr unparsedReq (some 0) (some (← findHeaderEnd unparsedReq))

def fetchUnparsedBody (unparsedReq : Str) : Except Exn Str := do
  substr unparsedReq (some (← findHeaderEnd unparsedReq))

def changeStatus (nextStatus : ParseStatus) : ParserM Unit :=
  modify fun p => { p with parseStatus := nextStatus }

def clear : ParserM Unit := do
  modify fun p =>
    { p with
      parsedHeader := .empty
      parsedBody := []
      chunkedRequest := []
      errorCode := [] }
  changeStatus .header

def parseRequestHeader (unparsedStr : Str) : ParserM RequestHeader := do
  let unparsedHeader ← fetchUnparsedHeader unparsedStr
  let header ← RequestHeaderParser.parse unparsedHeader
  if header.transferEncodingIsChunked then
    changeStatus .chunkedBody
  else
    changeStatus .body
  return header

def parseBody (unparsedStr : Str) (contentLength : Nat) : ParserM Str := do
  let unparsedBody ← fetchUnparsedBody unparsedStr
  let body ← MessageBodyParser.parseBody unparsedBody contentLength
  changeStatus .done
  return body

def parseChunkedBody (unparsedStr : Str) : ParserM Str := do
  let body ← MessageBodyParser.parseChunkedBody unparsedStr
  changeStatus .done
  return body

/-- The end of a chunked request as `parse` looks for it. -/
def chunkedEnd : Str := lit "0\r\n\r\n"

/-! ## The `try` block of `parse`

One step for each of its `if` statements. -/

def clearStep : ParserM Unit := do
  let p ← get
  if p.parseStatus = .done ∨ p.parseStatus = .error then
    clear

def headerStep (unparsedStr : Str) (port : Nat) (config : WebservConfig) : ParserM Unit := do
  let p ← get
  if p.parseStatus = .header then
    let header ← parseRequestHeader unparsedStr
    modify fun p => { p with parsedHeader := header }
    let servConfig ← config.findServerConfig port header.host
    modify fun p => { p with servConfig := servConfig }

def bodyStep (unparsedStr : Str) : ParserM Unit := do
  let p ← get
  if p.parseStatus = .body then
    let contentLength ← p.parsedHeader.contentLength
    let body ← parseBody unparsedStr contentLength
    modify fun p => { p with parsedBody := body }

def chunkedStep (unparsedStr : Str) : ParserM Unit := do
  let p ← get
  if p.parseStatus = .chunkedBody then
    let chunkedRequest := p.chunkedRequest ++ unparsedStr
    modify fun p => { p with chunkedRequest := chunkedRequest }
    if chunkedRequest.length > kMaxHeaderLength + kMaxBodyLength then
      throw (.parseError HttpStatus.payloadTooLarge "body is too long")
    let headerEnd ← findHeaderEnd chunkedRequest
    if (findFrom chunkedRequest chunkedEnd headerEnd).isSome then
      let unparsedBody ← fetchUnparsedBody chunkedRequest
      let body ← parseChunkedBody unparsedBody
      modify fun p => { p with parsedBody := body }

def parseTry (unparsedStr : Str) (port : Nat) (config : WebservConfig) : ParserM Unit := do
  clearStep
  headerStep unparsedStr port config
  bodyStep unparsedStr
  chunkedStep unparsedStr

/-- The status code that the two `catch` clauses of `parse` store. -/
def errorStatus : Exn → Str
  | .parseError status _ => status
  | _ => HttpStatus.internalServerError

/-- The end of `parse`: its `catch` clauses. -/
def settle : Except Exn Unit × HttpRequestParser → HttpRequestParser
  | (.ok (), p) => p
  | (.error e, p) => { p with parseStatus := .error, errorCode := errorStatus e }

def parse (p : HttpRequestParser) (unparsedStr : Str) (port : Nat) (config : WebservConfig) :
    HttpRequestParser :=
  settle ((parseTry unparsedStr port config).run p)

def errorOccured (p : HttpRequestParser) : Bool := p.parseStatus = .error

def finished (p : HttpRequestParser) : Bool := p.parseStatus = .done

def buildRequest (p : HttpRequestParser) : HttpRequest where
  header := p.parsedHeader
  body := p.parsedBody
  serverConfig := p.servConfig
  responseStatusCode := if p.errorOccured then p.errorCode else HttpStatus.ok

end HttpRequestParser

end Webserv
