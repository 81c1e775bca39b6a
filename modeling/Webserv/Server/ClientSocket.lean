import Webserv.Request.HttpRequestConverter
import Webserv.Response.HttpResponseBuilder

/-!
# `ClientSocket`

The server's end of one connection.  Exceptions of the system calls and of the builder leave the
handlers.
-/

namespace Webserv

open Text

inductive ClientState
  | read
  | write
  | close
  deriving DecidableEq, Repr

/-- What went over the connection. -/
inductive Transfer
  | received (bytes : Str)
  | sent (response : HttpResponse)
  deriving DecidableEq

/-- A null pointer is `none`.  `history` records the data received and the responses sent. -/
structure ClientSocket where
  port : Nat
  fd : Int
  state : ClientState
  requestParser : HttpRequestParser
  currentRequest : Option HttpRequest
  currentResponse : Option HttpResponse
  history : List Transfer

abbrev ClientM := Method ClientSocket Raised

inductive Send
  | failed
  | sent (size : Nat)
  /-- the peer is gone: the signal kills the process -/
  | sigpipe
  deriving DecidableEq, Repr

namespace ClientSocket

def kRecvBufferSize : Nat := 65536

/-- `ASocket(accepted_fd, port)`: the parameter called `accepted_fd` becomes the port and the one
called `port` the descriptor, each converted to the type of the other and back. -/
def new (acceptedFd : Int) (port : Nat) (servConfig : ServerConfig) : ClientSocket where
  port := sizeOfInt acceptedFd
  fd := intOfSize port
  state := .read
  requestParser := .fresh servConfig
  currentRequest := none
  currentResponse := none
  history := []

def isWaitingForRequest (clnt : ClientSocket) : Bool := clnt.state = .read

def canResponse (clnt : ClientSocket) : Bool := clnt.state = .write

def shouldClose (clnt : ClientSocket) : Bool := clnt.state = .close

/-- `received` is `none` when `recv` failed, and empty at the end of the stream. -/
def recvFromClient (received : Option Str) : ClientM Str :=
  match received with
  | none => throw (.std (.runtimeError "recv() failed"))
  | some bytes => return bytes

/-- The parser gets the buffer as a C string. -/
def generateRequest (bytes : Str) (config : WebservConfig) : ClientM Unit := do
  modify fun clnt =>
    { clnt with
      requestParser := clnt.requestParser.parse (cStr bytes) clnt.port config
      history := clnt.history ++ [.received bytes] }
  let clnt ← get
  if clnt.requestParser.finished || clnt.requestParser.errorOccured then
    modify fun clnt => { clnt with currentRequest := some clnt.requestParser.buildRequest }

/-- The response to a request, in `generateResponse`. -/
def responseTo (os : Os) (port : Nat) (config : WebservConfig) (request : HttpRequest) :
    Except Raised HttpResponse := do
  let servConfig ← Raised.lift (config.findServerConfig port request.header.host)
  let confDto := ConfigConverter.toDTO servConfig
  let reqDto := HttpRequestConverter.toDTO request
  ((HttpResponseBuilder.build os reqDto).run (.new confDto)).1

def generateResponse (os : Os) (config : WebservConfig) : ClientM Unit := do
  let clnt ← get
  match clnt.currentRequest with
  | none => throw .undefined
  | some request =>
    let response ← responseTo os clnt.port config request
    modify fun clnt => { clnt with currentResponse := some response }

def handleReadEvent (received : Option Str) (os : Os) (config : WebservConfig) : ClientM Unit := do
  let bytes ← recvFromClient received
  if bytes = [] then
    modify fun clnt => { clnt with state := .close }
  else do
    generateRequest bytes config
    let clnt ← get
    if clnt.requestParser.finished || clnt.requestParser.errorOccured then do
      generateResponse os config
      modify fun clnt => { clnt with state := .write }

def sendResponse (send : Send) : ClientM Unit := do
  let clnt ← get
  match clnt.currentResponse with
  | none => throw .undefined
  | some response =>
    let plainTxt := HttpResponseSerializer.serialize response
    match send with
    | .failed => throw (.std (.runtimeError "send() failed"))
    | .sigpipe => throw .sigpipe
    | .sent size =>
      if size ≠ plainTxt.size then
        throw (.std (.runtimeError "send() failed"))
      modify fun clnt => { clnt with history := clnt.history ++ [.sent response] }

def handleWriteEvent (send : Send) : ClientM Unit := do
  sendResponse send
  modify fun clnt => { clnt with state := .read }

end ClientSocket

end Webserv
