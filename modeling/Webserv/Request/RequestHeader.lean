import Webserv.Request.HeaderFieldParser
import Webserv.Request.RequestLineParser

/-!
# `RequestHeader` and `RequestHeaderParser`
-/

namespace Webserv

open Text HttpParser

structure RequestHeader where
  requestLine : RequestLine
  headerMap : HeaderFieldMap
  host : Str
  deriving Inhabited, DecidableEq

namespace RequestHeader

/-- A default-constructed header. -/
def empty : RequestHeader := ⟨⟨[], [], []⟩, ∅, []⟩

def contentLength (header : RequestHeader) : Except Exn Nat :=
  match header.headerMap[lit "content-length"]? with
  | some value => do return sizeOfInt (← utility.stoi value 10)
  | none => .ok 0

def transferEncodingIsChunked (header : RequestHeader) : Bool :=
  header.headerMap[lit "transfer-encoding"]? = some (lit "chunked")

end RequestHeader

namespace RequestHeaderParser

/-- `std::string::npos` as a number. -/
def nposValue : Nat := 18446744073709551615

def validateHeaderLength (unparsedStr : Str) : Except Exn Unit :=
  if unparsedStr.length = nposValue then
    .error (.parseError HttpStatus.badRequest "No header_end")
  else if unparsedStr.length > kMaxHeaderLength then
    .error (.parseError HttpStatus.requestHeaderFieldTooLarge "request is too long")
  else .ok ()

def parseRequestLine (unparsedStr : Str) (offset : Nat) : Except Exn (RequestLine × Nat) := do
  let (line, offset) ← getLine unparsedStr offset
  let requestLine ← RequestLineParser.parse line
  return (requestLine, offset)

/-- The loop of `parseHeaderField`: lines up to the first empty one.  Every line moves the
offset by at least two, which the fuel counts. -/
def readLines (unparsedStr : Str) : Nat → Nat → Except Exn (List Str × Nat)
  | 0, _ => .error (.parseError HttpStatus.badRequest "getLine() error")
  | fuel + 1, offset => do
    let (line, next) ← getLine unparsedStr offset
    if line = [] then return ([], next)
    let (lines, last) ← readLines unparsedStr fuel next
    return (line :: lines, last)

def parseHeaderField (unparsedStr : Str) (offset : Nat) : Except Exn (HostHeaders × Nat) := do
  let (headerfieldVec, offset) ← readLines unparsedStr (unparsedStr.length + 1) offset
  let headers ← HeaderFieldParser.parse headerfieldVec
  return (headers, offset)

/-- The value of `host` up to its first colon. -/
def parseHost (headers : HostHeaders) : Str :=
  match findFirst (· = 58) headers.hostValue (some 0) with
  | none => headers.hostValue
  | some colonPos => headers.hostValue.take colonPos

def parse (unparsedStr : Str) : Except Exn RequestHeader := do
  validateHeaderLength unparsedStr
  let (requestLine, offset) ← parseRequestLine unparsedStr 0
  let (headers, _) ← parseHeaderField unparsedStr offset
  return ⟨requestLine, headers.map, parseHost headers⟩

end RequestHeaderParser

end Webserv
