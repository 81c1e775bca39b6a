import Webserv.Request.HttpParser

/-!
# `RequestLineParser`
-/

namespace Webserv

open Text HttpParser

structure RequestLine where
  method : Str
  uri : Str
  version : Str
  deriving Inhabited, DecidableEq

namespace RequestLineParser

def isSpace (c : Byte) : Bool := c = 32

def parseMethod (line : Str) : Except Exn (Str × StringPos) := do
  let methodEnd := findFirst isSpace line (some 0)
  let method ← substr line (some 0) methodEnd
  return (method, methodEnd)

def parseUri (line : Str) (offset : StringPos) : Except Exn (Str × StringPos) := do
  let uriBegin := findFirst (fun c => !isSpace c) line offset
  let uriEnd := findFirst isSpace line uriBegin
  let uri ← substr line uriBegin (StringPos.sub uriEnd uriBegin)
  return (uri, uriEnd)

def parseHttpVersion (line : Str) (offset : StringPos) : Except Exn Str :=
  substr line (some (StringPos.succ offset))

def validateMethod (method : Str) : Except Exn Unit :=
  if method = [] then .error (.parseError HttpStatus.badRequest "No Method")
  else if method ≠ lit "GET" ∧ method ≠ lit "POST" ∧ method ≠ lit "DELETE" then
    .error (.parseError HttpStatus.badRequest "Invalid Method")
  else .ok ()

def validateUri (uri : Str) : Except Exn Unit :=
  if uri = [] then .error (.parseError HttpStatus.badRequest "No Uri") else .ok ()

def validateHttpVersion (httpVersion : Str) : Except Exn Unit := do
  if httpVersion.length ≠ 8 then
    .error (.parseError HttpStatus.badRequest "HttpVersion length error")
  if httpVersion.take 5 ≠ lit "HTTP/" then
    .error (.parseError HttpStatus.badRequest "Invalid Protocol")
  let versionNum ← substr httpVersion (some 5)
  if versionNum.getD 1 0 ≠ 46 then
    .error (.parseError HttpStatus.badRequest ". is not found")
  if !isdigit (versionNum.getD 0 0) || !isdigit (versionNum.getD 2 0) then
    .error (.parseError HttpStatus.badRequest "version has other than digit")
  if versionNum.getD 0 0 ≠ 49 || versionNum.getD 2 0 ≠ 49 then
    .error (.parseError HttpStatus.httpVersionNotSupported "version is not supported")

def validateRequestLine (requestLine : RequestLine) : Except Exn Unit := do
  validateMethod requestLine.method
  validateUri requestLine.uri
  validateHttpVersion requestLine.version

def parse (line : Str) : Except Exn RequestLine := do
  let (method, offset) ← parseMethod line
  let (uri, offset) ← parseUri line offset
  let version ← parseHttpVersion line offset
  let requestLine : RequestLine := ⟨method, uri, version⟩
  validateRequestLine requestLine
  return requestLine

end RequestLineParser

end Webserv
