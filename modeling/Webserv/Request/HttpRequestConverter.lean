import Webserv.Request.HttpRequestParser

/-!
# `HttpRequestDTO` and `HttpRequestConverter`
-/

namespace Webserv

open Text

structure HttpRequestDTO where
  method : Str
  path : Str
  version : Str
  connection : Str
  body : Str
  authorization : Str
  contentLength : Str
  contentType : Str
  accept : Str
  forwarded : Str
  referer : Str
  userAgent : Str
  xForwardedFor : Str
  host : Str
  port : Nat
  servernames : List Str
  responseStatusCode : Str
  deriving Inhabited, DecidableEq

namespace HttpRequestConverter

def searchFieldValue (nameValueMap : HeaderFieldMap) (name : Str) : Str :=
  nameValueMap[name]?.getD []

def toDTO (req : HttpRequest) : HttpRequestDTO :=
  let requestLine := req.header.requestLine
  let headers := req.header.headerMap
  { method := requestLine.method
    path := requestLine.uri
    version :=
      if (find (lit "HTTP/") requestLine.version).isSome then requestLine.version.drop 5 else []
    body := req.body
    connection := searchFieldValue headers (lit "connection")
    authorization := searchFieldValue headers (lit "authorization")
    contentLength := utility.toString req.body.length
    contentType := searchFieldValue headers (lit "content-type")
    accept := searchFieldValue headers (lit "accept")
    forwarded := searchFieldValue headers (lit "forwarded")
    referer := searchFieldValue headers (lit "referer")
    userAgent := searchFieldValue headers (lit "user_agent")
    xForwardedFor := searchFieldValue headers (lit "x_forwarded_for")
    host := req.serverConfig.host
    port := req.serverConfig.port
    servernames := req.serverConfig.server
    responseStatusCode := req.responseStatusCode }

end HttpRequestConverter

end Webserv
