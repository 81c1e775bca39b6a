import Webserv.Exception

/-!
# `HttpResponse`, `HttpResponseSerializer` and `MIMEType`
-/

namespace Webserv

open Text

structure HttpResponseHeaderDTO where
  version : Str
  statusCode : Str
  reasonPhrase : Str
  server : Str
  date : Str
  contentType : Str
  contentLength : Str
  lastModified : Str
  connection : Str
  etag : Str
  acceptRanges : Str
  deriving Inhabited, DecidableEq

/-- The fields that are copied from the header, and the body. -/
structure HttpResponse extends HttpResponseHeaderDTO where
  body : Str
  deriving Inhabited, DecidableEq

/-- `HttpResponsePlainText` -/
structure HttpResponsePlainText where
  text : Str
  size : Nat
  deriving DecidableEq

namespace HttpResponseSerializer

def CRLF : Str := lit "\r\n"
def SP : Str := lit " "

def serialize (res : HttpResponse) : HttpResponsePlainText :=
  let text :=
    lit "HTTP/" ++ res.version ++ SP ++ res.statusCode ++ SP ++ res.reasonPhrase ++ CRLF ++
      lit "Server: " ++ res.server ++ CRLF ++
      lit "Date: " ++ res.date ++ CRLF ++
      lit "Content-Type: " ++ res.contentType ++ CRLF ++
      lit "Content-Length: " ++ res.contentLength ++ CRLF ++
      lit "Last-Modified: " ++ res.lastModified ++ CRLF ++
      lit "Connection: " ++ res.connection ++ CRLF ++
      lit "ETag: " ++ res.etag ++ CRLF ++
      lit "Accept-Ranges: " ++ res.acceptRanges ++ CRLF ++ CRLF ++
      res.body ++ CRLF ++ CRLF
  ⟨text, text.length⟩

end HttpResponseSerializer

namespace MIMEType

def octetStream : Str := lit "application/octet-stream"

def mimeTypeMap : Std.ExtTreeMap Str Str :=
  .ofList
    [(lit "html", lit "text/html"),
      (lit "htm", lit "text/html"),
      (lit "shtml", lit "text/html"),
      (lit "css", lit "text/css"),
      (lit "xml", lit "text/xml"),
      (lit "gif", lit "image/gif"),
      (lit "jpeg", lit "image/jpeg"),
      (lit "jpg", lit "image/jpeg"),
      (lit "js", lit "application/javascript"),
      (lit "txt", lit "text/plain"),
      (lit "png", lit "image/png"),
      (lit "json", lit "application/json"),
      (lit "pdf", lit "application/pdf"),
      (lit "zip", lit "application/zip"),
      (lit "bin", lit "application/octet-stream"),
      (lit "exe", lit "application/octet-stream"),
      (lit "img", lit "application/octet-stream"),
      (lit "dmg", lit "application/octet-stream"),
      (lit "ico", lit "image/x-icon")]

def default : Str := octetStream

end MIMEType

end Webserv
