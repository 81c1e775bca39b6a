import Webserv.Request.HttpParser

/-!
# `MessageBodyParser`
-/

namespace Webserv

open Text HttpParser

namespace MessageBodyParser

def parseBody (buffer : Str) (contentLength : Nat) : Except Exn Str :=
  if contentLength > kMaxBodyLength then
    .error (.parseError HttpStatus.payloadTooLarge "body is too long")
  else if buffer.length < contentLength then
    .error (.parseError HttpStatus.badRequest "body length is less than content_length")
  else .ok (buffer.take contentLength)

/-- The loop of `parseChunkedBody`.  Each chunk moves the offset, which the fuel counts. -/
def readChunks (buffer : Str) : Nat → Nat → Str → Except Exn Str
  | 0, _, _ => .error (.parseError HttpStatus.badRequest "getLine() error")
  | fuel + 1, offset, body => do
    let (chunkSizeStr, offset) ← getLine buffer offset
    let chunkSizeNum ← utility.hexStringToInt chunkSizeStr
    if chunkSizeNum = 0 then return body
    let (exChunkData, offset) ← getLine buffer offset
    if exChunkData.length ≠ sizeOfInt chunkSizeNum then
      .error (.parseError HttpStatus.badRequest "chunk_size error")
    readChunks buffer fuel offset (body ++ exChunkData)

def parseChunkedBody (buffer : Str) : Except Exn Str :=
  if buffer.length > kMaxBodyLength then
    .error (.parseError HttpStatus.payloadTooLarge "body is too long")
  else readChunks buffer (buffer.length + 1) 0 []

end MessageBodyParser

end Webserv
