import Webserv.Request.HttpRequestConverter
import Webserv.Response.Os
import Webserv.Response.Path

/-!
# `CGI` and `CGIParser`

How a script is started and what is read back from it.  Failed system calls throw an `int`.
-/

namespace Webserv

open Text

/-- The lines that `std::getline` reads from a stream, one after the other. -/
def getlines : Str → List Str
  | [] => []
  | c :: rest =>
    if c = 10 then [] :: getlines rest
    else
      match getlines rest with
      | [] => [[c]]
      | line :: lines => (c :: line) :: lines

/-- `scripts` records the scripts that were started. -/
structure CGI where
  req : HttpRequestDTO
  conf : ConfigDTO
  cgiResponse : Str
  scripts : List (Str × List Str)

abbrev CgiM := Method CGI Raised

namespace CGI

def new : CGI := ⟨default, default, [], []⟩

def BUF_SIZE : Nat := 8192

def EXEC_PATHS : Std.ExtTreeMap Str Str :=
  .ofList [(lit ".py", lit "/usr/bin/python3"), (lit ".pl", lit "/usr/bin/perl")]

def EXEC_COMMANDS : Std.ExtTreeMap Str Str :=
  .ofList [(lit ".py", lit "python3"), (lit ".pl", lit "perl")]

/-- `map.find(key)->second`, which dereferences `end()` when there is no such key. -/
def findSecond (map : Std.ExtTreeMap Str Str) (key : Str) : CgiM Str :=
  match map[key]? with
  | some value => return value
  | none => throw .undefined

/-- `strdup` stops at a NUL. -/
def allocStr (str : Str) : Str := cStr str

def createArgs (path : Path) : CgiM (List Str) := do
  let command ← findSecond EXEC_COMMANDS path.extension
  let rawPath ← substr path.rawPath (some 1)
  let filePath := lit "www/cgi-bin/" ++ rawPath
  return allocStr command :: allocStr filePath :: path.args.map allocStr

def createEnvs (path : Path) : CgiM (List Str) := do
  let cgi ← get
  let mapEnv : Std.ExtTreeMap Str Str :=
    .ofList
      [(lit "AUTH_TYPE", cgi.req.authorization),
        (lit "CONTENT_LENGTH", cgi.req.contentLength),
        (lit "CONTENT_TYPE", cgi.req.contentType),
        (lit "GATEWAY_INTERFACE", lit "CGI/1.1"),
        (lit "HTTP_ACCEPT", cgi.req.accept),
        (lit "HTTP_FORWARDED", cgi.req.forwarded),
        (lit "HTTP_REFERER", cgi.req.referer),
        (lit "HTTP_USER_AGENT", cgi.req.userAgent),
        (lit "HTTP_X_FORWARDED_FOR", cgi.req.xForwardedFor),
        (lit "PATH_INFO", cgi.req.path),
        (lit "PATH_TRANSLATED", []),
        (lit "QUERY_STRING", path.query),
        (lit "REMOTE_ADDR", lit "127.0.0.1"),
        (lit "REMOTE_HOST", lit "webserv.com"),
        (lit "REMOTE_IDENT", []),
        (lit "REMOTE_USER", []),
        (lit "REQUEST_METHOD", cgi.req.method),
        (lit "SCRIPT_NAME", []),
        (lit "SERVER_NAME", cgi.conf.server),
        (lit "SERVER_PORT", cgi.conf.port),
        (lit "SERVER_PROTOCOL", lit "HTTP/1.1"),
        (lit "SERVER_SOFTWARE", lit "webserv/1.0")]
  -- `utility::map2Array`
  return mapEnv.toList.map fun nameValue => cStr (nameValue.1 ++ lit "=" ++ nameValue.2)

/-- `throw -1` when a system call failed. -/
def check (succeeded : Bool) : CgiM Unit :=
  if succeeded then return () else throw (.int (-1))

def createPipe (calls : CgiCalls) : CgiM Unit := do
  check calls.pipeP2c
  check calls.pipeC2p

def dupFd (calls : CgiCalls) (oldfd : PipeEnd) : CgiM Unit := check (calls.dup2 oldfd)

def throwclose (calls : CgiCalls) (fd : PipeEnd) : CgiM Unit := check (calls.close fd)

/-- The branch of `buildCGIResponse` taken by the new process. -/
def childProcess (calls : CgiCalls) (execCommandPath : Str) (execArgs execEnvs : List Str) :
    CgiM Str := do
  dupFd calls .p2cRead
  throwclose calls .p2cRead
  throwclose calls .p2cWrite
  dupFd calls .c2pWrite
  throwclose calls .c2pWrite
  throwclose calls .c2pRead
  check calls.execve
  throw (.execve execCommandPath execArgs execEnvs)

/-- The terminating NUL goes to `buf[read_size]`, which is outside of `buf` when `read` failed or
filled it. -/
def parentProcess (calls : CgiCalls) : CgiM Str := do
  throwclose calls .p2cRead
  throwclose calls .c2pWrite
  if calls.write = .sigpipe then
    throw .sigpipe
  throwclose calls .p2cWrite
  let readData := calls.read BUF_SIZE
  throwclose calls .c2pRead
  match readData with
  | none => throw .undefined
  | some data => if data.length < BUF_SIZE then return cStr data else throw .undefined

def buildCGIResponse (calls : CgiCalls) (execCommandPath : Str) (execArgs execEnvs : List Str) :
    CgiM Str := do
  createPipe calls
  match calls.fork with
  | .failed => throw (.int (-1))
  | .child =>
    modify fun cgi => { cgi with scripts := cgi.scripts ++ [(execCommandPath, execArgs)] }
    childProcess calls execCommandPath execArgs execEnvs
  | .parent =>
    modify fun cgi => { cgi with scripts := cgi.scripts ++ [(execCommandPath, execArgs)] }
    parentProcess calls

def run (calls : CgiCalls) (req : HttpRequestDTO) (conf : ConfigDTO) (path : Path) :
    CgiM Unit := do
  modify fun cgi => { cgi with req := req, conf := conf }
  let execCommandPath ← findSecond EXEC_PATHS path.extension
  let execArgs ← createArgs path
  let execEnvs ← createEnvs path
  let cgiResponse ← buildCGIResponse calls (cStr execCommandPath) execArgs execEnvs
  modify fun cgi => { cgi with cgiResponse := cgiResponse }

end CGI

structure CGIParser where
  cgiHeader : Std.ExtTreeMap Str Str
  resBodyStr : Str

namespace CGIParser

def new : CGIParser := ⟨∅, []⟩

/-- A line without a colon is name and value at once, less its first byte as value: `npos + 2`
is 1. -/
def makeHeaderFieldPair (line : Str) : Except Exn (Str × Str) := do
  let nameEnd := findFirst (· = 58) line (some 0)
  let name ← substr line (some 0) nameEnd
  let value ← substr line (some (StringPos.succ nameEnd + 1))
  return (name, value)

/-- The header lines, up to the first empty one, and what is left. -/
def parseHeaderField : List Str → Method CGIParser Raised (List Str)
  | [] => return []
  | line :: rest =>
    if line = [] then return rest
    else do
      let nameValuePair ← makeHeaderFieldPair line
      modify fun p =>
        { p with cgiHeader := p.cgiHeader.insertIfNew nameValuePair.1 nameValuePair.2 }
      parseHeaderField rest

def parseBody (lines : List Str) : Method CGIParser Raised Unit :=
  modify fun p => { p with resBodyStr := p.resBodyStr ++ lines.flatMap (· ++ lit "\n") }

def parse (cgiResponse : Str) : Method CGIParser Raised Unit := do
  let rest ← parseHeaderField (getlines cgiResponse)
  parseBody rest

end CGIParser

end Webserv
