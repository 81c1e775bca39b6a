import Webserv.Response.CGI
import Webserv.Response.HttpResponse

/-!
# `HttpResponseBuilder`

A builder is made for one request and used once.  Its methods set members in sequence and throw;
`build` catches what is derived from `std::exception`.
-/

namespace Webserv

open Text

/-- Why `readFile` was called. -/
inductive ReadPurpose
  | requestedFile
  | errorPage
  deriving DecidableEq, Repr

/-- `reads` records the files whose content was read. -/
structure HttpResponseBuilder where
  conf : ConfigDTO
  header : HttpResponseHeaderDTO
  filepathPath : Str
  filepathExists : Bool
  resBodyStr : Str
  pathDir : Str
  pathFile : Str
  defaultRoot : Str
  locIt : List LocationConfig
  foundLocation : LocationConfig
  isFileCgi : Bool
  isDelete : Bool
  cgi : CGI
  cgiParser : CGIParser
  reads : List (ReadPurpose × Str)

abbrev BuilderM := Method HttpResponseBuilder Raised

namespace HttpResponseBuilder

def CRLF : Str := lit "\r\n"
def ACCEPT_RANGES : Str := lit "none"
def TEXT_HTML : Str := lit "text/html"
def SP : Str := lit " "
def SLASH : Str := lit "/"

def new (conf : ConfigDTO) : HttpResponseBuilder where
  conf := conf
  header := ⟨[], [], [], [], [], [], [], [], [], [], []⟩
  filepathPath := []
  filepathExists := false
  resBodyStr := []
  pathDir := []
  pathFile := []
  defaultRoot := []
  locIt := conf.locations
  foundLocation := default
  isFileCgi := false
  isDelete := false
  cgi := .new
  cgiParser := .new
  reads := []

/-- `throw ResponseException(msg, http_status)` -/
def throwResponse {α : Type} (msg : String) (httpStatus : Int) : BuilderM α :=
  throw (.std (.response httpStatus msg))

/-! ## Finding the file -/

/-- A file whose name is nothing but the extension is no script. -/
def isCGI (foundLocation : LocationConfig) (file : Str) : Bool :=
  foundLocation.cgiExtensions.any fun extension =>
    (find extension file).isSome && file.length ≠ extension.length

def getCurrentPath (os : Os) : BuilderM Str :=
  match os.getcwd with
  | none => throwResponse "getcwd" 500
  | some cwd => return cwd

def setDefaultRoot (os : Os) : BuilderM Unit := do
  let currentPath ← getCurrentPath os
  modify fun b =>
    { b with
      defaultRoot :=
        if b.conf.root = [] then currentPath
        else if b.conf.root.head? = some 47 then b.conf.root
        else currentPath ++ SLASH ++ b.conf.root }

def getActualRoot (os : Os) (location : LocationConfig) : BuilderM Str := do
  let currentPath ← getCurrentPath os
  let b ← get
  return (
    if location.root = [] then b.defaultRoot
    else if location.root.head? = some 47 then location.root
    else currentPath ++ SLASH ++ location.root)

def findActualFilepath (os : Os) (dir file : Str) : BuilderM Unit :=
  match os.opendir (cStr dir) with
  | none => throwResponse "directory not found" 404
  | some names =>
    if names.contains (cStr file) then
      modify fun b => { b with filepathPath := dir ++ file, filepathExists := true }
    else return ()

/-- The loop of `findIndexFilepath`. -/
def tryIndexes (os : Os) (dir : Str) : List Str → BuilderM Unit
  | [] => return ()
  | index :: rest => do
    findActualFilepath os dir index
    let b ← get
    if b.filepathExists then
      modify fun b => { b with pathFile := index }
    else tryIndexes os dir rest

/-- Without a list of indexes `path_file_` becomes `index.html`, and stays so when the file is
not found. -/
def findIndexFilepath (os : Os) (dir : Str) (location : LocationConfig) : BuilderM Unit :=
  if location.indexes = [] then do
    modify fun b => { b with pathFile := lit "index.html" }
    findActualFilepath os dir (lit "index.html")
  else tryIndexes os dir location.indexes

/-- The loop of `findFileInServer`, over what is left of the locations. -/
def findLoop (os : Os) : List LocationConfig → BuilderM Unit
  | [] => return ()
  | location :: rest => do
    let b ← get
    if location.location = b.pathDir then
      let root ← getActualRoot os location
      let dir := root ++ location.location
      if b.pathFile = [] then
        findIndexFilepath os dir location
      else
        findActualFilepath os dir b.pathFile
      let b ← get
      if b.filepathExists then
        modify fun b => { b with foundLocation := location }
      else do
        modify fun b => { b with locIt := rest }
        findLoop os rest
    else do
      modify fun b => { b with locIt := rest }
      findLoop os rest

def findFileInServer (os : Os) : BuilderM Unit := do
  let b ← get
  findLoop os b.locIt
  let b ← get
  if !b.filepathExists then
    throwResponse "file not found" 404

/-! ## The response -/

/-- Every line of the file, with `CRLF` behind it. -/
def readFile (os : Os) (purpose : ReadPurpose) (fullpath : Str) : BuilderM Unit :=
  match os.ifstream (cStr fullpath) with
  | none => throwResponse "file input error" 500
  | some content =>
    modify fun b =>
      { b with
        resBodyStr := b.resBodyStr ++ (getlines content).flatMap (· ++ CRLF)
        reads := b.reads ++ [(purpose, fullpath)] }

/-- `asctime` ends its text with a newline. -/
def buildDate (os : Os) : Str := os.now.dropLast ++ lit " GMT"

def buildLastModified (os : Os) : BuilderM Str := do
  let b ← get
  match os.stat (cStr b.filepathPath) with
  | none => throwResponse "stat" 500
  | some modTime => return modTime.dropLast ++ lit " GMT"

def getContentTypeByExtension (pathFile : Str) : Str :=
  match findLast (· = 46) pathFile with
  | none => MIMEType.default
  | some lastDotPos =>
    let extension := pathFile.drop (lastDotPos + 1)
    if 1 + extension.length = pathFile.length then MIMEType.default
    else MIMEType.mimeTypeMap[extension]?.getD MIMEType.default

def buildHeader (os : Os) (req : HttpRequestDTO) : BuilderM Unit := do
  modify fun b =>
    { b with
      header :=
        { b.header with
          version := req.version
          statusCode := HttpStatus.ok
          reasonPhrase := lit "OK"
          date := buildDate os
          server := b.conf.server
          contentType := getContentTypeByExtension b.pathFile
          contentLength := utility.toString b.resBodyStr.length } }
  let lastModified ← buildLastModified os
  modify fun b =>
    { b with
      header :=
        { b.header with
          lastModified := lastModified
          connection := req.connection
          etag := lit "\"62c29d55-e5\""
          acceptRanges := ACCEPT_RANGES } }

/-- `is_delete` is set before the test for `POST`. -/
def isAllowedMethod (req : HttpRequestDTO) : BuilderM Bool := do
  let b ← get
  if b.foundLocation.allowedMethods = [] then
    return req.method = lit "GET"
  else if b.foundLocation.allowedMethods.contains req.method then do
    if req.method = lit "DELETE" then
      modify fun b => { b with isDelete := true }
    return !(req.method = lit "POST" && !b.isFileCgi)
  else return false

def isFileReadable (os : Os) : BuilderM Bool := do
  let b ← get
  return os.access (cStr b.filepathPath)

def checkOptions (os : Os) (req : HttpRequestDTO) : BuilderM Unit := do
  modify fun b => if isCGI b.foundLocation b.pathFile then { b with isFileCgi := true } else b
  let allowed ← isAllowedMethod req
  if !allowed then
    throwResponse "not allowed method" 403
  let readable ← isFileReadable os
  if !readable then
    throwResponse "file does not have permission" 403

def getReasonPhrase (httpStatus : Str) : Str :=
  if httpStatus = HttpStatus.ok then lit "OK"
  else if httpStatus = HttpStatus.created then lit "Created"
  else if httpStatus = HttpStatus.noContent then lit "No Content"
  else if httpStatus = HttpStatus.partialContent then lit "Partial Content"
  else if httpStatus = HttpStatus.badRequest then lit "Bad Request"
  else if httpStatus = HttpStatus.unauthorized then lit "Unauthorized"
  else if httpStatus = HttpStatus.forbidden then lit "Forbidden"
  else if httpStatus = HttpStatus.notFound then lit "Not Found"
  else if httpStatus = HttpStatus.internalServerError then lit "Internal Server Error"
  else if httpStatus = HttpStatus.serviceUnavailable then lit "Service Unavailable"
  else []

def updateHeader : BuilderM Unit :=
  modify fun b =>
    { b with header := { b.header with statusCode := HttpStatus.ok, contentType := TEXT_HTML } }

def doCGI (os : Os) (req : HttpRequestDTO) : BuilderM Unit := do
  let path ← Path.ofPathquery req.path
  let b ← get
  Method.zoom (·.cgi) (fun cgi b => { b with cgi := cgi }) (CGI.run os.cgi req b.conf path)
  let b ← get
  Method.zoom (·.cgiParser) (fun parser b => { b with cgiParser := parser })
    (CGIParser.parse b.cgi.cgiResponse)
  modify fun b => { b with resBodyStr := b.resBodyStr ++ b.cgiParser.resBodyStr }
  buildHeader os req
  updateHeader

/-! ## Error responses -/

/-- `content_length` is assigned a `size_t`, which `std::string` takes as one `char`. -/
def buildErrorHeader (os : Os) (req : HttpRequestDTO) (httpStatus : Int) (bodyStr : Str) :
    BuilderM Unit := do
  if bodyStr = [] then
    throw (.std (.runtimeError "body uncreated"))
  modify fun b =>
    { b with
      header :=
        { b.header with
          version := req.version
          statusCode := decimalInt httpStatus
          reasonPhrase := getReasonPhrase (decimalInt httpStatus)
          date := buildDate os
          contentLength := [UInt8.ofNat bodyStr.length]
          contentType := getContentTypeByExtension b.pathFile
          connection := lit "keep-alive" } }

def defaultErrorBody (server : Str) (httpStatus : Int) : Str :=
  let statusCode := decimalInt httpStatus
  List.flatten
    [lit "<html>", CRLF,
      lit "<head><title>", statusCode, SP, getReasonPhrase statusCode, lit "</title><head>", CRLF,
      lit "<body>", CRLF,
      lit "<center><h1>", statusCode, SP, getReasonPhrase statusCode, lit "</h1></center>", CRLF,
      lit "</body>", CRLF,
      lit "<hr><center>", server, lit "</center>", CRLF,
      lit "</body>", CRLF,
      lit "</html>", CRLF,
      CRLF]

def buildDefaultErrorBody (httpStatus : Int) : BuilderM Unit :=
  modify fun b =>
    { b with resBodyStr := b.resBodyStr ++ defaultErrorBody b.conf.server httpStatus }

/-- `new HttpResponse(header_, res_body_str_.str())` -/
def response (b : HttpResponseBuilder) : HttpResponse := ⟨b.header, b.resBodyStr⟩

def buildDefaultErrorPage (os : Os) (httpStatus : Int) (req : HttpRequestDTO) :
    BuilderM HttpResponse := do
  buildDefaultErrorBody httpStatus
  let b ← get
  buildErrorHeader os req httpStatus b.resBodyStr
  let b ← get
  return b.response

/-- The exceptions derived from `std::runtime_error`. -/
def isRuntimeError : Exn → Bool
  | .parseError .. => true
  | .response .. => true
  | .runtimeError .. => true
  | _ => false

def readCustomPage (os : Os) (errorPage : Str) : BuilderM Unit := do
  let b ← get
  if b.filepathExists then
    if b.foundLocation.root ≠ [] then
      readFile os .errorPage (b.foundLocation.root ++ errorPage)
  else
    readFile os .errorPage (b.defaultRoot ++ errorPage)

/-- The `try` block of `buildErrorResponse`. -/
def customErrorPage (os : Os) (httpStatus : Int) (req : HttpRequestDTO) (errorPage : Str) :
    BuilderM HttpResponse := do
  readCustomPage os errorPage
  let b ← get
  buildErrorHeader os req httpStatus b.resBodyStr
  let b ← get
  return b.response

/-- `error_pages[httpstatus]` is empty when there is no such page. -/
def buildErrorResponse (os : Os) (httpStatus : Int) (req : HttpRequestDTO) :
    BuilderM HttpResponse := do
  let b ← get
  let errorPage := b.conf.errorPages[httpStatus]?.getD []
  if errorPage = [] then
    buildDefaultErrorPage os httpStatus req
  else
    tryCatch (customErrorPage os httpStatus req errorPage) fun
      | .std e =>
        if isRuntimeError e then buildDefaultErrorPage os httpStatus req else throw (.std e)
      | e => throw e

/-! ## `build` -/

/-- `deleteFile` does nothing. -/
def deleteFile (_filepath : Str) : BuilderM Unit := return ()

/-- The rest of the `try` block, once a file is to be served. -/
def serveFile (os : Os) (req : HttpRequestDTO) : BuilderM Unit := do
  findFileInServer os
  checkOptions os req
  let b ← get
  if b.isFileCgi then
    doCGI os req
  else if b.isDelete then do
    deleteFile b.filepathPath
    buildHeader os req
  else do
    readFile os .requestedFile b.filepathPath
    buildHeader os req

def tryBuild (os : Os) (req : HttpRequestDTO) : BuilderM HttpResponse := do
  setDefaultRoot os
  let path ← Path.ofPathquery req.path
  modify fun b => { b with pathDir := path.pathDir, pathFile := path.pathFile }
  if req.responseStatusCode ≠ HttpStatus.ok then
    buildErrorResponse os (utility.toInt req.responseStatusCode) req
  else do
    serveFile os req
    let b ← get
    return b.response

/-- The `catch` clauses.  What is not derived from `std::exception` passes them. -/
def build (os : Os) (req : HttpRequestDTO) : BuilderM HttpResponse :=
  tryCatch (tryBuild os req) fun
    | .std (.response httpStatus _) => buildErrorResponse os httpStatus req
    | .std _ => buildErrorResponse os 500 req
    | e => throw e

end HttpResponseBuilder

end Webserv
