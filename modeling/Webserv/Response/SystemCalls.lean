import Webserv.Control.Calls
import Webserv.Response.ContentLength

/-!
# Every system call by itself

The builder again, with an `Os` for every call on the file system, so that calls of one kind may
succeed at one time and fail at another.  What makes no call is taken over.
-/

namespace Webserv

open Text

namespace HttpResponseBuilder

namespace Timed

open Method (call still)

/-- A builder and the number of calls made so far. -/
abbrev TimedM := Method (HttpResponseBuilder × Nat) Raised

section

variable (os : Nat → Os)

/-! ## Finding the file -/

def tryIndexes (dir : Str) : List Str → TimedM Unit
  | [] => return ()
  | index :: rest => do
    call os fun os => findActualFilepath os dir index
    let s ← get
    if s.1.filepathExists then
      still (modify fun b => { b with pathFile := index })
    else tryIndexes dir rest

def findIndexFilepath (dir : Str) (location : LocationConfig) : TimedM Unit :=
  if location.indexes = [] then do
    still (modify fun b => { b with pathFile := lit "index.html" })
    call os fun os => findActualFilepath os dir (lit "index.html")
  else tryIndexes os dir location.indexes

def findLoop : List LocationConfig → TimedM Unit
  | [] => return ()
  | location :: rest => do
    let s ← get
    if location.location = s.1.pathDir then
      let root ← call os fun os => getActualRoot os location
      let dir := root ++ location.location
      if s.1.pathFile = [] then
        findIndexFilepath os dir location
      else
        call os fun os => findActualFilepath os dir s.1.pathFile
      let s ← get
      if s.1.filepathExists then
        still (modify fun b => { b with foundLocation := location })
      else do
        still (modify fun b => { b with locIt := rest })
        findLoop rest
    else do
      still (modify fun b => { b with locIt := rest })
      findLoop rest

def findFileInServer : TimedM Unit := do
  let s ← get
  findLoop os s.1.locIt
  let s ← get
  if !s.1.filepathExists then
    still (throwResponse "file not found" 404)

/-! ## The response -/

variable (req : HttpRequestDTO)

def doCGI : TimedM Unit := do
  call os fun os => writeCGI os req
  call os fun os => buildHeader os req
  still updateHeader

/-- Like `serveFile`, up to the options. -/
def findAllowed : TimedM Unit := do
  findFileInServer os
  call os fun os => checkOptions os req

/-- Like `serveFile`, behind the options. -/
def deliver : TimedM Unit := do
  let s ← get
  if s.1.isFileCgi then
    doCGI os req
  else if s.1.isDelete then do
    still (deleteFile s.1.filepathPath)
    call os fun os => buildHeader os req
  else do
    call os fun os => readFile os .requestedFile s.1.filepathPath
    call os fun os => buildHeader os req

def tryBuild : TimedM HttpResponse := do
  call os fun os => setDefaultRoot os
  let path ← Path.ofPathquery req.path
  still (modify fun b => { b with pathDir := path.pathDir, pathFile := path.pathFile })
  if req.responseStatusCode ≠ HttpStatus.ok then
    call os fun os => buildErrorResponse os (utility.toInt req.responseStatusCode) req
  else do
    findAllowed os req
    deliver os req
    let s ← get
    return s.1.response

def build : TimedM HttpResponse :=
  tryCatch (tryBuild os req) fun
    | .std (.response httpStatus _) => call os fun os => buildErrorResponse os httpStatus req
    | .std _ => call os fun os => buildErrorResponse os 500 req
    | e => throw e

end

/-! ## The same answers every time -/

section

variable (os : Os)

open Method (Follows)

theorem tryIndexes_follows (dir : Str) (indexes : List Str) :
    Follows (tryIndexes (fun _ => os) dir indexes)
      (HttpResponseBuilder.tryIndexes os dir indexes) := by
  induction indexes with
  | nil => exact .pure ()
  | cons index rest ih =>
    exact .bind (.call os _) fun _ => .get_bind fun b _ => .ite (.still _) ih

theorem findIndexFilepath_follows (dir : Str) (location : LocationConfig) :
    Follows (findIndexFilepath (fun _ => os) dir location)
      (HttpResponseBuilder.findIndexFilepath os dir location) :=
  .ite (.bind (.still _) fun _ => .call os fun os => findActualFilepath os dir (lit "index.html"))
    (tryIndexes_follows os dir location.indexes)

theorem findLoop_follows (locations : List LocationConfig) :
    Follows (findLoop (fun _ => os) locations) (HttpResponseBuilder.findLoop os locations) := by
  induction locations with
  | nil => exact .pure ()
  | cons location rest ih =>
    refine .get_bind fun b _ => .ite ?_ (.bind (.still _) fun _ => ih)
    refine .bind (.call os fun os => getActualRoot os location) fun root => ?_
    dsimp only
    split
    · exact .bind (findIndexFilepath_follows os _ location) fun _ => .get_bind fun b _ =>
        .ite (.still _) (.bind (.still _) fun _ => ih)
    · exact .bind (.call os fun os => findActualFilepath os _ b.pathFile) fun _ =>
        .get_bind fun b _ => .ite (.still _) (.bind (.still _) fun _ => ih)

theorem findAllowed_follows (req : HttpRequestDTO) :
    Follows (findAllowed (fun _ => os) req)
      (HttpResponseBuilder.findFileInServer os >>= fun _ => checkOptions os req) := by
  have hfind : Follows (findFileInServer fun _ => os) (HttpResponseBuilder.findFileInServer os) :=
    .get_bind fun b _ => .bind (findLoop_follows os b.locIt) fun _ => .get_bind fun b _ =>
      .ite (.still _) (.pure _)
  exact .bind hfind fun _ => .call os fun os => checkOptions os req

theorem deliver_follows (req : HttpRequestDTO) :
    Follows (deliver (fun _ => os) req) (HttpResponseBuilder.deliver os req) := by
  have hheader := Follows.call os fun os => buildHeader os req
  refine .get_bind fun b _ => .ite ?_ (.ite (.bind (.still _) fun _ => hheader) ?_)
  · rw [doCGI_eq]
    exact .bind (.call os fun os => writeCGI os req) fun _ => .bind hheader fun _ => .still _
  · exact .bind (.call os fun os => readFile os .requestedFile b.filepathPath) fun _ => hheader

/-- With the same answers every time it is the builder from before. -/
theorem build_follows (req : HttpRequestDTO) :
    Follows (build (fun _ => os) req) (HttpResponseBuilder.build os req) := by
  have herror (httpStatus : Int) := Follows.call os fun os => buildErrorResponse os httpStatus req
  have hserve : Follows (findAllowed (fun _ => os) req >>= fun _ => deliver (fun _ => os) req)
      (serveFile os req) := by
    rw [serveFile_eq, ← Method.bind_assoc]
    exact .bind (findAllowed_follows os req) fun _ => deliver_follows os req
  have hresponse : Follows (findAllowed (fun _ => os) req >>= fun _ =>
        deliver (fun _ => os) req >>= fun _ => get >>= fun s => pure s.1.response)
      (serveFile os req >>= fun _ => get >>= fun b => pure b.response) := by
    rw [← Method.bind_assoc]
    exact .bind hserve fun _ => .get_bind fun b _ => .pure _
  refine .tryCatch (.bind (.call os fun os => setDefaultRoot os) fun _ => .bind (.lift _)
    fun path => .bind (.still _) fun _ => .ite (herror _) hresponse) fun e => ?_
  cases e with
  | std e =>
    cases e with
    | response httpStatus msg => exact herror httpStatus
    | _ => exact herror 500
  | _ => exact .throw _

end

end Timed

end HttpResponseBuilder

end Webserv
