import Webserv.Text.Bytes

/-!
# The operating system

What the system calls answer while one response is built.  The file system does not change in
the meantime; a call for a CGI script may fail at each of its steps.  Paths arrive as `c_str()`,
so the functions see what is in front of the first NUL.
-/

namespace Webserv

open Text

/-- The four ends of the two pipes of a CGI script. -/
inductive PipeEnd
  | p2cRead
  | p2cWrite
  | c2pRead
  | c2pWrite
  deriving DecidableEq, Repr

inductive Fork
  | failed
  /-- `fork` returned 0 -/
  | child
  | parent
  deriving DecidableEq, Repr

inductive PipeWrite
  | returned
  /-- nobody has the other end open: the signal kills the process -/
  | sigpipe
  deriving DecidableEq, Repr

/-- The calls made for a CGI script.  `read count` returns at most `count` bytes, or fails. -/
structure CgiCalls where
  pipeP2c : Bool
  pipeC2p : Bool
  fork : Fork
  dup2 : PipeEnd → Bool
  close : PipeEnd → Bool
  execve : Bool
  write : PipeWrite
  read : Nat → Option Str
  length_read : ∀ count data, read count = some data → data.length ≤ count

/-- The calls for a script that runs and prints nothing. -/
def CgiCalls.silent : CgiCalls where
  pipeP2c := true
  pipeC2p := true
  fork := .parent
  dup2 := fun _ => true
  close := fun _ => true
  execve := true
  write := .returned
  read := fun _ => some []
  length_read := fun _ _ h => by cases h; exact Nat.zero_le _

structure Os where
  getcwd : Option Str
  /-- the names that `readdir` returns for a directory that can be opened -/
  opendir : Str → Option (List Str)
  /-- `access(path, R_OK)` -/
  access : Str → Bool
  /-- the content of a file that an `ifstream` can be opened on -/
  ifstream : Str → Option Str
  /-- `asctime(gmtime(&s.st_mtime))` of a file that `stat` finds -/
  stat : Str → Option Str
  /-- `asctime(gmtime(&now_))` -/
  now : Str
  cgi : CgiCalls

end Webserv
