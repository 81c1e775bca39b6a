import Webserv.Config.ServerConfig
import Webserv.Control.Except
import Webserv.Text.Search

/-!
# `ConfigParser`

The file is split at white space, and the sub-parsers share one iterator into the vector of
tokens.  Most of them do not know where it ends.
-/

namespace Webserv

open Text

namespace ConfigParser

/-- How a call ends without returning. -/
inductive Stop
  | thrown (e : Exn)
  /-- an iterator is dereferenced at the end of the tokens, or moved past it -/
  | pastEnd
  /-- the fuel of a loop is used up -/
  | outOfFuel
  deriving DecidableEq, Repr

/-- `throw std::runtime_error(msg)` -/
def throwRuntimeError {α : Type} (msg : String) : Except Stop α :=
  .error (.thrown (.runtimeError msg))

/-! ## Iterators -/

/-- A place in the vector of tokens: what is in front of it, the last one first, and what is
from it on. -/
structure Iter where
  before : List Str
  after : List Str
  deriving DecidableEq, Repr

namespace Iter

def start (tokens : List Str) : Iter := ⟨[], tokens⟩

/-- `*it` -/
def deref (it : Iter) : Except Stop Str :=
  match it.after with
  | [] => .error .pastEnd
  | token :: _ => .ok token

/-- `++it` -/
def next (it : Iter) : Except Stop Iter :=
  match it.after with
  | [] => .error .pastEnd
  | token :: rest => .ok ⟨token :: it.before, rest⟩

/-- `--it`, which is only used behind the first token. -/
def prev (it : Iter) : Except Stop Iter :=
  match it.before with
  | [] => .error .pastEnd
  | token :: rest => .ok ⟨rest, token :: it.after⟩

@[simp] theorem deref_cons (before : List Str) (token : Str) (rest : List Str) :
    deref ⟨before, token :: rest⟩ = .ok token := rfl

@[simp] theorem deref_nil (before : List Str) : deref ⟨before, []⟩ = .error .pastEnd := rfl

@[simp] theorem next_cons (before : List Str) (token : Str) (rest : List Str) :
    next ⟨before, token :: rest⟩ = .ok ⟨token :: before, rest⟩ := rfl

@[simp] theorem next_nil (before : List Str) : next ⟨before, []⟩ = .error .pastEnd := rfl

end Iter

/-! ## Flags -/

def BIT_FLAG_LISTEN : Nat := 1
def BIT_FLAG_ROOT : Nat := 2
def BIT_FLAG_BODY_LIMIT : Nat := 4
def BIT_FLAG_LOC_ROOT : Nat := 8
def BIT_FLAG_AUTOINDEX : Nat := 16

def isSet (flag bit : Nat) : Bool := flag &&& bit ≠ 0

/-! ## Tokens -/

/-- The opening brace. -/
def LBRACE : Str := lit "\x7b"

/-- The closing brace. -/
def RBRACE : Str := lit "\x7d"

def SEMICOLON : Str := lit ";"

/-- `str[j]` to `str[i - 1]` is the token that has been begun. -/
def isspaceSplitLoop (token : Str) : Str → List Str
  | [] => if token = [] then [] else [token]
  | c :: rest =>
    if isspace c then
      if token = [] then isspaceSplitLoop [] rest else token :: isspaceSplitLoop [] rest
    else isspaceSplitLoop (token ++ [c]) rest

/-- The loop ends at the first NUL. -/
def isspaceSplit (str : Str) : List Str := isspaceSplitLoop [] (cStr str)

/-- `atoi`: the low 32 bits of what `strtol` reads. -/
def ftStoi (str : Str) : Int := (strtol str 10).value.bmod 4294967296

/-- `str.substr(0, str.find(sep))` -/
def upTo (sep str : Str) : Str :=
  match find sep str with
  | none => str
  | some pos => str.take pos

def countFrom : List Str → Except Stop Nat
  | [] => .error .pastEnd
  | token :: rest =>
    if (find SEMICOLON token).isSome then .ok 1
    else do return (← countFrom rest) + 1

def countContents (it : Iter) : Except Stop Nat := countFrom it.after

/-- The loop of the directives that take a list. -/
def pushContents : Nat → List Str → Iter → Except Stop (List Str × Iter)
  | 0, contents, it => .ok (contents, it)
  | num + 1, contents, it => do
    let token ← it.deref
    let it ← it.next
    pushContents num (contents ++ [upTo SEMICOLON token]) it

/-- A directive that takes a list leaves the iterator at the last token of the list. -/
def parseContents (contents : List Str) (it : Iter) : Except Stop (List Str × Iter) := do
  let num ← countContents it
  let (contents, it) ← pushContents num contents it
  let it ← it.prev
  return (contents, it)

/-! ## Validation -/

def VALID_METHODS : List Str := [lit "GET", lit "POST", lit "DELETE"]

/-- `std::includes` -/
def includes : List Str → List Str → Bool
  | _, [] => true
  | [], _ :: _ => false
  | first :: rest, wanted :: more =>
    if wanted < first then false
    else if first < wanted then includes rest (wanted :: more)
    else includes rest more

def isValidVector (vecToCheck validVec : List Str) : Bool := includes validVec vecToCheck

def isValidStatus (configMap : Std.ExtTreeMap Int Str) : Bool :=
  configMap.toList.all fun entry => 100 < entry.1 && entry.1 < 600

def isValidRoot (root : Str) : Bool := (find (lit "./") root).isNone

/-- The loop of `isValidErrorPages`.  `at(0)` throws for an empty path. -/
def isValidErrorPagesLoop : List (Int × Str) → Except Stop Bool
  | [] => .ok true
  | (_, path) :: rest =>
    match path with
    | [] => .error (.thrown (.outOfRange "basic_string::at"))
    | c :: _ => if c ≠ 47 then .ok false else isValidErrorPagesLoop rest

def isValidErrorPages (errorPages : Std.ExtTreeMap Int Str) : Except Stop Bool :=
  isValidErrorPagesLoop errorPages.toList

/-- The loops of `isDupLocation`, from `it_y` and from `it_x` on.  The inner loop leaves `it_x` at
the end and does not set it back. -/
def isDupLocationLoop : List LocationConfig → List LocationConfig → Bool
  | [], _ => false
  | y :: ys, xs =>
    if xs.any fun x => x.location = y.location then true else isDupLocationLoop ys []

def isDupLocation (server : ServerConfig) : Bool :=
  isDupLocationLoop server.locations server.locations.tail

def serverValidate (server : ServerConfig) (existFlag : Nat) : Except Stop Unit :=
  if !isSet existFlag BIT_FLAG_LISTEN then
    throwRuntimeError "Error: Config: Need listen setting"
  else if isDupLocation server then
    throwRuntimeError "Error: Config: Duplicated location"
  else if !isValidStatus server.errorPages then
    throwRuntimeError "Error: Config: Invalid error_page"
  else do
    let valid ← isValidErrorPages server.errorPages
    if !valid then
      throwRuntimeError "Error: Config: Invalid error_page"
    else if !isValidRoot server.root then
      throwRuntimeError "Error: Config: Invalid root"
    else return ()

def locationValidate (location : LocationConfig) : Except Stop Unit :=
  if !isValidVector location.allowedMethods VALID_METHODS then
    throwRuntimeError "Error: Config: Invalid allowed_method"
  else if !isValidStatus location.redirect then
    throwRuntimeError "Error: Config: Invalid return"
  else if !isValidRoot location.root then
    throwRuntimeError "Error: Config: Invalid root"
  else .ok ()

/-! ## Directives of a server -/

/-- The two branches of `parseListen` do the same. -/
def setListen (server : ServerConfig) (token : Str) : ServerConfig :=
  let hostEnd := find (lit ":") token
  let portPart := token.drop (StringPos.succ hostEnd)
  { server with
    host := upTo (lit ":") token
    port := sizeOfInt (ftStoi
      (match find SEMICOLON token with
        | none => portPart
        | some count => portPart.take count)) }

def parseListen (server : ServerConfig) (it : Iter) (existFlag : Nat) :
    Except Stop (ServerConfig × Nat) := do
  if isSet existFlag BIT_FLAG_LISTEN then
    throwRuntimeError "Error: Config: Duplicated listen"
  let token ← it.deref
  return (setListen server token, existFlag ||| BIT_FLAG_LISTEN)

def parseServerName (server : ServerConfig) (it : Iter) : Except Stop (ServerConfig × Iter) := do
  let (names, it) ← parseContents server.server it
  return ({ server with server := names }, it)

def parseRoot (server : ServerConfig) (it : Iter) (existFlag : Nat) :
    Except Stop (ServerConfig × Nat) := do
  if isSet existFlag BIT_FLAG_ROOT then
    throwRuntimeError "Error: Config: Duplicated root"
  let token ← it.deref
  return ({ server with root := upTo SEMICOLON token }, existFlag ||| BIT_FLAG_ROOT)

/-- A code and a path, inserted unless the map has the code. -/
def parseCodeAndPath (configMap : Std.ExtTreeMap Int Str) (it : Iter) :
    Except Stop (Std.ExtTreeMap Int Str × Iter) := do
  let code ← it.deref
  let it ← it.next
  let path ← it.deref
  return (configMap.insertIfNew (ftStoi code) (upTo SEMICOLON path), it)

def parseErrorPages (server : ServerConfig) (it : Iter) : Except Stop (ServerConfig × Iter) := do
  let (errorPages, it) ← parseCodeAndPath server.errorPages it
  return ({ server with errorPages := errorPages }, it)

def parseClientBodySizeLimit (server : ServerConfig) (it : Iter) (existFlag : Nat) :
    Except Stop (ServerConfig × Nat) := do
  if isSet existFlag BIT_FLAG_BODY_LIMIT then
    throwRuntimeError "Error: Config: Duplicated client_body_size_limit"
  let token ← it.deref
  return ({ server with clientBodySizeLimit := sizeOfInt (ftStoi token) },
    existFlag ||| BIT_FLAG_BODY_LIMIT)

/-! ## Directives of a location -/

def parseLocationRoot (location : LocationConfig) (it : Iter) (existFlag : Nat) :
    Except Stop (LocationConfig × Nat) := do
  if isSet existFlag BIT_FLAG_LOC_ROOT then
    throwRuntimeError "Error: Config: Duplicated root in location"
  let token ← it.deref
  return ({ location with root := upTo SEMICOLON token }, existFlag ||| BIT_FLAG_LOC_ROOT)

def parseLocationAllowedMethods (location : LocationConfig) (it : Iter) :
    Except Stop (LocationConfig × Iter) := do
  let (methods, it) ← parseContents location.allowedMethods it
  return ({ location with allowedMethods := methods }, it)

def parseLocationIndexes (location : LocationConfig) (it : Iter) :
    Except Stop (LocationConfig × Iter) := do
  let (indexes, it) ← parseContents location.indexes it
  return ({ location with indexes := indexes }, it)

def readSwitch (token : Str) : Except Stop Bool :=
  if upTo SEMICOLON token = lit "on" then .ok true
  else if upTo SEMICOLON token = lit "off" then .ok false
  else throwRuntimeError "Error: Config: Invalid autoindex"

def parseLocationAutoindexes (location : LocationConfig) (it : Iter) (existFlag : Nat) :
    Except Stop (LocationConfig × Nat) := do
  if isSet existFlag BIT_FLAG_AUTOINDEX then
    throwRuntimeError "Error: Config: Duplicated autoindex"
  let token ← it.deref
  let autoindex ← readSwitch token
  return ({ location with autoindex := autoindex }, existFlag ||| BIT_FLAG_AUTOINDEX)

def parseLocationCGIExtension (location : LocationConfig) (it : Iter) :
    Except Stop (LocationConfig × Iter) := do
  let (extensions, it) ← parseContents location.cgiExtensions it
  return ({ location with cgiExtensions := extensions }, it)

def parseLocationRedirect (location : LocationConfig) (it : Iter) :
    Except Stop (LocationConfig × Iter) := do
  let (redirect, it) ← parseCodeAndPath location.redirect it
  return ({ location with redirect := redirect }, it)

/-- One round of the loop of `parseLocation`, `}` apart. -/
def parseLocationDirective (token : Str) (location : LocationConfig) (it : Iter) (flag : Nat) :
    Except Stop (LocationConfig × Iter × Nat) := do
  if token = lit "root" then
    let it ← it.next
    let (location, flag) ← parseLocationRoot location it flag
    return (location, it, flag)
  else if token = lit "allowed_method" then
    let (location, it) ← parseLocationAllowedMethods location (← it.next)
    return (location, it, flag)
  else if token = lit "index" then
    let (location, it) ← parseLocationIndexes location (← it.next)
    return (location, it, flag)
  else if token = lit "autoindex" then
    let it ← it.next
    let (location, flag) ← parseLocationAutoindexes location it flag
    return (location, it, flag)
  else if token = lit "cgi_extension" then
    let (location, it) ← parseLocationCGIExtension location (← it.next)
    return (location, it, flag)
  else if token = lit "return" then
    let (location, it) ← parseLocationRedirect location (← it.next)
    return (location, it, flag)
  else
    throwRuntimeError "Error: Config: Syntax error."

/-- The loop of `parseLocation`.  Without a `}` it ends at the end of the tokens. -/
def parseLocationLoop : Nat → LocationConfig → Iter → Nat → Except Stop (LocationConfig × Iter)
  | 0, _, _, _ => .error .outOfFuel
  | fuel + 1, location, it, flag =>
    if it.after = [] then .ok (location, it)
    else do
      let token ← it.deref
      if token = RBRACE then
        return (location, it)
      else
        let (location, it, flag) ← parseLocationDirective token location it flag
        let it ← it.next
        parseLocationLoop fuel location it flag

def parseLocation (location : LocationConfig) (it : Iter) :
    Except Stop (LocationConfig × Iter) := do
  let uri ← it.deref
  let location := { location with location := uri }
  let it ← it.next
  let brace ← it.deref
  if brace = LBRACE then
    let it ← it.next
    if it.after = [] then
      throwRuntimeError "Error: Config: Need to be closed by brackets"
    else
      parseLocationLoop (it.after.length + 1) location it 0
  else
    return (location, it)

/-! ## Servers -/

/-- What the memory of the next objects holds.  Their numbers are not initialised. -/
structure Memory where
  port : Nat
  clientBodySizeLimit : Nat
  /-- for every location of the server -/
  autoindex : Nat → Bool

def newLocation (autoindex : Bool) : LocationConfig := ⟨[], ∅, [], [], [], autoindex, []⟩

def newServer (memory : Memory) : ServerConfig :=
  ⟨memory.port, [], [], ∅, [], memory.clientBodySizeLimit, []⟩

/-- One round of the loop of `parseServer`, `}` apart. -/
def parseServerDirective (memory : Memory) (token : Str) (server : ServerConfig) (it : Iter)
    (existFlag : Nat) : Except Stop (ServerConfig × Iter × Nat) := do
  if token = lit "listen" then
    let it ← it.next
    let (server, existFlag) ← parseListen server it existFlag
    return (server, it, existFlag)
  else if token = lit "server_name" then
    let (server, it) ← parseServerName server (← it.next)
    return (server, it, existFlag)
  else if token = lit "root" then
    let it ← it.next
    let (server, existFlag) ← parseRoot server it existFlag
    return (server, it, existFlag)
  else if token = lit "error_page" then
    let (server, it) ← parseErrorPages server (← it.next)
    return (server, it, existFlag)
  else if token = lit "client_body_size_limit" then
    let it ← it.next
    let (server, existFlag) ← parseClientBodySizeLimit server it existFlag
    return (server, it, existFlag)
  else if token = lit "location" then
    let location := newLocation (memory.autoindex server.locations.length)
    let (location, it) ← parseLocation location (← it.next)
    locationValidate location
    return ({ server with locations := server.locations ++ [location] }, it, existFlag)
  else
    throwRuntimeError "Error: Config: Wrong syntax"

/-- The loop of `parseServer`. -/
def parseServerLoop (memory : Memory) :
    Nat → ServerConfig → Iter → Nat → Except Stop (ServerConfig × Iter × Nat)
  | 0, _, _, _ => .error .outOfFuel
  | fuel + 1, server, it, existFlag =>
    if it.after = [] then throwRuntimeError "Error: Config: Need to be closed by brackets"
    else do
      let token ← it.deref
      if token = RBRACE then
        return (server, it, existFlag)
      else
        let (server, it, existFlag) ← parseServerDirective memory token server it existFlag
        let it ← it.next
        parseServerLoop memory fuel server it existFlag

def parseServer (memory : Memory) (server : ServerConfig) (it : Iter) (existFlag : Nat) :
    Except Stop (ServerConfig × Iter × Nat) :=
  parseServerLoop memory (it.after.length + 1) server it existFlag

/-- The loop of `parseTokens`, with the servers it has stored. -/
def parseTokensLoop (memory : Nat → Memory) :
    Nat → List ServerConfig → Iter → Except Stop (List ServerConfig)
  | 0, _, _ => .error .outOfFuel
  | fuel + 1, serverconfigs, it =>
    if it.after = [] then .ok serverconfigs
    else do
      let token ← it.deref
      if token = lit "server" then
        let it ← it.next
        let brace ← it.deref
        if brace = LBRACE then
          let it ← it.next
          let memory' := memory serverconfigs.length
          let (server, it, existFlag) ← parseServer memory' (newServer memory') it 0
          serverValidate server existFlag
          let it ← it.next
          parseTokensLoop memory fuel (serverconfigs ++ [server]) it
        else throwRuntimeError "Error: Config: Wrong syntax"
      else throwRuntimeError "Error: Config: Wrong syntax"

def parseTokens (memory : Nat → Memory) (tokens : List Str) : Except Stop (List ServerConfig) :=
  parseTokensLoop memory (tokens.length + 1) [] (.start tokens)

end ConfigParser

end Webserv
