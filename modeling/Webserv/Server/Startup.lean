import Webserv.Response.FileLines
import Webserv.Server.BoundPorts
import Webserv.Server.Server

/-!
# The start of the program

`main` reads the configuration file, opens a listening socket for every port and runs the event
loop.  What it finds outside is a `System`.
-/

namespace Webserv

open Text

/-! ## Listening sockets -/

/-- What the calls for the listening sockets return: a descriptor for each port, and for each
descriptor whether the others succeeded. -/
structure SocketCalls where
  socket : Nat → Option Int
  setsockopt : Int → Bool
  /-- `fcntl(fd, F_SETFL, O_NONBLOCK)` -/
  fcntl : Int → Bool
  bind : Int → SockaddrIn → Bool
  listen : Int → Bool

namespace ServerSocket

def createEndpoint (calls : SocketCalls) (port : Nat) : Except Exn Int :=
  match calls.socket port with
  | none => .error (.runtimeError "socket() failed")
  | some fd =>
    if calls.setsockopt fd then
      if calls.fcntl fd then .ok fd else .error (.runtimeError "fcntl() failed")
    else .error (.runtimeError "setsockopt() failed")

/-- The constructor. -/
def create (calls : SocketCalls) (port : Nat) : Except Exn ServerSocket := do
  let fd ← createEndpoint calls port
  let sock : ServerSocket := ⟨port, fd⟩
  if calls.bind fd sock.setLocalAddress then
    if calls.listen fd then .ok sock else .error (.runtimeError "listen() failed")
  else .error (.runtimeError "bind() failed")

end ServerSocket

/-- Every call for this port succeeds, with this descriptor. -/
structure SocketCalls.Opens (calls : SocketCalls) (port : Nat) (fd : Int) : Prop where
  socket : calls.socket port = some fd
  setsockopt : calls.setsockopt fd = true
  fcntl : calls.fcntl fd = true
  bind : calls.bind fd (ServerSocket.setLocalAddress ⟨port, fd⟩) = true
  listen : calls.listen fd = true

theorem ServerSocket.create_eq_ok_iff {calls : SocketCalls} {port : Nat} {sock : ServerSocket} :
    create calls port = .ok sock ↔ calls.Opens port sock.fd ∧ sock.port = port := by
  constructor
  · intro h
    rw [create, Except.bind_eq_ok_iff] at h
    obtain ⟨fd, hfd, h⟩ := h
    dsimp only at h
    split at h
    · next hbind =>
      split at h
      · next hlisten =>
        cases h
        rw [createEndpoint] at hfd
        split at hfd
        · cases hfd
        · next fd' hsocket =>
          split at hfd
          · next hopt =>
            split at hfd
            · next hfcntl =>
              cases hfd
              exact ⟨⟨hsocket, hopt, hfcntl, hbind, hlisten⟩, rfl⟩
            · cases hfd
          · cases hfd
      · cases h
    · cases h
  · rintro ⟨h, rfl⟩
    have hendpoint : createEndpoint calls sock.port = .ok sock.fd := by
      rw [createEndpoint, h.socket]
      dsimp only
      rw [if_pos h.setsockopt, if_pos h.fcntl]
    rw [create, hendpoint, Except.ok_bind]
    exact (if_pos h.bind).trans (if_pos h.listen)

namespace Server

/-- The loop of the constructor over the ports. -/
def createServSocks (calls : SocketCalls) :
    List Nat → ServerSocketMap → Except Exn ServerSocketMap
  | [], servSocks => .ok servSocks
  | port :: rest, servSocks => do
    let servSock ← ServerSocket.create calls port
    createServSocks calls rest (servSocks.insert servSock.fd servSock)

/-- The constructor. -/
def create (calls : SocketCalls) (config : WebservConfig) : Except Exn Server := do
  let servSocks ← createServSocks calls config.ports.toList ∅
  return ⟨config, servSocks, ∅⟩

end Server

/-- The descriptor of the socket for a port. -/
def SocketCalls.fd (calls : SocketCalls) (port : Nat) : Int := (calls.socket port).getD (-1)

theorem SocketCalls.Opens.fd_eq {calls : SocketCalls} {port : Nat} {fd : Int}
    (h : calls.Opens port fd) : calls.fd port = fd := by
  rw [SocketCalls.fd, h.socket]
  rfl

namespace Server

theorem createServSocks_eq_ok_iff {calls : SocketCalls} {ports : List Nat}
    {servSocks servSocks' : ServerSocketMap} :
    createServSocks calls ports servSocks = .ok servSocks' ↔
      (∀ port ∈ ports, ∃ fd, calls.Opens port fd) ∧
        servSocks' = insertServSocks calls.fd ports servSocks := by
  induction ports generalizing servSocks with
  | nil =>
    rw [createServSocks, insertServSocks]
    constructor
    · intro h
      exact ⟨List.forall_mem_nil _, (Except.ok.inj h).symm⟩
    · rintro ⟨-, rfl⟩
      rfl
  | cons port rest ih =>
    rw [createServSocks, Except.bind_eq_ok_iff, List.forall_mem_cons]
    constructor
    · rintro ⟨sock, hsock, hrest⟩
      obtain ⟨hopens, hport⟩ := ServerSocket.create_eq_ok_iff.mp hsock
      obtain ⟨hall, hsocks⟩ := ih.mp hrest
      refine ⟨⟨⟨sock.fd, hopens⟩, hall⟩, ?_⟩
      rw [hsocks, insertServSocks, hopens.fd_eq, ← hport]
    · rintro ⟨⟨⟨fd, hopens⟩, hall⟩, hsocks⟩
      refine ⟨⟨port, fd⟩, ServerSocket.create_eq_ok_iff.mpr ⟨hopens, rfl⟩, ih.mpr ⟨hall, ?_⟩⟩
      rw [hsocks, insertServSocks, hopens.fd_eq]

/-- The server is there once every port has its socket. -/
theorem create_eq_ok_iff {calls : SocketCalls} {config : WebservConfig} {s : Server} :
    create calls config = .ok s ↔
      (∀ port ∈ config.ports, ∃ fd, calls.Opens port fd) ∧ s = new config calls.fd := by
  rw [create, Except.bind_eq_ok_iff]
  constructor
  · rintro ⟨servSocks, hsocks, h⟩
    obtain ⟨hall, rfl⟩ := createServSocks_eq_ok_iff.mp hsocks
    exact ⟨fun port hport => hall port (Std.ExtTreeSet.mem_toList.mpr hport),
      (Except.ok.inj h).symm⟩
  · rintro ⟨hall, rfl⟩
    exact ⟨_, createServSocks_eq_ok_iff.mpr
      ⟨fun port hport => hall port (Std.ExtTreeSet.mem_toList.mp hport), rfl⟩, rfl⟩

end Server

/-! ## The configuration file -/

namespace ConfigParser

/-- `std::getline` and a newline, line by line. -/
def readFile (ifstream : Str → Option Str) (file : Str) : Except Stop Str :=
  match ifstream (cStr file) with
  | none => throwRuntimeError "Error: Config: Cannot read config file"
  | some content => .ok ((getlines content).flatMap (· ++ lit "\n"))

/-- The constructor that is given a file. -/
def create (memory : Nat → Memory) (ifstream : Str → Option Str) (file : Str) :
    Except Stop WebservConfig := do
  let fileContent ← readFile ifstream file
  let serverconfigs ← parseTokens memory (isspaceSplit fileContent)
  return .ofServConfs serverconfigs

/-- A newline at the end is white space. -/
theorem isspaceSplitLoop_newline (token s : Str) :
    isspaceSplitLoop token (s ++ [10]) = isspaceSplitLoop token s := by
  induction s generalizing token with
  | nil =>
    rw [List.nil_append, isspaceSplitLoop, isspaceSplitLoop, if_pos (by decide)]
    split
    · rfl
    · rfl
  | cons c rest ih =>
    rw [List.cons_append, isspaceSplitLoop, isspaceSplitLoop, ih, ih]

theorem isspaceSplit_newline (s : Str) : isspaceSplit (s ++ [10]) = isspaceSplit s := by
  by_cases hnul : 0 ∈ s
  · obtain ⟨front, rest, rfl, hfront⟩ := List.eq_append_cons_of_mem hnul
    have hend : ∀ rest : Str, cStr (front ++ 0 :: rest) = front := fun rest => by
      rw [cStr_append hfront]
      exact List.append_nil front
    rw [isspaceSplit, isspaceSplit, List.append_assoc, List.cons_append, hend, hend]
  · rw [isspaceSplit, isspaceSplit, cStr_append hnul, cStr_eq_self hnul]
    exact isspaceSplitLoop_newline [] s

/-- The lines have the tokens of the file. -/
theorem isspaceSplit_getlines (content : Str) :
    isspaceSplit ((getlines content).flatMap (· ++ lit "\n")) = isspaceSplit content := by
  rw [getlines_join_newline]
  split
  · rw [List.append_nil]
  · exact isspaceSplit_newline content

theorem create_eq_ok_iff {memory : Nat → Memory} {ifstream : Str → Option Str} {file : Str}
    {config : WebservConfig} :
    create memory ifstream file = .ok config ↔ ∃ content servers,
      ifstream (cStr file) = some content ∧
        parseTokens memory (isspaceSplit content) = .ok servers ∧
        config = .ofServConfs servers := by
  rw [create, Except.bind_eq_ok_iff]
  constructor
  · rintro ⟨fileContent, hread, h⟩
    rw [Except.bind_eq_ok_iff] at h
    obtain ⟨servers, hservers, h⟩ := h
    rw [readFile] at hread
    split at hread
    · cases hread
    · next content hcontent =>
      cases hread
      rw [isspaceSplit_getlines] at hservers
      exact ⟨content, servers, hcontent, hservers, (Except.ok.inj h).symm⟩
  · rintro ⟨content, servers, hcontent, hservers, rfl⟩
    refine ⟨(getlines content).flatMap (· ++ lit "\n"), by rw [readFile, hcontent], ?_⟩
    rw [isspaceSplit_getlines, hservers]
    rfl

end ConfigParser

/-! ## `main` -/

/-- What the program finds.  `polls` is for the first passes of the event loop. -/
structure System where
  memory : Nat → ConfigParser.Memory
  ifstream : Str → Option Str
  sockets : SocketCalls
  polls : List Poll

/-- How far the process has come. -/
inductive Progress
  | exited (status : Nat)
  /-- by `std::terminate`, for what is not a `std::exception` -/
  | aborted
  | killed
  | undefined
  /-- the new process, as the interpreter of a script -/
  | replaced (path : Str) (args envs : List Str)
  | running (server : Server)

def EXIT_FAILURE : Nat := 1

/-- What the exceptions become that leave the `try` block.  The `catch` clause prints and goes on
to the end of `main`. -/
def Raised.progress : Raised → Progress
  | .std _ => .exited 0
  | .int _ => .aborted
  | .sigpipe => .killed
  | .undefined => .undefined
  | .execve path args envs => .replaced path args envs

/-- The loops of the parser end before their fuel. -/
def ConfigParser.Stop.progress : Stop → Progress
  | .thrown _ => .exited 0
  | .pastEnd | .outOfFuel => .undefined

/-- `argv` begins with the name of the program. -/
def main (argv : List Str) (system : System) : Progress :=
  if argv.length ≠ 2 then .exited EXIT_FAILURE
  else
    match ConfigParser.create system.memory system.ifstream (argv.getD 1 []) with
    | .error stop => stop.progress
    | .ok config =>
      match Server.create system.sockets config with
      | .error e => (Raised.std e).progress
      | .ok server =>
        match (Server.run system.polls).run server with
        | (.error e, _) => e.progress
        | (.ok (), server') => .running server'

theorem Raised.progress_ne_running (e : Raised) (s : Server) : e.progress ≠ .running s := by
  cases e <;> exact fun h => by cases h

theorem ConfigParser.Stop.progress_ne_running (stop : Stop) (s : Server) :
    stop.progress ≠ .running s := by
  cases stop <;> exact fun h => by cases h

/-- The program runs once it was given one file, has a configuration and all of its sockets, and
no pass has thrown. -/
theorem main_eq_running_iff {argv : List Str} {system : System} {s : Server} :
    main argv system = .running s ↔ ∃ name file config s₀, argv = [name, file] ∧
      ConfigParser.create system.memory system.ifstream file = .ok config ∧
        Server.create system.sockets config = .ok s₀ ∧
        (Server.run system.polls).run s₀ = (.ok (), s) := by
  constructor
  · intro h
    rw [main] at h
    split at h
    · cases h
    · next hlen =>
      rw [Decidable.not_not, List.length_eq_two] at hlen
      obtain ⟨name, file, rfl⟩ := hlen
      split at h
      · exact absurd h (ConfigParser.Stop.progress_ne_running _ s)
      · next config hconfig =>
        split at h
        · cases h
        · next s₀ hcreate =>
          split at h
          · exact absurd h (Raised.progress_ne_running _ s)
          · next s' hrun =>
            cases h
            exact ⟨name, file, config, s₀, rfl, hconfig, hcreate, hrun⟩
  · rintro ⟨name, file, config, s₀, rfl, hconfig, hcreate, hrun⟩
    have hfile : [name, file].getD 1 [] = file := rfl
    rw [main, if_neg (by simp), hfile, hconfig]
    dsimp only
    rw [hcreate]
    dsimp only
    rw [hrun]

end Webserv
