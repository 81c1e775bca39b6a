import Webserv.Server.Selector

/-!
# `Server`

The event loop.  Each pass selects, accepts and reads, writes, and drops the closed clients.
-/

namespace Webserv

open Text Selector

/-- What the system calls of one pass return, for each descriptor.  `fresh` is what the
configuration in a new parser holds before it is assigned. -/
structure Poll where
  select : SelectResult
  /-- by listening socket; `none` when `accept` failed -/
  accept : Int → Option Int
  /-- whether `fcntl` succeeded -/
  setNonBlocking : Int → Bool
  fresh : ServerConfig
  recv : Int → Option Str
  /-- what the builder sees when it answers the client with this descriptor -/
  os : Int → Os
  send : Int → Send

/-- The constructor called by `acceptConnection` swaps port and descriptor. -/
def ServerSocket.acceptConnection (sock : ServerSocket) (poll : Poll) :
    Except Raised ClientSocket :=
  match poll.accept sock.fd with
  | none => .error (.std (.runtimeError "accept failed()"))
  | some newSocket =>
    if poll.setNonBlocking newSocket then
      .ok (ClientSocket.new (intOfSize sock.port) (sizeOfInt newSocket) poll.fresh)
    else .error (.std (.runtimeError "fcntl() failed"))

structure Server where
  config : WebservConfig
  servSocks : ServerSocketMap
  clntSocks : ClientSocketMap

abbrev ServerM := Method Server Raised

namespace Server

/-- The loop of the constructor.  `socket` is the descriptor of the socket for a port. -/
def insertServSocks (socket : Nat → Int) : List Nat → ServerSocketMap → ServerSocketMap
  | [], servSocks => servSocks
  | port :: rest, servSocks =>
    let servSock : ServerSocket := ⟨port, socket port⟩
    insertServSocks socket rest (servSocks.insert servSock.fd servSock)

def new (config : WebservConfig) (socket : Nat → Int) : Server where
  config := config
  servSocks := insertServSocks socket config.ports.toList ∅
  clntSocks := ∅

def withClient (s : Server) (fd : Int) (clnt : ClientSocket) : Server :=
  { s with clntSocks := s.clntSocks.insert fd (some clnt) }

/-- `clnt_socks_[fd]->x()`.  `operator[]` inserts a null pointer for a missing key. -/
def atClient (fd : Int) (x : ClientM Unit) : ServerM Unit := do
  let s ← get
  match s.clntSocks[fd]? with
  | some (some clnt) =>
    Method.zoom (fun _ => clnt) (fun clnt s => s.withClient fd clnt) x
  | some none => throw .undefined
  | none => do
    modify fun s => { s with clntSocks := s.clntSocks.insert fd none }
    throw .undefined

/-- The body of the loop of `handleReadEvent`. -/
def readEvent (poll : Poll) (fd : Int) : ServerM Unit := do
  let s ← get
  match s.servSocks[fd]? with
  | some servSock =>
    let newClnt ← servSock.acceptConnection poll
    modify fun s => s.withClient newClnt.fd newClnt
  | none => atClient fd (ClientSocket.handleReadEvent (poll.recv fd) (poll.os fd) s.config)

def handleReadEvent (poll : Poll) (readableFds : FdVector) : ServerM Unit :=
  Method.forEach (readEvent poll) readableFds

/-- The body of the loop of `handleWriteEvent`. -/
def writeEvent (poll : Poll) (fd : Int) : ServerM Unit :=
  atClient fd (ClientSocket.handleWriteEvent (poll.send fd))

def handleWriteEvent (poll : Poll) (writableFds : FdVector) : ServerM Unit :=
  Method.forEach (writeEvent poll) writableFds

def withoutClient (s : Server) (fd : Int) : Server :=
  { s with clntSocks := s.clntSocks.erase fd }

/-- The body of the loop of `destroyClient`. -/
def destroyEntry (entry : Int × Option ClientSocket) : ServerM Unit :=
  match entry.2 with
  | none => throw .undefined
  | some clnt =>
    if clnt.shouldClose then modify fun s => s.withoutClient entry.1 else return ()

/-- Erasing an entry does not disturb the iteration over the others. -/
def destroyClient : ServerM Unit := do
  let s ← get
  Method.forEach destroyEntry s.clntSocks.toList

/-- One pass of the loop in `run`. -/
def runOnce (poll : Poll) : ServerM Unit := do
  let s ← get
  let fds ← Selector.select poll.select s.servSocks s.clntSocks
  handleReadEvent poll fds.1
  handleWriteEvent poll fds.2
  destroyClient

/-- The first passes of the endless loop in `run`, one for each poll. -/
def run : List Poll → ServerM Unit
  | [] => return ()
  | poll :: rest => do
    runOnce poll
    run rest

/-! ## Listening sockets -/

theorem getElem?_insertServSocks {socket : Nat → Int} {ports : List Nat}
    {servSocks : ServerSocketMap} {fd : Int} {servSock : ServerSocket}
    (h : (insertServSocks socket ports servSocks)[fd]? = some servSock) :
    servSocks[fd]? = some servSock ∨
      ∃ port ∈ ports, fd = socket port ∧ servSock = ⟨port, socket port⟩ := by
  induction ports generalizing servSocks with
  | nil => exact Or.inl h
  | cons port rest ih =>
    rw [insertServSocks] at h
    rcases ih h with h | ⟨port', hport', hfd⟩
    · by_cases heq : fd = socket port
      · rw [heq, Std.ExtTreeMap.getElem?_insert_self] at h
        exact Or.inr ⟨port, List.mem_cons_self .., heq, (Option.some.inj h).symm⟩
      · rw [Std.ExtTreeMap.getElem?_insert, if_neg (by
          rw [Std.LawfulEqCmp.compare_eq_iff_eq]
          exact Ne.symm heq)] at h
        exact Or.inl h
    · exact Or.inr ⟨port', List.mem_cons_of_mem _ hport', hfd⟩

theorem servSocks_new {config : WebservConfig} {socket : Nat → Int} {fd : Int}
    {servSock : ServerSocket} (h : (new config socket).servSocks[fd]? = some servSock) :
    ∃ port ∈ config.ports, fd = socket port ∧ servSock = ⟨port, socket port⟩ := by
  rcases getElem?_insertServSocks h with h | ⟨port, hport, hfd⟩
  · rw [Std.ExtTreeMap.getElem?_empty] at h
    cases h
  · exact ⟨port, Std.ExtTreeSet.mem_toList.mp hport, hfd⟩

/-! ## Single events -/

section

variable {s : Server} {poll : Poll} {fd : Int}

theorem atClient_run {clnt : ClientSocket} (h : s.clntSocks[fd]? = some (some clnt))
    (x : ClientM Unit) :
    (atClient fd x).run s = ((x.run clnt).1, s.withClient fd (x.run clnt).2) := by
  rw [atClient, Method.run_get_bind, h]
  rfl

theorem readEvent_server {servSock : ServerSocket} {newClnt : ClientSocket}
    (h : s.servSocks[fd]? = some servSock)
    (haccept : servSock.acceptConnection poll = .ok newClnt) :
    (readEvent poll fd).run s = (.ok (), s.withClient newClnt.fd newClnt) := by
  have hlift : (liftM (servSock.acceptConnection poll) : ServerM ClientSocket).run s =
      (.ok newClnt, s) := by
    rw [Method.run_lift, haccept]
  rw [readEvent, Method.run_get_bind, h]
  exact Method.run_bind_ok hlift _

theorem readEvent_client (hserv : s.servSocks[fd]? = none) {clnt : ClientSocket}
    (h : s.clntSocks[fd]? = some (some clnt)) :
    (readEvent poll fd).run s =
      (((ClientSocket.handleReadEvent (poll.recv fd) (poll.os fd) s.config).run clnt).1,
        s.withClient fd
          ((ClientSocket.handleReadEvent (poll.recv fd) (poll.os fd) s.config).run clnt).2) := by
  rw [readEvent, Method.run_get_bind, hserv]
  exact atClient_run h _

theorem writeEvent_client {clnt : ClientSocket} (h : s.clntSocks[fd]? = some (some clnt)) :
    (writeEvent poll fd).run s =
      (((ClientSocket.handleWriteEvent (poll.send fd)).run clnt).1,
        s.withClient fd ((ClientSocket.handleWriteEvent (poll.send fd)).run clnt).2) :=
  atClient_run h _

end

end Server

end Webserv
