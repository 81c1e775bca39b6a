import Webserv.Server.Server

/-!
# The event loop

An invariant of the server at every call of `select`, as long as the system calls do what they
promise and the handlers of the clients return.
-/

namespace Webserv

open Text Selector

/-! ## When the handlers of a client return -/

namespace ClientSocket

/-- `recv` does not fail, and a request that it completes is answered. -/
def ReadReturns (received : Option Str) (os : Os) (config : WebservConfig) (clnt : ClientSocket) :
    Prop :=
  ∃ bytes, received = some bytes ∧
    (bytes ≠ [] → completes (clnt.fed bytes config).requestParser →
      ∃ response,
        responseTo os clnt.port config (clnt.fed bytes config).requestParser.buildRequest =
          .ok response)

/-- `send` takes the whole response. -/
def WriteReturns (send : Send) (clnt : ClientSocket) : Prop :=
  ∀ response, clnt.currentResponse = some response →
    send = .sent (HttpResponseSerializer.serialize response).size

/-- The handler returned, and the client it left is sound and the same connection. -/
structure Returned (conf : ServerConfig) (config : WebservConfig) (clnt : ClientSocket)
    (r : Except Raised Unit × ClientSocket) : Prop where
  ok : r.1 = .ok ()
  sound : Sound conf config r.2
  fd : r.2.fd = clnt.fd
  port : r.2.port = clnt.port

section

variable {conf : ServerConfig} {config : WebservConfig} {clnt : ClientSocket}

theorem Sound.handleReadEvent (h : Sound conf config clnt) (hstate : clnt.state = .read)
    {received : Option Str} {os : Os} (hreturns : ReadReturns received os config clnt) :
    Returned conf config clnt ((ClientSocket.handleReadEvent received os config).run clnt) := by
  have hfed := h.fed (by rw [hstate]; decide)
  obtain ⟨bytes, rfl, hanswer⟩ := hreturns
  by_cases hbytes : bytes = []
  · rw [hbytes, handleReadEvent_eof]
    exact ⟨rfl, h.closed, rfl, rfl⟩
  · by_cases hcompletes : completes (clnt.fed bytes config).requestParser
    · obtain ⟨response, hresponse⟩ := hanswer hbytes hcompletes
      rw [handleReadEvent_answers hbytes hcompletes hresponse]
      exact ⟨rfl, (hfed bytes).answered hcompletes hresponse, rfl, rfl⟩
    · rw [handleReadEvent_waits hbytes hcompletes]
      exact ⟨rfl, hfed bytes, rfl, rfl⟩

theorem Sound.handleWriteEvent (h : Sound conf config clnt) (hstate : clnt.state = .write)
    {send : Send} (hreturns : WriteReturns send clnt) :
    Returned conf config clnt ((ClientSocket.handleWriteEvent send).run clnt) := by
  obtain ⟨response, -, hresponse, -⟩ := h.pending hstate
  rw [hreturns response hresponse, handleWriteEvent_sent hresponse]
  exact ⟨rfl, h.delivered hstate hresponse, rfl, rfl⟩

end

end ClientSocket

/-! ## The invariant -/

namespace Server

/-- What holds of a client under its descriptor. -/
structure Registered (config : WebservConfig) (servSocks : ServerSocketMap) (fd : Int)
    (clnt : ClientSocket) : Prop where
  fd_eq : clnt.fd = fd
  inRange : InRange fd
  not_server : fd ∉ servSocks
  port : ∃ (listenFd : Int) (servSock : ServerSocket),
    servSocks[listenFd]? = some servSock ∧ clnt.port = servSock.port
  sound : ∃ conf, clnt.Sound conf config

/-- What holds of the server between two events. -/
structure Inv (s : Server) : Prop where
  server : ∀ (fd : Int) (servSock : ServerSocket), s.servSocks[fd]? = some servSock →
    servSock.fd = fd ∧ InRange fd ∧ servSock.port ∈ s.config.ports
  client : ∀ (fd : Int) (e : Option ClientSocket), s.clntSocks[fd]? = some e →
    ∃ clnt, e = some clnt ∧ Registered s.config s.servSocks fd clnt

/-- No client is waiting for its destruction. -/
def Settled (s : Server) : Prop :=
  ∀ (fd : Int) (clnt : ClientSocket), s.clntSocks[fd]? = some (some clnt) →
    clnt.state = .read ∨ clnt.state = .write

section

variable {s : Server} {fd : Int} {clnt : ClientSocket}

theorem withClient_self (s : Server) (fd : Int) (clnt : ClientSocket) :
    (s.withClient fd clnt).clntSocks[fd]? = some (some clnt) :=
  Std.ExtTreeMap.getElem?_insert_self

theorem withClient_of_ne {k : Int} (h : k ≠ fd) :
    (s.withClient fd clnt).clntSocks[k]? = s.clntSocks[k]? := by
  rw [withClient, Std.ExtTreeMap.getElem?_insert, if_neg]
  rw [Std.LawfulEqCmp.compare_eq_iff_eq]
  exact h.symm

theorem mem_withClient {k : Int} :
    k ∈ (s.withClient fd clnt).clntSocks ↔ k = fd ∨ k ∈ s.clntSocks := by
  rw [withClient, Std.ExtTreeMap.mem_insert, Std.LawfulEqCmp.compare_eq_iff_eq, eq_comm]

theorem withoutClient_self (s : Server) (fd : Int) : (s.withoutClient fd).clntSocks[fd]? = none :=
  Std.ExtTreeMap.getElem?_erase_self

theorem withoutClient_of_ne {k : Int} (h : k ≠ fd) :
    (s.withoutClient fd).clntSocks[k]? = s.clntSocks[k]? := by
  rw [withoutClient, Std.ExtTreeMap.getElem?_erase, if_neg]
  rw [Std.LawfulEqCmp.compare_eq_iff_eq]
  exact h.symm

theorem mem_of_client {k : Int} {e : Option ClientSocket} (h : s.clntSocks[k]? = some e) :
    k ∈ s.clntSocks := by
  rw [Std.ExtTreeMap.mem_iff_isSome_getElem?, h]
  rfl

theorem exists_entry {k : Int} (h : k ∈ s.clntSocks) : ∃ e, s.clntSocks[k]? = some e :=
  ⟨_, Std.ExtTreeMap.getElem?_eq_some_getElem h⟩

theorem mem_of_server {k : Int} {servSock : ServerSocket} (h : s.servSocks[k]? = some servSock) :
    k ∈ s.servSocks := by
  rw [Std.ExtTreeMap.mem_iff_isSome_getElem?, h]
  rfl

theorem exists_servSock {k : Int} (h : k ∈ s.servSocks) :
    ∃ servSock, s.servSocks[k]? = some servSock :=
  ⟨_, Std.ExtTreeMap.getElem?_eq_some_getElem h⟩

theorem Inv.withClient (h : Inv s) (hreg : Registered s.config s.servSocks fd clnt) :
    Inv (s.withClient fd clnt) where
  server := h.server
  client := by
    intro k e hk
    by_cases heq : k = fd
    · rw [heq, withClient_self] at hk
      exact ⟨clnt, (Option.some.inj hk).symm, heq ▸ hreg⟩
    · rw [withClient_of_ne heq] at hk
      exact h.client k e hk

theorem Inv.registered (h : Inv s) (hclnt : s.clntSocks[fd]? = some (some clnt)) :
    Registered s.config s.servSocks fd clnt := by
  obtain ⟨clnt', heq, hreg⟩ := h.client fd _ hclnt
  exact Option.some.inj heq ▸ hreg

/-- The handler of a client that is registered and returns leaves a registered client. -/
theorem Registered.returned {config : WebservConfig} {servSocks : ServerSocketMap}
    (h : Registered config servSocks fd clnt) {r : Except Raised Unit × ClientSocket}
    (hreturned : ∀ conf, clnt.Sound conf config → clnt.Returned conf config r) :
    Registered config servSocks fd r.2 := by
  obtain ⟨conf, hsound⟩ := h.sound
  have hr := hreturned conf hsound
  exact ⟨hr.fd.trans h.fd_eq, h.inRange, h.not_server, by rw [hr.port]; exact h.port,
    conf, hr.sound⟩

end

/-! ## What the system calls promise -/

end Server

def Poll.readable (poll : Poll) : FdSet :=
  match poll.select with
  | .ready readfds _ => readfds
  | _ => ∅

def Poll.writable (poll : Poll) : FdSet :=
  match poll.select with
  | .ready _ writefds => writefds
  | _ => ∅

namespace Server

/-- `accept` returns a descriptor that is not open and fits into an `fd_set`. -/
structure Accepts (s : Server) (poll : Poll) (fd newSocket : Int) : Prop where
  accept : poll.accept fd = some newSocket
  nonBlocking : poll.setNonBlocking newSocket = true
  inRange : InRange newSocket
  not_server : newSocket ∉ s.servSocks
  not_client : newSocket ∉ s.clntSocks

/-- `select` reports descriptors that were set.  The descriptors that `accept` returns in one pass
are all open, so they differ. -/
structure Promised (s : Server) (poll : Poll) : Prop where
  select : poll.select ≠ .failed
  ready : ∀ fds, setFdset s.servSocks s.clntSocks = .ok fds →
    (∀ fd ∈ poll.readable, fd ∈ fds.1) ∧ ∀ fd ∈ poll.writable, fd ∈ fds.2
  accept : ∀ fd ∈ poll.readable, fd ∈ s.servSocks → ∃ newSocket, s.Accepts poll fd newSocket
  distinct : ∀ fd ∈ poll.readable, ∀ fd' ∈ poll.readable, fd ∈ s.servSocks → fd' ∈ s.servSocks →
    poll.accept fd = poll.accept fd' → fd = fd'

/-! ## Single events -/

/-- The read event on a descriptor finds a listening socket that accepts a connection, or a
client in `READ` of which `R` holds. -/
inductive ReadReady (R : Int → ClientSocket → Prop) (poll : Poll) (s : Server) (fd : Int) : Prop
  | server (newSocket : Int) : fd ∈ poll.readable → fd ∈ s.servSocks →
    s.Accepts poll fd newSocket → ReadReady R poll s fd
  | client (clnt : ClientSocket) : fd ∈ poll.readable → fd ∉ s.servSocks →
    s.clntSocks[fd]? = some (some clnt) → clnt.state = .read → R fd clnt → ReadReady R poll s fd

/-- The write event on a descriptor finds a client in `WRITE` of which `W` holds. -/
def WriteReady (W : Int → ClientSocket → Prop) (s : Server) (fd : Int) : Prop :=
  ∃ clnt, s.clntSocks[fd]? = some (some clnt) ∧ clnt.state = .write ∧ W fd clnt

/-- The invariant within one pass that began in `s₀`. -/
structure During (s₀ s : Server) : Prop where
  inv : Inv s
  config : s.config = s₀.config
  servSocks : s.servSocks = s₀.servSocks

/-- The invariant while the read events are handled. -/
structure Reading (W : Int → ClientSocket → Prop) (s₀ : Server) (poll : Poll) (s : Server) : Prop
    extends During s₀ s where
  writes : ∀ fd ∈ poll.writable, WriteReady W s fd

/-- The read event of every client returns. -/
def readsReturn (poll : Poll) (config : WebservConfig) (fd : Int) (clnt : ClientSocket) : Prop :=
  clnt.ReadReturns (poll.recv fd) (poll.os fd) config

/-- The write event of every client returns. -/
def writesReturn (poll : Poll) (fd : Int) (clnt : ClientSocket) : Prop :=
  clnt.WriteReturns (poll.send fd)

section

variable {s₀ s : Server} {poll : Poll} {fd : Int} {clnt : ClientSocket}
  {R W : Int → ClientSocket → Prop}

theorem Accepts.withClient {fd' newSocket : Int} (h : s.Accepts poll fd' newSocket)
    (hne : newSocket ≠ fd) : (s.withClient fd clnt).Accepts poll fd' newSocket where
  accept := h.accept
  nonBlocking := h.nonBlocking
  inRange := h.inRange
  not_server := h.not_server
  not_client := fun hmem => (mem_withClient.mp hmem).elim hne h.not_client

theorem acceptConnection_ok {servSock : ServerSocket} {newSocket : Int}
    (h : s.Accepts poll servSock.fd newSocket) :
    servSock.acceptConnection poll =
      .ok (ClientSocket.new (intOfSize servSock.port) (sizeOfInt newSocket) poll.fresh) := by
  rw [ServerSocket.acceptConnection, h.accept]
  exact if_pos h.nonBlocking

theorem InRange.isInt (h : InRange fd) : intMin ≤ fd ∧ fd ≤ intMax := by
  obtain ⟨hpos, hlt⟩ := h
  rw [FD_SETSIZE] at hlt
  rw [intMin, intMax]
  omega

/-- The swapped arguments come out right. -/
theorem registered_new (hinv : Inv s) (hports : s.config.PortsParsed) {servSock : ServerSocket}
    (hserv : s.servSocks[fd]? = some servSock) {newSocket : Int}
    (h : s.Accepts poll fd newSocket) :
    Registered s.config s.servSocks newSocket
      (ClientSocket.new (intOfSize servSock.port) (sizeOfInt newSocket) poll.fresh) where
  fd_eq := intOfSize_sizeOfInt (InRange.isInt h.inRange).1 (InRange.isInt h.inRange).2
  inRange := h.inRange
  not_server := h.not_server
  port := by
    obtain ⟨n, hmin, hmax, hport⟩ := hports _ (hinv.server fd servSock hserv).2.2
    refine ⟨fd, servSock, hserv, ?_⟩
    change sizeOfInt (intOfSize servSock.port) = servSock.port
    rw [hport, sizeOfInt_intOfSize_sizeOfInt hmin hmax]
  sound := ⟨poll.fresh, ClientSocket.sound_new _ _ _ _⟩

theorem During.withClient (h : During s₀ s) (hreg : Registered s.config s.servSocks fd clnt) :
    During s₀ (s.withClient fd clnt) :=
  ⟨h.inv.withClient hreg, h.config, h.servSocks⟩

theorem WriteReady.withClient {k : Int} (h : WriteReady W s k) (hne : k ≠ fd) :
    WriteReady W (s.withClient fd clnt) k := by
  obtain ⟨clnt', hclnt', hrest⟩ := h
  exact ⟨clnt', by rw [withClient_of_ne hne, hclnt'], hrest⟩

theorem acceptEvent_step (hports : s₀.config.PortsParsed) (hpromised : s₀.Promised poll)
    (h : Reading W s₀ poll s) (hreadable : fd ∈ poll.readable) (hserver : fd ∈ s.servSocks)
    {newSocket : Int} (haccepts : s.Accepts poll fd newSocket) :
    ∃ s', (readEvent poll fd).run s = (.ok (), s') ∧ Reading W s₀ poll s' ∧
      ∀ fd', fd' ≠ fd → ReadReady R poll s fd' → ReadReady R poll s' fd' := by
  obtain ⟨servSock, hserv⟩ := exists_servSock hserver
  obtain ⟨hfd, -⟩ := h.inv.server fd servSock hserv
  have hreg := registered_new h.inv (h.config ▸ hports) hserv haccepts
  have hnew := hreg.fd_eq
  have hne : ∀ {k : Int}, k ∈ s.clntSocks → k ≠ newSocket := fun hk heq =>
    haccepts.not_client (heq ▸ hk)
  refine ⟨s.withClient newSocket
    (ClientSocket.new (intOfSize servSock.port) (sizeOfInt newSocket) poll.fresh), ?_, ?_, ?_⟩
  · rw [readEvent_server hserv (acceptConnection_ok (hfd.symm ▸ haccepts)), hnew]
  · refine ⟨h.toDuring.withClient hreg, fun k hk => ?_⟩
    obtain ⟨clnt, hclnt, -⟩ := h.writes k hk
    exact (h.writes k hk).withClient (hne (mem_of_client hclnt))
  · intro fd' hfd' hready'
    cases hready' with
    | server newSocket' hreadable' hserver' haccepts' =>
      refine .server newSocket' hreadable' hserver' (haccepts'.withClient fun heq => hfd' ?_)
      refine hpromised.distinct fd' hreadable' fd hreadable (h.servSocks ▸ hserver')
        (h.servSocks ▸ hserver) ?_
      rw [haccepts.accept, haccepts'.accept, heq]
    | client clnt hreadable' hserver' hclnt hstate hR =>
      exact .client clnt hreadable' hserver'
        (by rw [withClient_of_ne (hne (mem_of_client hclnt)), hclnt]) hstate hR

theorem clientReadEvent_step (h : Reading W s₀ poll s) (hserver : fd ∉ s.servSocks)
    (hclnt : s.clntSocks[fd]? = some (some clnt)) (hstate : clnt.state = .read)
    (hreturns : clnt.ReadReturns (poll.recv fd) (poll.os fd) s.config) :
    ∃ s', (readEvent poll fd).run s = (.ok (), s') ∧ Reading W s₀ poll s' ∧
      ∀ fd', fd' ≠ fd → ReadReady R poll s fd' → ReadReady R poll s' fd' := by
  have hreg := h.inv.registered hclnt
  have hreturned := hreg.returned fun conf hsound => hsound.handleReadEvent hstate hreturns
  refine ⟨_, ?_, ⟨h.toDuring.withClient hreturned, ?_⟩, ?_⟩
  · rw [readEvent_client (by simpa using hserver) hclnt]
    obtain ⟨conf, hsound⟩ := hreg.sound
    rw [(hsound.handleReadEvent hstate hreturns).ok]
  · intro k hk
    refine (h.writes k hk).withClient fun heq => ?_
    obtain ⟨clnt', hclnt', hstate', -⟩ := h.writes k hk
    rw [heq, hclnt] at hclnt'
    rw [← Option.some.inj (Option.some.inj hclnt'), hstate] at hstate'
    cases hstate'
  · intro fd' hfd' hready'
    cases hready' with
    | server newSocket' hreadable' hserver' haccepts' =>
      exact .server newSocket' hreadable' hserver'
        (haccepts'.withClient fun heq => haccepts'.not_client (heq ▸ mem_of_client hclnt))
    | client clnt' hreadable' hserver' hclnt' hstate' hR' =>
      exact .client clnt' hreadable' hserver' (by rw [withClient_of_ne hfd', hclnt']) hstate' hR'

/-- A read event that is ready is handled, and the others stay ready. -/
theorem readEvent_step (hports : s₀.config.PortsParsed) (hpromised : s₀.Promised poll)
    (h : Reading W s₀ poll s) (hready : ReadReady (readsReturn poll s₀.config) poll s fd) :
    ∃ s', (readEvent poll fd).run s = (.ok (), s') ∧ Reading W s₀ poll s' ∧
      ∀ fd', fd' ≠ fd → ReadReady (readsReturn poll s₀.config) poll s fd' →
        ReadReady (readsReturn poll s₀.config) poll s' fd' := by
  cases hready with
  | server newSocket hreadable hserver haccepts =>
    exact acceptEvent_step hports hpromised h hreadable hserver haccepts
  | client clnt hreadable hserver hclnt hstate hreturns =>
    exact clientReadEvent_step h hserver hclnt hstate (h.config ▸ hreturns)

/-- A write event that returns is handled, and the others stay ready. -/
theorem writeEvent_step (h : During s₀ s) (hclnt : s.clntSocks[fd]? = some (some clnt))
    (hstate : clnt.state = .write) (hreturns : clnt.WriteReturns (poll.send fd)) :
    ∃ s', (writeEvent poll fd).run s = (.ok (), s') ∧ During s₀ s' ∧
      ∀ fd', fd' ≠ fd → WriteReady W s fd' → WriteReady W s' fd' := by
  have hreg := h.inv.registered hclnt
  have hreturned := hreg.returned fun conf hsound => hsound.handleWriteEvent hstate hreturns
  refine ⟨_, ?_, h.withClient hreturned, fun fd' hfd' h => h.withClient hfd'⟩
  rw [writeEvent_client hclnt]
  obtain ⟨conf, hsound⟩ := hreg.sound
  rw [(hsound.handleWriteEvent hstate hreturns).ok]

/-- The loop over the write events. -/
theorem handleWriteEvent_step {fds : FdVector} (hnodup : fds.Nodup) (h : During s₀ s)
    (hready : ∀ fd ∈ fds, WriteReady (writesReturn poll) s fd) :
    ∃ s', (handleWriteEvent poll fds).run s = (.ok (), s') ∧ During s₀ s' ∧
      ∀ fd ∉ fds, WriteReady (writesReturn poll) s fd → WriteReady (writesReturn poll) s' fd :=
  Method.forEach_ok
    (fun _ _ hd hready => by
      obtain ⟨clnt, hclnt, hstate, hreturns⟩ := hready
      exact writeEvent_step hd hclnt hstate hreturns)
    hnodup h hready

/-- The loop over the read events. -/
theorem handleReadEvent_step (hports : s₀.config.PortsParsed) (hpromised : s₀.Promised poll)
    {fds : FdVector} (hnodup : fds.Nodup) (h : Reading W s₀ poll s)
    (hready : ∀ fd ∈ fds, ReadReady (readsReturn poll s₀.config) poll s fd) :
    ∃ s', (handleReadEvent poll fds).run s = (.ok (), s') ∧ Reading W s₀ poll s' ∧
      ∀ fd ∉ fds, ReadReady (readsReturn poll s₀.config) poll s fd →
        ReadReady (readsReturn poll s₀.config) poll s' fd :=
  Method.forEach_ok
    (fun _ _ hr hready => readEvent_step hports hpromised hr hready) hnodup h hready

/-! ## One pass -/

theorem watchable (hinv : Inv s) (hsettled : Settled s) (k : Int) (e : Option ClientSocket)
    (hk : s.clntSocks[k]? = some e) : Watchable (k, e) := by
  obtain ⟨clnt, rfl, hreg⟩ := hinv.client k e hk
  exact ⟨hreg.inRange, clnt, rfl, hsettled k clnt hk⟩

theorem server_inRange (hinv : Inv s) (k : Int) (hk : k ∈ s.servSocks) : InRange k := by
  obtain ⟨servSock, hserv⟩ := exists_servSock hk
  exact (hinv.server k servSock hserv).2.1

/-- Every descriptor of a server in this state can be watched. -/
theorem Inv.setFdset_ok (hinv : Inv s) (hsettled : Settled s) :
    ∃ fds, setFdset s.servSocks s.clntSocks = .ok fds ∧
      (∀ fd, fd ∈ fds.1 ↔ fd ∈ s.servSocks ∨
        ∃ clnt, s.clntSocks[fd]? = some (some clnt) ∧ clnt.state = .read) ∧
      ∀ fd, fd ∈ fds.2 ↔ ∃ clnt, s.clntSocks[fd]? = some (some clnt) ∧ clnt.state = .write :=
  Selector.setFdset_ok (server_inRange hinv) (watchable hinv hsettled)

/-- Registered descriptors that are ready are reported, each of them once. -/
theorem Inv.toFdVector_ready (hinv : Inv s) {ready : FdSet}
    (hready : ∀ fd ∈ ready, fd ∈ s.servSocks ∨ fd ∈ s.clntSocks) :
    (toFdVector ready (calcMaxFd s.servSocks s.clntSocks)).Nodup ∧
      ∀ fd, fd ∈ toFdVector ready (calcMaxFd s.servSocks s.clntSocks) ↔ fd ∈ ready := by
  refine ⟨nodup_toFdVector _ _, fun fd => ?_⟩
  rw [mem_toFdVector]
  refine ⟨fun h => h.2.2, fun h => ?_⟩
  have hpos : 0 ≤ fd := by
    rcases hready fd h with hserver | hclient
    · exact (server_inRange hinv fd hserver).1
    · obtain ⟨e, he⟩ := exists_entry hclient
      obtain ⟨clnt, -, hreg⟩ := hinv.client fd e he
      exact hreg.inRange.1
  exact ⟨hpos, le_calcMaxFd (hready fd h), h⟩

/-- The descriptors that the handlers get. -/
structure Selected (s : Server) (poll : Poll) (fds : FdVector × FdVector) : Prop where
  select : Selector.select poll.select s.servSocks s.clntSocks = .ok fds
  nodup_read : fds.1.Nodup
  nodup_write : fds.2.Nodup
  mem_read : ∀ fd, fd ∈ fds.1 ↔ fd ∈ poll.readable
  mem_write : ∀ fd, fd ∈ fds.2 ↔ fd ∈ poll.writable

/-- The ready descriptors belong to listening sockets and to clients in the matching state. -/
structure Matching (s : Server) (poll : Poll) : Prop where
  readable : ∀ fd ∈ poll.readable, fd ∈ s.servSocks ∨
    ∃ clnt, s.clntSocks[fd]? = some (some clnt) ∧ clnt.state = .read
  writable : ∀ fd ∈ poll.writable,
    ∃ clnt, s.clntSocks[fd]? = some (some clnt) ∧ clnt.state = .write

/-- `select` reports what was set, so the descriptors match. -/
theorem Inv.matching (hinv : Inv s) (hsettled : Settled s)
    (hready : ∀ fds, setFdset s.servSocks s.clntSocks = .ok fds →
      (∀ fd ∈ poll.readable, fd ∈ fds.1) ∧ ∀ fd ∈ poll.writable, fd ∈ fds.2) :
    s.Matching poll := by
  obtain ⟨fds, hfds, hread, hwrite⟩ := hinv.setFdset_ok hsettled
  obtain ⟨hreadable, hwritable⟩ := hready fds hfds
  exact ⟨fun fd hfd => (hread fd).mp (hreadable fd hfd),
    fun fd hfd => (hwrite fd).mp (hwritable fd hfd)⟩

theorem Promised.matching (h : s.Promised poll) (hinv : Inv s) (hsettled : Settled s) :
    s.Matching poll :=
  hinv.matching hsettled h.ready

theorem Inv.ready_of_matching (hinv : Inv s) (hsettled : Settled s) (h : s.Matching poll)
    {fds : FdSet × FdSet} (hfds : setFdset s.servSocks s.clntSocks = .ok fds) :
    (∀ fd ∈ poll.readable, fd ∈ fds.1) ∧ ∀ fd ∈ poll.writable, fd ∈ fds.2 := by
  obtain ⟨fds', hfds', hread, hwrite⟩ := hinv.setFdset_ok hsettled
  obtain rfl := Except.ok.inj (hfds.symm.trans hfds')
  exact ⟨fun fd hfd => (hread fd).mpr (h.readable fd hfd),
    fun fd hfd => (hwrite fd).mpr (h.writable fd hfd)⟩

theorem Matching.selected (hmatching : s.Matching poll) (hinv : Inv s) (hsettled : Settled s)
    (hfailed : poll.select ≠ .failed) : ∃ fds, s.Selected poll fds := by
  obtain ⟨watched, hwatched, -⟩ := hinv.setFdset_ok hsettled
  have hreadable : ∀ fd ∈ poll.readable, fd ∈ s.servSocks ∨ fd ∈ s.clntSocks := by
    intro fd hfd
    rcases hmatching.readable fd hfd with hserver | ⟨clnt, hclnt, -⟩
    · exact Or.inl hserver
    · exact Or.inr (mem_of_client hclnt)
  have hwritable : ∀ fd ∈ poll.writable, fd ∈ s.servSocks ∨ fd ∈ s.clntSocks := by
    intro fd hfd
    obtain ⟨clnt, hclnt, -⟩ := hmatching.writable fd hfd
    exact Or.inr (mem_of_client hclnt)
  unfold Poll.readable at hreadable
  unfold Poll.writable at hwritable
  cases hselect : poll.select with
  | failed => exact absurd hselect hfailed
  | timeout =>
    refine ⟨([], []), ?_, List.nodup_nil, List.nodup_nil, fun fd => ?_, fun fd => ?_⟩
    · rw [hselect, Selector.select, hwatched]
      rfl
    · simp [Poll.readable, hselect]
    · simp [Poll.writable, hselect]
  | ready readfds writefds =>
    rw [hselect] at hreadable hwritable
    dsimp only at hreadable hwritable
    obtain ⟨hnodup, hmem⟩ := hinv.toFdVector_ready hreadable
    obtain ⟨hnodup', hmem'⟩ := hinv.toFdVector_ready hwritable
    refine ⟨(toFdVector readfds _, toFdVector writefds _), ?_, hnodup, hnodup', fun fd => ?_,
      fun fd => ?_⟩
    · rw [hselect, Selector.select, hwatched]
      rfl
    · rw [hmem, Poll.readable, hselect]
    · rw [hmem', Poll.writable, hselect]

theorem Promised.selected (h : s.Promised poll) (hinv : Inv s) (hsettled : Settled s) :
    ∃ fds, s.Selected poll fds :=
  (h.matching hinv hsettled).selected hinv hsettled h.select

theorem Promised.readReady (h : s.Promised poll) (hinv : Inv s) (hsettled : Settled s)
    (hR : ∀ fd ∈ poll.readable, ∀ clnt, s.clntSocks[fd]? = some (some clnt) → R fd clnt) :
    ∀ fd ∈ poll.readable, ReadReady R poll s fd := by
  intro fd hfd
  by_cases hserver : fd ∈ s.servSocks
  · obtain ⟨newSocket, haccepts⟩ := h.accept fd hfd hserver
    exact .server newSocket hfd hserver haccepts
  · obtain ⟨clnt, hclnt, hstate⟩ :=
      ((h.matching hinv hsettled).readable fd hfd).resolve_left hserver
    exact .client clnt hfd hserver hclnt hstate (hR fd hfd clnt hclnt)

theorem Promised.writeReady (h : s.Promised poll) (hinv : Inv s) (hsettled : Settled s)
    (hW : ∀ fd ∈ poll.writable, ∀ clnt, s.clntSocks[fd]? = some (some clnt) → W fd clnt) :
    ∀ fd ∈ poll.writable, WriteReady W s fd := by
  intro fd hfd
  obtain ⟨clnt, hclnt, hstate⟩ := (h.matching hinv hsettled).writable fd hfd
  exact ⟨clnt, hclnt, hstate, hW fd hfd clnt hclnt⟩

/-- The promises, and that no handler of a client throws. -/
structure Lawful (s : Server) (poll : Poll) : Prop extends Promised s poll where
  reads : ∀ fd ∈ poll.readable, ∀ clnt, s.clntSocks[fd]? = some (some clnt) →
    clnt.ReadReturns (poll.recv fd) (poll.os fd) s.config
  writes : ∀ fd ∈ poll.writable, ∀ clnt, s.clntSocks[fd]? = some (some clnt) →
    clnt.WriteReturns (poll.send fd)

theorem destroyEntries_run {entries : List (Int × Option ClientSocket)}
    (h : ∀ e ∈ entries, ∃ clnt, e.2 = some clnt) (s : Server) :
    ∃ s', (Method.forEach destroyEntry entries).run s = (.ok (), s') ∧ s'.config = s.config ∧
      s'.servSocks = s.servSocks ∧
      ∀ (k : Int) e, s'.clntSocks[k]? = some e ↔
        s.clntSocks[k]? = some e ∧
          ¬ ∃ clnt, (k, some clnt) ∈ entries ∧ clnt.state = .close := by
  induction entries generalizing s with
  | nil => exact ⟨s, rfl, rfl, rfl, fun k e => by simp⟩
  | cons entry rest ih =>
    obtain ⟨fd, e⟩ := entry
    rw [List.forall_mem_cons] at h
    obtain ⟨⟨clnt, rfl⟩, hrest⟩ := h
    simp only [exists_client_cons]
    by_cases hclose : clnt.state = .close
    · have hrun : (destroyEntry (fd, some clnt)).run s = (.ok (), s.withoutClient fd) := by
        rw [destroyEntry, Method.run_ite, if_pos (by simp [ClientSocket.shouldClose, hclose])]
        rfl
      obtain ⟨s', hrun', hconfig, hserv, hmem⟩ := ih hrest (s.withoutClient fd)
      refine ⟨s', ?_, hconfig, hserv, fun k e => ?_⟩
      · rw [Method.forEach_cons, Method.run_bind_ok hrun, hrun']
      · rw [hmem]
        by_cases hk : k = fd
        · rw [hk, withoutClient_self]
          simp [hclose]
        · rw [withoutClient_of_ne hk]
          simp [Ne.symm hk]
    · have hrun : (destroyEntry (fd, some clnt)).run s = (.ok (), s) := by
        rw [destroyEntry, Method.run_ite, if_neg (by simp [ClientSocket.shouldClose, hclose])]
        rfl
      obtain ⟨s', hrun', hconfig, hserv, hmem⟩ := ih hrest s
      refine ⟨s', ?_, hconfig, hserv, fun k e => ?_⟩
      · rw [Method.forEach_cons, Method.run_bind_ok hrun, hrun']
      · rw [hmem]
        simp [hclose]

/-- `destroyClient` leaves the clients that are not closed. -/
theorem destroyClient_step (h : During s₀ s) :
    ∃ s', destroyClient.run s = (.ok (), s') ∧ During s₀ s' ∧ Settled s' := by
  have hentries : ∀ e ∈ s.clntSocks.toList, ∃ clnt, e.2 = some clnt := by
    intro e he
    obtain ⟨clnt, hclnt, -⟩ := h.inv.client e.1 e.2
      (Std.ExtTreeMap.mem_toList_iff_getElem?_eq_some.mp he)
    exact ⟨clnt, hclnt⟩
  obtain ⟨s', hrun, hconfig, hserv, hmem⟩ := destroyEntries_run hentries s
  refine ⟨s', ?_, ⟨⟨?_, ?_⟩, hconfig.trans h.config, hserv.trans h.servSocks⟩, ?_⟩
  · rw [destroyClient, Method.run_get_bind, hrun]
  · rw [hconfig, hserv]
    exact h.inv.server
  · intro k e hk
    rw [hconfig, hserv]
    exact h.inv.client k e ((hmem k e).mp hk).1
  · intro k clnt hk
    obtain ⟨hclnt, hopen⟩ := (hmem k _).mp hk
    cases hstate : clnt.state with
    | read => exact Or.inl rfl
    | write => exact Or.inr rfl
    | close =>
      exact absurd ⟨clnt, Std.ExtTreeMap.mem_toList_iff_getElem?_eq_some.mpr hclnt, hstate⟩ hopen

/-- One pass keeps the invariant. -/
theorem runOnce_step (hports : s.config.PortsParsed) (hinv : Inv s) (hsettled : Settled s)
    (h : s.Lawful poll) :
    ∃ s', (runOnce poll).run s = (.ok (), s') ∧ During s s' ∧ Settled s' := by
  obtain ⟨fds, hfds⟩ := h.selected hinv hsettled
  have hselect : (liftM (Selector.select poll.select s.servSocks s.clntSocks) :
      ServerM (FdVector × FdVector)).run s = (.ok fds, s) := by
    rw [Method.run_lift, hfds.select]
  have hreading : Reading (writesReturn poll) s poll s :=
    ⟨⟨hinv, rfl, rfl⟩, h.writeReady hinv hsettled h.writes⟩
  obtain ⟨s₁, hrun₁, hreading₁, -⟩ := handleReadEvent_step hports h.toPromised hfds.nodup_read
    hreading fun fd hfd => h.readReady hinv hsettled h.reads fd ((hfds.mem_read fd).mp hfd)
  obtain ⟨s₂, hrun₂, hduring₂, -⟩ := handleWriteEvent_step hfds.nodup_write hreading₁.toDuring
    fun fd hfd => hreading₁.writes fd ((hfds.mem_write fd).mp hfd)
  obtain ⟨s₃, hrun₃, hduring₃, hsettled₃⟩ := destroyClient_step hduring₂
  refine ⟨s₃, ?_, hduring₃, hsettled₃⟩
  rw [runOnce, Method.run_get_bind, Method.run_bind_ok hselect, Method.run_bind_ok hrun₁,
    Method.run_bind_ok hrun₂, hrun₃]

end

end Server

end Webserv
