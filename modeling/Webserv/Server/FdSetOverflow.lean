import Webserv.Server.Kernel

/-!
# More descriptors than an `fd_set` has room for

`Selector` puts every descriptor into an `fd_set` without a look at `FD_SETSIZE`.  A process that
may open more descriptors than that can be made to write outside of it, by connections alone.
-/

namespace Webserv

open Text Selector HttpRequestParser HttpResponseBuilder Descriptors

namespace Selector

/-! ## Descriptors without room -/

theorem setServers_undefined {entries : List (Int × ServerSocket)}
    (h : ∃ e ∈ entries, ¬ InRange e.1) (readfds : FdSet) :
    setServers entries readfds = .error .undefined := by
  induction entries generalizing readfds with
  | nil =>
    obtain ⟨e, he, -⟩ := h
    exact absurd he List.not_mem_nil
  | cons entry rest ih =>
    obtain ⟨fd, sock⟩ := entry
    rw [setServers, FD_SET]
    by_cases hfd : InRange fd
    · rw [if_pos hfd, Except.ok_bind]
      obtain ⟨e, he, hout⟩ := h
      rcases List.mem_cons.mp he with rfl | he
      · exact absurd hfd hout
      · exact ih ⟨e, he, hout⟩ _
    · rw [if_neg hfd, Except.error_bind]

theorem setClients_undefined {entries : List (Int × Option ClientSocket)}
    (hopen : ∀ e ∈ entries, ∃ clnt, e.2 = some clnt ∧ (clnt.state = .read ∨ clnt.state = .write))
    (h : ∃ e ∈ entries, ¬ InRange e.1) (readfds writefds : FdSet) :
    setClients entries readfds writefds = .error .undefined := by
  induction entries generalizing readfds writefds with
  | nil =>
    obtain ⟨e, he, -⟩ := h
    exact absurd he List.not_mem_nil
  | cons entry rest ih =>
    obtain ⟨fd, e⟩ := entry
    rw [List.forall_mem_cons] at hopen
    obtain ⟨⟨clnt, rfl, hstate⟩, hrest⟩ := hopen
    have hlater : InRange fd → ∃ e ∈ rest, ¬ InRange e.1 := by
      intro hfd
      obtain ⟨e, he, hout⟩ := h
      rcases List.mem_cons.mp he with rfl | he
      · exact absurd hfd hout
      · exact ⟨e, he, hout⟩
    rw [setClients]
    rcases hstate with hstate | hstate
    · rw [if_pos (by simp [ClientSocket.isWaitingForRequest, hstate]), FD_SET]
      by_cases hfd : InRange fd
      · rw [if_pos hfd, Except.ok_bind]
        exact ih hrest (hlater hfd) _ _
      · rw [if_neg hfd, Except.error_bind]
    · rw [if_neg (by simp [ClientSocket.isWaitingForRequest, hstate]),
        if_pos (by simp [ClientSocket.canResponse, hstate]), FD_SET]
      by_cases hfd : InRange fd
      · rw [if_pos hfd, Except.ok_bind]
        exact ih hrest (hlater hfd) _ _
      · rw [if_neg hfd, Except.error_bind]

end Selector

namespace Server

section

variable {limit : Nat} {table : Finset Int} {s : Server}

/-! ## Passes -/

/-- Every client is read or written. -/
def Unclosed (s : Server) : Prop := ∀ (fd : Int) (e : Option ClientSocket),
  s.clntSocks[fd]? = some e →
    ∃ clnt, e = some clnt ∧ (clnt.state = .read ∨ clnt.state = .write)

/-- A pass over a listening socket without room. -/
theorem runOnce_server_undefined {fd : Int} (hserver : fd ∈ s.servSocks) (hfd : ¬ InRange fd)
    (poll : Poll) : (runOnce poll).run s = (.error .undefined, s) := by
  obtain ⟨servSock, hserv⟩ := exists_servSock hserver
  have hset : setFdset s.servSocks s.clntSocks = .error .undefined := by
    rw [setFdset, setServers_undefined ⟨(fd, servSock),
      Std.ExtTreeMap.mem_toList_iff_getElem?_eq_some.mpr hserv, hfd⟩, Except.error_bind]
  rw [runOnce, Method.run_get_bind, Selector.select, hset, Except.error_bind]
  rfl

/-- A pass over a client without room. -/
theorem runOnce_client_undefined (hservers : ∀ fd ∈ s.servSocks, InRange fd)
    (hclients : Unclosed s) {fd : Int} (hclient : fd ∈ s.clntSocks) (hfd : ¬ InRange fd)
    (poll : Poll) : (runOnce poll).run s = (.error .undefined, s) := by
  obtain ⟨e, he⟩ := exists_entry hclient
  have hentries : ∀ e ∈ s.servSocks.toList, InRange e.1 := by
    intro e he
    refine hservers e.1 (Std.ExtTreeMap.mem_iff_isSome_getElem?.mpr ?_)
    rw [Std.ExtTreeMap.mem_toList_iff_getElem?_eq_some.mp he]
    rfl
  obtain ⟨readfds, hreadfds, -⟩ := setServers_ok hentries ∅
  have hset : setFdset s.servSocks s.clntSocks = .error .undefined := by
    rw [setFdset, hreadfds, Except.ok_bind]
    exact setClients_undefined
      (fun e he => hclients e.1 e.2 (Std.ExtTreeMap.mem_toList_iff_getElem?_eq_some.mp he))
      ⟨(fd, e), Std.ExtTreeMap.mem_toList_iff_getElem?_eq_some.mpr he, hfd⟩ _ _
  rw [runOnce, Method.run_get_bind, Selector.select, hset, Except.error_bind]
  rfl

/-- Nothing is destroyed where no client is closed. -/
theorem destroyClient_unclosed (hclients : Unclosed s) :
    destroyClient.run s = (.ok (), s) := by
  have hentries : ∀ e ∈ s.clntSocks.toList, ∃ clnt, e.2 = some clnt := by
    intro e he
    obtain ⟨clnt, hclnt, -⟩ := hclients e.1 e.2
      (Std.ExtTreeMap.mem_toList_iff_getElem?_eq_some.mp he)
    exact ⟨clnt, hclnt⟩
  obtain ⟨s', hrun, hconfig, hserv, hmem⟩ := destroyEntries_run hentries s
  have hclnt : s'.clntSocks = s.clntSocks := by
    refine Std.ExtTreeMap.ext_getElem? fun k => Option.ext fun e => ?_
    rw [hmem, and_iff_left_iff_imp]
    rintro he ⟨clnt, hentry, hclose⟩
    rw [Std.ExtTreeMap.mem_toList_iff_getElem?_eq_some, he] at hentry
    obtain ⟨clnt', heq, hstate⟩ := hclients k e he
    obtain rfl : clnt' = clnt := Option.some.inj (heq.symm.trans (Option.some.inj hentry))
    rcases hstate with hstate | hstate <;> rw [hclose] at hstate <;> cases hstate
  have heq : s' = s := by
    cases s'
    dsimp only at hconfig hserv hclnt
    rw [hconfig, hserv, hclnt]
  rw [destroyClient, Method.run_get_bind, hrun, heq]

theorem closes_unclosed (hclients : Unclosed s) : closes s = [] := by
  rw [closes, List.filterMap_eq_nil_iff]
  rintro ⟨fd, e⟩ hentry
  obtain ⟨clnt, rfl, hstate⟩ :=
    hclients fd e (Std.ExtTreeMap.mem_toList_iff_getElem?_eq_some.mp hentry)
  rw [Option.bind_some, if_neg]
  rcases hstate with hstate | hstate <;> simp [ClientSocket.shouldClose, hstate]

/-! ## One more connection -/

/-- Connections arrive in this pass, and no client is read or written. -/
structure OnlyConnects (s : Server) (poll : Poll) : Prop where
  reads : ∀ fd ∈ poll.readable, fd ∈ s.servSocks
  writes : ∀ fd, fd ∉ poll.writable

theorem idlePoll_onlyConnects (s : Server) : OnlyConnects s idlePoll where
  reads := fun _ h => absurd h Std.ExtTreeSet.not_mem_empty
  writes := fun _ => Std.ExtTreeSet.not_mem_empty

/-- A connection arrives at a listening socket, and nothing else happens. -/
def connectPoll (limit : Nat) (table : Finset Int) (listenFd : Int) : Poll :=
  { acceptPoll with
    select := .ready ((∅ : FdSet).insert listenFd) ∅
    accept := fun _ => unused limit table }

theorem mem_connectPoll {listenFd fd : Int} :
    fd ∈ (connectPoll limit table listenFd).readable ↔ fd = listenFd := by
  change fd ∈ (∅ : FdSet).insert listenFd ↔ _
  rw [Std.ExtTreeSet.mem_insert, Std.LawfulEqCmp.compare_eq_iff_eq,
    or_iff_left Std.ExtTreeSet.not_mem_empty, eq_comm]

theorem connectPoll_onlyConnects {listenFd : Int} (hserver : listenFd ∈ s.servSocks) :
    OnlyConnects s (connectPoll limit table listenFd) where
  reads := fun fd hfd => by rwa [mem_connectPoll.mp hfd]
  writes := fun _ => Std.ExtTreeSet.not_mem_empty

/-- Connections alone come to undefined behaviour. -/
def Overflows (limit : Nat) (table : Finset Int) (s : Server) : Prop :=
  ∃ polls s', KernelRun limit polls table s ∧ EachPass OnlyConnects polls s ∧
    (run polls).run s = (.error .undefined, s')

theorem readable_connectPoll {listenFd : Int} :
    (connectPoll limit table listenFd).readable.toList = [listenFd] := by
  refine List.Perm.eq_singleton ?_
  rw [List.perm_ext_iff_of_nodup (nodup_toList _) (List.nodup_singleton _)]
  intro fd
  rw [Std.ExtTreeSet.mem_toList, mem_connectPoll, List.mem_singleton]

theorem listening_connectPoll {listenFd : Int} (hserver : listenFd ∈ s.servSocks) :
    listening s.servSocks (connectPoll limit table listenFd) = [listenFd] := by
  rw [listening, readable_connectPoll, List.filter_cons_of_pos (by simpa using hserver),
    List.filter_nil]

/-- The server with one more connection, at a descriptor with room or without. -/
def connected (s : Server) (port : Nat) (newSocket : Int) : Server :=
  s.withClient newSocket (ClientSocket.new (intOfSize port) (sizeOfInt newSocket) default)

/-- There is room for every descriptor so far, and all of them are open. -/
structure Room (table : Finset Int) (s : Server) : Prop where
  within : Within FD_SETSIZE.toNat table
  ports : s.config.PortsParsed
  inv : Inv s
  settled : Settled s
  known : ∀ fd, fd ∈ s.servSocks ∨ fd ∈ s.clntSocks → fd ∈ table

/-- Every client is read or written behind one more connection, too. -/
theorem Room.unclosed (h : Room table s) (port : Nat) (newSocket : Int) :
    Unclosed (connected s port newSocket) := by
  intro fd e he
  by_cases hfd : fd = newSocket
  · rw [hfd, connected, withClient_self] at he
    exact ⟨_, (Option.some.inj he).symm, Or.inl rfl⟩
  · rw [connected, withClient_of_ne hfd] at he
    obtain ⟨clnt, rfl, -⟩ := h.inv.client fd e he
    exact ⟨clnt, rfl, h.settled fd clnt he⟩

theorem Room.connectPoll_answered (h : Room table s) {listenFd : Int}
    (hserver : listenFd ∈ s.servSocks) :
    Answered limit table s (connectPoll limit table listenFd) where
  select := fun h => nomatch h
  ready := fun _ => h.inv.ready_of_matching h.settled
    ⟨fun fd hfd => Or.inl ((mem_connectPoll.mp hfd) ▸ hserver),
      fun _ hfd => absurd hfd Std.ExtTreeSet.not_mem_empty⟩
  accept := by
    rw [listening_connectPoll hserver]
    exact ⟨rfl, fun _ _ => trivial⟩
  nonBlocking := fun _ _ _ => rfl
  reads := by
    intro fd hfd clnt hclnt
    rw [mem_connectPoll.mp hfd] at hclnt
    exact absurd hserver (h.inv.registered hclnt).not_server
  writes := fun _ hfd => absurd hfd Std.ExtTreeSet.not_mem_empty

/-- What the pass does, whether there is room for the new descriptor or not. -/
theorem Room.runOnce_connectPoll (h : Room table s) {listenFd : Int} {servSock : ServerSocket}
    (hserv : s.servSocks[listenFd]? = some servSock) {newSocket : Int}
    (hnew : unused limit table = some newSocket) (hint : newSocket ≤ intMax) :
    (handleEvents (connectPoll limit table listenFd)).run s =
        (.ok (), connected s servSock.port newSocket) ∧
      (runOnce (connectPoll limit table listenFd)).run s =
        (.ok (), connected s servSock.port newSocket) := by
  have hserver : listenFd ∈ s.servSocks := mem_of_server hserv
  have hanswered : Answered limit table s (connectPoll limit table listenFd) :=
    h.connectPoll_answered hserver
  obtain ⟨fds, hfds⟩ :=
    (h.inv.matching h.settled hanswered.ready).selected h.inv h.settled hanswered.select
  have hselect : (liftM (Selector.select (connectPoll limit table listenFd).select s.servSocks
      s.clntSocks) : ServerM (FdVector × FdVector)).run s = (.ok fds, s) := by
    rw [Method.run_lift, hfds.select]
  have haccept : servSock.acceptConnection (connectPoll limit table listenFd) =
      .ok (ClientSocket.new (intOfSize servSock.port) (sizeOfInt newSocket) default) := by
    have hanswer : (connectPoll limit table listenFd).accept servSock.fd = some newSocket := hnew
    rw [ServerSocket.acceptConnection, hanswer]
    rfl
  have hpos := (unused_some hnew).1
  have hkey : (ClientSocket.new (intOfSize servSock.port) (sizeOfInt newSocket) default).fd =
      newSocket := by
    refine intOfSize_sizeOfInt ?_ hint
    rw [intMin]
    omega
  have hread : (readEvent (connectPoll limit table listenFd) listenFd).run s =
      (.ok (), connected s servSock.port newSocket) := by
    rw [readEvent_server hserv haccept, hkey]
    rfl
  have hevents : (handleEvents (connectPoll limit table listenFd)).run s =
      (.ok (), connected s servSock.port newSocket) := by
    rw [handleEvents, Method.run_get_bind, Method.run_bind_ok hselect, hfds.eq_toList,
      readable_connectPoll, handleReadEvent, Method.forEach_cons, Method.run_bind_assoc,
      Method.run_bind_ok hread]
    rfl
  refine ⟨hevents, ?_⟩
  rw [runOnce_eq, Method.run_bind_ok hevents]
  exact destroyClient_unclosed (h.unclosed servSock.port newSocket)

theorem Room.tableAfter_connectPoll (h : Room table s) {listenFd : Int} {servSock : ServerSocket}
    (hserv : s.servSocks[listenFd]? = some servSock) {newSocket : Int}
    (hnew : unused limit table = some newSocket) (hint : newSocket ≤ intMax) :
    tableAfter (connectPoll limit table listenFd) s table = insert newSocket table := by
  have hserver : listenFd ∈ s.servSocks := mem_of_server hserv
  rw [tableAfter, (h.runOnce_connectPoll hserv hnew hint).1,
    closes_unclosed (h.unclosed servSock.port newSocket), listening_connectPoll hserver,
    List.toFinset_nil, Finset.sdiff_empty]
  ext fd
  rw [mem_opened, Finset.mem_insert, or_comm]
  have hanswer : (connectPoll limit table listenFd).accept listenFd = some newSocket := hnew
  simp only [List.mem_singleton, exists_eq_left, hanswer, Option.some_inj]
  rw [eq_comm]

/-- A descriptor with room leaves room. -/
theorem Room.connected (h : Room table s) {listenFd : Int} {servSock : ServerSocket}
    (hserv : s.servSocks[listenFd]? = some servSock) {newSocket : Int}
    (hnew : unused limit table = some newSocket) (hrange : InRange newSocket) :
    Room (insert newSocket table) (connected s servSock.port newSocket) where
  within := by
    intro k hk
    rcases Finset.mem_insert.mp hk with rfl | hk
    · obtain ⟨hpos, hlt⟩ := hrange
      rw [FD_SETSIZE] at hlt ⊢
      exact ⟨hpos, hlt⟩
    · exact h.within k hk
  ports := h.ports
  inv := by
    have hfree := (unused_some hnew).2.2
    have haccepts : s.Accepts (connectPoll limit table listenFd) listenFd newSocket :=
      ⟨hnew, rfl, hrange, fun hmem => hfree (h.known _ (Or.inl hmem)),
        fun hmem => hfree (h.known _ (Or.inr hmem))⟩
    exact h.inv.withClient (registered_new h.inv h.ports hserv haccepts)
  settled := by
    intro fd clnt hclnt
    obtain ⟨clnt', heq, hstate⟩ := h.unclosed servSock.port newSocket fd _ hclnt
    rw [Option.some.inj heq]
    exact hstate
  known := Open.withClient h.known newSocket _

/-- The kernel has another descriptor, with room or the first without. -/
theorem Room.unused_eq_some (h : Room table s) (hlimit : FD_SETSIZE < (limit : Int)) :
    ∃ newSocket, unused limit table = some newSocket ∧ newSocket ≤ FD_SETSIZE := by
  have hfree : FD_SETSIZE ∉ table := by
    intro hmem
    have hlt := (h.within FD_SETSIZE hmem).2
    rw [FD_SETSIZE] at hlt
    omega
  cases hnew : unused limit table with
  | none => exact absurd (unused_eq_none_iff.mp hnew FD_SETSIZE (by decide) hlimit) hfree
  | some newSocket =>
    refine ⟨newSocket, rfl, ?_⟩
    by_contra hlt
    exact hfree (unused_lowest hnew (by decide) (by omega))

/-- One connection and the pass behind it, where there is no room for the connection. -/
theorem Room.overflows_next (h : Room table s) {listenFd : Int} {servSock : ServerSocket}
    (hserv : s.servSocks[listenFd]? = some servSock) {newSocket : Int}
    (hnew : unused limit table = some newSocket) (hint : newSocket ≤ intMax)
    (hrange : ¬ InRange newSocket) : Overflows limit table s := by
  have hserver : listenFd ∈ s.servSocks := mem_of_server hserv
  obtain ⟨-, hrun⟩ := h.runOnce_connectPoll hserv hnew hint
  have hservers : ∀ fd ∈ s.servSocks, InRange fd := by
    intro fd hfd
    obtain ⟨sock, hsock⟩ := exists_servSock hfd
    exact (h.inv.server fd sock hsock).2.1
  have hundefined : (runOnce idlePoll).run (Server.connected s servSock.port newSocket) =
      (.error .undefined, Server.connected s servSock.port newSocket) :=
    runOnce_client_undefined (s := Server.connected s servSock.port newSocket) hservers
      (h.unclosed servSock.port newSocket) (mem_withClient.mpr (Or.inl rfl)) hrange idlePoll
  refine ⟨[connectPoll limit table listenFd, idlePoll],
    Server.connected s servSock.port newSocket,
    ⟨h.connectPoll_answered hserver, fun s' _ => ⟨idlePoll_answered .., fun _ _ => trivial⟩⟩,
    ⟨connectPoll_onlyConnects hserver,
      fun s' _ => ⟨idlePoll_onlyConnects s', fun _ _ => trivial⟩⟩, ?_⟩
  rw [Server.run, Method.run_bind_ok hrun, Server.run, Method.run_bind_error hundefined]

/-- Connections, one after the other, get to a descriptor without room. -/
theorem Room.overflows (h : Room table s) (hlimit : FD_SETSIZE < (limit : Int)) {listenFd : Int}
    {servSock : ServerSocket} (hserv : s.servSocks[listenFd]? = some servSock) :
    Overflows limit table s := by
  obtain ⟨left, hleft⟩ := Nat.exists_eq_add_of_le h.within.card_le
  -- on the number of descriptors with room that are still to be opened
  induction left generalizing table s with
  | zero =>
    obtain ⟨newSocket, hnew, hle⟩ := h.unused_eq_some hlimit
    refine h.overflows_next hserv hnew (hle.trans (by decide)) fun hrange => ?_
    have hcard := (h.connected hserv hnew hrange).within.card_le
    rw [Finset.card_insert_of_notMem (unused_some hnew).2.2] at hcard
    omega
  | succ left ih =>
    obtain ⟨newSocket, hnew, hle⟩ := h.unused_eq_some hlimit
    have hint : newSocket ≤ intMax := hle.trans (by decide)
    by_cases hrange : InRange newSocket
    · obtain ⟨-, hrun⟩ := h.runOnce_connectPoll hserv hnew hint
      obtain ⟨polls, s', hkernel, honly, hrun'⟩ := ih (h.connected hserv hnew hrange) hserv (by
        rw [Finset.card_insert_of_notMem (unused_some hnew).2.2]
        omega)
      have hserver : listenFd ∈ s.servSocks := mem_of_server hserv
      refine ⟨connectPoll limit table listenFd :: polls, s',
        ⟨h.connectPoll_answered hserver, fun s₁ hrun₁ => ?_⟩,
        ⟨connectPoll_onlyConnects hserver, fun s₁ hrun₁ => ?_⟩, ?_⟩
      · rw [← (Prod.mk.inj (hrun.symm.trans hrun₁)).2, h.tableAfter_connectPoll hserv hnew hint]
        exact hkernel
      · rw [← (Prod.mk.inj (hrun.symm.trans hrun₁)).2]
        exact honly
      · rw [Server.run, Method.run_bind_ok hrun]
        exact hrun'
    · exact h.overflows_next hserv hnew hint hrange

end

/-! ## From the start -/

theorem Sockets.room {limit : Nat} {config : WebservConfig} {socket : Nat → Int}
    (h : Sockets limit config socket) (hports : config.PortsParsed)
    (hrange : ∀ port ∈ config.ports, InRange (socket port)) :
    Room (startTable config socket) (new config socket) where
  within := by
    intro k hk
    rw [startTable, mem_opened] at hk
    rcases hk with hk | ⟨port, hport, heq⟩
    · rw [standard, Finset.mem_insert, Finset.mem_insert, Finset.mem_singleton] at hk
      rw [FD_SETSIZE]
      omega
    · obtain rfl := Option.some.inj heq
      obtain ⟨hpos, hlt⟩ := hrange port (Std.ExtTreeSet.mem_toList.mp hport)
      rw [FD_SETSIZE] at hlt ⊢
      exact ⟨hpos, hlt⟩
  ports := hports
  inv := inv_new hrange
  settled := settled_new config socket
  known := fun fd hfd => (h.tracked.mem fd).mpr (Or.inr hfd)

/-- As soon as a descriptor without room may be open, connections alone are enough. -/
theorem Sockets.overflows {limit : Nat} {config : WebservConfig} {socket : Nat → Int}
    (h : Sockets limit config socket) (hports : config.PortsParsed)
    (hne : ∃ port, port ∈ config.ports) (hlimit : FD_SETSIZE < (limit : Int)) :
    Overflows limit (startTable config socket) (new config socket) := by
  have hmem {port : Nat} (hport : port ∈ config.ports) :
      socket port ∈ (new config socket).servSocks :=
    mem_insertServSocks.mpr (Or.inr ⟨port, Std.ExtTreeSet.mem_toList.mpr hport, rfl⟩)
  by_cases hrange : ∀ port ∈ config.ports, InRange (socket port)
  · obtain ⟨port, hport⟩ := hne
    obtain ⟨servSock, hserv⟩ := exists_servSock (hmem hport)
    exact (h.room hports hrange).overflows hlimit hserv
  · obtain ⟨port, hout⟩ := not_forall.mp hrange
    obtain ⟨hport, hout⟩ := Classical.not_imp.mp hout
    refine ⟨[idlePoll], new config socket, ⟨idlePoll_answered .., fun _ _ => trivial⟩,
      ⟨idlePoll_onlyConnects _, fun _ _ => trivial⟩, ?_⟩
    rw [Server.run, Method.run_bind_error (runOnce_server_undefined (hmem hport) hout idlePoll)]

/-- The server can be made to write outside of an `fd_set` if and only if the process may have
more descriptors open than there is room for, and connections alone are then enough. -/
theorem run_overflows_iff (limit : Nat) (config : WebservConfig) (hports : config.PortsParsed)
    (hne : ∃ port, port ∈ config.ports) (socket : Nat → Int)
    (hsocket : Sockets limit config socket) :
    ((∃ polls s, KernelRun limit polls (startTable config socket) (new config socket) ∧
        (run polls).run (new config socket) = (.error .undefined, s)) ↔
      FD_SETSIZE < (limit : Int)) ∧
    (FD_SETSIZE < (limit : Int) →
      ∃ polls s, KernelRun limit polls (startTable config socket) (new config socket) ∧
        EachPass OnlyConnects polls (new config socket) ∧
        (run polls).run (new config socket) = (.error .undefined, s)) := by
  refine ⟨⟨?_, fun hlimit => ?_⟩, hsocket.overflows hports hne⟩
  · rintro ⟨polls, s, hkernel, hrun⟩
    by_contra hlimit
    rw [not_lt] at hlimit
    have hinv : Inv (new config socket) := inv_new fun port hport => by
      have hfresh := hsocket.fresh hport
      exact ⟨hfresh.1, by omega⟩
    rcases hsocket.tracked.run hports hinv (settled_new config socket) hlimit hkernel with
      ⟨-, s', hrun', -⟩ | ⟨-, s', hrun'⟩
    · cases (Prod.mk.inj (hrun.symm.trans hrun')).1
    · cases (Prod.mk.inj (hrun.symm.trans hrun')).1
  · obtain ⟨polls, s, hkernel, -, hrun⟩ := hsocket.overflows hports hne hlimit
    exact ⟨polls, s, hkernel, hrun⟩

/-- One descriptor too many is enough. -/
theorem run_overflows_iff_oneServer :
    ((∃ polls s, KernelRun 1025 polls (startTable (oneServer 80) fun _ => 3)
          (new (oneServer 80) fun _ => 3) ∧
        (run polls).run (new (oneServer 80) fun _ => 3) = (.error .undefined, s)) ↔
      FD_SETSIZE < ((1025 : Nat) : Int)) ∧
    (FD_SETSIZE < ((1025 : Nat) : Int) →
      ∃ polls s, KernelRun 1025 polls (startTable (oneServer 80) fun _ => 3)
          (new (oneServer 80) fun _ => 3) ∧
        EachPass OnlyConnects polls (new (oneServer 80) fun _ => 3) ∧
        (run polls).run (new (oneServer 80) fun _ => 3) = (.error .undefined, s)) :=
  run_overflows_iff 1025 (oneServer 80) oneServer_portsParsed ⟨80, by decide⟩ (fun _ => 3)
    (sockets_oneServer (by decide))

end Server

end Webserv
