import Webserv.Control.Simulation
import Webserv.Control.Slots
import Webserv.Server.Safety

/-!
# Connections side by side

The server as what it is for: one machine for every connection, which its own events alone drive.
A pass of the event loop is one step of this abstract server for each ready descriptor, so what a
connection has become after a run does not depend on the others.
-/

namespace Webserv

open Text Selector HttpRequestParser

/-- A closed client is dropped at the end of its pass. -/
def ClientSocket.unlessClosed (clnt : ClientSocket) : Option ClientSocket :=
  if clnt.shouldClose then none else some clnt

/-- What may happen to one connection. -/
inductive Occurrence
  | accepted (clnt : ClientSocket)
  | readable (received : Option Str) (os : Os)
  | writable (send : Send)

/-- One connection, while there is one. -/
def Occurrence.act (config : WebservConfig) :
    Occurrence → Option ClientSocket → Option ClientSocket
  | accepted clnt, _ => some clnt
  | readable received os, conn => do
    let clnt ← conn
    ((ClientSocket.handleReadEvent received os config).run clnt).2.unlessClosed
  | writable send, conn => do
    let clnt ← conn
    ((ClientSocket.handleWriteEvent send).run clnt).2.unlessClosed

theorem ClientSocket.unlessClosed_of_open {clnt : ClientSocket}
    (h : clnt.state = .read ∨ clnt.state = .write) : clnt.unlessClosed = some clnt := by
  rw [unlessClosed, if_neg]
  rcases h with h | h <;> rw [shouldClose, h] <;> decide

namespace Server

/-- What the read event on a descriptor does to which connection. -/
def readOccurrence (servSocks : ServerSocketMap) (poll : Poll) (fd : Int) :
    Option (Int × Occurrence) :=
  match servSocks[fd]? with
  | some servSock =>
    match servSock.acceptConnection poll with
    | .ok newClnt => some (newClnt.fd, .accepted newClnt)
    | .error _ => none
  | none => some (fd, .readable (poll.recv fd) (poll.os fd))

/-- What one pass does to the connections. -/
def occurrences (servSocks : ServerSocketMap) (poll : Poll) : List (Int × Occurrence) :=
  poll.readable.toList.filterMap (readOccurrence servSocks poll) ++
    poll.writable.toList.map fun fd => (fd, .writable (poll.send fd))

/-- The connections that are open, by their descriptors. -/
def connections (s : Server) (fd : Int) : Option ClientSocket :=
  (s.clntSocks[fd]?).join.bind ClientSocket.unlessClosed

section

variable {s₀ s : Server} {poll : Poll} {fd : Int} {clnt : ClientSocket}
  {W : Int → ClientSocket → Prop}

theorem connections_of_open (h : s.clntSocks[fd]? = some (some clnt))
    (hstate : clnt.state = .read ∨ clnt.state = .write) : s.connections fd = some clnt := by
  rw [connections, h, Option.join_some, Option.bind_some,
    ClientSocket.unlessClosed_of_open hstate]

theorem connections_withClient (s : Server) (fd : Int) (clnt : ClientSocket) :
    (s.withClient fd clnt).connections =
      Function.update s.connections fd clnt.unlessClosed := by
  funext k
  by_cases hk : k = fd
  · rw [hk, Function.update_self, connections, withClient_self]
    rfl
  · rw [Function.update_of_ne hk, connections, withClient_of_ne hk, connections]

theorem clntSocks_eq (hinv : Inv s) (hsettled : Settled s) (fd : Int) :
    s.clntSocks[fd]? = (s.connections fd).map some := by
  cases h : s.clntSocks[fd]? with
  | none =>
    rw [connections, h]
    rfl
  | some e =>
    obtain ⟨clnt, rfl, -⟩ := hinv.client fd e h
    rw [connections_of_open h (hsettled fd clnt h), Option.map_some]

/-! ## One event -/

/-- The read event of a descriptor that is ready is one step of the abstract server. -/
theorem readEvent_simulates (hports : s₀.config.PortsParsed) (hpromised : s₀.Promised poll)
    (h : Reading W s₀ poll s) (hready : ReadReady (readsReturn poll s₀.config) poll s fd) :
    ∃ s' event, (readEvent poll fd).run s = (.ok (), s') ∧ Reading W s₀ poll s' ∧
      readOccurrence s₀.servSocks poll fd = some event ∧
      s'.connections = Slots.step (Occurrence.act s₀.config) s.connections event ∧
      ∀ fd', fd' ≠ fd → ReadReady (readsReturn poll s₀.config) poll s fd' →
        ReadReady (readsReturn poll s₀.config) poll s' fd' := by
  obtain ⟨s', hrun, hreading, hother⟩ := readEvent_step hports hpromised h hready
  cases hready with
  | server newSocket hreadable hserver haccepts =>
    obtain ⟨servSock, hserv⟩ := exists_servSock hserver
    obtain ⟨hfd, -⟩ := h.inv.server fd servSock hserv
    have haccept := acceptConnection_ok (hfd.symm ▸ haccepts)
    generalize hnew : ClientSocket.new (intOfSize servSock.port) (sizeOfInt newSocket) poll.fresh =
      newClnt at haccept
    have hs' : s.withClient newClnt.fd newClnt = s' :=
      (Prod.mk.inj ((readEvent_server hserv haccept).symm.trans hrun)).2
    refine ⟨s', (newClnt.fd, .accepted newClnt), hrun, hreading, ?_, ?_, hother⟩
    · rw [readOccurrence, ← h.servSocks, hserv]
      dsimp only
      rw [haccept]
    · rw [← hs', connections_withClient,
        ClientSocket.unlessClosed_of_open (Or.inl (hnew ▸ rfl))]
      rfl
  | client clnt hreadable hserver hclnt hstate hreturns =>
    have hnone : s.servSocks[fd]? = none := Std.ExtTreeMap.getElem?_eq_none hserver
    have hs' := (Prod.mk.inj ((readEvent_client hnone hclnt).symm.trans hrun)).2
    refine ⟨s', (fd, .readable (poll.recv fd) (poll.os fd)), hrun, hreading, ?_, ?_, hother⟩
    · rw [readOccurrence, ← h.servSocks, hnone]
    · rw [← hs', connections_withClient, Slots.step, connections_of_open hclnt (Or.inl hstate),
        h.config]
      rfl

/-- So is the write event. -/
theorem writeEvent_simulates (h : During s₀ s)
    (hready : WriteReady (writesReturn poll) s fd) :
    ∃ s', (writeEvent poll fd).run s = (.ok (), s') ∧ During s₀ s' ∧
      s'.connections =
        Slots.step (Occurrence.act s₀.config) s.connections (fd, .writable (poll.send fd)) ∧
      ∀ fd', fd' ≠ fd → WriteReady (writesReturn poll) s fd' →
        WriteReady (writesReturn poll) s' fd' := by
  obtain ⟨clnt, hclnt, hstate, hreturns⟩ := hready
  obtain ⟨s', hrun, hduring, hother⟩ := writeEvent_step h hclnt hstate hreturns
  have hs' := (Prod.mk.inj ((writeEvent_client hclnt).symm.trans hrun)).2
  refine ⟨s', hrun, hduring, ?_, hother⟩
  rw [← hs', connections_withClient, Slots.step, connections_of_open hclnt (Or.inr hstate)]
  rfl

/-- The abstract server does not notice that closed clients are dropped. -/
theorem destroyClient_simulates (h : During s₀ s) :
    ∃ s', destroyClient.run s = (.ok (), s') ∧ During s₀ s' ∧ Settled s' ∧
      s'.connections = s.connections := by
  obtain ⟨s', hrun, hduring, hsettled⟩ := destroyClient_step h
  have hentries : ∀ e ∈ s.clntSocks.toList, ∃ clnt, e.2 = some clnt := by
    intro e he
    obtain ⟨clnt, hclnt, -⟩ := h.inv.client e.1 e.2
      (Std.ExtTreeMap.mem_toList_iff_getElem?_eq_some.mp he)
    exact ⟨clnt, hclnt⟩
  obtain ⟨s'', hrun', -, -, hmem⟩ := destroyEntries_run hentries s
  have hs'' : s' = s'' := by
    rw [destroyClient, Method.run_get_bind, hrun'] at hrun
    exact (congrArg Prod.snd hrun).symm
  subst hs''
  refine ⟨s', hrun, hduring, hsettled, ?_⟩
  funext k
  cases hk : s.clntSocks[k]? with
  | none =>
    have hnone : s'.clntSocks[k]? = none :=
      Option.eq_none_iff_forall_ne_some.mpr fun e he => by
        rw [hmem, hk] at he
        cases he.1
    rw [connections, connections, hnone, hk]
  | some e =>
    obtain ⟨clnt, rfl, -⟩ := h.inv.client k e hk
    by_cases hclose : clnt.state = .close
    · have hnone : s'.clntSocks[k]? = none :=
        Option.eq_none_iff_forall_ne_some.mpr fun e he => by
          rw [hmem] at he
          exact he.2
            ⟨clnt, Std.ExtTreeMap.mem_toList_iff_getElem?_eq_some.mpr hk, hclose⟩
      rw [connections, connections, hnone, hk, Option.join_some, Option.bind_some,
        ClientSocket.unlessClosed, if_pos (by rw [ClientSocket.shouldClose, hclose]; rfl)]
      rfl
    · have hsome : s'.clntSocks[k]? = some (some clnt) := by
        rw [hmem]
        refine ⟨hk, ?_⟩
        rintro ⟨clnt', hclnt', hclose'⟩
        rw [Std.ExtTreeMap.mem_toList_iff_getElem?_eq_some, hk] at hclnt'
        obtain rfl := Option.some.inj (Option.some.inj hclnt')
        exact hclose hclose'
      rw [connections, connections, hsome, hk]

/-! ## One pass -/

theorem pairwise_toFdVector (fdset : FdSet) (maxfd : Int) :
    (toFdVector fdset maxfd).Pairwise (· < ·) :=
  (List.pairwise_map.mpr (List.pairwise_lt_range.imp fun h => Int.ofNat_lt.mpr h)).filter _

theorem pairwise_select {result : SelectResult} {fds : FdVector × FdVector}
    (h : Selector.select result s.servSocks s.clntSocks = .ok fds) :
    fds.1.Pairwise (· < ·) ∧ fds.2.Pairwise (· < ·) := by
  rw [Selector.select] at h
  cases hset : setFdset s.servSocks s.clntSocks with
  | error e =>
    rw [hset] at h
    cases h
  | ok watched =>
    rw [hset] at h
    cases result with
    | failed => cases h
    | timeout =>
      cases h
      exact ⟨List.Pairwise.nil, List.Pairwise.nil⟩
    | ready readfds writefds =>
      cases h
      exact ⟨pairwise_toFdVector _ _, pairwise_toFdVector _ _⟩

theorem pairwise_toList (fdset : FdSet) : fdset.toList.Pairwise (· < ·) :=
  Std.ExtTreeSet.ordered_toList.imp compare_lt_iff_lt.mp

theorem nodup_toList (fdset : FdSet) : fdset.toList.Nodup :=
  (pairwise_toList fdset).imp fun h => Int.ne_of_lt h

/-- The handlers get the ready descriptors in ascending order. -/
theorem Selected.eq_toList {fds : FdVector × FdVector} (h : s.Selected poll fds) :
    fds = (poll.readable.toList, poll.writable.toList) := by
  have hsame : ∀ (l : FdVector) (fdset : FdSet), l.Pairwise (· < ·) →
      (∀ fd, fd ∈ l ↔ fd ∈ fdset) → l = fdset.toList := by
    intro l fdset hl hmem
    have hperm : l.Perm fdset.toList := by
      refine (List.perm_ext_iff_of_nodup (hl.imp fun h => Int.ne_of_lt h)
        (nodup_toList fdset)).mpr fun fd => ?_
      rw [hmem, Std.ExtTreeSet.mem_toList]
    have hasymm : ∀ a b : Int, a ∈ l → b ∈ fdset.toList → a < b → b < a → a = b := by
      intro a b _ _ hab hba
      omega
    exact hperm.eq_of_pairwise hasymm hl (pairwise_toList fdset)
  obtain ⟨hread, hwrite⟩ := pairwise_select h.select
  exact Prod.ext (hsame _ _ hread h.mem_read) (hsame _ _ hwrite h.mem_write)

/-- The loop over the read events. -/
theorem handleReadEvent_simulates (hports : s₀.config.PortsParsed)
    (hpromised : s₀.Promised poll) {fds : FdVector} (hnodup : fds.Nodup)
    (h : Reading W s₀ poll s)
    (hready : ∀ fd ∈ fds, ReadReady (readsReturn poll s₀.config) poll s fd) :
    ∃ s', (handleReadEvent poll fds).run s = (.ok (), s') ∧ Reading W s₀ poll s' ∧
      s'.connections = Slots.run (Occurrence.act s₀.config)
        (fds.filterMap (readOccurrence s₀.servSocks poll)) s.connections := by
  rw [Slots.run_filterMap]
  refine Method.forEach_foldl (fun s₁ fd hr hready => ?_) hnodup h hready
  obtain ⟨s₂, event, hrun, hr₂, hevent, hconn, hother⟩ :=
    readEvent_simulates hports hpromised hr hready
  exact ⟨s₂, hrun, hr₂, by rw [hconn, hevent, Option.elim_some], hother⟩

/-- The loop over the write events. -/
theorem handleWriteEvent_simulates {fds : FdVector} (hnodup : fds.Nodup) (h : During s₀ s)
    (hready : ∀ fd ∈ fds, WriteReady (writesReturn poll) s fd) :
    ∃ s', (handleWriteEvent poll fds).run s = (.ok (), s') ∧ During s₀ s' ∧
      s'.connections = Slots.run (Occurrence.act s₀.config)
        (fds.map fun fd => (fd, .writable (poll.send fd))) s.connections := by
  rw [Slots.run, List.foldl_map]
  exact Method.forEach_foldl (fun s₁ fd hd hready => writeEvent_simulates hd hready) hnodup h
    hready

/-- One pass feeds the connections with what happens to them. -/
theorem runOnce_simulates (hports : s.config.PortsParsed) (hinv : Inv s) (hsettled : Settled s)
    (h : s.Lawful poll) :
    ∃ s', (runOnce poll).run s = (.ok (), s') ∧ During s s' ∧ Settled s' ∧
      s'.connections =
        Slots.run (Occurrence.act s.config) (occurrences s.servSocks poll) s.connections := by
  obtain ⟨fds, hfds⟩ := h.selected hinv hsettled
  have hselect : (liftM (Selector.select poll.select s.servSocks s.clntSocks) :
      ServerM (FdVector × FdVector)).run s = (.ok fds, s) := by
    rw [Method.run_lift, hfds.select]
  have hreading : Reading (writesReturn poll) s poll s :=
    ⟨⟨hinv, rfl, rfl⟩, h.writeReady hinv hsettled h.writes⟩
  have hready : ∀ fd ∈ fds.1, ReadReady (readsReturn poll s.config) poll s fd := fun fd hfd =>
    h.readReady hinv hsettled h.reads fd ((hfds.mem_read fd).mp hfd)
  obtain ⟨s₁, hrun₁, hreading₁, hconn₁⟩ :=
    handleReadEvent_simulates hports h.toPromised hfds.nodup_read hreading hready
  obtain ⟨s₂, hrun₂, hduring₂, hconn₂⟩ := handleWriteEvent_simulates hfds.nodup_write
    hreading₁.toDuring fun fd hfd => hreading₁.writes fd ((hfds.mem_write fd).mp hfd)
  obtain ⟨s₃, hrun₃, hduring₃, hsettled₃, hconn₃⟩ := destroyClient_simulates hduring₂
  refine ⟨s₃, ?_, hduring₃, hsettled₃, ?_⟩
  · rw [runOnce, Method.run_get_bind, Method.run_bind_ok hselect]
    exact (Method.run_bind_ok hrun₁ _).trans ((Method.run_bind_ok hrun₂ _).trans hrun₃)
  · rw [hconn₃, hconn₂, hconn₁, occurrences, Slots.run_append, hfds.eq_toList]

/-! ## A run -/

/-- What the passes of a run do to the connections. -/
def history (servSocks : ServerSocketMap) (polls : List Poll) : List (Int × Occurrence) :=
  polls.flatMap (occurrences servSocks)

/-- A run feeds the connections with what happens to them, pass after pass. -/
theorem run_simulates {polls : List Poll} (hports : s.config.PortsParsed) (hinv : Inv s)
    (hsettled : Settled s) (h : EachPass Lawful polls s) :
    ∃ s', (run polls).run s = (.ok (), s') ∧ During s s' ∧ Settled s' ∧
      s'.connections =
        Slots.run (Occurrence.act s.config) (history s.servSocks polls) s.connections := by
  induction polls generalizing s with
  | nil => exact ⟨s, rfl, ⟨hinv, rfl, rfl⟩, hsettled, rfl⟩
  | cons poll rest ih =>
    obtain ⟨s₁, hrun, hduring, hsettled₁, hconn⟩ := runOnce_simulates hports hinv hsettled h.1
    obtain ⟨s₂, hrun₂, hduring₂, hsettled₂, hconn₂⟩ :=
      ih (hduring.config ▸ hports) hduring.inv hsettled₁ (h.2 s₁ hrun)
    refine ⟨s₂, ?_, ⟨hduring₂.inv, hduring₂.config.trans hduring.config,
      hduring₂.servSocks.trans hduring.servSocks⟩, hsettled₂, ?_⟩
    · rw [run, Method.run_bind_ok hrun, hrun₂]
    · rw [hconn₂, hconn, hduring.config, hduring.servSocks, history, history, List.flatMap_cons,
        Slots.run_append]

end

/-- However the events of the connections are mixed and spread over the passes, each connection
is in the end what its own events alone make of it. -/
theorem run_connections (config : WebservConfig) (hports : config.PortsParsed)
    (socket : Nat → Int) (hsocket : ∀ port ∈ config.ports, InRange (socket port))
    (polls : List Poll) (h : EachPass Lawful polls (new config socket)) :
    ∃ s, (run polls).run (new config socket) = (.ok (), s) ∧
      ∀ fd : Int, s.clntSocks[fd]? =
        (Slots.alone (Occurrence.act config)
          (Slots.own fd (history (new config socket).servSocks polls)) none).map some := by
  obtain ⟨s, hrun, hduring, hsettled, hconn⟩ :=
    run_simulates hports (inv_new hsocket) (settled_new config socket) h
  refine ⟨s, hrun, fun fd => ?_⟩
  have hnone : (new config socket).connections fd = none := by
    rw [connections, new, Std.ExtTreeMap.getElem?_empty]
    rfl
  rw [clntSocks_eq hduring.inv hsettled, hconn, Slots.run_apply, hnone]
  rfl

theorem acceptAndRead_lawful : EachPass Lawful [acceptPoll, readPoll] startedServer := by
  refine ⟨startedServer_lawful, fun s' h => ⟨?_, fun _ _ => trivial⟩⟩
  obtain rfl : acceptedServer = s' := congrArg Prod.snd (runOnce_acceptPoll.symm.trans h)
  exact acceptedServer_lawful

theorem run_connections_accept_and_read :
    ∃ s, (run [acceptPoll, readPoll]).run (new (oneServer 80) fun _ => 3) = (.ok (), s) ∧
      ∀ fd : Int, s.clntSocks[fd]? =
        (Slots.alone (Occurrence.act (oneServer 80))
          (Slots.own fd (history (new (oneServer 80) fun _ => 3).servSocks
            [acceptPoll, readPoll])) none).map some :=
  run_connections (oneServer 80) oneServer_portsParsed (fun _ => 3) (fun _ _ => by decide)
    [acceptPoll, readPoll] acceptAndRead_lawful

/-- Two runs in which the same happens to one connection leave it in the same state, whatever
happens to the other connections, and whenever. -/
theorem run_connection_congr (config : WebservConfig) (hports : config.PortsParsed)
    (socket : Nat → Int) (hsocket : ∀ port ∈ config.ports, InRange (socket port))
    (polls polls' : List Poll) (h : EachPass Lawful polls (new config socket))
    (h' : EachPass Lawful polls' (new config socket)) (fd : Int)
    (hown : Slots.own fd (history (new config socket).servSocks polls) =
      Slots.own fd (history (new config socket).servSocks polls')) :
    ∃ s s', (run polls).run (new config socket) = (.ok (), s) ∧
      (run polls').run (new config socket) = (.ok (), s') ∧
      s.clntSocks[fd]? = s'.clntSocks[fd]? := by
  obtain ⟨s, hrun, hduring, hsettled, hconn⟩ :=
    run_simulates hports (inv_new hsocket) (settled_new config socket) h
  obtain ⟨s', hrun', hduring', hsettled', hconn'⟩ :=
    run_simulates hports (inv_new hsocket) (settled_new config socket) h'
  refine ⟨s, s', hrun, hrun', ?_⟩
  rw [clntSocks_eq hduring.inv hsettled, clntSocks_eq hduring'.inv hsettled', hconn, hconn',
    Slots.run_congr (Occurrence.act (new config socket).config) hown rfl]

/-- Nothing is ready. -/
def idlePoll : Poll := { acceptPoll with select := .timeout }

theorem idle_lawful (s : Server) : s.Lawful idlePoll where
  select := fun h => nomatch h
  ready := fun _ _ => ⟨fun _ h => absurd h Std.ExtTreeSet.not_mem_empty,
    fun _ h => absurd h Std.ExtTreeSet.not_mem_empty⟩
  accept := fun _ h => absurd h Std.ExtTreeSet.not_mem_empty
  distinct := fun _ h => absurd h Std.ExtTreeSet.not_mem_empty
  reads := fun _ h => absurd h Std.ExtTreeSet.not_mem_empty
  writes := fun _ h => absurd h Std.ExtTreeSet.not_mem_empty

theorem runOnce_idlePoll : (runOnce idlePoll).run acceptedServer = (.ok (), acceptedServer) := rfl

theorem acceptIdleAndRead_lawful :
    EachPass Lawful [acceptPoll, idlePoll, readPoll] startedServer := by
  refine ⟨startedServer_lawful, fun s' h => ⟨?_, fun s'' h' => ⟨?_, fun _ _ => trivial⟩⟩⟩
  · obtain rfl : acceptedServer = s' := congrArg Prod.snd (runOnce_acceptPoll.symm.trans h)
    exact idle_lawful acceptedServer
  · obtain rfl : acceptedServer = s' := congrArg Prod.snd (runOnce_acceptPoll.symm.trans h)
    obtain rfl : acceptedServer = s'' := congrArg Prod.snd (runOnce_idlePoll.symm.trans h')
    exact acceptedServer_lawful

theorem run_connection_congr_idle :
    ∃ s s', (run [acceptPoll, readPoll]).run (new (oneServer 80) fun _ => 3) = (.ok (), s) ∧
      (run [acceptPoll, idlePoll, readPoll]).run (new (oneServer 80) fun _ => 3) = (.ok (), s') ∧
      s.clntSocks[(4 : Int)]? = s'.clntSocks[(4 : Int)]? :=
  run_connection_congr (oneServer 80) oneServer_portsParsed (fun _ => 3) (fun _ _ => by decide)
    [acceptPoll, readPoll] [acceptPoll, idlePoll, readPoll] acceptAndRead_lawful
    acceptIdleAndRead_lawful 4 rfl

end Server

end Webserv
