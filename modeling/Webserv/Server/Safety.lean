import Webserv.Response.Access
import Webserv.Server.EventLoop

/-!
# Runs of the server

From the start and through any number of passes, as long as no system call fails and no response
fails to be built.
-/

namespace Webserv

open Text Selector HttpRequestParser HttpResponseBuilder

namespace ClientSocket

/-- Between two responses something is received. -/
theorem Sound.sent_once {conf : ServerConfig} {config : WebservConfig} {clnt : ClientSocket}
    (h : Sound conf config clnt) {before between after : List Transfer}
    {response response' : HttpResponse}
    (hhistory : clnt.history = before ++ .sent response :: (between ++ .sent response' :: after)) :
    ∃ bytes, .received bytes ∈ between := by
  have hsplit :
      clnt.history = (before ++ .sent response :: between) ++ .sent response' :: after := by
    rw [hhistory, List.append_assoc, List.cons_append]
  obtain ⟨init, bytes, hlast, -⟩ := h.sent _ _ _ hsplit
  rcases List.eq_nil_or_concat between with rfl | ⟨between', last, rfl⟩
  · cases (List.append_inj' hlast rfl).2
  · rw [List.concat_eq_append, ← List.cons_append, ← List.append_assoc] at hlast
    obtain rfl := List.singleton_inj.mp (List.append_inj' hlast rfl).2
    exact ⟨bytes, by simp⟩

end ClientSocket

namespace Server

/-- `P` holds of the server and the poll at every pass that the run gets to. -/
def EachPass (P : Server → Poll → Prop) : List Poll → Server → Prop
  | [], _ => True
  | poll :: rest, s =>
    P s poll ∧ ∀ s', (runOnce poll).run s = (.ok (), s') → EachPass P rest s'

/-- What holds whenever `select` is called. -/
structure Safe (s : Server) : Prop where
  /-- every client is in `READ` or `WRITE` -/
  states : ∀ (fd : Int) (e : Option ClientSocket), s.clntSocks[fd]? = some e →
    ∃ clnt, e = some clnt ∧ (clnt.state = .read ∨ clnt.state = .write)
  /-- so `setFdset` does not throw -/
  watched : ∃ fds, setFdset s.servSocks s.clntSocks = .ok fds
  /-- registered descriptors that are ready are reported once, and no others -/
  reported : ∀ ready : FdSet, (∀ fd ∈ ready, fd ∈ s.servSocks ∨ fd ∈ s.clntSocks) →
    (toFdVector ready (calcMaxFd s.servSocks s.clntSocks)).Nodup ∧
      ∀ fd, fd ∈ toFdVector ready (calcMaxFd s.servSocks s.clntSocks) ↔ fd ∈ ready
  /-- in the next pass each descriptor is found where it is looked up, in the matching state -/
  found : ∀ poll, s.Lawful poll → ∃ fds s₁,
    Selector.select poll.select s.servSocks s.clntSocks = .ok fds ∧
      (handleReadEvent poll fds.1).run s = (.ok (), s₁) ∧
      (∀ done fd rest, fds.1 = done ++ fd :: rest → ∃ s', (handleReadEvent poll done).run s =
        (.ok (), s') ∧ (fd ∈ s'.servSocks ∨
          ∃ clnt, s'.clntSocks[fd]? = some (some clnt) ∧ clnt.state = .read)) ∧
      ∀ done fd rest, fds.2 = done ++ fd :: rest → ∃ s', (handleWriteEvent poll done).run s₁ =
        (.ok (), s') ∧ ∃ clnt, s'.clntSocks[fd]? = some (some clnt) ∧ clnt.state = .write
  /-- a client in `WRITE` holds its request and the response to it -/
  pending : ∀ (fd : Int) (clnt : ClientSocket), s.clntSocks[fd]? = some (some clnt) →
    clnt.state = .write → ∃ conf, clnt.Pending conf s.config
  /-- a response is sent for a request that was completed since the last response -/
  sent : ∀ (fd : Int) (clnt : ClientSocket), s.clntSocks[fd]? = some (some clnt) →
    ∃ conf, clnt.Sound conf s.config
  /-- and at most once -/
  once : ∀ (fd : Int) (clnt : ClientSocket), s.clntSocks[fd]? = some (some clnt) →
    ∀ before response between response' after,
      clnt.history = before ++ .sent response :: (between ++ .sent response' :: after) →
      ∃ bytes, .received bytes ∈ between
  disjoint : ∀ fd ∈ s.clntSocks, fd ∉ s.servSocks
  /-- every client is kept under its descriptor and has the port of a listening socket -/
  keyed : ∀ (fd : Int) (clnt : ClientSocket), s.clntSocks[fd]? = some (some clnt) →
    clnt.fd = fd ∧ ∃ (listenFd : Int) (servSock : ServerSocket),
      s.servSocks[listenFd]? = some servSock ∧ servSock.fd = listenFd ∧
        clnt.port = servSock.port

section

variable {s : Server} {poll : Poll}

theorem Inv.found (hports : s.config.PortsParsed) (hinv : Inv s) (hsettled : Settled s)
    (h : s.Lawful poll) :
    ∃ fds s₁, Selector.select poll.select s.servSocks s.clntSocks = .ok fds ∧
      (handleReadEvent poll fds.1).run s = (.ok (), s₁) ∧
      (∀ done fd rest, fds.1 = done ++ fd :: rest → ∃ s', (handleReadEvent poll done).run s =
        (.ok (), s') ∧ (fd ∈ s'.servSocks ∨
          ∃ clnt, s'.clntSocks[fd]? = some (some clnt) ∧ clnt.state = .read)) ∧
      ∀ done fd rest, fds.2 = done ++ fd :: rest → ∃ s', (handleWriteEvent poll done).run s₁ =
        (.ok (), s') ∧ ∃ clnt, s'.clntSocks[fd]? = some (some clnt) ∧ clnt.state = .write := by
  obtain ⟨fds, hfds⟩ := h.selected hinv hsettled
  have hreading : Reading (writesReturn poll) s poll s :=
    ⟨⟨hinv, rfl, rfl⟩, h.writeReady hinv hsettled h.writes⟩
  have hready : ∀ fd ∈ fds.1, ReadReady (readsReturn poll s.config) poll s fd := fun fd hfd =>
    h.readReady hinv hsettled h.reads fd ((hfds.mem_read fd).mp hfd)
  obtain ⟨s₁, hrun₁, hreading₁, -⟩ :=
    handleReadEvent_step hports h.toPromised hfds.nodup_read hreading hready
  refine ⟨fds, s₁, hfds.select, hrun₁, ?_, ?_⟩
  · intro done fd rest hsplit
    have hnodup := hfds.nodup_read
    rw [hsplit] at hnodup hready
    obtain ⟨s', hrun, -, hother⟩ := handleReadEvent_step hports h.toPromised
      (hnodup.sublist (List.sublist_append_left done (fd :: rest))) hreading
      fun k hk => hready k (List.mem_append_left _ hk)
    have hfd : fd ∉ done := fun hmem =>
      (List.nodup_append.mp hnodup).2.2 fd hmem fd (List.mem_cons_self ..) rfl
    refine ⟨s', hrun, ?_⟩
    cases hother fd hfd (hready fd (by simp)) with
    | server newSocket _ hserver _ => exact Or.inl hserver
    | client clnt _ _ hclnt hstate _ => exact Or.inr ⟨clnt, hclnt, hstate⟩
  · intro done fd rest hsplit
    have hnodup := hfds.nodup_write
    have hwrites : ∀ fd ∈ fds.2, WriteReady (writesReturn poll) s₁ fd := fun fd hfd =>
      hreading₁.writes fd ((hfds.mem_write fd).mp hfd)
    rw [hsplit] at hnodup hwrites
    obtain ⟨s', hrun, -, hother⟩ := handleWriteEvent_step
      (hnodup.sublist (List.sublist_append_left done (fd :: rest))) hreading₁.toDuring
      fun k hk => hwrites k (List.mem_append_left _ hk)
    have hfd : fd ∉ done := fun hmem =>
      (List.nodup_append.mp hnodup).2.2 fd hmem fd (List.mem_cons_self ..) rfl
    obtain ⟨clnt, hclnt, hstate, -⟩ := hother fd hfd (hwrites fd (by simp))
    exact ⟨s', hrun, clnt, hclnt, hstate⟩

theorem Inv.safe (hports : s.config.PortsParsed) (hinv : Inv s) (hsettled : Settled s) :
    Safe s where
  states := by
    intro fd e he
    obtain ⟨clnt, rfl, -⟩ := hinv.client fd e he
    exact ⟨clnt, rfl, hsettled fd clnt he⟩
  watched := by
    obtain ⟨fds, hfds, -⟩ := hinv.setFdset_ok hsettled
    exact ⟨fds, hfds⟩
  reported := fun _ => hinv.toFdVector_ready
  found := fun _ => hinv.found hports hsettled
  pending := by
    intro fd clnt hclnt hstate
    obtain ⟨conf, hsound⟩ := (hinv.registered hclnt).sound
    exact ⟨conf, hsound.pending hstate⟩
  sent := fun fd clnt hclnt => (hinv.registered hclnt).sound
  once := by
    intro fd clnt hclnt before response between response' after hhistory
    obtain ⟨conf, hsound⟩ := (hinv.registered hclnt).sound
    exact hsound.sent_once hhistory
  disjoint := by
    intro fd hfd
    obtain ⟨e, he⟩ := exists_entry hfd
    obtain ⟨clnt, -, hreg⟩ := hinv.client fd e he
    exact hreg.not_server
  keyed := by
    intro fd clnt hclnt
    obtain ⟨listenFd, servSock, hserv, hport⟩ := (hinv.registered hclnt).port
    exact ⟨(hinv.registered hclnt).fd_eq, listenFd, servSock, hserv,
      (hinv.server listenFd servSock hserv).1, hport⟩

/-- The invariant at the end of a run. -/
theorem run_step {polls : List Poll} (hports : s.config.PortsParsed) (hinv : Inv s)
    (hsettled : Settled s) (h : EachPass Lawful polls s) :
    ∃ s', (run polls).run s = (.ok (), s') ∧ During s s' ∧ Settled s' := by
  induction polls generalizing s with
  | nil => exact ⟨s, rfl, ⟨hinv, rfl, rfl⟩, hsettled⟩
  | cons poll rest ih =>
    obtain ⟨s₁, hrun, hduring, hsettled₁⟩ := runOnce_step hports hinv hsettled h.1
    obtain ⟨s₂, hrun₂, hduring₂, hsettled₂⟩ :=
      ih (hduring.config ▸ hports) hduring.inv hsettled₁ (h.2 s₁ hrun)
    refine ⟨s₂, ?_, ⟨hduring₂.inv, hduring₂.config.trans hduring.config,
      hduring₂.servSocks.trans hduring.servSocks⟩, hsettled₂⟩
    rw [run, Method.run_bind_ok hrun, hrun₂]

end

/-! ## The start -/

theorem inv_new {config : WebservConfig} {socket : Nat → Int}
    (hsocket : ∀ port ∈ config.ports, InRange (socket port)) : Inv (new config socket) where
  server := by
    intro fd servSock h
    obtain ⟨port, hport, rfl, rfl⟩ := servSocks_new h
    exact ⟨rfl, hsocket port hport, hport⟩
  client := by
    intro fd e h
    rw [new, Std.ExtTreeMap.getElem?_empty] at h
    cases h

theorem settled_new (config : WebservConfig) (socket : Nat → Int) :
    Settled (new config socket) := by
  intro fd clnt h
  rw [new, Std.ExtTreeMap.getElem?_empty] at h
  cases h

/-- Whatever is ready and received in the passes of a run, the server gets to the next one and
is safe there. -/
theorem run_safe (config : WebservConfig) (hports : config.PortsParsed) (socket : Nat → Int)
    (hsocket : ∀ port ∈ config.ports, InRange (socket port)) (polls : List Poll)
    (h : EachPass Lawful polls (new config socket)) :
    ∃ s, (run polls).run (new config socket) = (.ok (), s) ∧ Safe s := by
  obtain ⟨s, hrun, hduring, hsettled⟩ :=
    run_step hports (inv_new hsocket) (settled_new config socket) h
  have hconfig : s.config = config := hduring.config
  exact ⟨s, hrun, hduring.inv.safe (hconfig ▸ hports) hsettled⟩

/-- The listening socket 3 is ready and accepts the connection 4. -/
def acceptPoll : Poll where
  select := .ready ((∅ : FdSet).insert 3) ∅
  accept := fun _ => some 4
  setNonBlocking := fun _ => true
  fresh := default
  recv := fun _ => none
  os := fun _ => siteOs
  send := fun _ => .failed

/-- A request arrives on the connection 4. -/
def readPoll : Poll where
  select := .ready ((∅ : FdSet).insert 4) ∅
  accept := fun _ => none
  setNonBlocking := fun _ => true
  fresh := default
  recv := fun _ => some (lit "GET / HTTP/1.1\r\nHost: a\r\n\r\n")
  os := fun _ => siteOs
  send := fun _ => .failed

theorem eq_of_mem_insert {fd k : Int} (h : fd ∈ (∅ : FdSet).insert k) : fd = k := by
  rw [Std.ExtTreeSet.mem_insert, Std.LawfulEqCmp.compare_eq_iff_eq] at h
  rcases h with h | h
  · exact h.symm
  · exact absurd h Std.ExtTreeSet.not_mem_empty

/-- The server before the first pass. -/
def startedServer : Server := new (oneServer 80) fun _ => 3

/-- The server when the connection 4 is accepted. -/
def acceptedServer : Server :=
  startedServer.withClient 4 (ClientSocket.new (intOfSize 80) (sizeOfInt 4) default)

theorem oneServer_portsParsed : (oneServer 80).PortsParsed := by
  intro port hport
  obtain ⟨c, hc, rfl⟩ := ((oneServer 80).ports_spec port).mp hport
  rw [List.mem_singleton.mp hc]
  exact ⟨80, by decide, by decide, by decide⟩

theorem startedServer_lawful : startedServer.Lawful acceptPoll where
  select := fun h => nomatch h
  ready := fun fds => (inv_new fun _ _ => by decide).ready_of_matching (settled_new _ _)
    ⟨fun fd hfd => Or.inl (by rw [eq_of_mem_insert hfd]; decide),
      fun _ hfd => absurd hfd Std.ExtTreeSet.not_mem_empty⟩
  accept := fun _ _ _ => ⟨4, rfl, rfl, by decide, by decide, by decide⟩
  distinct := fun _ hfd _ hfd' _ _ _ => (eq_of_mem_insert hfd).trans (eq_of_mem_insert hfd').symm
  reads := fun _ _ _ hclnt => by
    rw [startedServer, new, Std.ExtTreeMap.getElem?_empty] at hclnt
    cases hclnt
  writes := fun _ hfd => absurd hfd Std.ExtTreeSet.not_mem_empty

theorem runOnce_acceptPoll :
    (runOnce acceptPoll).run startedServer = (.ok (), acceptedServer) := rfl

theorem acceptedServer_inv : Inv acceptedServer ∧ Settled acceptedServer := by
  obtain ⟨s, hrun, hduring, hsettled⟩ := runOnce_step (s := startedServer) oneServer_portsParsed
    (inv_new fun _ _ => by decide) (settled_new _ _) startedServer_lawful
  obtain rfl : acceptedServer = s := congrArg Prod.snd (runOnce_acceptPoll.symm.trans hrun)
  exact ⟨hduring.inv, hsettled⟩

theorem acceptedServer_client : acceptedServer.clntSocks[(4 : Int)]? =
    some (some (ClientSocket.new (intOfSize 80) (sizeOfInt 4) default)) := withClient_self _ _ _

/-- Only the connection 4 is ready. -/
theorem acceptedServer_promised {poll : Poll}
    (h : poll.select = .ready ((∅ : FdSet).insert 4) ∅) : acceptedServer.Promised poll := by
  have hreadable : ∀ fd ∈ poll.readable, fd = 4 := by
    rw [Poll.readable, h]
    exact fun fd => eq_of_mem_insert
  have hwritable : poll.writable = ∅ := by rw [Poll.writable, h]
  have hserver : ∀ fd ∈ poll.readable, fd ∉ acceptedServer.servSocks := by
    intro fd hfd
    rw [hreadable fd hfd]
    decide
  refine ⟨by rw [h]; rintro ⟨⟩, fun fds => ?_,
    fun fd hfd h => absurd h (hserver fd hfd), fun fd hfd _ _ h => absurd h (hserver fd hfd)⟩
  refine acceptedServer_inv.1.ready_of_matching acceptedServer_inv.2 ⟨fun fd hfd => Or.inr ?_, ?_⟩
  · rw [hreadable fd hfd]
    exact ⟨_, acceptedServer_client, rfl⟩
  · intro fd hfd
    rw [hwritable] at hfd
    exact absurd hfd Std.ExtTreeSet.not_mem_empty

theorem acceptedServer_lawful : acceptedServer.Lawful readPoll where
  toPromised := acceptedServer_promised rfl
  reads := by
    intro fd hfd clnt h
    rw [eq_of_mem_insert hfd, acceptedServer_client] at h
    rw [← Option.some.inj (Option.some.inj h)]
    exact ⟨_, rfl, fun _ _ => ⟨_, rfl⟩⟩
  writes := fun _ hfd => absurd hfd Std.ExtTreeSet.not_mem_empty

theorem run_safe_accept_and_read :
    ∃ s, (run [acceptPoll, readPoll]).run (new (oneServer 80) fun _ => 3) = (.ok (), s) ∧
      Safe s := by
  refine run_safe (oneServer 80) oneServer_portsParsed (fun _ => 3) (fun _ _ => by decide)
    [acceptPoll, readPoll] ⟨startedServer_lawful, fun s' h => ⟨?_, fun _ _ => trivial⟩⟩
  obtain rfl : acceptedServer = s' := congrArg Prod.snd (runOnce_acceptPoll.symm.trans h)
  exact acceptedServer_lawful

end Server

end Webserv
