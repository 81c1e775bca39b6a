import Webserv.Control.Descriptors
import Webserv.Server.Passes

/-!
# The descriptors of the process

The kernel gives out the lowest descriptor that is not open, up to a limit, and no call fails for
another reason.  Behind every pass the open descriptors are the three standard ones, the listening
sockets and the connections, and what the event loop relies on at `accept` follows as long as
there are descriptors left.
-/

namespace Webserv

open Text Selector HttpRequestParser Descriptors

namespace Server

/-! ## What a pass opens and closes -/

/-- The listening sockets that are ready, in the order of the loop. -/
def listening (servSocks : ServerSocketMap) (poll : Poll) : List Int :=
  poll.readable.toList.filter fun fd => servSocks.contains fd

/-- The descriptors that the destructors close in `destroyClient`. -/
def closes (s : Server) : List Int :=
  s.clntSocks.toList.filterMap fun entry =>
    entry.2.bind fun clnt => if clnt.shouldClose then some clnt.fd else none

/-- A pass in front of `destroyClient`. -/
def handleEvents (poll : Poll) : ServerM Unit := do
  let s ← get
  let fds ← Selector.select poll.select s.servSocks s.clntSocks
  handleReadEvent poll fds.1
  handleWriteEvent poll fds.2

/-- The open descriptors behind a pass. -/
def tableAfter (poll : Poll) (s : Server) (table : Finset Int) : Finset Int :=
  opened poll.accept (listening s.servSocks poll) table \
    (closes ((handleEvents poll).run s).2).toFinset

/-- The open descriptors behind these passes. -/
def tables : List Poll → Finset Int → Server → Finset Int
  | [], table, _ => table
  | poll :: rest, table, s => tables rest (tableAfter poll s table) ((runOnce poll).run s).2

/-- `stdin`, `stdout` and `stderr` -/
def standard : Finset Int := {0, 1, 2}

/-- The system calls of a pass when these descriptors are open.  `accept` fails when there is no
descriptor left.  No other call fails, and every handler of a client returns.  What a handler
opens it closes again, which is not counted. -/
structure Answered (limit : Nat) (table : Finset Int) (s : Server) (poll : Poll) : Prop where
  select : poll.select ≠ .failed
  ready : ∀ fds, setFdset s.servSocks s.clntSocks = .ok fds →
    (∀ fd ∈ poll.readable, fd ∈ fds.1) ∧ ∀ fd ∈ poll.writable, fd ∈ fds.2
  accept : Answers limit poll.accept (listening s.servSocks poll) table
  nonBlocking : ∀ fd newSocket, poll.accept fd = some newSocket →
    poll.setNonBlocking newSocket = true
  reads : ∀ fd ∈ poll.readable, ∀ clnt, s.clntSocks[fd]? = some (some clnt) →
    clnt.ReadReturns (poll.recv fd) (poll.os fd) s.config
  writes : ∀ fd ∈ poll.writable, ∀ clnt, s.clntSocks[fd]? = some (some clnt) →
    clnt.WriteReturns (poll.send fd)

/-- Every pass that the run gets to is answered. -/
def KernelRun (limit : Nat) : List Poll → Finset Int → Server → Prop
  | [], _, _ => True
  | poll :: rest, table, s => Answered limit table s poll ∧
      ∀ s', (runOnce poll).run s = (.ok (), s') →
        KernelRun limit rest (tableAfter poll s table) s'

/-! ## What is open -/

/-- The open descriptors are the standard ones, the listening sockets and the connections. -/
structure Tracked (limit : Nat) (table : Finset Int) (s : Server) : Prop where
  within : Within limit table
  mem : ∀ fd, fd ∈ table ↔ fd ∈ standard ∨ fd ∈ s.servSocks ∨ fd ∈ s.clntSocks
  apart : ∀ fd ∈ standard, fd ∉ s.servSocks ∧ fd ∉ s.clntSocks

section

variable {limit : Nat} {table : Finset Int} {s s' : Server} {poll : Poll} {fd : Int}

theorem mem_listening :
    fd ∈ listening s.servSocks poll ↔ fd ∈ poll.readable ∧ fd ∈ s.servSocks := by
  rw [listening, List.mem_filter, Std.ExtTreeSet.mem_toList]
  rfl

theorem Inv.not_server (hinv : Inv s) (h : fd ∈ s.clntSocks) : fd ∉ s.servSocks := by
  obtain ⟨e, he⟩ := exists_entry h
  obtain ⟨clnt, -, hreg⟩ := hinv.client fd e he
  exact hreg.not_server

theorem Tracked.card (h : Tracked limit table s) (hinv : Inv s) :
    table.card = 3 + s.servSocks.size + s.clntSocks.size := by
  have htable : table = standard ∪ (s.servSocks.keys.toFinset ∪ s.clntSocks.keys.toFinset) := by
    ext fd
    rw [h.mem, Finset.mem_union, Finset.mem_union, List.mem_toFinset, List.mem_toFinset,
      Std.ExtTreeMap.mem_keys, Std.ExtTreeMap.mem_keys]
  have hsocks : Disjoint s.servSocks.keys.toFinset s.clntSocks.keys.toFinset := by
    rw [Finset.disjoint_right]
    intro fd hfd hserver
    rw [List.mem_toFinset, Std.ExtTreeMap.mem_keys] at hfd hserver
    exact hinv.not_server hfd hserver
  have hstandard :
      Disjoint standard (s.servSocks.keys.toFinset ∪ s.clntSocks.keys.toFinset) := by
    rw [Finset.disjoint_left]
    intro fd hfd hmem
    rw [Finset.mem_union, List.mem_toFinset, List.mem_toFinset, Std.ExtTreeMap.mem_keys,
      Std.ExtTreeMap.mem_keys] at hmem
    exact hmem.elim (h.apart fd hfd).1 (h.apart fd hfd).2
  rw [htable, Finset.card_union_of_disjoint hstandard, Finset.card_union_of_disjoint hsocks,
    List.toFinset_card_of_nodup Std.ExtTreeMap.nodup_keys,
    List.toFinset_card_of_nodup Std.ExtTreeMap.nodup_keys, Std.ExtTreeMap.length_keys,
    Std.ExtTreeMap.length_keys, Nat.add_assoc]
  rfl

/-- All of the accepts of a pass succeed if and only if there are enough descriptors. -/
theorem Answered.accepts_iff (h : Answered limit table s poll) (htracked : Tracked limit table s)
    (hinv : Inv s) :
    (∀ fd ∈ listening s.servSocks poll, (poll.accept fd).isSome = true) ↔
      3 + s.servSocks.size + s.clntSocks.size + (listening s.servSocks poll).length ≤ limit := by
  rw [h.accept.all_iff htracked.within, htracked.card hinv]

/-- What the event loop relies on. -/
theorem Answered.lawful (h : Answered limit table s poll) (htracked : Tracked limit table s)
    (hlimit : (limit : Int) ≤ FD_SETSIZE)
    (hall : ∀ fd ∈ listening s.servSocks poll, (poll.accept fd).isSome = true) :
    s.Lawful poll where
  select := h.select
  ready := h.ready
  reads := h.reads
  writes := h.writes
  accept := by
    intro fd hreadable hserver
    have hmem : fd ∈ listening s.servSocks poll := mem_listening.mpr ⟨hreadable, hserver⟩
    obtain ⟨newSocket, hnew⟩ := Option.isSome_iff_exists.mp (hall fd hmem)
    obtain ⟨hpos, hlt, hfree⟩ := h.accept.fresh hall hmem hnew
    rw [htracked.mem, not_or, not_or] at hfree
    exact ⟨newSocket, hnew, h.nonBlocking fd newSocket hnew, ⟨hpos, by omega⟩, hfree.2.1,
      hfree.2.2⟩
  distinct := by
    intro fd hreadable fd' hreadable' hserver hserver' heq
    exact h.accept.distinct hall (mem_listening.mpr ⟨hreadable, hserver⟩)
      (mem_listening.mpr ⟨hreadable', hserver'⟩) heq

/-! ## Descriptors within a pass -/

/-- A client that was found keeps its entry. -/
theorem atClient_keys {x : ClientM Unit} (hrun : (atClient fd x).run s = (.ok (), s')) :
    s'.servSocks = s.servSocks ∧ ∀ k, k ∈ s'.clntSocks ↔ k ∈ s.clntSocks := by
  rw [atClient, Method.run_get_bind] at hrun
  cases hentry : s.clntSocks[fd]? with
  | none =>
    rw [hentry] at hrun
    cases congrArg Prod.fst hrun
  | some e =>
    cases e with
    | none =>
      rw [hentry] at hrun
      cases congrArg Prod.fst hrun
    | some clnt =>
      rw [hentry] at hrun
      obtain rfl : s.withClient fd (x.run clnt).2 = s' := congrArg Prod.snd hrun
      refine ⟨rfl, fun k => ?_⟩
      rw [mem_withClient, or_iff_right_iff_imp]
      rintro rfl
      exact mem_of_client hentry

/-- A read event adds the descriptor that was accepted, if any. -/
theorem readEvent_keys
    (hrange : fd ∈ s.servSocks → ∀ newSocket, poll.accept fd = some newSocket → InRange newSocket)
    (hfd : ∀ servSock, s.servSocks[fd]? = some servSock → servSock.fd = fd)
    (hrun : (readEvent poll fd).run s = (.ok (), s')) :
    s'.servSocks = s.servSocks ∧ ∀ k, k ∈ s'.clntSocks ↔
      k ∈ s.clntSocks ∨ fd ∈ s.servSocks ∧ poll.accept fd = some k := by
  rw [readEvent, Method.run_get_bind] at hrun
  cases hserv : s.servSocks[fd]? with
  | none =>
    rw [hserv] at hrun
    obtain ⟨hservSocks, hkeys⟩ := atClient_keys hrun
    have hserver : fd ∉ s.servSocks := by
      rw [Std.ExtTreeMap.mem_iff_isSome_getElem?, hserv]
      simp
    refine ⟨hservSocks, fun k => ?_⟩
    rw [hkeys, or_iff_left fun h => hserver h.1]
  | some servSock =>
    rw [hserv] at hrun
    obtain ⟨newClnt, s₁, hnew, hrest⟩ := Method.run_bind_eq_ok hrun
    rw [Method.run_lift] at hnew
    obtain ⟨hnew, rfl⟩ := Prod.mk.inj hnew
    obtain rfl : s.withClient newClnt.fd newClnt = s' := congrArg Prod.snd hrest
    have hserver : fd ∈ s.servSocks := mem_of_server hserv
    rw [ServerSocket.acceptConnection, hfd servSock hserv] at hnew
    cases haccept : poll.accept fd with
    | none =>
      rw [haccept] at hnew
      cases hnew
    | some newSocket =>
      rw [haccept] at hnew
      dsimp only at hnew
      split at hnew
      · cases hnew
        have hint := InRange.isInt (hrange hserver newSocket haccept)
        have hkey : (ClientSocket.new (intOfSize servSock.port) (sizeOfInt newSocket)
            poll.fresh).fd = newSocket := intOfSize_sizeOfInt hint.1 hint.2
        refine ⟨rfl, fun k => ?_⟩
        rw [mem_withClient, hkey, or_comm, and_iff_right hserver, Option.some_inj, eq_comm]
      · cases hnew

theorem handleReadEvent_keys {fds : FdVector}
    (hrange : ∀ fd ∈ fds, fd ∈ s.servSocks →
      ∀ newSocket, poll.accept fd = some newSocket → InRange newSocket)
    (hfd : ∀ (fd : Int) servSock, s.servSocks[fd]? = some servSock → servSock.fd = fd)
    (hrun : (handleReadEvent poll fds).run s = (.ok (), s')) :
    s'.servSocks = s.servSocks ∧ ∀ k, k ∈ s'.clntSocks ↔
      k ∈ s.clntSocks ∨ ∃ fd ∈ fds, fd ∈ s.servSocks ∧ poll.accept fd = some k := by
  induction fds generalizing s with
  | nil =>
    obtain rfl : s = s' := congrArg Prod.snd hrun
    exact ⟨rfl, fun k => by simp⟩
  | cons fd rest ih =>
    rw [List.forall_mem_cons] at hrange
    obtain ⟨_, s₁, hfirst, hrest⟩ := Method.run_bind_eq_ok hrun
    obtain ⟨hserv₁, hkeys₁⟩ := readEvent_keys hrange.1 (hfd fd) hfirst
    obtain ⟨hserv', hkeys'⟩ := ih (hserv₁ ▸ hrange.2) (hserv₁ ▸ hfd) hrest
    refine ⟨hserv'.trans hserv₁, fun k => ?_⟩
    rw [hkeys', hkeys₁, hserv₁, or_assoc]
    simp

theorem handleWriteEvent_keys {fds : FdVector}
    (hrun : (handleWriteEvent poll fds).run s = (.ok (), s')) :
    s'.servSocks = s.servSocks ∧ ∀ k, k ∈ s'.clntSocks ↔ k ∈ s.clntSocks := by
  induction fds generalizing s with
  | nil =>
    obtain rfl : s = s' := congrArg Prod.snd hrun
    exact ⟨rfl, fun _ => Iff.rfl⟩
  | cons fd rest ih =>
    obtain ⟨_, s₁, hfirst, hrest⟩ := Method.run_bind_eq_ok hrun
    obtain ⟨hserv₁, hkeys₁⟩ := atClient_keys hfirst
    obtain ⟨hserv', hkeys'⟩ := ih hrest
    exact ⟨hserv'.trans hserv₁, fun k => (hkeys' k).trans (hkeys₁ k)⟩

/-- What the events of a lawful pass leave to `destroyClient`. -/
theorem handleEvents_step (hports : s.config.PortsParsed) (hinv : Inv s) (hsettled : Settled s)
    (h : s.Lawful poll) :
    ∃ s₁, (handleEvents poll).run s = (.ok (), s₁) ∧ During s s₁ ∧
      ∀ k, k ∈ s₁.clntSocks ↔ k ∈ s.clntSocks ∨
        ∃ fd ∈ listening s.servSocks poll, poll.accept fd = some k := by
  obtain ⟨fds, hfds⟩ := h.selected hinv hsettled
  have hselect : (liftM (Selector.select poll.select s.servSocks s.clntSocks) :
      ServerM (FdVector × FdVector)).run s = (.ok fds, s) := by
    rw [Method.run_lift, hfds.select]
  have hreading : Reading (writesReturn poll) s poll s :=
    ⟨⟨hinv, rfl, rfl⟩, h.writeReady hinv hsettled h.writes⟩
  obtain ⟨s₁, hrun₁, hreading₁, -⟩ := handleReadEvent_step hports h.toPromised hfds.nodup_read
    hreading fun fd hfd => h.readReady hinv hsettled h.reads fd ((hfds.mem_read fd).mp hfd)
  obtain ⟨s₂, hrun₂, hduring₂, -⟩ := handleWriteEvent_step hfds.nodup_write hreading₁.toDuring
    fun fd hfd => hreading₁.writes fd ((hfds.mem_write fd).mp hfd)
  obtain ⟨-, hkeys₁⟩ := handleReadEvent_keys (fun fd hmem hserver newSocket hnew => by
    obtain ⟨newSocket', haccepts⟩ := h.accept fd ((hfds.mem_read fd).mp hmem) hserver
    rw [Option.some.inj (hnew.symm.trans haccepts.accept)]
    exact haccepts.inRange) (fun fd servSock hserv => (hinv.server fd servSock hserv).1) hrun₁
  obtain ⟨-, hkeys₂⟩ := handleWriteEvent_keys hrun₂
  refine ⟨s₂, ?_, hduring₂, fun k => ?_⟩
  · rw [handleEvents, Method.run_get_bind, Method.run_bind_ok hselect, Method.run_bind_ok hrun₁,
      hrun₂]
  · rw [hkeys₂, hkeys₁]
    simp only [mem_listening, hfds.mem_read, and_assoc]

theorem mem_closes (hinv : Inv s) :
    fd ∈ closes s ↔ ∃ clnt, s.clntSocks[fd]? = some (some clnt) ∧ clnt.state = .close := by
  rw [closes, List.mem_filterMap]
  constructor
  · rintro ⟨⟨k, e⟩, hentry, hclose⟩
    rw [Std.ExtTreeMap.mem_toList_iff_getElem?_eq_some] at hentry
    obtain ⟨clnt, rfl, hreg⟩ := hinv.client k e hentry
    rw [Option.bind_some] at hclose
    split at hclose
    · next hshould =>
      obtain rfl : k = fd := hreg.fd_eq.symm.trans (Option.some.inj hclose)
      exact ⟨clnt, hentry, by simpa [ClientSocket.shouldClose] using hshould⟩
    · cases hclose
  · rintro ⟨clnt, hclnt, hstate⟩
    refine ⟨(fd, some clnt), Std.ExtTreeMap.mem_toList_iff_getElem?_eq_some.mpr hclnt, ?_⟩
    rw [Option.bind_some, if_pos (by simp [ClientSocket.shouldClose, hstate]),
      (hinv.registered hclnt).fd_eq]

/-- `destroyClient` drops the connections that it closes. -/
theorem destroyClient_keys (hinv : Inv s) (hrun : destroyClient.run s = (.ok (), s')) (k : Int) :
    k ∈ s'.clntSocks ↔ k ∈ s.clntSocks ∧ k ∉ closes s := by
  have hentries : ∀ e ∈ s.clntSocks.toList, ∃ clnt, e.2 = some clnt := by
    intro e he
    obtain ⟨clnt, hclnt, -⟩ := hinv.client e.1 e.2
      (Std.ExtTreeMap.mem_toList_iff_getElem?_eq_some.mp he)
    exact ⟨clnt, hclnt⟩
  obtain ⟨s₁, hrun₁, -, -, hmem⟩ := destroyEntries_run hentries s
  rw [destroyClient, Method.run_get_bind, hrun₁] at hrun
  obtain rfl : s₁ = s' := congrArg Prod.snd hrun
  have hclosed : (∃ clnt, (k, some clnt) ∈ s.clntSocks.toList ∧ clnt.state = .close) ↔
      k ∈ closes s := by
    simp only [mem_closes hinv, Std.ExtTreeMap.mem_toList_iff_getElem?_eq_some]
  rw [Std.ExtTreeMap.mem_iff_isSome_getElem?, Option.isSome_iff_exists]
  simp only [hmem, hclosed]
  rw [exists_and_right, ← Option.isSome_iff_exists, ← Std.ExtTreeMap.mem_iff_isSome_getElem?]

theorem runOnce_eq (poll : Poll) :
    runOnce poll = handleEvents poll >>= fun _ => destroyClient := by
  rw [runOnce, handleEvents, Method.bind_assoc]
  simp only [Method.bind_assoc]

/-- A lawful pass keeps track of the descriptors. -/
theorem Tracked.step (htracked : Tracked limit table s) (hports : s.config.PortsParsed)
    (hinv : Inv s) (hsettled : Settled s) (h : Answered limit table s poll)
    (hlimit : (limit : Int) ≤ FD_SETSIZE)
    (hall : ∀ fd ∈ listening s.servSocks poll, (poll.accept fd).isSome = true) :
    ∃ s', (runOnce poll).run s = (.ok (), s') ∧ During s s' ∧ Settled s' ∧
      Tracked limit (tableAfter poll s table) s' := by
  have hlawful := h.lawful htracked hlimit hall
  obtain ⟨s₁, hevents, hduring₁, hkeys₁⟩ := handleEvents_step hports hinv hsettled hlawful
  obtain ⟨s', hdestroy, hduring, hsettled'⟩ := destroyClient_step hduring₁
  have hkeys := destroyClient_keys hduring₁.inv hdestroy
  refine ⟨s', ?_, hduring, hsettled', ?_, ?_, ?_⟩
  · rw [runOnce_eq, Method.run_bind_ok hevents, hdestroy]
  · intro k hk
    rw [tableAfter, Finset.mem_sdiff] at hk
    exact h.accept.within hall htracked.within k hk.1
  · intro fd
    have htable : fd ∈ tableAfter poll s table ↔ (fd ∈ table ∨
        ∃ key ∈ listening s.servSocks poll, poll.accept key = some fd) ∧ fd ∉ closes s₁ := by
      rw [tableAfter, hevents, Finset.mem_sdiff, mem_opened, List.mem_toFinset]
    have hclosed : fd ∈ closes s₁ → fd ∉ standard ∧ fd ∉ s.servSocks := by
      intro hclose
      obtain ⟨clnt, hclnt, -⟩ := (mem_closes hduring₁.inv).mp hclose
      have hserver := (hduring₁.inv.registered hclnt).not_server
      rw [hduring₁.servSocks] at hserver
      refine ⟨fun hstandard => ?_, hserver⟩
      rcases (hkeys₁ fd).mp (mem_of_client hclnt) with hmem | ⟨key, hkey, hnew⟩
      · exact (htracked.apart fd hstandard).2 hmem
      · exact (h.accept.fresh hall hkey hnew).2.2 ((htracked.mem fd).mpr (Or.inl hstandard))
    rw [htable, hkeys, hkeys₁, htracked.mem, hduring.servSocks]
    tauto
  · intro fd hstandard
    rw [hduring.servSocks]
    refine ⟨(htracked.apart fd hstandard).1, fun hmem => ?_⟩
    rcases (hkeys₁ fd).mp ((hkeys fd).mp hmem).1 with hmem | ⟨key, hkey, hnew⟩
    · exact (htracked.apart fd hstandard).2 hmem
    · exact (h.accept.fresh hall hkey hnew).2.2 ((htracked.mem fd).mpr (Or.inl hstandard))

/-! ## When no descriptor is left -/

/-- What `acceptConnection` throws then. -/
def acceptFailed : Raised := .std (.runtimeError "accept failed()")

theorem readEvent_refused {servSock : ServerSocket} (hserv : s.servSocks[fd]? = some servSock)
    (hfd : servSock.fd = fd) (hnone : poll.accept fd = none) :
    (readEvent poll fd).run s = (.error acceptFailed, s) := by
  have hrefused : servSock.acceptConnection poll = .error acceptFailed := by
    rw [ServerSocket.acceptConnection, hfd, hnone]
    rfl
  rw [readEvent, Method.run_get_bind, hserv]
  dsimp only
  rw [hrefused]
  rfl

/-- A socket that accepts leaves the clients ready. -/
theorem acceptEvent_ready {W R : Int → ClientSocket → Prop} {s₀ : Server}
    (hports : s₀.config.PortsParsed) (h : Reading W s₀ poll s) {servSock : ServerSocket}
    (hserv : s.servSocks[fd]? = some servSock) {newSocket : Int}
    (haccepts : s.Accepts poll fd newSocket) :
    ∃ newClnt, newClnt.fd = newSocket ∧
      (readEvent poll fd).run s = (.ok (), s.withClient newSocket newClnt) ∧
      Reading W s₀ poll (s.withClient newSocket newClnt) ∧
      ∀ k ∉ s₀.servSocks, ReadReady R poll s k →
        ReadReady R poll (s.withClient newSocket newClnt) k := by
  obtain ⟨hfd, -⟩ := h.inv.server fd servSock hserv
  have hreg := registered_new h.inv (h.config ▸ hports) hserv haccepts
  have hne : ∀ {k : Int}, k ∈ s.clntSocks → k ≠ newSocket := fun hk heq =>
    haccepts.not_client (heq ▸ hk)
  refine ⟨_, hreg.fd_eq, ?_, ⟨h.toDuring.withClient hreg, fun k hk => ?_⟩, fun k hk hready => ?_⟩
  · rw [readEvent_server hserv (acceptConnection_ok (hfd.symm ▸ haccepts)), hreg.fd_eq]
  · obtain ⟨clnt, hclnt, -⟩ := h.writes k hk
    exact (h.writes k hk).withClient (hne (mem_of_client hclnt))
  · cases hready with
    | server _ _ hserver => exact absurd (h.servSocks ▸ hserver) hk
    | client clnt hreadable hserver hclnt hstate hR =>
      exact .client clnt hreadable hserver
        (by rw [withClient_of_ne (hne (mem_of_client hclnt)), hclnt]) hstate hR

/-- What a server holds is open. -/
def Open (table : Finset Int) (s : Server) : Prop :=
  ∀ fd, fd ∈ s.servSocks ∨ fd ∈ s.clntSocks → fd ∈ table

theorem Open.withClient (h : Open table s) (newSocket : Int) (clnt : ClientSocket) :
    Open (insert newSocket table) (s.withClient newSocket clnt) := by
  intro k hk
  rw [Finset.mem_insert]
  rcases hk with hk | hk
  · exact Or.inr (h k (Or.inl hk))
  · exact (mem_withClient.mp hk).imp_right fun hk => h k (Or.inr hk)

/-- A socket that accepts opens one descriptor. -/
theorem acceptEvent_opens {W R : Int → ClientSocket → Prop} {s₀ : Server}
    (hports : s₀.config.PortsParsed) (hlimit : (limit : Int) ≤ FD_SETSIZE)
    (h : Reading W s₀ poll s) (hopen : Open table s) (hserver : fd ∈ s.servSocks)
    {newSocket : Int} (haccept : poll.accept fd = some newSocket)
    (hblocking : poll.setNonBlocking newSocket = true)
    (hunused : unused limit table = some newSocket) :
    ∃ s', (readEvent poll fd).run s = (.ok (), s') ∧ Reading W s₀ poll s' ∧
      Open (insert newSocket table) s' ∧
      ∀ k ∉ s₀.servSocks, ReadReady R poll s k → ReadReady R poll s' k := by
  obtain ⟨servSock, hserv⟩ := exists_servSock hserver
  obtain ⟨hpos, hlt, hfree⟩ := unused_some hunused
  have haccepts : s.Accepts poll fd newSocket :=
    ⟨haccept, hblocking, ⟨hpos, by omega⟩, fun hmem => hfree (hopen _ (Or.inl hmem)),
      fun hmem => hfree (hopen _ (Or.inr hmem))⟩
  obtain ⟨newClnt, -, hrun, hreading, hother⟩ := acceptEvent_ready hports h hserv haccepts
  exact ⟨_, hrun, hreading, hopen.withClient newSocket newClnt, hother⟩

/-- A client that is read opens none. -/
theorem clientReadEvent_opens {W R : Int → ClientSocket → Prop} {s₀ : Server}
    (h : Reading W s₀ poll s) (hopen : Open table s) (hserver : fd ∉ s.servSocks)
    (hready : ReadReady (readsReturn poll s₀.config) poll s fd) :
    ∃ s', (readEvent poll fd).run s = (.ok (), s') ∧ Reading W s₀ poll s' ∧ Open table s' ∧
      ∀ k, k ≠ fd → ReadReady R poll s k → ReadReady R poll s' k := by
  cases hready with
  | server _ _ hmem => exact absurd hmem hserver
  | client clnt _ _ hclnt hstate hreturns =>
    obtain ⟨s', hrun, hreading, hother⟩ :=
      clientReadEvent_step h hserver hclnt hstate (h.config ▸ hreturns)
    obtain ⟨hservSocks, hkeys⟩ := readEvent_keys (fun hmem => absurd hmem hserver)
      (fun servSock hserv => (h.inv.server fd servSock hserv).1) hrun
    refine ⟨s', hrun, hreading, fun k hk => ?_, hother⟩
    rw [hservSocks, hkeys] at hk
    exact hopen k (hk.imp_right fun hk => hk.resolve_right fun hnew => hserver hnew.1)

/-- The loop over the read events ends at the first accept that finds no descriptor. -/
theorem handleReadEvent_exhausted {W : Int → ClientSocket → Prop} {s₀ : Server}
    (hports : s₀.config.PortsParsed) (hlimit : (limit : Int) ≤ FD_SETSIZE)
    (hblocking : ∀ fd newSocket, poll.accept fd = some newSocket →
      poll.setNonBlocking newSocket = true)
    {fds : FdVector} (hnodup : fds.Nodup) (h : Reading W s₀ poll s)
    (hready : ∀ fd ∈ fds, fd ∉ s₀.servSocks → ReadReady (readsReturn poll s₀.config) poll s fd)
    (hanswers : Answers limit poll.accept (fds.filter fun fd => s₀.servSocks.contains fd) table)
    (hopen : Open table s) (hnone : ∃ fd ∈ fds, fd ∈ s₀.servSocks ∧ poll.accept fd = none) :
    ∃ s', (handleReadEvent poll fds).run s = (.error acceptFailed, s') := by
  induction fds generalizing s table with
  | nil =>
    obtain ⟨fd, hfd, -⟩ := hnone
    exact absurd hfd List.not_mem_nil
  | cons fd rest ih =>
    rw [List.nodup_cons] at hnodup
    rw [List.forall_mem_cons] at hready
    have hrest : ∀ {s₁ : Server}, (readEvent poll fd).run s = (.ok (), s₁) →
        (∃ s', (handleReadEvent poll rest).run s₁ = (.error acceptFailed, s')) →
        ∃ s', (handleReadEvent poll (fd :: rest)).run s = (.error acceptFailed, s') := by
      rintro s₁ hrun ⟨s', herror⟩
      refine ⟨s', ?_⟩
      rw [handleReadEvent, Method.forEach_cons, Method.run_bind_ok hrun]
      exact herror
    rw [List.exists_mem_cons_iff] at hnone
    by_cases hserver : fd ∈ s₀.servSocks
    · have hmem : fd ∈ s.servSocks := h.servSocks.symm ▸ hserver
      rw [List.filter_cons_of_pos (by simpa using hserver)] at hanswers
      obtain ⟨hunused, hanswers⟩ := hanswers
      cases haccept : poll.accept fd with
      | none =>
        obtain ⟨servSock, hserv⟩ := exists_servSock hmem
        have hrefused := readEvent_refused hserv (h.inv.server fd servSock hserv).1 haccept
        rw [handleReadEvent, Method.forEach_cons, Method.run_bind_error hrefused]
        exact ⟨s, rfl⟩
      | some newSocket =>
        obtain ⟨s₁, hrun, hreading, hopen₁, hother⟩ := acceptEvent_opens hports hlimit h hopen
          hmem haccept (hblocking fd newSocket haccept) (hunused.symm.trans haccept)
        have hnone' := hnone.resolve_left fun hfd => by
          rw [haccept] at hfd
          cases hfd.2
        exact hrest hrun (ih hnodup.2 hreading
          (fun k hk hclient => hother k hclient (hready.2 k hk hclient))
          (hanswers newSocket haccept) hopen₁ hnone')
    · rw [List.filter_cons_of_neg (by simpa using hserver)] at hanswers
      obtain ⟨s₁, hrun, hreading, hopen₁, hother⟩ :=
        clientReadEvent_opens h hopen (h.servSocks ▸ hserver) (hready.1 hserver)
      have hnone' := hnone.resolve_left fun hfd => hserver hfd.1
      exact hrest hrun (ih hnodup.2 hreading
        (fun k hk hclient => hother k (fun heq => hnodup.1 (heq ▸ hk)) (hready.2 k hk hclient))
        hanswers hopen₁ hnone')

/-- A pass that finds too few descriptors throws. -/
theorem Answered.exhausted (h : Answered limit table s poll) (htracked : Tracked limit table s)
    (hports : s.config.PortsParsed) (hinv : Inv s) (hsettled : Settled s)
    (hlimit : (limit : Int) ≤ FD_SETSIZE)
    (hnone : ∃ fd ∈ listening s.servSocks poll, poll.accept fd = none) :
    ∃ s', (runOnce poll).run s = (.error acceptFailed, s') := by
  have hmatching := hinv.matching hsettled h.ready
  obtain ⟨fds, hfds⟩ := hmatching.selected hinv hsettled h.select
  have hselect : (liftM (Selector.select poll.select s.servSocks s.clntSocks) :
      ServerM (FdVector × FdVector)).run s = (.ok fds, s) := by
    rw [Method.run_lift, hfds.select]
  have hread : fds.1 = poll.readable.toList := by rw [hfds.eq_toList]
  have hreading : Reading (writesReturn poll) s poll s := by
    refine ⟨⟨hinv, rfl, rfl⟩, fun fd hfd => ?_⟩
    obtain ⟨clnt, hclnt, hstate⟩ := hmatching.writable fd hfd
    exact ⟨clnt, hclnt, hstate, h.writes fd hfd clnt hclnt⟩
  have hready : ∀ fd ∈ fds.1, fd ∉ s.servSocks →
      ReadReady (readsReturn poll s.config) poll s fd := by
    intro fd hfd hserver
    have hreadable := (hfds.mem_read fd).mp hfd
    obtain ⟨clnt, hclnt, hstate⟩ := (hmatching.readable fd hreadable).resolve_left hserver
    exact .client clnt hreadable hserver hclnt hstate (h.reads fd hreadable clnt hclnt)
  obtain ⟨key, hkey, haccept⟩ := hnone
  rw [mem_listening] at hkey
  obtain ⟨s', hrun⟩ := handleReadEvent_exhausted hports hlimit h.nonBlocking hfds.nodup_read
    hreading hready (by rw [hread]; exact h.accept)
    (fun k hk => (htracked.mem k).mpr (Or.inr hk))
    ⟨key, (hfds.mem_read key).mpr hkey.1, hkey.2, haccept⟩
  refine ⟨s', ?_⟩
  rw [runOnce, Method.run_get_bind, Method.run_bind_ok hselect, Method.run_bind_error hrun]

/-! ## Runs -/

/-- Nothing is asked of the kernel. -/
theorem idlePoll_answered (limit : Nat) (table : Finset Int) (s : Server) :
    Answered limit table s idlePoll where
  select := fun h => nomatch h
  ready := fun _ _ => ⟨fun _ h => absurd h Std.ExtTreeSet.not_mem_empty,
    fun _ h => absurd h Std.ExtTreeSet.not_mem_empty⟩
  accept := by
    have hnone : listening s.servSocks idlePoll = [] := by
      rw [List.eq_nil_iff_forall_not_mem]
      exact fun fd h => absurd (mem_listening.mp h).1 Std.ExtTreeSet.not_mem_empty
    rw [hnone]
    trivial
  nonBlocking := fun _ _ _ => rfl
  reads := fun _ h => absurd h Std.ExtTreeSet.not_mem_empty
  writes := fun _ h => absurd h Std.ExtTreeSet.not_mem_empty

/-- There is a descriptor for every connection that the pass accepts. -/
def HasDescriptors (limit : Nat) (s : Server) (poll : Poll) : Prop :=
  3 + s.servSocks.size + s.clntSocks.size + (listening s.servSocks poll).length ≤ limit

/-- A run goes on as long as there are descriptors, and keeps track of them. -/
theorem Tracked.run {polls : List Poll} (htracked : Tracked limit table s)
    (hports : s.config.PortsParsed) (hinv : Inv s) (hsettled : Settled s)
    (hlimit : (limit : Int) ≤ FD_SETSIZE) (h : KernelRun limit polls table s) :
    (EachPass (HasDescriptors limit) polls s ∧ ∃ s', (run polls).run s = (.ok (), s') ∧
      During s s' ∧ Settled s' ∧ Tracked limit (tables polls table s) s') ∨
    ¬ EachPass (HasDescriptors limit) polls s ∧
      ∃ s', (run polls).run s = (.error acceptFailed, s') := by
  induction polls generalizing s table with
  | nil => exact Or.inl ⟨trivial, s, rfl, ⟨hinv, rfl, rfl⟩, hsettled, htracked⟩
  | cons poll rest ih =>
    obtain ⟨hanswered, hrest⟩ := h
    by_cases hall : ∀ fd ∈ listening s.servSocks poll, (poll.accept fd).isSome = true
    · obtain ⟨s₁, hrun₁, hduring₁, hsettled₁, htracked₁⟩ :=
        htracked.step hports hinv hsettled hanswered hlimit hall
      have hpasses : EachPass (HasDescriptors limit) (poll :: rest) s ↔
          EachPass (HasDescriptors limit) rest s₁ := by
        constructor
        · exact fun hpass => hpass.2 s₁ hrun₁
        · intro hpass
          refine ⟨(hanswered.accepts_iff htracked hinv).mp hall, fun s' hrun' => ?_⟩
          rw [hrun₁] at hrun'
          rw [← (Prod.mk.inj hrun').2]
          exact hpass
      have hafter : (Server.run (poll :: rest)).run s = (Server.run rest).run s₁ := by
        rw [Server.run, Method.run_bind_ok hrun₁]
      have htables : tables (poll :: rest) table s =
          tables rest (tableAfter poll s table) s₁ := by
        rw [tables, hrun₁]
      rw [hpasses, hafter, htables]
      refine (ih htracked₁ (hduring₁.config ▸ hports) hduring₁.inv hsettled₁
        (hrest s₁ hrun₁)).imp_left ?_
      rintro ⟨hpass, s', hrun', hduring', hsettled', htracked'⟩
      exact ⟨hpass, s', hrun', ⟨hduring'.inv, hduring'.config.trans hduring₁.config,
        hduring'.servSocks.trans hduring₁.servSocks⟩, hsettled', htracked'⟩
    · refine Or.inr ⟨fun hpass => ?_, ?_⟩
      · exact hall ((hanswered.accepts_iff htracked hinv).mpr hpass.1)
      · have hnone : ∃ fd ∈ listening s.servSocks poll, poll.accept fd = none := by
          simpa using hall
        obtain ⟨s', hrun⟩ := hanswered.exhausted htracked hports hinv hsettled hlimit hnone
        exact ⟨s', by rw [Server.run, Method.run_bind_error hrun]⟩

end

/-! ## From the start -/

theorem mem_insertServSocks {socket : Nat → Int} {ports : List Nat} {servSocks : ServerSocketMap}
    {fd : Int} :
    fd ∈ insertServSocks socket ports servSocks ↔
      fd ∈ servSocks ∨ ∃ port ∈ ports, socket port = fd := by
  induction ports generalizing servSocks with
  | nil => simp [insertServSocks]
  | cons port rest ih =>
    rw [insertServSocks, ih, Std.ExtTreeMap.mem_insert, Std.LawfulEqCmp.compare_eq_iff_eq]
    simp only [List.mem_cons, exists_eq_or_imp]
    tauto

/-- What is open once the server is there. -/
def startTable (config : WebservConfig) (socket : Nat → Int) : Finset Int :=
  opened (fun port => some (socket port)) config.ports.toList standard

/-- `socket` has returned the lowest descriptors for the ports, in their order. -/
def Sockets (limit : Nat) (config : WebservConfig) (socket : Nat → Int) : Prop :=
  3 ≤ limit ∧ Answers limit (fun port => some (socket port)) config.ports.toList standard

theorem Sockets.fresh {limit : Nat} {config : WebservConfig} {socket : Nat → Int}
    (h : Sockets limit config socket) {port : Nat} (hport : port ∈ config.ports) :
    0 ≤ socket port ∧ socket port < limit ∧ socket port ∉ standard :=
  h.2.fresh (fun _ _ => rfl) (Std.ExtTreeSet.mem_toList.mpr hport) rfl

/-- Every port keeps its socket. -/
theorem Sockets.servSock {limit : Nat} {config : WebservConfig} {socket : Nat → Int}
    (h : Sockets limit config socket) {port : Nat} (hport : port ∈ config.ports) :
    (new config socket).servSocks[socket port]? = some ⟨port, socket port⟩ := by
  have hmem : socket port ∈ (new config socket).servSocks :=
    mem_insertServSocks.mpr (Or.inr ⟨port, Std.ExtTreeSet.mem_toList.mpr hport, rfl⟩)
  obtain ⟨servSock, hserv⟩ := exists_servSock hmem
  obtain ⟨port', hport', heq, rfl⟩ := servSocks_new hserv
  obtain rfl : port = port' := h.2.distinct (fun _ _ => rfl)
    (Std.ExtTreeSet.mem_toList.mpr hport) (Std.ExtTreeSet.mem_toList.mpr hport')
    (congrArg some heq)
  exact hserv

theorem Sockets.tracked {limit : Nat} {config : WebservConfig} {socket : Nat → Int}
    (h : Sockets limit config socket) :
    Tracked limit (startTable config socket) (new config socket) where
  within := by
    refine h.2.within (fun _ _ => rfl) fun k hk => ?_
    have hlimit := h.1
    rw [standard, Finset.mem_insert, Finset.mem_insert, Finset.mem_singleton] at hk
    omega
  mem := by
    intro fd
    have hclient : fd ∉ (new config socket).clntSocks := Std.ExtTreeMap.not_mem_empty
    have hserver : fd ∈ (new config socket).servSocks ↔
        ∃ port ∈ config.ports.toList, socket port = fd := by
      rw [new, mem_insertServSocks]
      exact or_iff_right Std.ExtTreeMap.not_mem_empty
    rw [startTable, mem_opened, hserver, or_iff_left hclient]
    simp only [Option.some_inj]
  apart := by
    intro fd hstandard
    refine ⟨fun hserver => ?_, Std.ExtTreeMap.not_mem_empty⟩
    obtain ⟨servSock, hserv⟩ := exists_servSock hserver
    obtain ⟨port, hport, rfl, -⟩ := servSocks_new hserv
    exact (h.fresh hport).2.2 hstandard

/-- With no more descriptors than an `fd_set` has room for, and as long as no call but `accept`
fails, the server runs exactly as long as there is a descriptor for every connection that it
accepts.  Otherwise it ends with the exception for that, and until then the open descriptors are
the standard ones, its listening sockets and its connections. -/
theorem run_descriptors (limit : Nat) (hlimit : (limit : Int) ≤ FD_SETSIZE)
    (config : WebservConfig) (hports : config.PortsParsed) (socket : Nat → Int)
    (hsocket : Sockets limit config socket) (polls : List Poll)
    (h : KernelRun limit polls (startTable config socket) (new config socket)) :
    ((∃ s, (run polls).run (new config socket) = (.ok (), s)) ↔
      EachPass (HasDescriptors limit) polls (new config socket)) ∧
    (∀ s, (run polls).run (new config socket) = (.ok (), s) →
      ∀ fd, fd ∈ tables polls (startTable config socket) (new config socket) ↔
        fd ∈ standard ∨ fd ∈ s.servSocks ∨ fd ∈ s.clntSocks) ∧
    ∀ e s, (run polls).run (new config socket) = (.error e, s) → e = acceptFailed := by
  have hinv : Inv (new config socket) := inv_new fun port hport => by
    have hfresh := hsocket.fresh hport
    exact ⟨hfresh.1, by omega⟩
  rcases hsocket.tracked.run hports hinv (settled_new config socket) hlimit h with
    ⟨hpass, s, hrun, -, -, htracked⟩ | ⟨hpass, s, hrun⟩
  · refine ⟨iff_of_true ⟨s, hrun⟩ hpass, fun s' hrun' => ?_, fun e s' hrun' => ?_⟩
    · rw [← (Prod.mk.inj (hrun.symm.trans hrun')).2]
      exact htracked.mem
    · cases (Prod.mk.inj (hrun.symm.trans hrun')).1
  · refine ⟨iff_of_false (fun hok => ?_) hpass, fun s' hrun' => ?_, fun e s' hrun' => ?_⟩
    · obtain ⟨s', hrun'⟩ := hok
      cases (Prod.mk.inj (hrun.symm.trans hrun')).1
    · cases (Prod.mk.inj (hrun.symm.trans hrun')).1
    · exact (Except.error.inj (Prod.mk.inj (hrun.symm.trans hrun')).1).symm

/-- Another connection arrives when five descriptors are open. -/
def refusedPoll : Poll := { acceptPoll with accept := fun _ => none }

theorem sockets_oneServer {limit : Nat} (hlimit : 3 < limit) :
    Sockets limit (oneServer 80) fun _ => 3 := by
  have hports : (oneServer 80).ports.toList = [80] := rfl
  rw [Sockets, hports]
  refine ⟨by omega, (unused_eq_some_iff.mpr ⟨⟨by decide, by omega, by decide⟩, ?_⟩).symm,
    fun _ _ => trivial⟩
  intro k hpos hlt
  rw [standard, Finset.mem_insert, Finset.mem_insert, Finset.mem_singleton]
  omega

theorem acceptPoll_answered :
    Answered 5 (startTable (oneServer 80) fun _ => 3) startedServer acceptPoll where
  select := startedServer_lawful.select
  ready := startedServer_lawful.ready
  accept := by
    have hlistening : listening startedServer.servSocks acceptPoll = [3] := rfl
    rw [hlistening]
    exact ⟨by decide, fun _ _ => trivial⟩
  nonBlocking := fun _ _ _ => rfl
  reads := startedServer_lawful.reads
  writes := startedServer_lawful.writes

theorem refusedPoll_answered : Answered 5
    (tableAfter acceptPoll startedServer (startTable (oneServer 80) fun _ => 3)) acceptedServer
    refusedPoll where
  select := fun h => nomatch h
  ready := fun fds => acceptedServer_inv.1.ready_of_matching acceptedServer_inv.2
    ⟨fun fd hfd => Or.inl (by rw [eq_of_mem_insert hfd]; decide),
      fun _ hfd => absurd hfd Std.ExtTreeSet.not_mem_empty⟩
  accept := by
    have hlistening : listening acceptedServer.servSocks refusedPoll = [3] := rfl
    rw [hlistening]
    exact ⟨by decide, fun _ _ => trivial⟩
  nonBlocking := fun _ _ h => nomatch h
  reads := fun fd hfd clnt h => by
    rw [eq_of_mem_insert hfd] at h
    cases h
  writes := fun _ hfd => absurd hfd Std.ExtTreeSet.not_mem_empty

/-- The second connection finds no descriptor. -/
theorem run_descriptors_refused :
    ((∃ s, (run [acceptPoll, refusedPoll]).run (new (oneServer 80) fun _ => 3) = (.ok (), s)) ↔
      EachPass (HasDescriptors 5) [acceptPoll, refusedPoll] (new (oneServer 80) fun _ => 3)) ∧
    (∀ s, (run [acceptPoll, refusedPoll]).run (new (oneServer 80) fun _ => 3) = (.ok (), s) →
      ∀ fd, fd ∈ tables [acceptPoll, refusedPoll] (startTable (oneServer 80) fun _ => 3)
          (new (oneServer 80) fun _ => 3) ↔
        fd ∈ standard ∨ fd ∈ s.servSocks ∨ fd ∈ s.clntSocks) ∧
    ∀ e s, (run [acceptPoll, refusedPoll]).run (new (oneServer 80) fun _ => 3) = (.error e, s) →
      e = acceptFailed := by
  refine run_descriptors 5 (by decide) (oneServer 80) oneServer_portsParsed (fun _ => 3)
    (sockets_oneServer (by decide)) [acceptPoll, refusedPoll]
    ⟨acceptPoll_answered, fun s' h => ⟨?_, fun _ _ => trivial⟩⟩
  obtain rfl : acceptedServer = s' := congrArg Prod.snd (runOnce_acceptPoll.symm.trans h)
  exact refusedPoll_answered

end Server

end Webserv
