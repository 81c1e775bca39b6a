import Webserv.Server.Connections

/-!
# One connection in one pass

What a pass does to a client that waits for a request, to one that waits to answer, and to a
descriptor that is not open yet.  The server closes no connection by itself: a descriptor is in
the table from the accept to the end of its stream.
-/

namespace Webserv

open Text Selector HttpRequestParser

namespace Server

section

variable {s : Server} {poll : Poll} {fd : Int} {clnt : ClientSocket}

/-- The connection that a listening socket accepts in this pass. -/
def AcceptedIn (servSocks : ServerSocketMap) (poll : Poll) (fd : Int) : Prop :=
  ∃ listenFd ∈ poll.readable, listenFd ∈ servSocks ∧ poll.accept listenFd = some fd

/-- The peer of this descriptor has closed its end. -/
def EofIn (poll : Poll) (fd : Int) : Prop := fd ∈ poll.readable ∧ poll.recv fd = some []

/-! ## The occurrences of one descriptor -/

theorem readOccurrence_client (h : fd ∉ s.servSocks) :
    readOccurrence s.servSocks poll fd =
      some (fd, .readable (poll.recv fd) (poll.os fd)) := by
  rw [readOccurrence, Std.ExtTreeMap.getElem?_eq_none h]

/-- The occurrence of a listening socket is for the descriptor that it accepts. -/
theorem readOccurrence_server (hinv : Inv s) (hpromised : s.Promised poll)
    (hreadable : fd ∈ poll.readable) (hserver : fd ∈ s.servSocks) :
    ∃ newSocket newClnt, s.Accepts poll fd newSocket ∧
      readOccurrence s.servSocks poll fd = some (newSocket, .accepted newClnt) ∧
      newClnt.state = .read := by
  obtain ⟨newSocket, haccepts⟩ := hpromised.accept fd hreadable hserver
  obtain ⟨servSock, hserv⟩ := exists_servSock hserver
  obtain ⟨hfd, -⟩ := hinv.server fd servSock hserv
  have haccept := acceptConnection_ok (hfd.symm ▸ haccepts)
  have hkey : (ClientSocket.new (intOfSize servSock.port) (sizeOfInt newSocket) poll.fresh).fd =
      newSocket :=
    intOfSize_sizeOfInt (InRange.isInt haccepts.inRange).1 (InRange.isInt haccepts.inRange).2
  refine ⟨newSocket, ClientSocket.new (intOfSize servSock.port) (sizeOfInt newSocket) poll.fresh,
    haccepts, ?_, rfl⟩
  rw [readOccurrence, hserv]
  dsimp only
  rw [haccept]
  dsimp only
  rw [hkey]

theorem key_readOccurrence (hinv : Inv s) (hpromised : s.Promised poll)
    (hreadable : fd ∈ poll.readable) {event : Int × Occurrence}
    (h : readOccurrence s.servSocks poll fd = some event) :
    (fd ∈ s.servSocks ∧ poll.accept fd = some event.1 ∧ event.1 ∉ s.clntSocks) ∨
      fd ∉ s.servSocks ∧ event.1 = fd := by
  by_cases hserver : fd ∈ s.servSocks
  · obtain ⟨newSocket, newClnt, haccepts, hevent, -⟩ :=
      readOccurrence_server hinv hpromised hreadable hserver
    obtain rfl := Option.some.inj (hevent.symm.trans h)
    exact Or.inl ⟨hserver, haccepts.accept, haccepts.not_client⟩
  · rw [readOccurrence_client hserver] at h
    obtain rfl := Option.some.inj h
    exact Or.inr ⟨hserver, rfl⟩

/-- The read events of a client. -/
theorem own_reads_client (hinv : Inv s) (hpromised : s.Promised poll)
    (hclnt : s.clntSocks[fd]? = some (some clnt)) :
    Slots.own fd (poll.readable.toList.filterMap (readOccurrence s.servSocks poll)) =
      if fd ∈ poll.readable then [.readable (poll.recv fd) (poll.os fd)] else [] := by
  have hserver := (hinv.registered hclnt).not_server
  have hother : ∀ k ∈ poll.readable.toList, k ≠ fd → ∀ event,
      readOccurrence s.servSocks poll k = some event → event.1 ≠ fd := by
    intro k hk hne event hevent
    rcases key_readOccurrence hinv hpromised (Std.ExtTreeSet.mem_toList.mp hk) hevent with
      ⟨-, -, hnot⟩ | ⟨-, heq⟩
    · exact fun heq => hnot (heq ▸ mem_of_client hclnt)
    · exact heq ▸ hne
  by_cases hreadable : fd ∈ poll.readable
  · rw [if_pos hreadable]
    exact Slots.own_filterMap_eq_singleton (nodup_toList _)
      (Std.ExtTreeSet.mem_toList.mpr hreadable)
      (readOccurrence_client hserver) hother
  · rw [if_neg hreadable]
    refine Slots.own_eq_nil fun event hmem => ?_
    obtain ⟨k, hk, hevent⟩ := List.mem_filterMap.mp hmem
    exact hother k hk (fun heq => hreadable (heq ▸ Std.ExtTreeSet.mem_toList.mp hk)) event hevent

/-- The write events of a descriptor. -/
theorem own_writes (poll : Poll) (fd : Int) :
    Slots.own fd (poll.writable.toList.map fun fd => (fd, Occurrence.writable (poll.send fd))) =
      if fd ∈ poll.writable then [.writable (poll.send fd)] else [] := by
  have hmap : (poll.writable.toList.map fun fd => (fd, Occurrence.writable (poll.send fd))) =
      poll.writable.toList.filterMap fun fd => some (fd, Occurrence.writable (poll.send fd)) := by
    rw [← List.filterMap_eq_map]
    rfl
  rw [hmap]
  by_cases hwritable : fd ∈ poll.writable
  · rw [if_pos hwritable]
    refine Slots.own_filterMap_eq_singleton (nodup_toList _)
      (Std.ExtTreeSet.mem_toList.mpr hwritable) rfl ?_
    rintro k - hne event heq
    exact Option.some.inj heq ▸ hne
  · rw [if_neg hwritable]
    refine Slots.own_eq_nil fun event hmem => ?_
    obtain ⟨k, hk, hevent⟩ := List.mem_filterMap.mp hmem
    obtain rfl := Option.some.inj hevent
    exact fun heq => hwritable (heq ▸ Std.ExtTreeSet.mem_toList.mp hk)

/-! ## The pass of a client -/

theorem Matching.not_writable (h : s.Matching poll)
    (hclnt : s.clntSocks[fd]? = some (some clnt)) (hstate : clnt.state = .read) :
    fd ∉ poll.writable := by
  intro hmem
  obtain ⟨clnt', hclnt', hwrite⟩ := h.writable fd hmem
  rw [hclnt] at hclnt'
  rw [← Option.some.inj (Option.some.inj hclnt'), hstate] at hwrite
  cases hwrite

theorem Matching.not_readable (h : s.Matching poll) (hinv : Inv s)
    (hclnt : s.clntSocks[fd]? = some (some clnt)) (hstate : clnt.state = .write) :
    fd ∉ poll.readable := by
  intro hmem
  rcases h.readable fd hmem with hserver | ⟨clnt', hclnt', hread⟩
  · exact (hinv.registered hclnt).not_server hserver
  · rw [hclnt] at hclnt'
    rw [← Option.some.inj (Option.some.inj hclnt'), hstate] at hread
    cases hread

/-- A client that waits for a request has a read event if it is ready, and no write event. -/
theorem own_occurrences_read (hinv : Inv s) (hsettled : Settled s) (h : s.Lawful poll)
    (hclnt : s.clntSocks[fd]? = some (some clnt)) (hstate : clnt.state = .read) :
    Slots.own fd (occurrences s.servSocks poll) =
      if fd ∈ poll.readable then [.readable (poll.recv fd) (poll.os fd)] else [] := by
  have hwritable := (h.matching hinv hsettled).not_writable hclnt hstate
  rw [occurrences, Slots.own_append, own_reads_client hinv h.toPromised hclnt, own_writes,
    if_neg hwritable, List.append_nil]

/-- For a client with an answer it is the other way round. -/
theorem own_occurrences_write (hinv : Inv s) (hsettled : Settled s) (h : s.Lawful poll)
    (hclnt : s.clntSocks[fd]? = some (some clnt)) (hstate : clnt.state = .write) :
    Slots.own fd (occurrences s.servSocks poll) =
      if fd ∈ poll.writable then [.writable (poll.send fd)] else [] := by
  have hreadable := (h.matching hinv hsettled).not_readable hinv hclnt hstate
  rw [occurrences, Slots.own_append, own_reads_client hinv h.toPromised hclnt, own_writes,
    if_neg hreadable, List.nil_append]

/-- The entry of a descriptor after a pass. -/
theorem runOnce_entry (hports : s.config.PortsParsed) (hinv : Inv s) (hsettled : Settled s)
    (h : s.Lawful poll) {s' : Server} (hrun : (runOnce poll).run s = (.ok (), s')) (fd : Int) :
    s'.clntSocks[fd]? = (Slots.alone (Occurrence.act s.config)
      (Slots.own fd (occurrences s.servSocks poll)) (s.connections fd)).map some := by
  obtain ⟨s₁, hrun₁, hduring, hsettled₁, hconn⟩ := runOnce_simulates hports hinv hsettled h
  obtain rfl : s₁ = s' := (Prod.mk.inj (hrun₁.symm.trans hrun)).2
  rw [clntSocks_eq hduring.inv hsettled₁, hconn, Slots.run_apply]

theorem runOnce_client (hports : s.config.PortsParsed) (hinv : Inv s) (hsettled : Settled s)
    (h : s.Lawful poll) {s' : Server} (hrun : (runOnce poll).run s = (.ok (), s'))
    (hclnt : s.clntSocks[fd]? = some (some clnt)) :
    s'.clntSocks[fd]? = (Slots.alone (Occurrence.act s.config)
      (Slots.own fd (occurrences s.servSocks poll)) (some clnt)).map some := by
  rw [runOnce_entry hports hinv hsettled h hrun fd,
    connections_of_open hclnt (hsettled fd clnt hclnt)]

/-- A client that is not ready stays as it is. -/
theorem runOnce_still (hports : s.config.PortsParsed) (hinv : Inv s) (hsettled : Settled s)
    (h : s.Lawful poll) {s' : Server} (hrun : (runOnce poll).run s = (.ok (), s'))
    (hclnt : s.clntSocks[fd]? = some (some clnt))
    (hidle : clnt.state = .read → fd ∉ poll.readable)
    (hidle' : clnt.state = .write → fd ∉ poll.writable) :
    s'.clntSocks[fd]? = some (some clnt) := by
  rw [runOnce_client hports hinv hsettled h hrun hclnt]
  rcases hsettled fd clnt hclnt with hstate | hstate
  · rw [own_occurrences_read hinv hsettled h hclnt hstate, if_neg (hidle hstate)]
    rfl
  · rw [own_occurrences_write hinv hsettled h hclnt hstate, if_neg (hidle' hstate)]
    rfl

/-- A client that is ready to be read. -/
theorem runOnce_read (hports : s.config.PortsParsed) (hinv : Inv s) (hsettled : Settled s)
    (h : s.Lawful poll) {s' : Server} (hrun : (runOnce poll).run s = (.ok (), s'))
    (hclnt : s.clntSocks[fd]? = some (some clnt)) (hstate : clnt.state = .read)
    (hreadable : fd ∈ poll.readable) :
    s'.clntSocks[fd]? = (((ClientSocket.handleReadEvent (poll.recv fd) (poll.os fd) s.config).run
      clnt).2.unlessClosed).map some := by
  rw [runOnce_client hports hinv hsettled h hrun hclnt,
    own_occurrences_read hinv hsettled h hclnt hstate, if_pos hreadable]
  rfl

/-- A client that is ready to be written to. -/
theorem runOnce_write (hports : s.config.PortsParsed) (hinv : Inv s) (hsettled : Settled s)
    (h : s.Lawful poll) {s' : Server} (hrun : (runOnce poll).run s = (.ok (), s'))
    (hclnt : s.clntSocks[fd]? = some (some clnt)) (hstate : clnt.state = .write)
    (hwritable : fd ∈ poll.writable) {response : HttpResponse}
    (hresponse : clnt.currentResponse = some response) :
    s'.clntSocks[fd]? = some (some (clnt.delivered response)) := by
  have hsend := h.writes fd hwritable clnt hclnt response hresponse
  rw [runOnce_client hports hinv hsettled h hrun hclnt,
    own_occurrences_write hinv hsettled h hclnt hstate, if_pos hwritable, Slots.alone_cons,
    Slots.alone_nil, Occurrence.act, Option.bind_eq_bind, Option.bind_some, hsend,
    ClientSocket.handleWriteEvent_sent hresponse,
    ClientSocket.unlessClosed_of_open (Or.inl rfl)]
  rfl

/-! ## The table of descriptors -/

theorem mem_clntSocks_iff (hinv : Inv s) :
    fd ∈ s.clntSocks ↔ ∃ clnt, s.clntSocks[fd]? = some (some clnt) := by
  constructor
  · intro hmem
    obtain ⟨e, he⟩ := exists_entry hmem
    obtain ⟨clnt, rfl, -⟩ := hinv.client fd e he
    exact ⟨clnt, he⟩
  · rintro ⟨clnt, hclnt⟩
    exact mem_of_client hclnt

/-- The read event of a client drops it exactly at the end of the stream. -/
theorem unlessClosed_handleReadEvent {received : Option Str} {os : Os} {config : WebservConfig}
    (hstate : clnt.state = .read) (hreturns : clnt.ReadReturns received os config) :
    ((ClientSocket.handleReadEvent received os config).run clnt).2.unlessClosed = none ↔
      received = some [] := by
  obtain ⟨bytes, rfl, hanswer⟩ := hreturns
  by_cases hbytes : bytes = []
  · rw [hbytes, ClientSocket.handleReadEvent_eof]
    exact iff_of_true rfl rfl
  · have hsome : some bytes ≠ some [] := fun heq => hbytes (Option.some.inj heq)
    by_cases hcompletes : ClientSocket.completes (clnt.fed bytes config).requestParser
    · obtain ⟨response, hresponse⟩ := hanswer hbytes hcompletes
      rw [ClientSocket.handleReadEvent_answers hbytes hcompletes hresponse,
        ClientSocket.unlessClosed_of_open (Or.inr rfl)]
      exact iff_of_false (Option.some_ne_none _) hsome
    · have hopen : (clnt.fed bytes config).unlessClosed = some (clnt.fed bytes config) :=
        ClientSocket.unlessClosed_of_open (Or.inl hstate)
      rw [ClientSocket.handleReadEvent_waits hbytes hcompletes, hopen]
      exact iff_of_false (Option.some_ne_none _) hsome

/-- The occurrences of a descriptor that is not open. -/
theorem own_occurrences_none (hinv : Inv s) (hsettled : Settled s) (h : s.Lawful poll)
    (hnone : fd ∉ s.clntSocks) :
    (AcceptedIn s.servSocks poll fd ∧ ∃ newClnt,
      Slots.own fd (occurrences s.servSocks poll) = [.accepted newClnt]) ∨
    (¬ AcceptedIn s.servSocks poll fd ∧ Slots.own fd (occurrences s.servSocks poll) = []) := by
  have hmatching := h.matching hinv hsettled
  have hwritable : fd ∉ poll.writable := by
    intro hmem
    obtain ⟨clnt, hclnt, -⟩ := hmatching.writable fd hmem
    exact hnone (mem_of_client hclnt)
  have hkey : ∀ k ∈ poll.readable.toList, ∀ event,
      readOccurrence s.servSocks poll k = some event → event.1 = fd →
      k ∈ poll.readable ∧ k ∈ s.servSocks ∧ poll.accept k = some fd := by
    intro k hk event hevent heq
    have hreadable := Std.ExtTreeSet.mem_toList.mp hk
    rcases key_readOccurrence hinv h.toPromised hreadable hevent with
      ⟨hserver, haccept, -⟩ | ⟨hserver, hself⟩
    · exact ⟨hreadable, hserver, heq ▸ haccept⟩
    · obtain ⟨clnt, hclnt, -⟩ := (hmatching.readable k hreadable).resolve_left hserver
      rw [← hself, heq] at hclnt
      exact absurd (mem_of_client hclnt) hnone
  rw [occurrences, Slots.own_append, own_writes, if_neg hwritable, List.append_nil]
  by_cases haccepted : AcceptedIn s.servSocks poll fd
  · obtain ⟨listenFd, hreadable, hserver, haccept⟩ := haccepted
    obtain ⟨newSocket, newClnt, haccepts, hevent, -⟩ :=
      readOccurrence_server hinv h.toPromised hreadable hserver
    obtain rfl : fd = newSocket := Option.some.inj (haccept.symm.trans haccepts.accept)
    refine Or.inl ⟨⟨listenFd, hreadable, hserver, haccept⟩, newClnt, ?_⟩
    refine Slots.own_filterMap_eq_singleton (nodup_toList _)
      (Std.ExtTreeSet.mem_toList.mpr hreadable) hevent fun k hk hne event hevent' heq => ?_
    obtain ⟨hreadable', hserver', haccept'⟩ := hkey k hk event hevent' heq
    exact hne (h.distinct k hreadable' listenFd hreadable hserver' hserver
      (haccept'.trans haccept.symm))
  · refine Or.inr ⟨haccepted, Slots.own_eq_nil fun event hmem heq => ?_⟩
    obtain ⟨k, hk, hevent⟩ := List.mem_filterMap.mp hmem
    exact haccepted ⟨k, hkey k hk event hevent heq⟩

theorem mem_clntSocks_of_entry {o : Option ClientSocket} (ho : s.clntSocks[fd]? = o.map some) :
    fd ∈ s.clntSocks ↔ o ≠ none := by
  rw [Std.ExtTreeMap.mem_iff_isSome_getElem?, ho, Option.isSome_map, Option.isSome_iff_ne_none]

/-- What is accepted is not open before. -/
theorem not_acceptedIn (h : s.Lawful poll) (hclient : fd ∈ s.clntSocks) :
    ¬ AcceptedIn s.servSocks poll fd := by
  rintro ⟨listenFd, hreadable, hserver, haccept⟩
  obtain ⟨newSocket, haccepts⟩ := h.accept listenFd hreadable hserver
  obtain rfl : fd = newSocket := Option.some.inj (haccept.symm.trans haccepts.accept)
  exact haccepts.not_client hclient

/-- One pass closes a client at the end of its stream. -/
theorem runOnce_mem_iff_eof (hports : s.config.PortsParsed) (hinv : Inv s) (hsettled : Settled s)
    (h : s.Lawful poll) {s' : Server} (hrun : (runOnce poll).run s = (.ok (), s'))
    (hclnt : s.clntSocks[fd]? = some (some clnt)) : fd ∈ s'.clntSocks ↔ ¬ EofIn poll fd := by
  rcases hsettled fd clnt hclnt with hstate | hstate
  · by_cases hreadable : fd ∈ poll.readable
    · rw [mem_clntSocks_of_entry (runOnce_read hports hinv hsettled h hrun hclnt hstate hreadable),
        ne_eq, unlessClosed_handleReadEvent hstate (h.reads fd hreadable clnt hclnt), EofIn,
        and_iff_right hreadable]
    · refine iff_of_true (mem_of_client (runOnce_still hports hinv hsettled h hrun hclnt
        (fun _ => hreadable) fun hwrite => ?_)) fun heof => hreadable heof.1
      cases hstate.symm.trans hwrite
  · have hreadable := (h.matching hinv hsettled).not_readable hinv hclnt hstate
    refine iff_of_true ?_ fun heof => hreadable heof.1
    by_cases hwritable : fd ∈ poll.writable
    · obtain ⟨conf, hsound⟩ := (hinv.registered hclnt).sound
      obtain ⟨response, -, hresponse, -⟩ := hsound.pending hstate
      exact mem_of_client
        (runOnce_write hports hinv hsettled h hrun hclnt hstate hwritable hresponse)
    · refine mem_of_client (runOnce_still hports hinv hsettled h hrun hclnt (fun hread => ?_)
        fun _ => hwritable)
      cases hstate.symm.trans hread

/-- One pass opens what it accepts and closes what is at its end. -/
theorem runOnce_mem_iff (hports : s.config.PortsParsed) (hinv : Inv s) (hsettled : Settled s)
    (h : s.Lawful poll) {s' : Server} (hrun : (runOnce poll).run s = (.ok (), s')) :
    fd ∈ s'.clntSocks ↔ (fd ∈ s.clntSocks ∧ ¬ EofIn poll fd) ∨ AcceptedIn s.servSocks poll fd := by
  by_cases hclient : fd ∈ s.clntSocks
  · obtain ⟨clnt, hclnt⟩ := (mem_clntSocks_iff hinv).mp hclient
    rw [or_iff_left (not_acceptedIn h hclient), and_iff_right hclient]
    exact runOnce_mem_iff_eof hports hinv hsettled h hrun hclnt
  · have hnone : s.connections fd = none := by
      rw [connections, Std.ExtTreeMap.getElem?_eq_none hclient]
      rfl
    have hentry := runOnce_entry hports hinv hsettled h hrun fd
    rw [hnone] at hentry
    rw [mem_clntSocks_of_entry hentry, or_iff_right fun h' => hclient h'.1]
    rcases own_occurrences_none hinv hsettled h hclient with
      ⟨haccepted, newClnt, hown⟩ | ⟨haccepted, hown⟩
    · rw [hown]
      exact iff_of_true (Option.some_ne_none newClnt) haccepted
    · rw [hown]
      exact iff_of_false (fun h' => h' rfl) haccepted

/-- A run keeps open what it has accepted, up to the end of its stream. -/
theorem run_mem_iff {polls : List Poll} (hports : s.config.PortsParsed) (hinv : Inv s)
    (hsettled : Settled s) (h : EachPass Lawful polls s) {s' : Server}
    (hrun : (run polls).run s = (.ok (), s')) :
    fd ∈ s'.clntSocks ↔ (fd ∈ s.clntSocks ∧ ∀ poll ∈ polls, ¬ EofIn poll fd) ∨
      ∃ before poll after, polls = before ++ poll :: after ∧ AcceptedIn s.servSocks poll fd ∧
        ∀ poll' ∈ after, ¬ EofIn poll' fd := by
  induction polls generalizing s with
  | nil =>
    obtain rfl : s = s' := congrArg Prod.snd hrun
    simp
  | cons poll rest ih =>
    obtain ⟨s₁, hrun₁, hduring, hsettled₁⟩ := runOnce_step hports hinv hsettled h.1
    rw [run, Method.run_bind_ok hrun₁] at hrun
    rw [ih (hduring.config ▸ hports) hduring.inv hsettled₁ (h.2 s₁ hrun₁) hrun,
      runOnce_mem_iff hports hinv hsettled h.1 hrun₁, hduring.servSocks, List.forall_mem_cons]
    constructor
    · rintro (⟨⟨hmem, hopen⟩ | haccepted, hrest⟩ | ⟨before, poll', after, rfl, haccepted, hafter⟩)
      · exact Or.inl ⟨hmem, hopen, hrest⟩
      · exact Or.inr ⟨[], poll, rest, rfl, haccepted, hrest⟩
      · exact Or.inr ⟨poll :: before, poll', after, rfl, haccepted, hafter⟩
    · rintro (⟨hmem, hopen, hrest⟩ | ⟨before, poll', after, hsplit, haccepted, hafter⟩)
      · exact Or.inl ⟨Or.inl ⟨hmem, hopen⟩, hrest⟩
      · cases before with
        | nil =>
          obtain ⟨rfl, rfl⟩ := List.cons.inj hsplit
          exact Or.inl ⟨Or.inr haccepted, hafter⟩
        | cons first before =>
          obtain ⟨-, hrest⟩ := List.cons.inj hsplit
          exact Or.inr ⟨before, poll', after, hrest, haccepted, hafter⟩

end

/-- The server never closes a connection first: a descriptor is open if and only if it was
accepted and its peer has not closed its end since then. -/
theorem run_open_iff (config : WebservConfig) (hports : config.PortsParsed)
    (socket : Nat → Int) (hsocket : ∀ port ∈ config.ports, InRange (socket port))
    (polls : List Poll) (h : EachPass Lawful polls (new config socket)) :
    ∃ s, (run polls).run (new config socket) = (.ok (), s) ∧
      ∀ fd : Int, fd ∈ s.clntSocks ↔
        ∃ before poll after, polls = before ++ poll :: after ∧
          AcceptedIn (new config socket).servSocks poll fd ∧
          ∀ poll' ∈ after, ¬ EofIn poll' fd := by
  obtain ⟨s, hrun, -⟩ := run_step hports (inv_new hsocket) (settled_new config socket) h
  refine ⟨s, hrun, fun fd => ?_⟩
  rw [run_mem_iff hports (inv_new hsocket) (settled_new config socket) h hrun]
  exact or_iff_right fun hmem => Std.ExtTreeMap.not_mem_empty hmem.1

theorem run_open_iff_accept_and_read :
    ∃ s, (run [acceptPoll, readPoll]).run (new (oneServer 80) fun _ => 3) = (.ok (), s) ∧
      ∀ fd : Int, fd ∈ s.clntSocks ↔
        ∃ before poll after, [acceptPoll, readPoll] = before ++ poll :: after ∧
          AcceptedIn (new (oneServer 80) fun _ => 3).servSocks poll fd ∧
          ∀ poll' ∈ after, ¬ EofIn poll' fd :=
  run_open_iff (oneServer 80) oneServer_portsParsed (fun _ => 3) (fun _ _ => by decide)
    [acceptPoll, readPoll] acceptAndRead_lawful

end Server

end Webserv
