import Webserv.Response.Returns
import Webserv.Server.Safety

/-!
# Failures on one connection

Nothing that a handler throws is caught within the loop.  So an event leaves the other clients and
the loop alone exactly when it throws nothing, and only `recv`, `send` and the scripts decide that.
-/

namespace Webserv

open Text Selector HttpRequestParser HttpResponseBuilder

namespace ClientSocket

/-- The server that the request is for can run the script that it names, if it names one. -/
def Answerable (os : Os) (port : Nat) (config : WebservConfig) (request : HttpRequest) : Prop :=
  ∀ conf, config.findServerConfig port request.header.host = .ok conf →
    CanBuild os (ConfigConverter.toDTO conf) (HttpRequestConverter.toDTO request)

/-- `recv` does not fail, and a request that it completes can be answered. -/
def ReadHarmless (received : Option Str) (os : Os) (config : WebservConfig) (clnt : ClientSocket) :
    Prop :=
  ∃ bytes, received = some bytes ∧
    (bytes ≠ [] → completes (clnt.fed bytes config).requestParser →
      Answerable os clnt.port config (clnt.fed bytes config).requestParser.buildRequest)

section

variable {os : Os} {config : WebservConfig} {clnt : ClientSocket}

theorem responseTo_ok_iff {port : Nat} (hport : port ∈ config.ports) (request : HttpRequest) :
    (∃ response, responseTo os port config request = .ok response) ↔
      Answerable os port config request := by
  obtain ⟨conf, hconf⟩ := WebservConfig.findServerConfig_isOk hport request.header.host
  have hresponse : responseTo os port config request =
      ((build os (HttpRequestConverter.toDTO request)).run
        (.new (ConfigConverter.toDTO conf))).1 := by
    rw [responseTo, hconf]
    rfl
  have hanswerable : Answerable os port config request ↔
      CanBuild os (ConfigConverter.toDTO conf) (HttpRequestConverter.toDTO request) := by
    refine ⟨fun h => h conf hconf, fun h conf' hconf' => ?_⟩
    obtain rfl := Except.ok.inj (hconf.symm.trans hconf')
    exact h
  rw [hresponse, hanswerable, ← build_returns_iff]
  constructor
  · rintro ⟨response, h⟩
    exact ⟨response, _, Prod.ext h rfl⟩
  · rintro ⟨response, b, h⟩
    exact ⟨response, by rw [h]⟩

theorem readReturns_iff (hport : clnt.port ∈ config.ports) {received : Option Str} :
    ReadReturns received os config clnt ↔ ReadHarmless received os config clnt := by
  unfold ReadReturns ReadHarmless
  simp only [responseTo_ok_iff hport]

/-- The handler returns exactly when nothing is thrown on its way. -/
theorem handleReadEvent_ok_iff {received : Option Str} :
    ((handleReadEvent received os config).run clnt).1 = .ok () ↔
      ReadReturns received os config clnt := by
  cases received with
  | none =>
    rw [handleReadEvent_failed]
    refine iff_of_false (fun h => nomatch h) ?_
    rintro ⟨bytes, h, -⟩
    cases h
  | some bytes =>
    by_cases hbytes : bytes = []
    · rw [hbytes, handleReadEvent_eof]
      exact iff_of_true rfl ⟨[], rfl, fun h => absurd rfl h⟩
    by_cases hcompletes : completes (clnt.fed bytes config).requestParser
    · cases hresponse : responseTo os clnt.port config
          (clnt.fed bytes config).requestParser.buildRequest with
      | ok response =>
        rw [handleReadEvent_answers hbytes hcompletes hresponse]
        exact iff_of_true rfl ⟨bytes, rfl, fun _ _ => ⟨response, hresponse⟩⟩
      | error e =>
        rw [handleReadEvent_throws hbytes hcompletes hresponse]
        refine iff_of_false (fun h => nomatch h) ?_
        rintro ⟨bytes', heq, h⟩
        obtain rfl := Option.some.inj heq
        obtain ⟨response, hok⟩ := h hbytes hcompletes
        rw [hresponse] at hok
        cases hok
    · rw [handleReadEvent_waits hbytes hcompletes]
      refine iff_of_true rfl ⟨bytes, rfl, fun _ h => absurd h hcompletes⟩

theorem handleWriteEvent_ok_iff {response : HttpResponse}
    (hresponse : clnt.currentResponse = some response) {send : Send} :
    ((handleWriteEvent send).run clnt).1 = .ok () ↔ WriteReturns send clnt := by
  by_cases hsend : send = .sent (HttpResponseSerializer.serialize response).size
  · rw [hsend, handleWriteEvent_sent hresponse]
    refine iff_of_true rfl fun response' h => ?_
    obtain rfl := Option.some.inj (hresponse.symm.trans h)
    rfl
  · obtain ⟨e, hrun⟩ := handleWriteEvent_throws hresponse hsend
    rw [hrun]
    exact iff_of_false (fun h => nomatch h) fun h => hsend (h response hresponse)

end

end ClientSocket

namespace Server

/-- The event on `fd` returned and changed the client `fd` only. -/
structure Contained (s : Server) (fd : Int) (r : Except Raised Unit × Server) : Prop where
  ok : r.1 = .ok ()
  config : r.2.config = s.config
  servSocks : r.2.servSocks = s.servSocks
  others : ∀ k : Int, k ≠ fd → r.2.clntSocks[k]? = s.clntSocks[k]?

section

variable {s₀ s : Server} {poll : Poll} {fd : Int} {clnt : ClientSocket}

theorem contained_withClient (r : Except Raised Unit × ClientSocket) :
    Contained s fd (r.1, s.withClient fd r.2) ↔ r.1 = .ok () :=
  ⟨Contained.ok, fun h => ⟨h, rfl, rfl, fun _ => withClient_of_ne⟩⟩

theorem Registered.port_mem (hinv : Inv s) (h : Registered s.config s.servSocks fd clnt) :
    clnt.port ∈ s.config.ports := by
  obtain ⟨listenFd, servSock, hserv, hport⟩ := h.port
  rw [hport]
  exact (hinv.server listenFd servSock hserv).2.2

theorem readEvent_contained (hserver : fd ∉ s.servSocks)
    (hclnt : s.clntSocks[fd]? = some (some clnt)) :
    Contained s fd ((readEvent poll fd).run s) ↔ ((readEvent poll fd).run s).1 = .ok () := by
  rw [readEvent_client (by simpa using hserver) hclnt]
  exact contained_withClient _

theorem writeEvent_contained (hclnt : s.clntSocks[fd]? = some (some clnt)) :
    Contained s fd ((writeEvent poll fd).run s) ↔ ((writeEvent poll fd).run s).1 = .ok () := by
  rw [writeEvent_client hclnt]
  exact contained_withClient _

theorem readEvent_contained_iff (hinv : Inv s) (hclnt : s.clntSocks[fd]? = some (some clnt)) :
    Contained s fd ((readEvent poll fd).run s) ↔
      clnt.ReadHarmless (poll.recv fd) (poll.os fd) s.config := by
  have hreg := hinv.registered hclnt
  rw [readEvent_contained hreg.not_server hclnt,
    readEvent_client (by simpa using hreg.not_server) hclnt,
    ClientSocket.handleReadEvent_ok_iff, ClientSocket.readReturns_iff (hreg.port_mem hinv)]

theorem writeEvent_contained_iff (hinv : Inv s) (hclnt : s.clntSocks[fd]? = some (some clnt))
    (hstate : clnt.state = .write) :
    Contained s fd ((writeEvent poll fd).run s) ↔ clnt.WriteReturns (poll.send fd) := by
  obtain ⟨conf, hsound⟩ := (hinv.registered hclnt).sound
  obtain ⟨response, -, hresponse, -⟩ := hsound.pending hstate
  rw [writeEvent_contained hclnt, writeEvent_client hclnt,
    ClientSocket.handleWriteEvent_ok_iff hresponse]

/-! ## The events of one pass -/

/-- The client is the one that the pass began with. -/
def Unchanged (s : Server) (fd : Int) (clnt : ClientSocket) : Prop :=
  s.clntSocks[fd]? = some (some clnt)

/-- At every event of a client in the pass, the client is still as it was at the beginning, and
the event is contained if and only if it is harmless. -/
structure Isolates (s : Server) (poll : Poll) (fds : FdVector × FdVector) : Prop where
  reads : ∀ done fd rest s₁, fds.1 = done ++ fd :: rest →
    (handleReadEvent poll done).run s = (.ok (), s₁) → fd ∉ s.servSocks →
    ∃ clnt, s.clntSocks[fd]? = some (some clnt) ∧ s₁.clntSocks[fd]? = some (some clnt) ∧
      (Contained s₁ fd ((readEvent poll fd).run s₁) ↔
        clnt.ReadHarmless (poll.recv fd) (poll.os fd) s.config)
  writes : ∀ done fd rest s₁ s₂, fds.2 = done ++ fd :: rest →
    (handleReadEvent poll fds.1).run s = (.ok (), s₁) →
    (handleWriteEvent poll done).run s₁ = (.ok (), s₂) →
    ∃ clnt, s.clntSocks[fd]? = some (some clnt) ∧ s₂.clntSocks[fd]? = some (some clnt) ∧
      (Contained s₂ fd ((writeEvent poll fd).run s₂) ↔ clnt.WriteReturns (poll.send fd))

/-- The events of clients in a pass that begins in this state are harmless. -/
structure Harmless (s : Server) (poll : Poll) : Prop where
  reads : ∀ fd ∈ poll.readable, ∀ clnt, s.clntSocks[fd]? = some (some clnt) →
    clnt.ReadHarmless (poll.recv fd) (poll.os fd) s.config
  writes : ∀ fd ∈ poll.writable, ∀ clnt, s.clntSocks[fd]? = some (some clnt) →
    clnt.WriteReturns (poll.send fd)

/-- Read events that returned left the clients of the others alone. -/
theorem handleReadEvent_of_ok (hports : s₀.config.PortsParsed) (hpromised : s₀.Promised poll)
    {W R : Int → ClientSocket → Prop} {fds : FdVector} (hnodup : fds.Nodup)
    (h : Reading W s₀ poll s) (hready : ∀ fd ∈ fds, ReadReady R poll s fd) {s' : Server}
    (hrun : (handleReadEvent poll fds).run s = (.ok (), s')) :
    Reading W s₀ poll s' ∧ ∀ fd ∉ fds, ReadReady R poll s fd → ReadReady R poll s' fd := by
  refine Method.forEach_of_ok (fun s₁ fd s₂ h hready hrun => ?_) hnodup h hready hrun
  have hstep : ∃ s₂, (readEvent poll fd).run s₁ = (.ok (), s₂) ∧ Reading W s₀ poll s₂ ∧
      ∀ fd', fd' ≠ fd → ReadReady R poll s₁ fd' → ReadReady R poll s₂ fd' := by
    cases hready with
    | server newSocket hreadable hserver haccepts =>
      exact acceptEvent_step hports hpromised h hreadable hserver haccepts
    | client clnt hreadable hserver hclnt hstate hR =>
      rw [readEvent_client (by simpa using hserver) hclnt] at hrun
      exact clientReadEvent_step h hserver hclnt hstate
        (ClientSocket.handleReadEvent_ok_iff.mp (Prod.mk.inj hrun).1)
  obtain ⟨s₂', hrun', hrest⟩ := hstep
  obtain rfl : s₂ = s₂' := congrArg Prod.snd (hrun.symm.trans hrun')
  exact hrest

theorem handleWriteEvent_of_ok {W : Int → ClientSocket → Prop} {fds : FdVector}
    (hnodup : fds.Nodup) (h : During s₀ s) (hready : ∀ fd ∈ fds, WriteReady W s fd) {s' : Server}
    (hrun : (handleWriteEvent poll fds).run s = (.ok (), s')) :
    During s₀ s' ∧ ∀ fd ∉ fds, WriteReady W s fd → WriteReady W s' fd := by
  refine Method.forEach_of_ok (fun s₁ fd s₂ h hready hrun => ?_) hnodup h hready hrun
  obtain ⟨clnt, hclnt, hstate, -⟩ := hready
  have hcontained : Contained s₁ fd ((writeEvent poll fd).run s₁) :=
    (writeEvent_contained hclnt).mpr (by rw [hrun])
  obtain ⟨s₂', hrun', hrest⟩ := writeEvent_step h hclnt hstate
    ((writeEvent_contained_iff h.inv hclnt hstate).mp hcontained)
  obtain rfl : s₂ = s₂' := congrArg Prod.snd (hrun.symm.trans hrun')
  exact hrest

section

variable (hports : s.config.PortsParsed) (hinv : Inv s) (hsettled : Settled s)
  (hpromised : s.Promised poll) {fds : FdVector × FdVector} (hfds : s.Selected poll fds)

include hports hinv hsettled hpromised hfds

/-- The read events that returned left the ones that follow as they were. -/
theorem reading_of_ok {done rest : FdVector} {s₁ : Server} (hsplit : fds.1 = done ++ rest)
    (hrun : (handleReadEvent poll done).run s = (.ok (), s₁)) :
    Reading (Unchanged s) s poll s₁ ∧ ∀ fd ∈ rest, ReadReady (Unchanged s) poll s₁ fd := by
  have hreading : Reading (Unchanged s) s poll s :=
    ⟨⟨hinv, rfl, rfl⟩, hpromised.writeReady hinv hsettled fun _ _ _ h => h⟩
  have hready : ∀ fd ∈ fds.1, ReadReady (Unchanged s) poll s fd := fun fd hfd =>
    hpromised.readReady hinv hsettled (fun _ _ _ h => h) fd ((hfds.mem_read fd).mp hfd)
  have hnodup := hfds.nodup_read
  rw [hsplit] at hnodup hready
  obtain ⟨hnodup, -, hdisjoint⟩ := List.nodup_append.mp hnodup
  obtain ⟨hreading₁, hother⟩ := handleReadEvent_of_ok hports hpromised hnodup hreading
    (fun k hk => hready k (List.mem_append_left _ hk)) hrun
  exact ⟨hreading₁, fun fd hfd => hother fd (fun hmem => hdisjoint fd hmem fd hfd rfl)
    (hready fd (List.mem_append_right _ hfd))⟩

/-- When a client's read event is handled, the client is the one that the pass began with. -/
theorem read_reached {done rest : FdVector} {s₁ : Server} (hsplit : fds.1 = done ++ fd :: rest)
    (hrun : (handleReadEvent poll done).run s = (.ok (), s₁)) (hserver : fd ∉ s.servSocks) :
    During s s₁ ∧ ∃ clnt, s.clntSocks[fd]? = some (some clnt) ∧
      s₁.clntSocks[fd]? = some (some clnt) := by
  obtain ⟨hreading, hready⟩ := reading_of_ok hports hinv hsettled hpromised hfds hsplit hrun
  refine ⟨hreading.toDuring, ?_⟩
  cases hready fd (List.mem_cons_self ..) with
  | server _ _ hserver' _ => exact absurd (hreading.servSocks ▸ hserver') hserver
  | client clnt _ _ hclnt _ hunchanged => exact ⟨clnt, hunchanged, hclnt⟩

theorem write_reached {done rest : FdVector} {s₁ s₂ : Server}
    (hsplit : fds.2 = done ++ fd :: rest)
    (hrun₁ : (handleReadEvent poll fds.1).run s = (.ok (), s₁))
    (hrun₂ : (handleWriteEvent poll done).run s₁ = (.ok (), s₂)) :
    During s s₂ ∧ ∃ clnt, s.clntSocks[fd]? = some (some clnt) ∧
      s₂.clntSocks[fd]? = some (some clnt) ∧ clnt.state = .write := by
  obtain ⟨hreading, -⟩ := reading_of_ok hports hinv hsettled hpromised hfds
    (List.append_nil fds.1).symm hrun₁
  have hnodup := hfds.nodup_write
  have hwrites : ∀ fd ∈ fds.2, WriteReady (Unchanged s) s₁ fd := fun fd hfd =>
    hreading.writes fd ((hfds.mem_write fd).mp hfd)
  rw [hsplit] at hnodup hwrites
  obtain ⟨hnodup, -, hdisjoint⟩ := List.nodup_append.mp hnodup
  obtain ⟨hduring, hother⟩ := handleWriteEvent_of_ok hnodup hreading.toDuring
    (fun k hk => hwrites k (List.mem_append_left _ hk)) hrun₂
  obtain ⟨clnt, hclnt, hstate, hunchanged⟩ :=
    hother fd (fun hmem => hdisjoint fd hmem fd (List.mem_cons_self ..) rfl) (hwrites fd (by simp))
  exact ⟨hduring, clnt, hunchanged, hclnt, hstate⟩

theorem isolates : Isolates s poll fds where
  reads := by
    intro done fd rest s₁ hsplit hrun hserver
    obtain ⟨hduring, clnt, hclnt, hclnt₁⟩ :=
      read_reached hports hinv hsettled hpromised hfds hsplit hrun hserver
    refine ⟨clnt, hclnt, hclnt₁, ?_⟩
    rw [← hduring.config]
    exact readEvent_contained_iff hduring.inv hclnt₁
  writes := by
    intro done fd rest s₁ s₂ hsplit hrun₁ hrun₂
    obtain ⟨hduring, clnt, hclnt, hclnt₂, hstate⟩ :=
      write_reached hports hinv hsettled hpromised hfds hsplit hrun₁ hrun₂
    exact ⟨clnt, hclnt, hclnt₂, writeEvent_contained_iff hduring.inv hclnt₂ hstate⟩

/-- Events that returned were harmless. -/
theorem harmless_of_ok {s₁ s₂ : Server} (hrun₁ : (handleReadEvent poll fds.1).run s = (.ok (), s₁))
    (hrun₂ : (handleWriteEvent poll fds.2).run s₁ = (.ok (), s₂)) : s.Harmless poll where
  reads := by
    intro fd hfd clnt hclnt
    obtain ⟨done, rest, hsplit⟩ := List.append_of_mem ((hfds.mem_read fd).mpr hfd)
    have hloop := hrun₁
    rw [handleReadEvent, hsplit] at hloop
    obtain ⟨s', s'', hdone, hevent⟩ := Method.forEach_split hloop
    obtain ⟨hduring, clnt', hclnt', hclnt₁⟩ := read_reached hports hinv hsettled hpromised hfds
      hsplit hdone (hinv.registered hclnt).not_server
    obtain rfl := Option.some.inj (Option.some.inj (hclnt.symm.trans hclnt'))
    have hserver := (hduring.inv.registered hclnt₁).not_server
    have hcontained : Contained s' fd ((readEvent poll fd).run s') :=
      (readEvent_contained hserver hclnt₁).mpr (by rw [hevent])
    exact hduring.config ▸ (readEvent_contained_iff hduring.inv hclnt₁).mp hcontained
  writes := by
    intro fd hfd clnt hclnt
    obtain ⟨done, rest, hsplit⟩ := List.append_of_mem ((hfds.mem_write fd).mpr hfd)
    have hloop := hrun₂
    rw [handleWriteEvent, hsplit] at hloop
    obtain ⟨s', s'', hdone, hevent⟩ := Method.forEach_split hloop
    obtain ⟨hduring, clnt', hclnt', hclnt₂, hstate⟩ := write_reached hports hinv hsettled
      hpromised hfds hsplit hrun₁ hdone
    obtain rfl := Option.some.inj (Option.some.inj (hclnt.symm.trans hclnt'))
    have hcontained : Contained s' fd ((writeEvent poll fd).run s') :=
      (writeEvent_contained hclnt₂).mpr (by rw [hevent])
    exact (writeEvent_contained_iff hduring.inv hclnt₂ hstate).mp hcontained

end

theorem Harmless.lawful (h : s.Harmless poll) (hinv : Inv s) (hpromised : s.Promised poll) :
    s.Lawful poll where
  toPromised := hpromised
  reads := fun fd hfd clnt hclnt =>
    (ClientSocket.readReturns_iff ((hinv.registered hclnt).port_mem hinv)).mpr
      (h.reads fd hfd clnt hclnt)
  writes := h.writes

/-- A pass returns exactly when its events are harmless. -/
theorem runOnce_ok_iff (hports : s.config.PortsParsed) (hinv : Inv s) (hsettled : Settled s)
    (hpromised : s.Promised poll) :
    (∃ s', (runOnce poll).run s = (.ok (), s')) ↔ s.Harmless poll := by
  constructor
  · rintro ⟨s', hrun⟩
    obtain ⟨fds, hfds⟩ := hpromised.selected hinv hsettled
    have hselect : (liftM (Selector.select poll.select s.servSocks s.clntSocks) :
        ServerM (FdVector × FdVector)).run s = (.ok fds, s) := by
      rw [Method.run_lift, hfds.select]
    rw [runOnce, Method.run_get_bind, Method.run_bind_ok hselect] at hrun
    obtain ⟨_, s₁, hrun₁, hrun⟩ := Method.run_bind_eq_ok hrun
    obtain ⟨_, s₂, hrun₂, -⟩ := Method.run_bind_eq_ok hrun
    exact harmless_of_ok hports hinv hsettled hpromised hfds hrun₁ hrun₂
  · intro h
    obtain ⟨s', hrun, -⟩ := runOnce_step hports hinv hsettled (h.lawful hinv hpromised)
    exact ⟨s', hrun⟩

theorem eachPass_lawful {polls : List Poll} (hports : s.config.PortsParsed) (hinv : Inv s)
    (hsettled : Settled s) (hpromised : EachPass Promised polls s)
    (h : EachPass Harmless polls s) : EachPass Lawful polls s := by
  induction polls generalizing s with
  | nil => trivial
  | cons poll rest ih =>
    have hlawful := h.1.lawful hinv hpromised.1
    refine ⟨hlawful, fun s' hrun => ?_⟩
    obtain ⟨s₁, hrun₁, hduring, hsettled₁⟩ := runOnce_step hports hinv hsettled hlawful
    obtain rfl : s' = s₁ := congrArg Prod.snd (hrun.symm.trans hrun₁)
    exact ih (hduring.config ▸ hports) hduring.inv hsettled₁ (hpromised.2 s' hrun) (h.2 s' hrun)

theorem harmless_of_run_ok {polls : List Poll} (hports : s.config.PortsParsed) (hinv : Inv s)
    (hsettled : Settled s) (hpromised : EachPass Promised polls s) {s' : Server}
    (hrun : (run polls).run s = (.ok (), s')) : EachPass Harmless polls s := by
  induction polls generalizing s with
  | nil => trivial
  | cons poll rest ih =>
    obtain ⟨_, s₁, hpass, hrest⟩ := Method.run_bind_eq_ok hrun
    have hharmless := (runOnce_ok_iff hports hinv hsettled hpromised.1).mp ⟨s₁, hpass⟩
    obtain ⟨s₂, hpass₂, hduring, hsettled₁⟩ :=
      runOnce_step hports hinv hsettled (hharmless.lawful hinv hpromised.1)
    obtain rfl : s₁ = s₂ := congrArg Prod.snd (hpass.symm.trans hpass₂)
    refine ⟨hharmless, fun s₂ hpass₂ => ?_⟩
    obtain rfl : s₁ = s₂ := congrArg Prod.snd (hpass.symm.trans hpass₂)
    exact ih (hduring.config ▸ hports) hduring.inv hsettled₁ (hpromised.2 s₁ hpass) hrest

end

/-- The server stays in its loop as long as every event of a client is harmless, and no longer.
Wherever it gets, an event is contained if and only if it is harmless. -/
theorem run_isolates (config : WebservConfig) (hports : config.PortsParsed) (socket : Nat → Int)
    (hsocket : ∀ port ∈ config.ports, InRange (socket port)) (polls : List Poll)
    (h : EachPass Promised polls (new config socket)) :
    ((∃ s, (run polls).run (new config socket) = (.ok (), s)) ↔
        EachPass Harmless polls (new config socket)) ∧
      ∀ s, (run polls).run (new config socket) = (.ok (), s) → ∀ poll, s.Promised poll →
        ∃ fds, Selector.select poll.select s.servSocks s.clntSocks = .ok fds ∧
          Isolates s poll fds := by
  have hinv : Inv (new config socket) := inv_new hsocket
  have hnew := settled_new config socket
  have hreaches : EachPass Harmless polls (new config socket) →
      ∃ s, (run polls).run (new config socket) = (.ok (), s) ∧ During (new config socket) s ∧
        Settled s := fun hharmless =>
    run_step hports hinv hnew (eachPass_lawful hports hinv hnew h hharmless)
  refine ⟨⟨fun ⟨s, hrun⟩ => harmless_of_run_ok hports hinv hnew h hrun, fun hharmless => ?_⟩, ?_⟩
  · obtain ⟨s, hrun, -⟩ := hreaches hharmless
    exact ⟨s, hrun⟩
  · intro s hrun poll hpromised
    obtain ⟨s', hrun', hduring, hsettled⟩ :=
      hreaches (harmless_of_run_ok hports hinv hnew h hrun)
    obtain rfl : s = s' := congrArg Prod.snd (hrun.symm.trans hrun')
    have hports' : s.config.PortsParsed := hduring.config ▸ hports
    obtain ⟨fds, hfds⟩ := hpromised.selected hduring.inv hsettled
    exact ⟨fds, hfds.select, isolates hports' hduring.inv hsettled hpromised hfds⟩

theorem promised_accept_and_read {poll : Poll} (h : poll.select = .ready ((∅ : FdSet).insert 4) ∅) :
    EachPass Promised [acceptPoll, poll] startedServer := by
  refine ⟨startedServer_lawful.toPromised, fun s' hrun => ⟨?_, fun _ _ => trivial⟩⟩
  obtain rfl : acceptedServer = s' := congrArg Prod.snd (runOnce_acceptPoll.symm.trans hrun)
  exact acceptedServer_promised h

theorem run_isolates_accept_and_read :
    ∃ s, (run [acceptPoll, readPoll]).run (new (oneServer 80) fun _ => 3) = (.ok (), s) ∧
      ∀ poll, s.Promised poll →
        ∃ fds, Selector.select poll.select s.servSocks s.clntSocks = .ok fds ∧
          Isolates s poll fds :=
  ⟨_, rfl, (run_isolates (oneServer 80) oneServer_portsParsed (fun _ => 3) (fun _ _ => by decide)
    [acceptPoll, readPoll] (promised_accept_and_read rfl)).2 _ rfl⟩

/-- The connection 4 is reset by the client. -/
def resetPoll : Poll := { readPoll with recv := fun _ => none }

/-- One failed `recv` ends the loop. -/
theorem run_reset :
    EachPass Promised [acceptPoll, resetPoll] startedServer ∧
      (run [acceptPoll]).run startedServer = (.ok (), acceptedServer) ∧
      Selector.select resetPoll.select acceptedServer.servSocks acceptedServer.clntSocks =
        .ok ([4], []) ∧
      ¬ Contained acceptedServer 4 ((readEvent resetPoll 4).run acceptedServer) ∧
      ((run [acceptPoll, resetPoll]).run startedServer).1 =
        .error (.std (.runtimeError "recv() failed")) := by
  refine ⟨promised_accept_and_read rfl, rfl, rfl, fun h => ?_, rfl⟩
  have hfailed : ((readEvent resetPoll 4).run acceptedServer).1 =
      .error (.std (.runtimeError "recv() failed")) := rfl
  cases hfailed.symm.trans h.ok

end Server

end Webserv
