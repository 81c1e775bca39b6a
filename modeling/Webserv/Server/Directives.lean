import Webserv.Control.Entries
import Webserv.Response.Directives
import Webserv.Server.Safety

/-!
# Directives that no run depends on

Two servers whose configurations differ only in directives that nothing reads do the same in every
run, and so do two runs whose new parsers hold different configurations at first.
-/

namespace Webserv

open Text Selector Method

/-! ## The parser -/

/-- A request without the configuration of its server. -/
def HttpRequest.used (request : HttpRequest) : HttpRequest :=
  { request with serverConfig := default }

theorem HttpRequest.exists_of_used_eq {q r : HttpRequest} (h : q.used = r.used) :
    ∃ conf, r = { q with serverConfig := conf } :=
  ⟨r.serverConfig, congrArg (fun q => { q with serverConfig := r.serverConfig }) h.symm⟩

theorem WebservConfig.findServerConfig_related {config config' : WebservConfig}
    (h : config.used = config'.used) (port : Nat) (host : Str) :
    Except.Related (fun conf conf' => conf.used = conf'.used) (config.findServerConfig port host)
      (config'.findServerConfig port host) := by
  have hmap := (findServerConfig_used config port host).symm.trans
    ((congrArg (fun c => c.findServerConfig port host) h).trans
      (findServerConfig_used config' port host))
  rcases hfind : config.findServerConfig port host with e | conf
  · rcases hfind' : config'.findServerConfig port host with e' | conf'
    · rw [hfind, hfind'] at hmap
      cases hmap
      exact .error e
    · rw [hfind, hfind'] at hmap
      cases hmap
  · rcases hfind' : config'.findServerConfig port host with e' | conf'
    · rw [hfind, hfind'] at hmap
      cases hmap
    · rw [hfind, hfind'] at hmap
      exact .ok (Except.ok.inj hmap)

namespace HttpRequestParser

/-- A parser without the configuration that it finds. -/
def used (p : HttpRequestParser) : HttpRequestParser := { p with servConfig := default }

theorem exists_of_used_eq {p q : HttpRequestParser} (h : p.used = q.used) :
    ∃ conf, q = { p with servConfig := conf } :=
  ⟨q.servConfig, congrArg (fun r => { r with servConfig := q.servConfig }) h.symm⟩

def Alike (p q : HttpRequestParser) : Prop := p.used = q.used

/-- An assignment of something else. -/
theorem modify_related {f : HttpRequestParser → HttpRequestParser}
    (hf : ∀ p, (f p).used = f p.used) :
    Related Alike (· = ·) (modify f : ParserM PUnit) (modify f) :=
  .modify fun p q h => (hf p).trans ((congrArg f h).trans (hf q).symm)

theorem changeStatus_related (nextStatus : ParseStatus) :
    Related Alike (· = ·) (changeStatus nextStatus) (changeStatus nextStatus) :=
  modify_related fun _ => rfl

theorem clear_related : Related Alike (· = ·) clear clear :=
  Related.seq (modify_related fun _ => rfl) fun _ _ => changeStatus_related .header

theorem clearStep_related : Related Alike (· = ·) clearStep clearStep := by
  refine Related.get.bind fun p q h => ?_
  obtain ⟨conf, rfl⟩ := exists_of_used_eq h
  exact .ite Iff.rfl clear_related (.pure rfl)

theorem parseRequestHeader_related (unparsedStr : Str) :
    Related Alike (· = ·) (parseRequestHeader unparsedStr) (parseRequestHeader unparsedStr) := by
  refine (Related.lift (.of_eq rfl)).bind fun unparsedHeader _ h => ?_
  subst h
  refine (Related.lift (.of_eq rfl)).bind fun header _ h => ?_
  subst h
  exact .ite Iff.rfl ((changeStatus_related _).seq fun _ _ => .pure rfl)
    ((changeStatus_related _).seq fun _ _ => .pure rfl)

theorem headerStep_related {config config' : WebservConfig} (hconfig : config.used = config'.used)
    (unparsedStr : Str) (port : Nat) :
    Related Alike (· = ·) (headerStep unparsedStr port config)
      (headerStep unparsedStr port config') := by
  refine Related.get.bind fun p q h => ?_
  obtain ⟨conf, rfl⟩ := exists_of_used_eq h
  refine .ite Iff.rfl ?_ (.pure rfl)
  refine (parseRequestHeader_related unparsedStr).bind fun header _ h => ?_
  subst h
  refine Related.seq (modify_related fun _ => rfl) fun _ _ => ?_
  refine (Related.lift (WebservConfig.findServerConfig_related hconfig port _)).bind
    fun conf conf' _ => ?_
  exact .modify fun _ _ h => h

theorem parseBody_related (unparsedStr : Str) (contentLength : Nat) :
    Related Alike (· = ·) (parseBody unparsedStr contentLength)
      (parseBody unparsedStr contentLength) := by
  refine (Related.lift (.of_eq rfl)).bind fun unparsedBody _ h => ?_
  subst h
  refine (Related.lift (.of_eq rfl)).bind fun body _ h => ?_
  subst h
  exact (changeStatus_related .done).seq fun _ _ => .pure rfl

theorem parseChunkedBody_related (unparsedStr : Str) :
    Related Alike (· = ·) (parseChunkedBody unparsedStr) (parseChunkedBody unparsedStr) := by
  refine (Related.lift (.of_eq rfl)).bind fun body _ h => ?_
  subst h
  exact (changeStatus_related .done).seq fun _ _ => .pure rfl

theorem bodyStep_related (unparsedStr : Str) :
    Related Alike (· = ·) (bodyStep unparsedStr) (bodyStep unparsedStr) := by
  refine Related.get.bind fun p q h => ?_
  obtain ⟨conf, rfl⟩ := exists_of_used_eq h
  refine .ite Iff.rfl ?_ (.pure rfl)
  refine (Related.lift (.of_eq rfl)).bind fun contentLength _ h => ?_
  subst h
  refine (parseBody_related unparsedStr contentLength).bind fun body _ h => ?_
  subst h
  exact modify_related fun _ => rfl

theorem chunkedStep_related (unparsedStr : Str) :
    Related Alike (· = ·) (chunkedStep unparsedStr) (chunkedStep unparsedStr) := by
  have hthrow (e : Exn) : Related Alike (· = ·) (throw e : ParserM Unit) (throw e) := .throw e
  refine Related.get.bind fun p q h => ?_
  obtain ⟨conf, rfl⟩ := exists_of_used_eq h
  refine .ite Iff.rfl ?_ (.pure rfl)
  refine Related.seq (modify_related fun _ => rfl) fun _ _ => ?_
  refine .ite Iff.rfl ((hthrow _).seq fun _ _ => ?_) ?_
  all_goals
    refine (Related.lift (.of_eq rfl)).bind fun headerEnd _ h => ?_
    subst h
    refine .ite Iff.rfl ?_ (.pure rfl)
    refine (Related.lift (.of_eq rfl)).bind fun unparsedBody _ h => ?_
    subst h
    refine (parseChunkedBody_related unparsedBody).bind fun body _ h => ?_
    subst h
    exact modify_related fun _ => rfl

theorem parse_related {config config' : WebservConfig} (hconfig : config.used = config'.used)
    {p q : HttpRequestParser} (h : p.used = q.used) (unparsedStr : Str) (port : Nat) :
    (p.parse unparsedStr port config).used = (q.parse unparsedStr port config').used := by
  have htry : Related Alike (· = ·) (parseTry unparsedStr port config)
      (parseTry unparsedStr port config') := by
    refine clearStep_related.seq fun _ _ => ?_
    refine (headerStep_related hconfig unparsedStr port).seq fun _ _ => ?_
    exact (bodyStep_related unparsedStr).seq fun _ _ => chunkedStep_related unparsedStr
  obtain ⟨hend, halike⟩ := htry p q h
  rw [parse, parse]
  rcases hrun : (parseTry unparsedStr port config).run p with ⟨e | u, p'⟩
  all_goals
    rcases hrun' : (parseTry unparsedStr port config').run q with ⟨e' | u', q'⟩
    all_goals rw [hrun, hrun'] at hend halike
  · cases hend
    exact congrArg (fun r => { r with parseStatus := .error, errorCode := errorStatus e }) halike
  · cases hend
  · cases hend
  · exact halike

end HttpRequestParser

/-! ## The client -/

namespace ClientSocket

open HttpRequestParser (parse_related)

/-- A client without the configurations in its parser and its request. -/
def used (clnt : ClientSocket) : ClientSocket :=
  { clnt with
    requestParser := clnt.requestParser.used
    currentRequest := clnt.currentRequest.map HttpRequest.used }

def Alike (c d : ClientSocket) : Prop := c.used = d.used

theorem modify_related {f : ClientSocket → ClientSocket} (hf : ∀ c, (f c).used = f c.used) :
    Related Alike (· = ·) (modify f : ClientM PUnit) (modify f) :=
  .modify fun c d h => (hf c).trans ((congrArg f h).trans (hf d).symm)

theorem Alike.finished {c d : ClientSocket} (h : Alike c d) :
    d.requestParser.finished = c.requestParser.finished :=
  congrArg (fun r => r.requestParser.finished) h.symm

theorem Alike.errorOccured {c d : ClientSocket} (h : Alike c d) :
    d.requestParser.errorOccured = c.requestParser.errorOccured :=
  congrArg (fun r => r.requestParser.errorOccured) h.symm

theorem responseTo_found {config : WebservConfig} {port : Nat} {request : HttpRequest}
    {conf : ServerConfig} (h : config.findServerConfig port request.header.host = .ok conf)
    (os : Os) :
    responseTo os port config request =
      ((HttpResponseBuilder.build os (HttpRequestConverter.toDTO request).used).run
        (.new (ConfigConverter.toDTO conf.used))).1 := by
  have hconf : ConfigConverter.toDTO conf.used = (ConfigConverter.toDTO conf).used := rfl
  rw [responseTo, h, hconf, HttpResponseBuilder.build_used]
  rfl

theorem responseTo_missing {config : WebservConfig} {port : Nat} {request : HttpRequest} {e : Exn}
    (h : config.findServerConfig port request.header.host = .error e) (os : Os) :
    responseTo os port config request = .error (.std e) := by
  rw [responseTo, h]
  rfl

/-- The response does not depend on them either. -/
theorem responseTo_congr {config config' : WebservConfig} (hconfig : config.used = config'.used)
    {request request' : HttpRequest} (h : request.used = request'.used) (os : Os) (port : Nat) :
    responseTo os port config request = responseTo os port config' request' := by
  have hheader : request'.header = request.header := by
    obtain ⟨serverConfig, rfl⟩ := HttpRequest.exists_of_used_eq h
    rfl
  have hdto : (HttpRequestConverter.toDTO request').used =
      (HttpRequestConverter.toDTO request).used := by
    obtain ⟨serverConfig, rfl⟩ := HttpRequest.exists_of_used_eq h
    rfl
  have hfind := WebservConfig.findServerConfig_related hconfig port request.header.host
  rcases hconf : config.findServerConfig port request.header.host with e | conf
  all_goals
    rcases hconf' : config'.findServerConfig port request.header.host with e' | conf'
    all_goals
      rw [hconf, hconf'] at hfind
      rw [← hheader] at hconf'
  · cases hfind
    rw [responseTo_missing hconf, responseTo_missing hconf']
  · cases hfind
  · cases hfind
  · cases hfind with
    | ok hused => rw [responseTo_found hconf, responseTo_found hconf', hdto, hused]

theorem exists_of_used_eq {c d : ClientSocket} (h : c.used = d.used) :
    ∃ conf request, request.map HttpRequest.used = c.currentRequest.map HttpRequest.used ∧
      d = { c with
        requestParser := { c.requestParser with servConfig := conf }
        currentRequest := request } := by
  have hparser : c.used.requestParser = d.used.requestParser := congrArg requestParser h
  have hrequest : c.used.currentRequest = d.used.currentRequest := congrArg currentRequest h
  obtain ⟨conf, hconf⟩ := HttpRequestParser.exists_of_used_eq hparser
  refine ⟨conf, d.currentRequest, hrequest.symm, ?_⟩
  rw [← hconf]
  exact congrArg (fun r => { r with
    requestParser := d.requestParser, currentRequest := d.currentRequest }) h.symm

variable {config config' : WebservConfig} (hconfig : config.used = config'.used)

include hconfig in
theorem generateRequest_related (bytes : Str) :
    Related Alike (· = ·) (generateRequest bytes config) (generateRequest bytes config') := by
  refine Related.seq (.modify fun c d h => ?_) fun _ _ => ?_
  · obtain ⟨conf, request, hrequest, rfl⟩ := exists_of_used_eq h
    have hparser : HttpRequestParser.Alike c.requestParser
        { c.requestParser with servConfig := conf } := rfl
    rw [Alike, used, used, parse_related hconfig hparser, hrequest]
  · refine Related.get.bind fun c d h => ?_
    rw [h.finished, h.errorOccured]
    exact .ite Iff.rfl (modify_related fun _ => rfl) (.pure rfl)

include hconfig in
theorem generateResponse_related (os : Os) :
    Related Alike (· = ·) (generateResponse os config) (generateResponse os config') := by
  refine Related.get.bind fun c d h => ?_
  obtain ⟨conf, request, hrequest, rfl⟩ := exists_of_used_eq h
  dsimp only
  cases hcurrent : c.currentRequest with
  | none =>
    rw [hcurrent] at hrequest
    rw [Option.map_eq_none_iff.mp hrequest]
    exact .throw _
  | some r =>
    rw [hcurrent] at hrequest
    obtain ⟨r', rfl, hused⟩ := Option.map_eq_some_iff.mp hrequest
    refine (Related.lift (.of_eq (responseTo_congr hconfig hused.symm os c.port))).bind
      fun response _ h => ?_
    subst h
    exact modify_related fun _ => rfl

include hconfig in
theorem handleReadEvent_related (received : Option Str) (os : Os) :
    Related Alike (· = ·) (handleReadEvent received os config)
      (handleReadEvent received os config') := by
  have hrecv : Related Alike (· = ·) (recvFromClient received) (recvFromClient received) := by
    cases received with
    | none => exact .throw _
    | some bytes => exact .pure rfl
  refine hrecv.bind fun bytes _ h => ?_
  subst h
  refine .ite Iff.rfl (modify_related fun _ => rfl) ?_
  refine (generateRequest_related hconfig bytes).seq fun _ _ => ?_
  refine Related.get.bind fun c d h => ?_
  rw [h.finished, h.errorOccured]
  refine .ite Iff.rfl ?_ (.pure rfl)
  refine (generateResponse_related hconfig os).seq fun _ _ => ?_
  exact modify_related fun _ => rfl

omit hconfig

theorem handleWriteEvent_related (send : Send) :
    Related Alike (· = ·) (handleWriteEvent send) (handleWriteEvent send) := by
  have hthrow (e : Raised) : Related Alike (· = ·) (throw e : ClientM Unit) (throw e) := .throw e
  have hsend : Related Alike (· = ·) (sendResponse send) (sendResponse send) := by
    refine Related.get.bind fun c d h => ?_
    obtain ⟨conf, request, -, rfl⟩ := exists_of_used_eq h
    dsimp only
    cases c.currentResponse with
    | none => exact .throw _
    | some response =>
      cases send with
      | failed => exact .throw _
      | sigpipe => exact .throw _
      | sent size =>
        refine .ite Iff.rfl ((hthrow _).seq fun _ _ => ?_) ?_
        all_goals exact modify_related fun _ => rfl
  exact hsend.seq fun _ _ => modify_related fun _ => rfl

end ClientSocket

/-! ## The event loop -/

/-- The system calls of a pass, without what a new parser holds. -/
def Poll.used (poll : Poll) : Poll := { poll with fresh := default }

theorem Poll.exists_of_used_eq {poll poll' : Poll} (h : poll.used = poll'.used) :
    ∃ fresh, poll' = { poll with fresh := fresh } :=
  ⟨poll'.fresh, congrArg (fun p => { p with fresh := poll'.fresh }) h.symm⟩

namespace Selector

theorem setClients_used (entries : List (Int × Option ClientSocket)) (readfds writefds : FdSet) :
    setClients (entries.map fun e => (e.1, e.2.map ClientSocket.used)) readfds writefds =
      setClients entries readfds writefds := by
  induction entries generalizing readfds writefds with
  | nil => rfl
  | cons e rest ih =>
    obtain ⟨fd, clnt | clnt⟩ := e
    · rfl
    · have hread : clnt.used.isWaitingForRequest = clnt.isWaitingForRequest := rfl
      have hwrite : clnt.used.canResponse = clnt.canResponse := rfl
      rw [List.map_cons, Option.map_some, setClients, setClients, hread, hwrite]
      simp only [ih]

theorem select_used (result : SelectResult) (servSocks : ServerSocketMap)
    (clntSocks : ClientSocketMap) :
    select result servSocks (clntSocks.map fun _ => Option.map ClientSocket.used) =
      select result servSocks clntSocks := by
  have hlast : lastFd (clntSocks.map fun _ => Option.map ClientSocket.used) =
      lastFd clntSocks := by
    rw [lastFd, lastFd, Std.ExtTreeMap.toList_map, List.getLast?_map]
    cases clntSocks.toList.getLast? <;> rfl
  rw [select, select, setFdset, setFdset, calcMaxFd, calcMaxFd, hlast, Std.ExtTreeMap.toList_map]
  simp only [setClients_used]

end Selector

namespace Server

def used (s : Server) : Server where
  config := s.config.used
  servSocks := s.servSocks
  clntSocks := s.clntSocks.map fun _ => Option.map ClientSocket.used

/-- Servers that differ in nothing that is read. -/
structure Alike (s t : Server) : Prop where
  config : s.config.used = t.config.used
  servSocks : s.servSocks = t.servSocks
  clntSocks : s.clntSocks.map (fun _ => Option.map ClientSocket.used) =
    t.clntSocks.map fun _ => Option.map ClientSocket.used

section

variable {s t : Server}

theorem Alike.client (h : Alike s t) (fd : Int) :
    s.clntSocks[fd]?.map (Option.map ClientSocket.used) =
      t.clntSocks[fd]?.map (Option.map ClientSocket.used) := by
  have hmap := congrArg (fun m : ClientSocketMap => m[fd]?) h.clntSocks
  simpa only [Std.ExtTreeMap.getElem?_map] using hmap

theorem Alike.insert (h : Alike s t) (fd : Int) {clnt clnt' : Option ClientSocket}
    (hclnt : clnt.map ClientSocket.used = clnt'.map ClientSocket.used) :
    Alike { s with clntSocks := s.clntSocks.insert fd clnt }
      { t with clntSocks := t.clntSocks.insert fd clnt' } := by
  refine ⟨h.config, h.servSocks, ?_⟩
  dsimp only
  rw [Entries.map_insert, Entries.map_insert, h.clntSocks, hclnt]

theorem Alike.erase (h : Alike s t) (fd : Int) :
    Alike (s.withoutClient fd) (t.withoutClient fd) := by
  refine ⟨h.config, h.servSocks, ?_⟩
  rw [withoutClient, withoutClient]
  dsimp only
  rw [Entries.map_erase, Entries.map_erase, h.clntSocks]

end

theorem atClient_related (fd : Int) {x y : ClientM Unit}
    (hxy : Related ClientSocket.Alike (· = ·) x y) :
    Related Alike (· = ·) (atClient fd x) (atClient fd y) := by
  refine Related.get.bind fun s t h => ?_
  have hclient := h.client fd
  rcases hs : s.clntSocks[fd]? with _ | _ | clnt
  all_goals
    rcases ht : t.clntSocks[fd]? with _ | _ | clnt'
    all_goals rw [hs, ht] at hclient
  · exact Related.seq (.modify fun s t h => h.insert fd rfl) fun _ _ => .throw _
  · cases hclient
  · cases hclient
  · cases hclient
  · exact .throw _
  · cases Option.some.inj hclient
  · cases hclient
  · cases Option.some.inj hclient
  · have hused : ClientSocket.Alike clnt clnt' := Option.some.inj (Option.some.inj hclient)
    exact .zoom (fun _ _ _ => hused)
      (fun c d s t hcd h => h.insert fd (congrArg some (hcd : c.used = d.used))) hxy

theorem acceptConnection_related (sock : ServerSocket) (poll : Poll) (fresh : ServerConfig) :
    Except.Related ClientSocket.Alike (sock.acceptConnection poll)
      (sock.acceptConnection { poll with fresh := fresh }) := by
  rw [ServerSocket.acceptConnection, ServerSocket.acceptConnection]
  dsimp only
  cases poll.accept sock.fd with
  | none => exact .error _
  | some newSocket =>
    dsimp only
    split
    · exact .ok rfl
    · exact .error _

section

variable {poll poll' : Poll} (hpoll : poll.used = poll'.used)

include hpoll

theorem readEvent_related (fd : Int) :
    Related Alike (· = ·) (readEvent poll fd) (readEvent poll' fd) := by
  obtain ⟨fresh, rfl⟩ := Poll.exists_of_used_eq hpoll
  refine Related.get.bind fun s t h => ?_
  rw [← h.servSocks]
  cases s.servSocks[fd]? with
  | none => exact atClient_related fd (ClientSocket.handleReadEvent_related h.config _ _)
  | some servSock =>
    refine (Related.lift (acceptConnection_related servSock poll fresh)).bind fun c d hcd => ?_
    have hfd : d.fd = c.fd := by
      obtain ⟨_, _, -, rfl⟩ := ClientSocket.exists_of_used_eq hcd
      rfl
    refine .modify fun s t h => ?_
    rw [hfd]
    exact h.insert c.fd (congrArg some (hcd : c.used = d.used))

theorem writeEvent_related (fd : Int) :
    Related Alike (· = ·) (writeEvent poll fd) (writeEvent poll' fd) := by
  obtain ⟨fresh, rfl⟩ := Poll.exists_of_used_eq hpoll
  exact atClient_related fd (ClientSocket.handleWriteEvent_related _)

theorem handleReadEvent_related (readableFds : FdVector) :
    Related Alike (· = ·) (handleReadEvent poll readableFds) (handleReadEvent poll' readableFds) :=
  .forEach_same (readEvent_related hpoll) readableFds

theorem handleWriteEvent_related (writableFds : FdVector) :
    Related Alike (· = ·) (handleWriteEvent poll writableFds)
      (handleWriteEvent poll' writableFds) :=
  .forEach_same (writeEvent_related hpoll) writableFds

omit hpoll

theorem destroyEntry_related {entry entry' : Int × Option ClientSocket}
    (h : (entry.1, entry.2.map ClientSocket.used) = (entry'.1, entry'.2.map ClientSocket.used)) :
    Related Alike (· = ·) (destroyEntry entry) (destroyEntry entry') := by
  obtain ⟨fd, _ | clnt⟩ := entry
  all_goals
    obtain ⟨fd', _ | clnt'⟩ := entry'
    all_goals obtain ⟨rfl, hclnt⟩ := Prod.mk.inj h
  · exact .throw _
  · cases hclnt
  · cases hclnt
  · have hclose : clnt'.shouldClose = clnt.shouldClose := by
      obtain ⟨_, _, -, rfl⟩ := ClientSocket.exists_of_used_eq (Option.some.inj hclnt)
      rfl
    rw [destroyEntry, destroyEntry]
    dsimp only
    rw [hclose]
    exact .ite Iff.rfl (.modify fun s t h => h.erase _) (.pure rfl)

theorem destroyClient_related : Related Alike (· = ·) destroyClient destroyClient := by
  refine Related.get.bind fun s t h => ?_
  have hentries := congrArg Std.ExtTreeMap.toList h.clntSocks
  rw [Std.ExtTreeMap.toList_map, Std.ExtTreeMap.toList_map, ← List.forall₂_eq_eq_eq] at hentries
  exact .forEach (List.forall₂_map_right_iff.mp (List.forall₂_map_left_iff.mp hentries))
    fun _ _ h => destroyEntry_related h

include hpoll

/-- One pass. -/
theorem runOnce_related : Related Alike (· = ·) (runOnce poll) (runOnce poll') := by
  have hresult : poll'.select = poll.select := by
    obtain ⟨fresh, rfl⟩ := Poll.exists_of_used_eq hpoll
    rfl
  refine Related.get.bind fun s t h => ?_
  have hselect : select poll.select s.servSocks s.clntSocks =
      select poll'.select t.servSocks t.clntSocks := by
    rw [hresult, ← select_used, h.clntSocks, select_used, h.servSocks]
  refine (Related.lift (.of_eq hselect)).bind fun fds _ h => ?_
  subst h
  refine (handleReadEvent_related hpoll fds.1).seq fun _ _ => ?_
  exact (handleWriteEvent_related hpoll fds.2).seq fun _ _ => destroyClient_related

end

/-- A run, pass by pass. -/
theorem run_related {polls polls' : List Poll}
    (h : List.Forall₂ (fun poll poll' => poll.used = poll'.used) polls polls') :
    Related Alike (· = ·) (run polls) (run polls') := by
  induction h with
  | nil => exact .pure rfl
  | cons hpoll _ ih => exact (runOnce_related hpoll).seq fun _ _ => ih

/-- The servers do the same, whatever `return`, `autoindex`, `client_body_size_limit` and the host
of `listen` are, and whatever a new parser holds in its configuration. -/
theorem run_used (config config' : WebservConfig) (hconfig : config.used = config'.used)
    (socket : Nat → Int) (polls polls' : List Poll)
    (hpolls : List.Forall₂ (fun poll poll' => poll.used = poll'.used) polls polls') :
    ((run polls).run (new config socket)).1 = ((run polls').run (new config' socket)).1 ∧
    ((run polls).run (new config socket)).2.servSocks =
      ((run polls').run (new config' socket)).2.servSocks ∧
    ∀ fd : Int,
      ((run polls).run (new config socket)).2.clntSocks[fd]?.map
          (Option.map ClientSocket.used) =
        ((run polls').run (new config' socket)).2.clntSocks[fd]?.map
          (Option.map ClientSocket.used) := by
  have hnew : Alike (new config socket) (new config' socket) := by
    have hports : config.used.ports = config'.used.ports := congrArg WebservConfig.ports hconfig
    exact ⟨hconfig,
      congrArg (fun ports : PortSet => insertServSocks socket ports.toList ∅) hports, rfl⟩
  obtain ⟨hend, halike⟩ := run_related hpolls _ _ hnew
  exact ⟨hend.eq, halike.servSocks, halike.client⟩

/-- A server with all the directives that are not used. -/
def adornedServer : ServerConfig :=
  { (default : ServerConfig) with
    port := 80
    host := lit "10.0.0.1"
    clientBodySizeLimit := 1
    locations := [{ (default : LocationConfig) with
      location := lit "/"
      redirect := .ofList [((301 : Int), lit "/moved")]
      autoindex := true }] }

theorem run_used_adorned :
    let polls := [acceptPoll, readPoll]
    let polls' := [{ acceptPoll with fresh := adornedServer }, readPoll]
    let config := WebservConfig.ofServConfs [adornedServer]
    let config' := WebservConfig.ofServConfs [adornedServer.used]
    ((run polls).run (new config fun _ => 3)).1 = ((run polls').run (new config' fun _ => 3)).1 ∧
    ((run polls).run (new config fun _ => 3)).2.servSocks =
      ((run polls').run (new config' fun _ => 3)).2.servSocks ∧
    ∀ fd : Int,
      ((run polls).run (new config fun _ => 3)).2.clntSocks[fd]?.map
          (Option.map ClientSocket.used) =
        ((run polls').run (new config' fun _ => 3)).2.clntSocks[fd]?.map
          (Option.map ClientSocket.used) :=
  run_used (.ofServConfs [adornedServer]) (.ofServConfs [adornedServer.used])
    (WebservConfig.used_ofServConfs rfl) (fun _ => 3) _ _ (.cons rfl (.cons rfl .nil))

end Server

end Webserv
