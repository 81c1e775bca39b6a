import Webserv.Control.Related
import Webserv.Response.Disclosure
import Webserv.Response.HeaderInjection
import Webserv.Server.Safety

/-!
# What a run can tell

Nothing that a peer sees depends on a file that is not published, unless it is a program that is
run for a request.  Two runs in which the file systems differ only in such files, and the programs
answer the same, are the same.
-/

namespace Webserv

open Text Method

/-- The builder finds the same published files for every server, and programs answer the same. -/
def Agree (config : WebservConfig) (os os' : Os) : Prop :=
  ∀ conf ∈ config.servConfs,
    HttpResponseBuilder.AgreesWith (ConfigConverter.toDTO conf) os os'

namespace ClientSocket

variable {config : WebservConfig} {os os' : Os}

theorem responseTo_agree (h : Agree config os os') (port : Nat) (request : HttpRequest) :
    responseTo os' port config request = responseTo os port config request := by
  rw [responseTo, responseTo]
  cases hfind : config.findServerConfig port request.header.host with
  | error e => rfl
  | ok conf => exact (h conf (WebservConfig.findServerConfig_mem hfind)).build

theorem handleReadEvent_agree (h : Agree config os os') (received : Option Str) :
    handleReadEvent received os' config = handleReadEvent received os config := by
  have hresponse : generateResponse os' config = generateResponse os config := by
    rw [generateResponse, generateResponse]
    simp only [responseTo_agree h]
  rw [handleReadEvent, handleReadEvent, hresponse]

end ClientSocket

/-- Two passes with the same system calls, in which the file systems differ only in files that
are not published, and programs answer the same. -/
structure Poll.Agrees (config : WebservConfig) (poll poll' : Poll) : Prop where
  calls : poll' = { poll with os := poll'.os }
  os : ∀ fd, Agree config (poll.os fd) (poll'.os fd)

namespace Server

/-- The same server, with this configuration. -/
def Same (config : WebservConfig) (s t : Server) : Prop := s = t ∧ s.config = config

section

variable {config : WebservConfig} {poll poll' : Poll}

theorem atClient_keeps (fd : Int) (x : ClientM Unit) : Keeps Server.config (atClient fd x) := by
  have hput : ∀ (clnt : ClientSocket) (s : Server), (s.withClient fd clnt).config = s.config :=
    fun _ _ => rfl
  refine Keeps.get.bind fun s => ?_
  rcases s.clntSocks[fd]? with _ | _ | clnt
  · exact Keeps.bind (Keeps.modify fun _ => rfl) fun _ => .throw _
  · exact .throw _
  · exact Keeps.zoom hput x

theorem acceptConnection_agree (hcalls : poll' = { poll with os := poll'.os })
    (sock : ServerSocket) : sock.acceptConnection poll' = sock.acceptConnection poll := by
  rw [hcalls]
  rfl

theorem readEvent_agree (h : poll.Agrees config poll') (fd : Int) :
    Related (Same config) (· = ·) (readEvent poll' fd) (readEvent poll fd) := by
  refine Related.get.bind fun s t hst => ?_
  obtain ⟨rfl, hconfig⟩ := hst
  have hrecv : poll'.recv fd = poll.recv fd := by rw [h.calls]
  cases s.servSocks[fd]? with
  | none =>
    dsimp only
    rw [hrecv, hconfig, ClientSocket.handleReadEvent_agree (h.os fd)]
    exact .of_keeps (atClient_keeps fd _) config
  | some servSock =>
    dsimp only
    rw [acceptConnection_agree h.calls]
    refine .of_keeps (Keeps.bind (Keeps.lift _) fun newClnt => ?_) config
    exact .modify fun _ => rfl

theorem writeEvent_agree (h : poll.Agrees config poll') (fd : Int) :
    Related (Same config) (· = ·) (writeEvent poll' fd) (writeEvent poll fd) := by
  have hsend : poll'.send fd = poll.send fd := by rw [h.calls]
  rw [writeEvent, writeEvent, hsend]
  exact .of_keeps (atClient_keeps fd _) config

theorem destroyEntry_keeps (entry : Int × Option ClientSocket) :
    Keeps Server.config (destroyEntry entry) := by
  obtain ⟨fd, _ | clnt⟩ := entry
  · exact .throw _
  · exact .ite (.modify fun _ => rfl) (.pure _)

/-- One pass. -/
theorem runOnce_agree (h : poll.Agrees config poll') :
    Related (Same config) (· = ·) (runOnce poll') (runOnce poll) := by
  have hselect : poll'.select = poll.select := by rw [h.calls]
  refine Related.get.bind fun s t hst => ?_
  obtain ⟨rfl, -⟩ := hst
  rw [hselect]
  refine (Related.lift (.of_eq rfl)).bind fun fds _ hfds => ?_
  subst hfds
  refine (Related.forEach_same (readEvent_agree h) fds.1).seq fun _ _ => ?_
  refine (Related.forEach_same (writeEvent_agree h) fds.2).seq fun _ _ => ?_
  refine Related.get.bind fun s t hst => ?_
  obtain ⟨rfl, -⟩ := hst
  exact .forEach_same (fun entry => .of_keeps (destroyEntry_keeps entry) config) _

theorem run_agree {polls polls' : List Poll}
    (h : List.Forall₂ (Poll.Agrees config) polls polls') :
    Related (Same config) (· = ·) (run polls') (run polls) := by
  induction h with
  | nil => exact .pure rfl
  | cons hpoll _ ih => exact (runOnce_agree hpoll).seq fun _ _ => ih

end

/-- Files that are neither listed in the directory of a location nor a configured error page, nor
run for a request, make no difference to any run. -/
theorem run_undisclosed (config : WebservConfig) (socket : Nat → Int) (polls polls' : List Poll)
    (h : List.Forall₂ (Poll.Agrees config) polls polls') :
    (run polls').run (new config socket) = (run polls).run (new config socket) := by
  have hstart : Same config (new config socket) (new config socket) := ⟨rfl, rfl⟩
  obtain ⟨hend, hsame, -⟩ := run_agree h _ _ hstart
  exact Prod.ext hend.eq hsame

/-- The system of `siteOs` with another file, which is not published. -/
def secretOs : Os :=
  { HttpResponseBuilder.siteOs with
    ifstream := fun path =>
      if path = lit "/etc/passwd" then some (lit "root:x:0:0")
      else HttpResponseBuilder.siteOs.ifstream path }

theorem agree_secretOs : Agree siteConfig HttpResponseBuilder.siteOs secretOs := by
  intro conf hconf
  obtain rfl := List.mem_singleton.mp hconf
  refine ⟨rfl, rfl, rfl, fun _ _ _ _ => rfl, fun path hpath => ⟨rfl, ?_, rfl⟩⟩
  refine if_neg fun hsecret => ?_
  cases hpath with
  | file cwd name l names hcwd hl hnames hname =>
    obtain rfl : lit "/srv" = cwd := Option.some.inj hcwd
    obtain rfl := List.mem_singleton.mp hl
    obtain rfl : [lit "index.html"] = names := Option.some.inj hnames
    have hfile : cStr (lit "/srv/" ++ name) = lit "/etc/passwd" := hsecret
    rw [cStr_append (by decide), List.mem_singleton.mp hname] at hfile
    exact absurd hfile (by decide)
  | page root httpStatus page hroot hpage =>
    have hnone : (∅ : Std.ExtTreeMap Int Str)[httpStatus]? = some page := hpage
    rw [Std.ExtTreeMap.getElem?_empty] at hnone
    cases hnone

theorem run_undisclosed_secret :
    (run [acceptPoll, { readPoll with os := fun _ => secretOs }]).run
        (new siteConfig fun _ => 3) =
      (run [acceptPoll, readPoll]).run (new siteConfig fun _ => 3) := by
  have hrefl : Agree siteConfig HttpResponseBuilder.siteOs HttpResponseBuilder.siteOs :=
    fun _ _ => ⟨rfl, rfl, rfl, fun _ _ _ _ => rfl, fun _ _ => ⟨rfl, rfl, rfl⟩⟩
  exact run_undisclosed siteConfig (fun _ => 3) _ _
    (.cons ⟨rfl, fun _ => hrefl⟩ (.cons ⟨rfl, fun _ => agree_secretOs⟩ .nil))

end Server

end Webserv
