import Webserv.Control.Temporal
import Webserv.Server.Passes
import Webserv.Server.ReceivedRequest

/-!
# Every request is answered

Endless runs of the event loop.  When `select` does not overlook a descriptor for ever, every
request that was read is answered, and a peer whose requests are each received whole, one after
the other, gets all of its answers in this order, whatever the other connections do meanwhile.
-/

namespace Webserv

open Text Selector HttpRequestParser Temporal
open HttpResponseBuilder (siteOs)

namespace Server

/-- An endless run in which the system calls keep their promises and no handler throws. -/
structure Execution (s₀ : Server) where
  polls : ℕ → Poll
  states : ℕ → Server
  start : states 0 = s₀
  lawful : ∀ n, (states n).Lawful (polls n)
  pass : ∀ n, (runOnce (polls n)).run (states n) = (.ok (), states (n + 1))

namespace Execution

variable {s₀ : Server} (ρ : Execution s₀)

/-- This client has this descriptor at pass `n`. -/
def Has (fd : Int) (clnt : ClientSocket) (n : ℕ) : Prop :=
  (ρ.states n).clntSocks[fd]? = some (some clnt)

/-- A client that waits to answer is reported as writable at some time. -/
def WriteFair (fd : Int) : Prop :=
  ∀ clnt, clnt.state = .write → ∀ n, (∀ m, n ≤ m → ρ.Has fd clnt m) →
    ∃ m, n ≤ m ∧ fd ∈ (ρ.polls m).writable

section

variable {ρ} {fd : Int} {clnt : ClientSocket}

theorem during (hports : s₀.config.PortsParsed) (hinv : Inv s₀) (hsettled : Settled s₀) (n : ℕ) :
    During s₀ (ρ.states n) ∧ Settled (ρ.states n) := by
  induction n with
  | zero =>
    rw [ρ.start]
    exact ⟨⟨hinv, rfl, rfl⟩, hsettled⟩
  | succ n ih =>
    obtain ⟨hduring, hsettled_n⟩ := ih
    obtain ⟨s', hrun, hduring', hsettled'⟩ :=
      runOnce_step (hduring.config ▸ hports) hduring.inv hsettled_n (ρ.lawful n)
    obtain rfl : s' = ρ.states (n + 1) := (Prod.mk.inj (hrun.symm.trans (ρ.pass n))).2
    exact ⟨⟨hduring'.inv, hduring'.config.trans hduring.config,
      hduring'.servSocks.trans hduring.servSocks⟩, hsettled'⟩

/-- A client that waits to answer does so at some time. -/
theorem delivers (hports : s₀.config.PortsParsed) (hinv : Inv s₀) (hsettled : Settled s₀)
    (hfair : ρ.WriteFair fd) (hstate : clnt.state = .write) {response : HttpResponse}
    (hresponse : clnt.currentResponse = some response) :
    LeadsTo (ρ.Has fd clnt) (ρ.Has fd (clnt.delivered response)) := by
  have hkeep : ∀ n, ρ.Has fd clnt n → ¬ fd ∈ (ρ.polls n).writable → ρ.Has fd clnt (n + 1) := by
    intro n hclnt hidle
    obtain ⟨hduring, hsettled_n⟩ := during (ρ := ρ) hports hinv hsettled n
    refine runOnce_still (hduring.config ▸ hports) hduring.inv hsettled_n (ρ.lawful n) (ρ.pass n)
      hclnt (fun hread => ?_) fun _ => hidle
    cases hstate.symm.trans hread
  refine (LeadsTo.of_fair hkeep (hfair clnt hstate)).trans (LeadsTo.next fun n => ?_)
  rintro ⟨hclnt, hwritable⟩
  obtain ⟨hduring, hsettled_n⟩ := during (ρ := ρ) hports hinv hsettled n
  exact runOnce_write (hduring.config ▸ hports) hduring.inv hsettled_n (ρ.lawful n) (ρ.pass n)
    hclnt hstate hwritable hresponse

/-- A receive that completes a request leaves a client that waits to answer it. -/
theorem reads (hports : s₀.config.PortsParsed) (hinv : Inv s₀) (hsettled : Settled s₀) {n : ℕ}
    (hclnt : ρ.Has fd clnt n) (hstate : clnt.state = .read)
    (hreadable : fd ∈ (ρ.polls n).readable) {bytes : Str} (hbytes : bytes ≠ [])
    (hrecv : (ρ.polls n).recv fd = some bytes)
    (hcompletes : ClientSocket.completes (clnt.fed bytes s₀.config).requestParser) :
    ∃ response, ClientSocket.responseTo ((ρ.polls n).os fd) clnt.port s₀.config
        (clnt.fed bytes s₀.config).requestParser.buildRequest = .ok response ∧
      ρ.Has fd ((clnt.fed bytes s₀.config).answered response) (n + 1) := by
  obtain ⟨hduring, hsettled_n⟩ := during (ρ := ρ) hports hinv hsettled n
  have hconfig : (ρ.states n).config = s₀.config := hduring.config
  obtain ⟨bytes', hrecv', hanswer⟩ := (ρ.lawful n).reads fd hreadable clnt hclnt
  obtain rfl : bytes = bytes' := Option.some.inj (hrecv.symm.trans hrecv')
  rw [hconfig] at hanswer
  obtain ⟨response, hresponse⟩ := hanswer hbytes hcompletes
  refine ⟨response, hresponse, ?_⟩
  rw [Has, runOnce_read (hconfig ▸ hports) hduring.inv hsettled_n (ρ.lawful n) (ρ.pass n) hclnt
    hstate hreadable, hrecv, hconfig,
    ClientSocket.handleReadEvent_answers hbytes hcompletes hresponse]
  rfl

end

end Execution

end Server

/-! ## A session -/

namespace ClientSocket

/-- How many responses were sent. -/
def sentCount (history : List Transfer) : Nat :=
  history.countP fun
    | .sent _ => true
    | .received _ => false

/-- Requests that were each answered before the next one was received. -/
def exchange (reqs : List PlainRequest) (responses : List HttpResponse) : List Transfer :=
  (reqs.zip responses).flatMap fun pair => [.received pair.1.text, .sent pair.2]

/-- The response is built from this request, with one of these systems. -/
def Answers (systems : Set Os) (config : WebservConfig) (port : Nat) (r : PlainRequest)
    (response : HttpResponse) : Prop :=
  ∃ os ∈ systems, ∃ servConfig, responseTo os port config (r.request servConfig) = .ok response

theorem sentCount_append (history history' : List Transfer) :
    sentCount (history ++ history') = sentCount history + sentCount history' :=
  List.countP_append

theorem sentCount_exchange {reqs : List PlainRequest} {responses : List HttpResponse}
    (h : reqs.length = responses.length) : sentCount (exchange reqs responses) = reqs.length := by
  induction reqs generalizing responses with
  | nil => rfl
  | cons r reqs ih =>
    obtain ⟨response, responses, rfl⟩ := List.exists_cons_of_length_eq_add_one h.symm
    have hlength : reqs.length = responses.length := by simpa using h
    have hcons : exchange (r :: reqs) (response :: responses) =
        [.received r.text, .sent response] ++ exchange reqs responses := rfl
    rw [hcons, sentCount_append, ih hlength, List.length_cons, Nat.add_comm]
    rfl

theorem exchange_concat {reqs : List PlainRequest} {responses : List HttpResponse}
    (h : reqs.length = responses.length) (r : PlainRequest) (response : HttpResponse) :
    exchange (reqs ++ [r]) (responses ++ [response]) =
      exchange reqs responses ++ [.received r.text, .sent response] := by
  rw [exchange, List.zip_append h, List.flatMap_append]
  rfl

/-- A request without a NUL, received as a whole by a client that waits for no chunk. -/
theorem Sound.fed_request {conf : ServerConfig} {config : WebservConfig} {clnt : ClientSocket}
    (h : Sound conf config clnt) (hport : clnt.port ∈ config.ports)
    (hidle : clnt.requestParser.parseStatus ≠ .chunkedBody) (r : PlainRequest)
    (hnul : 0 ∉ r.text) :
    ∃ servConfig, (clnt.fed r.text config).requestParser =
      report servConfig r.text (.accepted r.header r.body) := by
  obtain ⟨servConfig, hreport⟩ := h.fed_eq_report hport hidle r.text
  rw [cStr_eq_self hnul, r.verdict_text] at hreport
  exact ⟨_, hreport⟩

end ClientSocket

namespace Server

namespace Execution

open ClientSocket

variable {s₀ : Server}

/-- A peer that sends its next request when it has the answer to the last one, from pass `n` on.
Every request is received by one `recv`, and nothing with it.  `before` is what went over the
connection until then. -/
structure Sends (ρ : Execution s₀) (fd : Int) (n : ℕ) (before : List Transfer)
    (reqs : List PlainRequest) : Prop where
  recv : ∀ m, n ≤ m → ∀ clnt, ρ.Has fd clnt m → clnt.state = .read → fd ∈ (ρ.polls m).readable →
    ∀ r, reqs[sentCount clnt.history - sentCount before]? = some r →
      (ρ.polls m).recv fd = some r.text
  ready : ∀ m, n ≤ m → ∀ clnt, clnt.state = .read →
    (reqs[sentCount clnt.history - sentCount before]?).isSome →
    (∀ k, m ≤ k → ρ.Has fd clnt k) → ∃ k, m ≤ k ∧ fd ∈ (ρ.polls k).readable

/-- What the builder finds when it answers on this connection. -/
def systems (ρ : Execution s₀) (fd : Int) : Set Os := {os | ∃ m, (ρ.polls m).os fd = os}

/-- The client when the peer has all the answers to these requests. -/
def Served (ρ : Execution s₀) (fd : Int) (clnt : ClientSocket) (reqs : List PlainRequest)
    (m : ℕ) : Prop :=
  ∃ clnt' responses, ρ.Has fd clnt' m ∧ clnt'.state = .read ∧ clnt'.port = clnt.port ∧
    clnt'.requestParser.parseStatus ≠ .chunkedBody ∧
    clnt'.history = clnt.history ++ exchange reqs responses ∧
    List.Forall₂ (Answers (ρ.systems fd) s₀.config clnt.port) reqs responses

section

variable {ρ : Execution s₀} {fd : Int} {clnt : ClientSocket}

/-- A client that waits for a request is ready at some time, if its peer sends one. -/
theorem receives (hports : s₀.config.PortsParsed) (hinv : Inv s₀) (hsettled : Settled s₀)
    (hstate : clnt.state = .read) {n : ℕ}
    (hready : ∀ m, n ≤ m → (∀ k, m ≤ k → ρ.Has fd clnt k) →
      ∃ k, m ≤ k ∧ fd ∈ (ρ.polls k).readable) {m : ℕ} (hm : n ≤ m) (hclnt : ρ.Has fd clnt m) :
    ∃ k, m ≤ k ∧ ρ.Has fd clnt k ∧ fd ∈ (ρ.polls k).readable := by
  have hkeep : ∀ k, n ≤ k ∧ ρ.Has fd clnt k → ¬ fd ∈ (ρ.polls k).readable →
      n ≤ k + 1 ∧ ρ.Has fd clnt (k + 1) := by
    rintro k ⟨hk, hclnt⟩ hidle
    obtain ⟨hduring, hsettled_k⟩ := during (ρ := ρ) hports hinv hsettled k
    refine ⟨Nat.le_succ_of_le hk, runOnce_still (hduring.config ▸ hports) hduring.inv hsettled_k
      (ρ.lawful k) (ρ.pass k) hclnt (fun _ => hidle) fun hwrite => ?_⟩
    cases hstate.symm.trans hwrite
  obtain ⟨k, hk, ⟨-, hhas⟩, hreadable⟩ := LeadsTo.of_fair hkeep
    (fun k hall => by
      obtain ⟨j, hj, hreadable⟩ :=
        hready k (hall k (Nat.le_refl k)).1 fun j hj => (hall j hj).2
      exact ⟨j, hj, hreadable⟩) m ⟨hm, hclnt⟩
  exact ⟨k, hk, hhas, hreadable⟩

/-- One more request is answered. -/
theorem Served.next (hports : s₀.config.PortsParsed) (hinv : Inv s₀) (hsettled : Settled s₀)
    (hfair : ρ.WriteFair fd) {n : ℕ} {reqs : List PlainRequest}
    (hsends : ρ.Sends fd n clnt.history reqs) {done rest : List PlainRequest} {r : PlainRequest}
    (hsplit : reqs = done ++ r :: rest) (hnul : 0 ∉ r.text) :
    LeadsTo (fun m => n ≤ m ∧ ρ.Served fd clnt done m)
      (fun m => n ≤ m ∧ ρ.Served fd clnt (done ++ [r]) m) := by
  rintro m ⟨hm, clnt', responses, hclnt', hstate', hport', hidle', hhistory, hanswers⟩
  have hcount : sentCount clnt'.history - sentCount clnt.history = done.length := by
    rw [hhistory, sentCount_append, sentCount_exchange hanswers.length_eq, Nat.add_sub_cancel_left]
  have hnext : reqs[sentCount clnt'.history - sentCount clnt.history]? = some r := by
    rw [hcount, hsplit, List.getElem?_append_right (Nat.le_refl _), Nat.sub_self]
    rfl
  obtain ⟨k, hk, hhas, hreadable⟩ := receives hports hinv hsettled hstate'
    (fun j hj => hsends.ready j hj clnt' hstate' (by rw [hnext]; rfl)) hm hclnt'
  have hrecv := hsends.recv k (hm.trans hk) clnt' hhas hstate' hreadable r hnext
  obtain ⟨hduring, -⟩ := during (ρ := ρ) hports hinv hsettled k
  have hconfig : (ρ.states k).config = s₀.config := hduring.config
  have hreg := hduring.inv.registered hhas
  obtain ⟨conf, hsound⟩ := hreg.sound
  rw [hconfig] at hsound
  obtain ⟨servConfig, hreport⟩ :=
    hsound.fed_request (hconfig ▸ hreg.port_mem hduring.inv) hidle' r hnul
  have hcompletes : completes (clnt'.fed r.text s₀.config).requestParser := by
    rw [hreport]
    exact Or.inl rfl
  have hrequest : (clnt'.fed r.text s₀.config).requestParser.buildRequest =
      r.request servConfig := by
    rw [hreport]
    rfl
  obtain ⟨response, hresponse, hanswered⟩ := reads hports hinv hsettled hhas hstate' hreadable
    (text_ne_nil r) hrecv hcompletes
  have hcurrent : ((clnt'.fed r.text s₀.config).answered response).currentResponse =
      some response := rfl
  obtain ⟨j, hj, hdelivered⟩ :=
    delivers hports hinv hsettled hfair rfl hcurrent (k + 1) hanswered
  refine ⟨j, by omega, by omega, _, responses ++ [response], hdelivered, rfl, hport', ?_, ?_, ?_⟩
  · change (clnt'.fed r.text s₀.config).requestParser.parseStatus ≠ .chunkedBody
    rw [hreport]
    change ParseStatus.done ≠ .chunkedBody
    decide
  · change clnt'.history ++ [.received r.text] ++ [.sent response] = _
    rw [exchange_concat hanswers.length_eq, hhistory, List.append_assoc, List.append_assoc]
    rfl
  · rw [hrequest, hport'] at hresponse
    exact List.rel_append hanswers (.cons ⟨_, ⟨k, rfl⟩, servConfig, hresponse⟩ .nil)

/-- All the requests of the peer are answered, one after the other. -/
theorem Served.all (hports : s₀.config.PortsParsed) (hinv : Inv s₀) (hsettled : Settled s₀)
    (hfair : ρ.WriteFair fd) {n : ℕ} {reqs : List PlainRequest}
    (hsends : ρ.Sends fd n clnt.history reqs) (hnul : ∀ r ∈ reqs, 0 ∉ r.text)
    (h : ρ.Served fd clnt [] n) : ∃ m, n ≤ m ∧ ρ.Served fd clnt reqs m := by
  have hnext : ∀ i, i < reqs.length →
      LeadsTo (fun m => n ≤ m ∧ ρ.Served fd clnt (reqs.take i) m)
        (fun m => n ≤ m ∧ ρ.Served fd clnt (reqs.take (i + 1)) m) := by
    intro i hi
    have hsplit : reqs = reqs.take i ++ reqs[i] :: reqs.drop (i + 1) := by
      rw [← List.drop_eq_getElem_cons hi, List.take_append_drop]
    rw [← List.take_append_getElem hi]
    exact Served.next hports hinv hsettled hfair hsends hsplit (hnul _ (List.getElem_mem hi))
  obtain ⟨m, -, hm, hserved⟩ := LeadsTo.chain hnext n ⟨Nat.le_refl n, h⟩
  rw [List.take_length] at hserved
  exact ⟨m, hm, hserved⟩

end

/-! ## A run with one request -/

/-- The states that the loop passes through. -/
def statesOf (polls : ℕ → Poll) (s₀ : Server) : ℕ → Server
  | 0 => s₀
  | n + 1 => ((runOnce (polls n)).run (statesOf polls s₀ n)).2

section

variable {polls : ℕ → Poll} (hports : s₀.config.PortsParsed) (hinv : Inv s₀)
  (hsettled : Settled s₀) (h : ∀ n, (statesOf polls s₀ n).Lawful (polls n))

include hports hinv hsettled h

theorem statesOf_during (n : ℕ) :
    During s₀ (statesOf polls s₀ n) ∧ Settled (statesOf polls s₀ n) := by
  induction n with
  | zero => exact ⟨⟨hinv, rfl, rfl⟩, hsettled⟩
  | succ n ih =>
    obtain ⟨hduring, hsettled_n⟩ := ih
    obtain ⟨s', hrun, hduring', hsettled'⟩ :=
      runOnce_step (hduring.config ▸ hports) hduring.inv hsettled_n (h n)
    rw [statesOf, hrun]
    exact ⟨⟨hduring'.inv, hduring'.config.trans hduring.config,
      hduring'.servSocks.trans hduring.servSocks⟩, hsettled'⟩

theorem statesOf_pass (n : ℕ) :
    (runOnce (polls n)).run (statesOf polls s₀ n) = (.ok (), statesOf polls s₀ (n + 1)) := by
  obtain ⟨hduring, hsettled_n⟩ := statesOf_during hports hinv hsettled h n
  obtain ⟨s', hrun, -⟩ := runOnce_step (hduring.config ▸ hports) hduring.inv hsettled_n (h n)
  rw [statesOf, hrun]

end

/-- The endless run with these polls. -/
def ofPolls (hports : s₀.config.PortsParsed) (hinv : Inv s₀) (hsettled : Settled s₀)
    (polls : ℕ → Poll) (h : ∀ n, (statesOf polls s₀ n).Lawful (polls n)) : Execution s₀ where
  polls := polls
  states := statesOf polls s₀
  start := rfl
  lawful := h
  pass := statesOf_pass hports hinv hsettled h

/-- The client that connects at first. -/
def firstClient : ClientSocket := .new (intOfSize 80) (sizeOfInt 4) default

/-- The server when the first client has connected. -/
def connectedServer (config : WebservConfig) : Server :=
  (new config fun _ => 3).withClient 4 firstClient

/-- The listening socket of the configuration is 3, and the first client connects there. -/
structure Connects (config : WebservConfig) : Prop where
  ports : config.PortsParsed
  lawful : (new config fun _ => 3).Lawful acceptPoll
  pass : (runOnce acceptPoll).run (new config fun _ => 3) = (.ok (), connectedServer config)

/-- This request arrives on the connection 4. -/
def requestPoll (r : PlainRequest) : Poll := { readPoll with recv := fun _ => some r.text }

/-- The connection 4 takes the response. -/
def writePoll (response : HttpResponse) : Poll :=
  { readPoll with
    select := .ready ∅ ((∅ : FdSet).insert 4)
    send := fun _ => .sent (HttpResponseSerializer.serialize response).size }

/-- One request is received and answered, then nothing happens. -/
def requestPolls (r : PlainRequest) (response : HttpResponse) : ℕ → Poll
  | 0 => acceptPoll
  | 1 => requestPoll r
  | 2 => writePoll response
  | _ + 3 => idlePoll

/-- The client when it holds the response. -/
def requestClient (config : WebservConfig) (r : PlainRequest) (response : HttpResponse) :
    ClientSocket :=
  (firstClient.fed r.text config).answered response

/-- The first request of the first client, and the response to it. -/
structure FirstRequest (config : WebservConfig) (r : PlainRequest) (response : HttpResponse) :
    Prop where
  completes : completes (firstClient.fed r.text config).requestParser
  response : responseTo siteOs firstClient.port config
    (firstClient.fed r.text config).requestParser.buildRequest = .ok response

theorem not_mem_empty (fd : Int) : fd ∉ (∅ : FdSet) := Std.ExtTreeSet.not_mem_empty

theorem mem_insert_self (fd : Int) : fd ∈ (∅ : FdSet).insert fd := Std.ExtTreeSet.mem_insert_self

theorem not_mem_readable_writePoll (response : HttpResponse) (fd : Int) :
    fd ∉ (writePoll response).readable := not_mem_empty fd

section

variable {config : WebservConfig} {r : PlainRequest} {response : HttpResponse}

theorem connectedServer_client (config : WebservConfig) :
    (connectedServer config).clntSocks[(4 : Int)]? = some (some firstClient) :=
  withClient_self _ _ _

theorem Connects.inv (h : Connects config) :
    Inv (connectedServer config) ∧ Settled (connectedServer config) := by
  obtain ⟨s, hrun, hduring, hsettled⟩ := runOnce_step (s := new config fun _ => 3) h.ports
    (inv_new fun _ _ => by decide) (settled_new _ _) h.lawful
  obtain rfl : connectedServer config = s := congrArg Prod.snd (h.pass.symm.trans hrun)
  exact ⟨hduring.inv, hsettled⟩

theorem Connects.requestPoll_lawful (h : Connects config) (hr : FirstRequest config r response) :
    (connectedServer config).Lawful (requestPoll r) := by
  have hserver : ∀ fd ∈ (requestPoll r).readable, fd ∉ (connectedServer config).servSocks := by
    intro fd hfd
    rw [eq_of_mem_insert hfd]
    exact (h.inv.1.registered (connectedServer_client config)).not_server
  refine ⟨⟨fun h => (nomatch h), fun fds => ?_, fun fd hfd hmem => absurd hmem (hserver fd hfd),
    fun fd hfd _ _ hmem => absurd hmem (hserver fd hfd)⟩, fun fd hfd clnt hclnt => ?_,
    fun fd hfd => absurd hfd (not_mem_empty fd)⟩
  · refine h.inv.1.ready_of_matching h.inv.2 ⟨fun fd hfd => Or.inr ?_, fun fd hfd => ?_⟩
    · rw [eq_of_mem_insert hfd]
      exact ⟨_, connectedServer_client config, rfl⟩
    · exact absurd hfd (not_mem_empty fd)
  · rw [eq_of_mem_insert hfd, connectedServer_client] at hclnt
    rw [← Option.some.inj (Option.some.inj hclnt)]
    exact ⟨_, rfl, fun _ _ => ⟨response, hr.response⟩⟩

/-- The server when the request is read. -/
theorem Connects.exists_answered (h : Connects config) (hr : FirstRequest config r response) :
    ∃ s, (runOnce (requestPoll r)).run (connectedServer config) = (.ok (), s) ∧ Inv s ∧
      Settled s ∧ s.clntSocks[(4 : Int)]? = some (some (requestClient config r response)) := by
  obtain ⟨s, hrun, hduring, hsettled⟩ :=
    runOnce_step (s := connectedServer config) h.ports h.inv.1 h.inv.2 (h.requestPoll_lawful hr)
  refine ⟨s, hrun, hduring.inv, hsettled, ?_⟩
  have hread := runOnce_read h.ports h.inv.1 h.inv.2 (h.requestPoll_lawful hr) hrun
    (connectedServer_client config) rfl (mem_insert_self 4)
  rw [hread]
  change ((ClientSocket.handleReadEvent (some r.text) siteOs config).run
    firstClient).2.unlessClosed.map some = _
  rw [handleReadEvent_answers (text_ne_nil r) hr.completes hr.response]
  rfl

theorem writePoll_lawful {s : Server} (hinv : Inv s) (hsettled : Settled s)
    (hclnt : s.clntSocks[(4 : Int)]? = some (some (requestClient config r response))) :
    s.Lawful (writePoll response) where
  select := fun h => nomatch h
  ready := by
    have hmatching : s.Matching (writePoll response) := by
      refine ⟨fun fd h => absurd h (not_mem_readable_writePoll response fd), fun fd hfd => ?_⟩
      rw [eq_of_mem_insert hfd]
      exact ⟨_, hclnt, rfl⟩
    exact fun _ => hinv.ready_of_matching hsettled hmatching
  accept := fun fd h => absurd h (not_mem_readable_writePoll response fd)
  distinct := fun fd h => absurd h (not_mem_readable_writePoll response fd)
  reads := fun fd h => absurd h (not_mem_readable_writePoll response fd)
  writes := by
    intro fd hfd clnt h response' hresponse'
    rw [eq_of_mem_insert hfd, hclnt] at h
    rw [← Option.some.inj (Option.some.inj h)] at hresponse'
    rw [← Option.some.inj (hresponse' : some response = some response')]
    rfl

end

/-- A run in which the connection 4 sends one request, gets the answer and is idle. -/
structure RequestRun (config : WebservConfig) (r : PlainRequest) (response : HttpResponse)
    (ρ : Execution (new config fun _ => 3)) : Prop where
  polls : ∀ n, ρ.polls n = requestPolls r response n
  first : ρ.Has 4 firstClient 1
  last : ∀ n, ρ.Has 4 ((requestClient config r response).delivered response) (n + 3)

section

variable {config : WebservConfig} {r : PlainRequest} {response : HttpResponse}

theorem Connects.exists_requestRun (h : Connects config) (hr : FirstRequest config r response) :
    ∃ ρ, RequestRun config r response ρ := by
  obtain ⟨s, hrun, hinv, hsettled, hclnt⟩ := h.exists_answered hr
  have hconnected :
      statesOf (requestPolls r response) (new config fun _ => 3) 1 = connectedServer config := by
    rw [statesOf, statesOf]
    exact congrArg Prod.snd h.pass
  have hanswered : statesOf (requestPolls r response) (new config fun _ => 3) 2 = s := by
    rw [statesOf, hconnected]
    exact congrArg Prod.snd hrun
  have hlawful : ∀ n, (statesOf (requestPolls r response) (new config fun _ => 3) n).Lawful
      (requestPolls r response n) := by
    intro n
    match n with
    | 0 => exact h.lawful
    | 1 => exact hconnected ▸ h.requestPoll_lawful hr
    | 2 => exact hanswered ▸ writePoll_lawful hinv hsettled hclnt
    | n + 3 => exact idle_lawful _
  have hports : (new config fun _ => 3).config.PortsParsed := h.ports
  have hstart : Inv (new config fun _ => 3) := inv_new fun _ _ => by decide
  have hsettled₀ : Settled (new config fun _ => 3) := settled_new _ _
  obtain ⟨ρ, hpolls, hstates⟩ : ∃ ρ : Execution (new config fun _ => 3),
      ρ.polls = requestPolls r response ∧
      ρ.states = statesOf (requestPolls r response) (new config fun _ => 3) :=
    ⟨ofPolls hports hstart hsettled₀ (requestPolls r response) hlawful, rfl, rfl⟩
  refine ⟨ρ, congrFun hpolls, ?_, fun n => ?_⟩
  · rw [Has, hstates, hconnected]
    exact connectedServer_client config
  · induction n with
    | zero =>
      obtain ⟨hd, hs⟩ := during (ρ := ρ) hports hstart hsettled₀ 2
      have hclnt₂ : ρ.Has 4 (requestClient config r response) 2 := by
        rw [Has, hstates, hanswered, hclnt]
      have hwritable : (4 : Int) ∈ (ρ.polls 2).writable := by
        rw [hpolls]
        exact mem_insert_self 4
      exact runOnce_write (hd.config ▸ hports) hd.inv hs (ρ.lawful 2) (ρ.pass 2) hclnt₂ rfl
        hwritable rfl
    | succ n ih =>
      obtain ⟨hd, hs⟩ := during (ρ := ρ) hports hstart hsettled₀ (n + 3)
      have hidle : ρ.polls (n + 3) = idlePoll := by
        rw [hpolls]
        rfl
      refine runOnce_still (hd.config ▸ hports) hd.inv hs (ρ.lawful (n + 3)) (ρ.pass (n + 3)) ih
        (fun _ => ?_) fun _ => ?_
      · rw [hidle]
        exact not_mem_empty 4
      · rw [hidle]
        exact not_mem_empty 4

variable {ρ : Execution (new config fun _ => 3)}

theorem RequestRun.writeFair (h : RequestRun config r response ρ) : ρ.WriteFair 4 := by
  intro clnt hwrite n hhas
  refine ⟨2, ?_, ?_⟩
  · by_contra hlate
    have heq := (h.last n).symm.trans (hhas (n + 3) (Nat.le_add_right n 3))
    rw [← Option.some.inj (Option.some.inj heq)] at hwrite
    cases hwrite
  · rw [h.polls]
    exact mem_insert_self 4

theorem RequestRun.readable (h : RequestRun config r response ρ) :
    (4 : Int) ∈ (ρ.polls 1).readable := by
  rw [h.polls]
  exact mem_insert_self 4

theorem RequestRun.recv (h : RequestRun config r response ρ) :
    (ρ.polls 1).recv 4 = some r.text := by
  rw [h.polls]
  rfl

/-- The system is the same in every pass. -/
theorem RequestRun.systems (h : RequestRun config r response ρ) :
    ∀ os ∈ ρ.systems 4, os = siteOs := by
  rintro os ⟨m, rfl⟩
  rw [h.polls]
  match m with
  | 0 => rfl
  | 1 => rfl
  | 2 => rfl
  | m + 3 => rfl

theorem RequestRun.sends (h : RequestRun config r response ρ) :
    ρ.Sends 4 1 firstClient.history [r] where
  recv := by
    intro m hm clnt _ _ hreadable r' hr
    have hr' : r' = r := List.mem_singleton.mp (List.mem_of_getElem? hr)
    rw [h.polls] at hreadable ⊢
    match m with
    | 1 => rw [hr']; rfl
    | 2 => exact absurd hreadable (not_mem_empty 4)
    | m + 3 => exact absurd hreadable (not_mem_empty 4)
  ready := by
    intro m hm clnt _ hsome hhas
    refine ⟨1, ?_, h.readable⟩
    by_contra hlate
    have heq := (h.last m).symm.trans (hhas (m + 3) (Nat.le_add_right m 3))
    rw [← Option.some.inj (Option.some.inj heq)] at hsome
    have hcount : sentCount ((requestClient config r response).delivered response).history = 1 :=
      rfl
    rw [hcount] at hsome
    cases hsome

end

/-- The server with one port and the request `postHi`. -/
theorem connects_oneServer : Connects (oneServer 80) where
  ports := oneServer_portsParsed
  lawful := startedServer_lawful
  pass := runOnce_acceptPoll

theorem firstRequest_postHi : ∃ response, FirstRequest (oneServer 80) postHi response :=
  ⟨_, by decide, rfl⟩

theorem exists_postRun : ∃ ρ response, RequestRun (oneServer 80) postHi response ρ := by
  obtain ⟨response, hr⟩ := firstRequest_postHi
  obtain ⟨ρ, h⟩ := connects_oneServer.exists_requestRun hr
  exact ⟨ρ, response, h⟩

/-! ## Requests are answered -/

/-- A request that is complete is answered at some time, with the response built from it. -/
theorem request_answered (config : WebservConfig) (hports : config.PortsParsed)
    (socket : Nat → Int) (hsocket : ∀ port ∈ config.ports, InRange (socket port))
    (ρ : Execution (new config socket)) (fd : Int) (hfair : ρ.WriteFair fd) (n : ℕ)
    (clnt : ClientSocket) (hclnt : ρ.Has fd clnt n) (hstate : clnt.state = .read)
    (hreadable : fd ∈ (ρ.polls n).readable) (bytes : Str) (hbytes : bytes ≠ [])
    (hrecv : (ρ.polls n).recv fd = some bytes)
    (hcompletes : ClientSocket.completes (clnt.fed bytes config).requestParser) :
    ∃ m, n < m ∧ ∃ clnt' response, ρ.Has fd clnt' m ∧ clnt'.state = .read ∧
      clnt'.history = clnt.history ++ [.received bytes, .sent response] ∧
      ClientSocket.responseTo ((ρ.polls n).os fd) clnt.port config
        (clnt.fed bytes config).requestParser.buildRequest = .ok response := by
  obtain ⟨response, hresponse, hanswered⟩ := reads hports (inv_new hsocket)
    (settled_new config socket) hclnt hstate hreadable hbytes hrecv hcompletes
  have hcurrent : ((clnt.fed bytes config).answered response).currentResponse =
      some response := rfl
  obtain ⟨m, hm, hdelivered⟩ := delivers hports (inv_new hsocket)
    (settled_new config socket) hfair rfl hcurrent (n + 1) hanswered
  exact ⟨m, hm, _, response, hdelivered, rfl, List.append_assoc .., hresponse⟩

theorem request_answered_post : ∃ ρ : Execution startedServer, ∃ m, 1 < m ∧
    ∃ clnt' response, ρ.Has 4 clnt' m ∧ clnt'.state = .read ∧
      clnt'.history = firstClient.history ++ [.received postHi.text, .sent response] ∧
      responseTo ((ρ.polls 1).os 4) firstClient.port (oneServer 80)
        (firstClient.fed postHi.text (oneServer 80)).requestParser.buildRequest = .ok response := by
  obtain ⟨ρ, response, h⟩ := exists_postRun
  exact ⟨ρ, request_answered (oneServer 80) oneServer_portsParsed (fun _ => 3)
    (fun _ _ => by decide) ρ 4 h.writeFair 1 firstClient h.first rfl h.readable postHi.text
    (text_ne_nil postHi) h.recv (by decide)⟩

/-- A peer that sends its requests one after the other gets all of its answers, in this order, if
every request is received whole and has no NUL. -/
theorem session_answered (config : WebservConfig) (hports : config.PortsParsed)
    (socket : Nat → Int) (hsocket : ∀ port ∈ config.ports, InRange (socket port))
    (ρ : Execution (new config socket)) (fd : Int) (hfair : ρ.WriteFair fd) (n : ℕ)
    (clnt : ClientSocket) (hclnt : ρ.Has fd clnt n) (hstate : clnt.state = .read)
    (hidle : clnt.requestParser.parseStatus ≠ .chunkedBody) (reqs : List PlainRequest)
    (hnul : ∀ r ∈ reqs, 0 ∉ r.text) (hsends : ρ.Sends fd n clnt.history reqs) :
    ∃ m, n ≤ m ∧ ∃ clnt' responses, ρ.Has fd clnt' m ∧ clnt'.state = .read ∧
      clnt'.history = clnt.history ++ exchange reqs responses ∧
      List.Forall₂ (Answers (ρ.systems fd) config clnt.port) reqs responses := by
  have hnone : ρ.Served fd clnt [] n :=
    ⟨clnt, [], hclnt, hstate, rfl, hidle, (List.append_nil _).symm, .nil⟩
  obtain ⟨m, hm, clnt', responses, hhas, hread, -, -, hhistory, hanswers⟩ :=
    Served.all hports (inv_new hsocket) (settled_new config socket) hfair hsends hnul hnone
  exact ⟨m, hm, clnt', responses, hhas, hread, hhistory, hanswers⟩

theorem session_answered_post : ∃ ρ : Execution startedServer, ∃ m, 1 ≤ m ∧
    ∃ clnt' responses, ρ.Has 4 clnt' m ∧ clnt'.state = .read ∧
      clnt'.history = firstClient.history ++ exchange [postHi] responses ∧
      List.Forall₂ (Answers (ρ.systems 4) (oneServer 80) firstClient.port) [postHi] responses := by
  obtain ⟨ρ, response, h⟩ := exists_postRun
  exact ⟨ρ, session_answered (oneServer 80) oneServer_portsParsed (fun _ => 3)
    (fun _ _ => by decide) ρ 4 h.writeFair 1 firstClient h.first rfl (by decide) [postHi]
    (by decide) h.sends⟩

end Execution

end Server

end Webserv
