import Webserv.Control.Pipes
import Webserv.Response.PipeRead

/-!
# The server and its script

Behind `fork` in `buildCGIResponse` two processes run at the same time and share two pipes.  The
server hands the whole body over before it reads, and reads once.  The script is any program of
one process that waits for nothing but its standard input and output.
-/

namespace Webserv

open Text Pipes

namespace CgiExchange

/-- `pipe_p2c_` and `pipe_c2p_` -/
inductive Pipe
  | p2c
  | c2p
  deriving DecidableEq, Repr

inductive Party
  | server
  | script
  deriving DecidableEq, Repr

instance : Finite Party := by
  refine Finite.of_surjective (fun b : Bool => if b then Party.server else .script) fun p => ?_
  cases p with
  | server => exact ⟨true, rfl⟩
  | script => exact ⟨false, rfl⟩

/-- The calls of the server, in their order.  Behind `read` it holds what was read. -/
inductive ServerStage
  | closeP2cRead
  | closeC2pWrite
  | write
  | closeP2cWrite
  | read
  | closeC2pRead (readData : Str)
  | returned (readData : Str)

/-- The calls of the new process, up to `execve` and from there on. -/
inductive ScriptStage (γ : Type)
  | dupStdin
  | closeP2cRead
  | closeP2cWrite
  | dupStdout
  | closeC2pWrite
  | closeC2pRead
  | running (g : γ)

/-- The branch of `buildCGIResponse` that the server takes. -/
def serverAct (body : Str) : ServerStage → Action Pipe Byte ServerStage
  | .closeP2cRead => .close (.reading .p2c) .closeC2pWrite
  | .closeC2pWrite => .close (.writing .c2p) .write
  | .write => .write .p2c body .closeP2cWrite
  | .closeP2cWrite => .close (.writing .p2c) .read
  | .read => .read .c2p CGI.BUF_SIZE .closeC2pRead
  | .closeC2pRead readData => .close (.reading .c2p) (.returned readData)
  | .returned _ => .halt

/-- The branch of the new process.  A program keeps the ends that it is started with. -/
def scriptAct {γ : Type} (program : γ → Action Pipe Byte γ) (main : γ) :
    ScriptStage γ → Action Pipe Byte (ScriptStage γ)
  | .dupStdin => .dup (.reading .p2c) .closeP2cRead
  | .closeP2cRead => .close (.reading .p2c) .closeP2cWrite
  | .closeP2cWrite => .close (.writing .p2c) .dupStdout
  | .dupStdout => .dup (.writing .c2p) .closeC2pWrite
  | .closeC2pWrite => .close (.writing .c2p) .closeC2pRead
  | .closeC2pRead => .close (.reading .c2p) (.running main)
  | .running g => (program g).map .running

/-- The state of each party's program. -/
def Stage (γ : Type) : Party → Type
  | .server => ServerStage
  | .script => ScriptStage γ

/-- A program for the script, and the body for it. -/
structure Exchange where
  γ : Type
  program : γ → Action Pipe Byte γ
  main : γ
  body : Str

variable (x : Exchange)

def Exchange.act : ∀ p, Stage x.γ p → Action Pipe Byte (Stage x.γ p)
  | .server => serverAct x.body
  | .script => scriptAct x.program x.main

/-- The four descriptors that both processes have behind `fork`. -/
def forked : List (End Pipe) := [.reading .p2c, .writing .p2c, .reading .c2p, .writing .c2p]

/-- Both processes behind `fork`. -/
def Exchange.start : Network Pipe Byte (Stage x.γ) where
  content := fun _ => []
  written := fun _ => []
  taken := fun _ => []
  procs
    | .server => ⟨ServerStage.closeP2cRead, forked, 0, .running⟩
    | .script => ⟨(ScriptStage.dupStdin : ScriptStage x.γ), forked, 0, .running⟩

abbrev State := Network Pipe Byte (Stage x.γ)

variable {x}

namespace State

def server (s : State x) : Process Pipe ServerStage := s.procs .server

def script (s : State x) : Process Pipe (ScriptStage x.γ) := s.procs .script

end State

/-! ## What each party holds and has done -/

/-- The ends that the server has open. -/
def serverEnds : ServerStage → List (End Pipe)
  | .closeP2cRead => forked
  | .closeC2pWrite => [.writing .p2c, .reading .c2p, .writing .c2p]
  | .write | .closeP2cWrite => [.writing .p2c, .reading .c2p]
  | .read | .closeC2pRead _ => [.reading .c2p]
  | .returned _ => []

/-- What the server has handed over. -/
def handedOver (body : Str) (progress : Nat) : ServerStage → Str
  | .closeP2cRead | .closeC2pWrite => []
  | .write => body.take progress
  | .closeP2cWrite | .read | .closeC2pRead _ | .returned _ => body

/-- What the server has read. -/
def readData : ServerStage → Str
  | .closeP2cRead | .closeC2pWrite | .write | .closeP2cWrite | .read => []
  | .closeC2pRead data | .returned data => data

/-- The ends that the script has open, of which a running program may have closed some. -/
def ScriptEnds {γ : Type} (ends : List (End Pipe)) : ScriptStage γ → Prop
  | .dupStdin | .closeP2cWrite => ends = forked
  | .closeP2cRead => ends = .reading .p2c :: forked
  | .dupStdout | .closeC2pRead => ends = [.reading .p2c, .reading .c2p, .writing .c2p]
  | .closeC2pWrite => ends = [.writing .c2p, .reading .p2c, .reading .c2p, .writing .c2p]
  | .running _ => ∀ e ∈ ends, e = .reading .p2c ∨ e = .writing .c2p

/-- A process has its descriptors until it ends. -/
def Holds {γ : Type} (proc : Process Pipe γ) (P : List (End Pipe) → Prop) : Prop :=
  if proc.status = .running then P proc.ends else proc.ends = []

/-- The server has handed over and read what its stage says. -/
structure ServerSide (s : State x) : Prop where
  ends : Holds s.server (· = serverEnds s.server.state)
  written : s.written .p2c = handedOver x.body s.server.progress s.server.state
  taken : s.taken .c2p = readData s.server.state
  length_read : (readData s.server.state).length ≤ CGI.BUF_SIZE

/-- A server that was killed was in its write, with nobody to read it. -/
def Outcome (s : State x) : Prop :=
  match s.server.status with
  | .running => True
  | .halted => ∃ data, s.server.state = .returned data
  | .killed => s.server.state = .write ∧ ¬ s.HasReader .p2c

/-- What holds in every state of an exchange. -/
structure Invariant (atomic : Nat) (s : State x) : Prop where
  conserved : Conserved s
  bounded : ∀ p, Bounded x.act atomic s p
  server : ServerSide s
  outcome : Outcome s
  script : Holds s.script (ScriptEnds · s.script.state)

theorem invariant_start (atomic : Nat) : Invariant atomic x.start where
  conserved := fun _ => rfl
  bounded := by
    intro p i data g _
    cases p <;> exact ⟨Nat.zero_le _, fun _ => Or.inl rfl⟩
  server := ⟨rfl, rfl, rfl, Nat.zero_le _⟩
  outcome := trivial
  script := rfl

variable {capacity : Pipe → Nat} {atomic : Nat} {s s' : State x}

/-! ### The server -/

theorem Holds.ends {γ : Type} {proc : Process Pipe γ} {P : List (End Pipe) → Prop}
    (h : Holds proc P) (hrun : proc.status = .running) : P proc.ends := by
  rwa [Holds, if_pos hrun] at h

/-- A process with an open end runs. -/
theorem Holds.running {γ : Type} {proc : Process Pipe γ} {P : List (End Pipe) → Prop}
    (h : Holds proc P) {e : End Pipe} (he : e ∈ proc.ends) :
    proc.status = .running ∧ P proc.ends := by
  by_cases hrun : proc.status = .running
  · exact ⟨hrun, h.ends hrun⟩
  · rw [Holds, if_neg hrun] at h
    rw [h] at he
    exact absurd he List.not_mem_nil

/-- The server goes on, and has handed over and read as much as before. -/
theorem ServerSide.goto (h : ServerSide s) {stage : ServerStage} {ends : List (End Pipe)}
    (hends : ends = serverEnds stage)
    (hwritten : handedOver x.body s.server.progress s.server.state = handedOver x.body 0 stage)
    (htaken : readData s.server.state = readData stage) :
    ServerSide (s.goto .server stage ends) where
  ends := hends
  written := h.written.trans hwritten
  taken := h.taken.trans htaken
  length_read := htaken ▸ h.length_read

/-- The server ends where it is. -/
theorem ServerSide.stop (h : ServerSide s) {status : Status} (hstatus : status ≠ .running) :
    ServerSide (s.stop .server status) := by
  have hproc : State.server (s.stop .server status) =
      { s.server with ends := [], status := status } := procs_put s .server _
  refine ⟨?_, ?_, ?_, ?_⟩ <;> rw [hproc]
  · rw [Holds, if_neg hstatus]
  · exact h.written
  · exact h.taken
  · exact h.length_read

/-- The pipe takes the next piece of the body. -/
theorem ServerSide.push (h : ServerSide s) (hstage : s.server.state = .write)
    {piece : Str} (hpiece : piece <+: x.body.drop s.server.progress) :
    ServerSide (s.push .server .p2c piece) := by
  have hproc : State.server (s.push .server .p2c piece) =
      { s.server with progress := s.server.progress + piece.length } :=
    procs_push s .server .p2c piece
  refine ⟨?_, ?_, ?_, ?_⟩ <;> rw [hproc]
  · exact h.ends
  · have htake : piece = (x.body.drop s.server.progress).take piece.length :=
      List.prefix_iff_eq_take.mp hpiece
    rw [written_push, h.written, hstage]
    change x.body.take s.server.progress ++ piece = x.body.take (s.server.progress + piece.length)
    rw [List.take_add, ← htake]
  · exact h.taken
  · exact h.length_read

/-- The one `read` of the server. -/
theorem ServerSide.take (h : ServerSide s) (hstage : s.server.state = .read) :
    ServerSide ((s.take .c2p CGI.BUF_SIZE).goto .server
      (.closeC2pRead ((s.content .c2p).take CGI.BUF_SIZE)) (serverEnds .read)) := by
  refine ⟨rfl, ?_, ?_, List.length_take_le ..⟩
  · have hwritten := h.written
    rw [hstage] at hwritten
    exact hwritten
  · have htaken := h.taken
    rw [hstage] at htaken
    exact (taken_take s .c2p CGI.BUF_SIZE).trans (by rw [htaken]; rfl)

theorem ServerSide.step (h : ServerSide s) (hstep : Step x.act capacity atomic .server s s') :
    ServerSide s' := by
  have hact : ∀ {stage}, s.server.state = stage →
      x.act .server (s.procs .server).state = serverAct x.body stage :=
    congrArg (serverAct x.body)
  have hends : ∀ {stage}, s.server.state = stage →
      (s.procs .server).ends = serverEnds stage :=
    fun hstage => (h.ends.ends hstep.running).trans (congrArg serverEnds hstage)
  cases hstage : s.server.state with
  | closeP2cRead =>
    rw [hstep.of_close (hact hstage), hends hstage]
    exact h.goto rfl (by rw [hstage]; rfl) (by rw [hstage]; rfl)
  | closeC2pWrite =>
    rw [hstep.of_close (hact hstage), hends hstage]
    exact h.goto rfl (by rw [hstage]; rfl) (by rw [hstage]; rfl)
  | write =>
    rcases hstep.of_write (hact hstage) with ⟨piece, -, -, hfits, rfl⟩ | ⟨-, hdone, rfl⟩ |
      ⟨-, -, -, rfl⟩ | ⟨hend, -⟩
    · exact h.push hstage hfits.next
    · rw [hends hstage]
      refine h.goto rfl ?_ (by rw [hstage]; rfl)
      rw [hstage]
      exact List.take_of_length_le (Nat.le_of_eq hdone.symm)
    · exact h.stop (by decide)
    · rw [hends hstage] at hend
      exact absurd (by decide) hend
  | closeP2cWrite =>
    rw [hstep.of_close (hact hstage), hends hstage]
    exact h.goto rfl (by rw [hstage]; rfl) (by rw [hstage]; rfl)
  | read =>
    rcases hstep.of_read (hact hstage) with ⟨-, -, rfl⟩ | ⟨-, -, -, rfl⟩ | ⟨hend, -⟩
    · rw [hends hstage]
      exact h.take hstage
    · rw [hends hstage]
      exact h.goto rfl (by rw [hstage]; rfl) (by rw [hstage]; rfl)
    · rw [hends hstage] at hend
      exact absurd (by decide) hend
  | closeC2pRead data =>
    rw [hstep.of_close (hact hstage), hends hstage]
    exact h.goto rfl (by rw [hstage]; rfl) (by rw [hstage]; rfl)
  | returned data =>
    rw [hstep.of_halt (hact hstage)]
    exact h.stop (by decide)

theorem serverAct_write {body : Str} {stage : ServerStage} {i : Pipe} {data : Str}
    {next : ServerStage} (h : serverAct body stage = .write i data next) :
    stage = .write ∧ i = .p2c := by
  cases stage <;> cases h
  exact ⟨rfl, rfl⟩

theorem serverAct_halt {body : Str} {stage : ServerStage} (h : serverAct body stage = .halt) :
    ∃ data, stage = .returned data := by
  cases stage <;> cases h
  exact ⟨_, rfl⟩

/-- A server that goes on has no outcome yet. -/
theorem Outcome.of_running (h : s.server.status = .running) : Outcome s := by
  rw [Outcome, h]
  trivial

theorem Outcome.of_server (hstep : Step x.act capacity atomic .server s s') : Outcome s' := by
  have hproc : ∀ status, State.server (s.stop .server status) =
      { s.server with ends := [], status := status } := fun status => procs_put s .server _
  cases hstep with
  | compute | dup | close | read | eof | wrote | badDup | badRead | badWrite =>
    exact .of_running rfl
  | push hrun =>
    refine .of_running ?_
    rw [State.server, procs_push]
    exact hrun
  | sigpipe _ hact hend _ hreader =>
    obtain ⟨hstage, rfl⟩ := serverAct_write hact
    rw [Outcome, hproc]
    refine ⟨hstage, fun ⟨p, hp⟩ => ?_⟩
    cases p with
    | server =>
      rw [Network.stop, procs_put] at hp
      exact List.not_mem_nil hp
    | script =>
      rw [Network.stop, procs_put_of_ne s (by decide)] at hp
      exact hreader ⟨.script, hp⟩
  | halt _ hact =>
    rw [Outcome, hproc]
    exact serverAct_halt hact

/-! ### The script -/

/-- The script keeps to its ends, and does nothing that is the server's part. -/
structure ScriptStep (s s' : State x) : Prop where
  ends : Holds (State.script s') (ScriptEnds · (State.script s').state)
  written : s'.written .p2c = s.written .p2c
  taken : s'.taken .c2p = s.taken .c2p

theorem ScriptStep.goto (s : State x) {stage : ScriptStage x.γ} {ends : List (End Pipe)}
    (h : ScriptEnds ends stage) : ScriptStep s (s.goto .script stage ends) :=
  ⟨h, rfl, rfl⟩

theorem ScriptStep.stop (s : State x) {status : Status} (hstatus : status ≠ .running) :
    ScriptStep s (s.stop .script status) := by
  have hproc : State.script (s.stop .script status) =
      { s.script with ends := [], status := status } := procs_put s .script _
  refine ⟨?_, rfl, rfl⟩
  rw [hproc, Holds, if_neg hstatus]

/-- A running program goes on, with ends that it had. -/
theorem ScriptStep.run (s : State x) {g g' : x.γ} {ends ends' : List (End Pipe)}
    (h : ScriptEnds ends (.running g)) (hsub : ends' ⊆ ends) :
    ScriptStep s (s.goto .script (.running g') ends') :=
  .goto s fun e he => h e (hsub he)

theorem ScriptStep.of_running {g : x.γ} (hstage : s.script.state = .running g)
    (h : ScriptEnds s.script.ends (.running g))
    (hstep : Step x.act capacity atomic .script s s') : ScriptStep s s' := by
  have hact : x.act .script (s.procs .script).state = (x.program g).map .running :=
    congrArg (scriptAct x.program x.main) hstage
  have hsame : (s.procs .script).ends ⊆ s.script.ends := List.Subset.refl _
  cases hprogram : x.program g with
  | compute g' =>
    rw [hprogram] at hact
    rw [hstep.of_compute hact]
    exact .run s h hsame
  | dup e g' =>
    rw [hprogram] at hact
    rw [hstep.of_dup hact]
    split
    · next he => exact .run s h (List.cons_subset.mpr ⟨he, hsame⟩)
    · exact .run s h hsame
  | close e g' =>
    rw [hprogram] at hact
    rw [hstep.of_close hact]
    exact .run s h List.erase_subset
  | read i count next =>
    rw [hprogram] at hact
    rcases hstep.of_read hact with ⟨hend, -, rfl⟩ | ⟨-, -, -, rfl⟩ | ⟨-, rfl⟩
    · refine ⟨fun e he => h e he, rfl, taken_take_of_ne s ?_ count⟩
      -- a program has no other end to read from than its standard input
      rcases h _ hend with heq | heq
      · cases heq
        decide
      · cases heq
    · exact .run s h hsame
    · exact .run s h hsame
  | write i data g' =>
    rw [hprogram] at hact
    rcases hstep.of_write hact with ⟨piece, hend, -, -, rfl⟩ | ⟨-, -, rfl⟩ | ⟨-, -, -, rfl⟩ |
      ⟨-, rfl⟩
    · have hproc : State.script (s.push .script i piece) =
          { s.script with progress := s.script.progress + piece.length } :=
        procs_push s .script i piece
      have hne : Pipe.p2c ≠ i := by
        rintro rfl
        rcases h _ hend with heq | heq <;> cases heq
      refine ⟨?_, written_push_of_ne s .script hne piece, rfl⟩
      have hrun : s.script.status = .running := hstep.running
      rw [hproc, Holds, if_pos hrun, hstage]
      exact h
    · exact .run s h hsame
    · exact .stop s (by decide)
    · exact .run s h hsame
  | halt =>
    rw [hprogram] at hact
    rw [hstep.of_halt hact]
    exact .stop s (by decide)

theorem ScriptStep.of_step (h : Holds s.script (ScriptEnds · s.script.state))
    (hstep : Step x.act capacity atomic .script s s') : ScriptStep s s' := by
  have hact : ∀ {stage}, s.script.state = stage →
      x.act .script (s.procs .script).state = scriptAct x.program x.main stage :=
    congrArg (scriptAct x.program x.main)
  have hends := h.ends hstep.running
  change ScriptEnds (s.procs .script).ends s.script.state at hends
  cases hstage : s.script.state with
  | dupStdin =>
    rw [hstage] at hends
    rw [hstep.of_dup (hact hstage), hends]
    exact .goto s rfl
  | closeP2cRead =>
    rw [hstage] at hends
    rw [hstep.of_close (hact hstage), hends]
    exact .goto s rfl
  | closeP2cWrite =>
    rw [hstage] at hends
    rw [hstep.of_close (hact hstage), hends]
    exact .goto s rfl
  | dupStdout =>
    rw [hstage] at hends
    rw [hstep.of_dup (hact hstage), hends]
    exact .goto s rfl
  | closeC2pWrite =>
    rw [hstage] at hends
    rw [hstep.of_close (hact hstage), hends]
    exact .goto s rfl
  | closeC2pRead =>
    rw [hstage] at hends
    rw [hstep.of_close (hact hstage), hends]
    exact .goto s (show ∀ e ∈ [End.reading Pipe.p2c, .writing .c2p],
      e = .reading .p2c ∨ e = .writing .c2p by decide)
  | running g =>
    rw [hstage] at hends
    exact .of_running hstage hends hstep

/-! ## Every state of an exchange -/

theorem Outcome.of_script (h : Outcome s) (hstep : Step x.act capacity atomic .script s s') :
    Outcome s' := by
  have hserver : State.server s' = s.server := hstep.procs_of_ne (by decide)
  rw [Outcome, hserver]
  rw [Outcome] at h
  cases hstatus : s.server.status with
  | running => trivial
  | halted =>
    rw [hstatus] at h
    exact h
  | killed =>
    rw [hstatus] at h
    exact ⟨h.1, fun hreader => h.2 (hstep.hasReader hreader)⟩

theorem Invariant.step (h : Invariant atomic s) {p : Party}
    (hstep : Step x.act capacity atomic p s s') : Invariant atomic s' := by
  refine ⟨hstep.conserved h.conserved, fun q => hstep.bounded (h.bounded q), ?_, ?_, ?_⟩
  · cases p with
    | server => exact h.server.step hstep
    | script =>
      have hscript := ScriptStep.of_step h.script hstep
      have hserver : State.server s' = s.server := hstep.procs_of_ne (by decide)
      refine ⟨?_, ?_, ?_, ?_⟩ <;> rw [hserver]
      · exact h.server.ends
      · exact hscript.written.trans h.server.written
      · exact hscript.taken.trans h.server.taken
      · exact h.server.length_read
  · cases p with
    | server => exact .of_server hstep
    | script => exact h.outcome.of_script hstep
  · cases p with
    | server =>
      have hscript : State.script s' = s.script := hstep.procs_of_ne (by decide)
      rw [hscript]
      exact h.script
    | script => exact (ScriptStep.of_step h.script hstep).ends

/-- Where the exchange may lead. -/
def Reachable (capacity : Pipe → Nat) (atomic : Nat) (s : State x) : Prop :=
  Reaches x.act capacity atomic x.start s

theorem Reachable.invariant (h : Reachable capacity atomic s) : Invariant atomic s :=
  h.induction (invariant_start atomic) fun _ _ _ hstep hs => hs.step hstep

/-- What the script takes is the start of the body. -/
theorem Invariant.taken_isPrefix (h : Invariant atomic s) : s.taken .p2c <+: x.body := by
  have hcontent : s.taken .p2c <+: s.written .p2c := by
    rw [h.conserved .p2c]
    exact List.prefix_append _ _
  refine hcontent.trans ?_
  rw [h.server.written]
  cases s.server.state with
  | closeP2cRead | closeC2pWrite => exact List.nil_prefix
  | write => exact List.take_prefix _ _
  | closeP2cWrite | read | closeC2pRead | returned => exact List.prefix_refl _

/-- What the server reads is the start of what the script prints. -/
theorem Invariant.readData_isPrefix (h : Invariant atomic s) :
    readData s.server.state <+: s.written .c2p := by
  rw [← h.server.taken, h.conserved .c2p]
  exact List.prefix_append _ _

/-! ## What comes of a request -/

/-- The calls of the server as the exchange has answered them. -/
def calls (s : State x) : CgiCalls :=
  { CGI.printing (readData s.server.state) with
    write := if s.server.status = .killed then .sigpipe else .returned }

/-- What `buildCGIResponse` comes to, against what both parties have written. -/
inductive Result (s : State x) : Except Raised Str → Prop
  | sigpipe : ¬ s.HasReader .p2c → Result s (.error .sigpipe)
  | text (output : Str) : s.written .p2c = x.body → output <+: s.written .c2p →
      output.length < CGI.BUF_SIZE → Result s (.ok (cStr output))
  | overflow : s.written .p2c = x.body → CGI.BUF_SIZE ≤ (s.written .c2p).length →
      Result s (.error .undefined)

theorem buildCGIResponse_calls (s : State x) (execCommandPath : Str) (execArgs execEnvs : List Str)
    (cgi : CGI) :
    ((CGI.buildCGIResponse (calls s) execCommandPath execArgs execEnvs).run cgi).1 =
      if s.server.status = .killed then .error .sigpipe
      else if ((readData s.server.state).take CGI.BUF_SIZE).length < CGI.BUF_SIZE then
        .ok (cStr ((readData s.server.state).take CGI.BUF_SIZE))
      else .error .undefined := by
  by_cases hkilled : s.server.status = .killed
  · have hcalls : calls s =
        { CGI.printing (readData s.server.state) with write := .sigpipe } := by
      rw [calls, if_pos hkilled]
    rw [hcalls, if_pos hkilled]
    rfl
  · have hcalls : calls s = CGI.printing (readData s.server.state) := by
      rw [calls, if_neg hkilled]
      rfl
    rw [hcalls, if_neg hkilled]
    change ((if ((readData s.server.state).take CGI.BUF_SIZE).length < CGI.BUF_SIZE then
      return cStr ((readData s.server.state).take CGI.BUF_SIZE) else throw .undefined :
        CgiM Str).run _).1 = _
    rw [Method.run_ite]
    split <;> rfl

/-- Whatever the script is and however the two processes interleave, the script gets nothing but
the start of the body, and the server nothing but the start of what the script printed. -/
theorem Reachable.result (h : Reachable capacity atomic s) :
    s.taken .p2c <+: x.body ∧
      (Ended s .server → ∀ execCommandPath execArgs execEnvs cgi, Result s
        ((CGI.buildCGIResponse (calls s) execCommandPath execArgs execEnvs).run cgi).1) := by
  refine ⟨h.invariant.taken_isPrefix, fun hended execCommandPath execArgs execEnvs cgi => ?_⟩
  have hinv := h.invariant
  have houtcome := hinv.outcome
  rw [buildCGIResponse_calls]
  rw [Outcome] at houtcome
  cases hstatus : s.server.status with
  | running => exact absurd hstatus hended
  | killed =>
    rw [hstatus] at houtcome
    rw [if_pos rfl]
    exact .sigpipe houtcome.2
  | halted =>
    rw [hstatus] at houtcome
    obtain ⟨data, hdata⟩ := houtcome
    have hwritten : s.written .p2c = x.body := by rw [hinv.server.written, hdata]; rfl
    have hread := hinv.readData_isPrefix
    have hlen := hinv.server.length_read
    rw [if_neg (by decide), List.take_of_length_le hlen]
    split
    · next hshort => exact .text _ hwritten hread hshort
    · next hfull => exact .overflow hwritten (by have := hread.length_le; omega)

/-- A script that ends at once, and a request without a body. -/
def silentExchange : Exchange := ⟨Unit, fun _ => .halt, (), []⟩

theorem silentExchange_reaches : ∃ s : State silentExchange,
    Reachable (fun _ => 1) 1 s ∧ Ended s .server := by
  have h : Reachable (fun _ => 1) 1 silentExchange.start := .refl
  have h := h.tail ⟨.script, .dup rfl rfl (by decide)⟩
  have h := h.tail ⟨.script, .close rfl rfl⟩
  have h := h.tail ⟨.script, .close rfl rfl⟩
  have h := h.tail ⟨.script, .dup rfl rfl (by decide)⟩
  have h := h.tail ⟨.script, .close rfl rfl⟩
  have h := h.tail ⟨.script, .close rfl rfl⟩
  have h := h.tail ⟨.script, .halt rfl rfl⟩
  have h := h.tail ⟨.server, .close rfl rfl⟩
  have h := h.tail ⟨.server, .close rfl rfl⟩
  have h := h.tail ⟨.server, .wrote rfl rfl (by decide) rfl⟩
  have h := h.tail ⟨.server, .close rfl rfl⟩
  have h := h.tail ⟨.server, .eof rfl rfl (by decide) rfl (by
    rintro ⟨p, hp⟩
    cases p <;> exact absurd hp (by decide))⟩
  have h := h.tail ⟨.server, .close rfl rfl⟩
  exact ⟨_, h.tail ⟨.server, .halt rfl rfl⟩, show Status.halted ≠ .running by decide⟩

/-- The server is through with a script that ends at once. -/
theorem result_silent : ∃ s : State silentExchange, Ended s .server ∧ s.taken .p2c <+: [] ∧
    ∀ execCommandPath execArgs execEnvs cgi,
      Result s ((CGI.buildCGIResponse (calls s) execCommandPath execArgs execEnvs).run cgi).1 := by
  obtain ⟨s, hs, hended⟩ := silentExchange_reaches
  have hresult := Reachable.result hs
  exact ⟨s, hended, hresult.1, hresult.2 hended⟩

end CgiExchange

end Webserv
