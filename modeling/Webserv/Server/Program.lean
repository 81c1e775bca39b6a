import Webserv.Config.BreakingOff
import Webserv.Config.RoundTrip
import Webserv.Server.Kernel
import Webserv.Server.Startup

/-!
# The program

`main` from its arguments to the event loop, under the kernel that gives out the descriptors of
the listening sockets and of the connections.  In the event loop no call but `accept` fails, and
every handler of a client returns.
-/

namespace Webserv

open Text Descriptors

/-- The program was given one file, and it holds this configuration. -/
def Configures (argv : List Str) (system : System) (config : WebservConfig) : Prop :=
  ∃ name file, argv = [name, file] ∧
    ConfigParser.create system.memory system.ifstream file = .ok config

/-- Every port of the configuration gets its socket. -/
def SocketCalls.OpenAll (calls : SocketCalls) (config : WebservConfig) : Prop :=
  ∀ port ∈ config.ports, ∃ fd, calls.Opens port fd

/-- What the kernel does for the sockets and in every pass, whatever the configuration is.  Once
the server is there, only `accept` may fail. -/
structure Kernel (limit : Nat) (argv : List Str) (system : System) : Prop where
  sockets : ∀ config, Configures argv system config → system.sockets.OpenAll config →
    Server.Sockets limit config system.sockets.fd
  passes : ∀ config, Configures argv system config → system.sockets.OpenAll config →
    Server.KernelRun limit system.polls (Server.startTable config system.sockets.fd)
      (Server.new config system.sockets.fd)

section

variable {argv : List Str} {system : System} {config : WebservConfig}

theorem Configures.portsParsed (h : Configures argv system config) : config.PortsParsed := by
  obtain ⟨name, file, -, hcreate⟩ := h
  obtain ⟨content, servers, -, hservers, rfl⟩ := ConfigParser.create_eq_ok_iff.mp hcreate
  exact ConfigParser.parseTokens_portsParsed hservers

/-! ## What `main` comes to -/

theorem main_usage (h : argv.length ≠ 2) : main argv system = .exited EXIT_FAILURE := by
  rw [main, if_pos h]

theorem main_not_configured {name file : Str} {stop : ConfigParser.Stop}
    (h : ConfigParser.create system.memory system.ifstream file = .error stop) :
    main [name, file] system = stop.progress := by
  have hfile : [name, file].getD 1 [] = file := rfl
  rw [main, if_neg (by simp), hfile, h]

theorem main_not_open (h : Configures argv system config)
    (hopen : ¬ system.sockets.OpenAll config) : main argv system = .exited 0 := by
  obtain ⟨name, file, rfl, hcreate⟩ := h
  have hfile : [name, file].getD 1 [] = file := rfl
  rw [main, if_neg (by simp), hfile, hcreate]
  dsimp only
  cases hserver : Server.create system.sockets config with
  | ok s => exact absurd (Server.create_eq_ok_iff.mp hserver).1 hopen
  | error e => rfl

theorem main_ran (h : Configures argv system config) (hopen : system.sockets.OpenAll config)
    {s : Server}
    (hrun : (Server.run system.polls).run (Server.new config system.sockets.fd) = (.ok (), s)) :
    main argv system = .running s := by
  obtain ⟨name, file, hargv, hcreate⟩ := h
  exact main_eq_running_iff.mpr ⟨name, file, config, _, hargv, hcreate,
    Server.create_eq_ok_iff.mpr ⟨hopen, rfl⟩, hrun⟩

theorem main_threw (h : Configures argv system config) (hopen : system.sockets.OpenAll config)
    {e : Raised} {s : Server}
    (hrun : (Server.run system.polls).run (Server.new config system.sockets.fd) =
      (.error e, s)) : main argv system = e.progress := by
  obtain ⟨name, file, rfl, hcreate⟩ := h
  have hserver : Server.create system.sockets config =
      .ok (Server.new config system.sockets.fd) := Server.create_eq_ok_iff.mpr ⟨hopen, rfl⟩
  have hfile : [name, file].getD 1 [] = file := rfl
  rw [main, if_neg (by simp), hfile, hcreate]
  dsimp only
  rw [hserver]
  dsimp only
  rw [hrun]

/-- A configuration file whose tokens break off in a directive. -/
theorem create_undefined_iff {memory : Nat → ConfigParser.Memory} {ifstream : Str → Option Str}
    {file : Str} :
    (∃ stop, ConfigParser.create memory ifstream file = .error stop ∧
      stop.progress = .undefined) ↔
    ∃ content, ifstream (cStr file) = some content ∧
      ConfigParser.BreaksOff memory (ConfigParser.isspaceSplit content) := by
  rw [ConfigParser.create, ConfigParser.readFile]
  cases ifstream (cStr file) with
  | none =>
    refine iff_of_false ?_ fun h => ?_
    · rintro ⟨stop, hstop, hprogress⟩
      obtain rfl := Except.error.inj hstop
      cases hprogress
    · obtain ⟨content, hcontent, -⟩ := h
      cases hcontent
  | some content =>
    simp only [Except.ok_bind, ConfigParser.isspaceSplit_getlines, Option.some.injEq,
      exists_eq_left']
    constructor
    · rintro ⟨stop, hstop, hprogress⟩
      rcases ConfigParser.breaksOff_or_ends memory (ConfigParser.isspaceSplit content) with
        hbreaks | hends
      · exact hbreaks
      · rcases hends with ⟨servers, hok⟩ | ⟨e, hthrown⟩
        · rw [hok] at hstop
          cases hstop
        · rw [hthrown] at hstop
          obtain rfl := Except.error.inj hstop
          cases hprogress
    · intro hbreaks
      rw [hbreaks.pastEnd]
      exact ⟨.pastEnd, rfl, rfl⟩

/-- Once there is a configuration, the sockets and the descriptors decide. -/
theorem main_configured {limit : Nat} (hlimit : (limit : Int) ≤ Selector.FD_SETSIZE)
    (hkernel : Kernel limit argv system) (h : Configures argv system config) :
    (system.sockets.OpenAll config ∧ Server.EachPass (Server.HasDescriptors limit) system.polls
        (Server.new config system.sockets.fd) ∧
      ∃ s, main argv system = .running s ∧ s.config = config ∧
        s.servSocks = (Server.new config system.sockets.fd).servSocks ∧ Server.Safe s) ∨
    ¬ (system.sockets.OpenAll config ∧ Server.EachPass (Server.HasDescriptors limit) system.polls
        (Server.new config system.sockets.fd)) ∧ main argv system = .exited 0 := by
  by_cases hopen : system.sockets.OpenAll config
  · have hsockets := hkernel.sockets config h hopen
    have hinv : Server.Inv (Server.new config system.sockets.fd) :=
      Server.inv_new fun port hport => by
        have hfresh := hsockets.fresh hport
        exact ⟨hfresh.1, by omega⟩
    rcases hsockets.tracked.run h.portsParsed hinv (Server.settled_new _ _) hlimit
      (hkernel.passes config h hopen) with
      ⟨hpass, s, hrun, hduring, hsettled, -⟩ | ⟨hpass, s, hrun⟩
    · have hconfig : s.config = config := hduring.config
      exact Or.inl ⟨hopen, hpass, s, main_ran h hopen hrun, hconfig, hduring.servSocks,
        hduring.inv.safe (hconfig ▸ h.portsParsed) hsettled⟩
    · exact Or.inr ⟨fun hboth => hpass hboth.2, main_threw h hopen hrun⟩
  · exact Or.inr ⟨fun hboth => hopen hboth.1, main_not_open h hopen⟩

/-- A program with one file does not end with a usage message, nor is it aborted, killed or
replaced. -/
theorem main_file {limit : Nat} (hlimit : (limit : Int) ≤ Selector.FD_SETSIZE) {name file : Str}
    (hkernel : Kernel limit [name, file] system) :
    main [name, file] system = .exited 0 ∨ main [name, file] system = .undefined ∨
      ∃ s, main [name, file] system = .running s := by
  cases hcreate : ConfigParser.create system.memory system.ifstream file with
  | error stop =>
    rw [main_not_configured hcreate]
    cases stop with
    | thrown e => exact Or.inl rfl
    | pastEnd => exact Or.inr (Or.inl rfl)
    | outOfFuel => exact Or.inr (Or.inl rfl)
  | ok config =>
    rcases main_configured hlimit hkernel ⟨name, file, rfl, hcreate⟩ with
      ⟨-, -, s, hmain, -⟩ | ⟨-, hmain⟩
    · exact Or.inr (Or.inr ⟨s, hmain⟩)
    · exact Or.inl hmain

theorem main_exited_failure_iff {limit : Nat} (hlimit : (limit : Int) ≤ Selector.FD_SETSIZE)
    (hkernel : Kernel limit argv system) :
    main argv system = .exited EXIT_FAILURE ↔ argv.length ≠ 2 := by
  constructor
  · intro hmain hlen
    obtain ⟨name, file, rfl⟩ := List.length_eq_two.mp hlen
    rcases main_file hlimit hkernel with h | h | ⟨s, h⟩
    · rw [h] at hmain
      cases hmain
    · rw [h] at hmain
      cases hmain
    · rw [h] at hmain
      cases hmain
  · exact main_usage

theorem main_undefined_iff {limit : Nat} (hlimit : (limit : Int) ≤ Selector.FD_SETSIZE)
    (hkernel : Kernel limit argv system) :
    main argv system = .undefined ↔ ∃ name file content, argv = [name, file] ∧
      system.ifstream (cStr file) = some content ∧
      ConfigParser.BreaksOff system.memory (ConfigParser.isspaceSplit content) := by
  constructor
  · intro hmain
    by_cases hlen : argv.length = 2
    · obtain ⟨name, file, rfl⟩ := List.length_eq_two.mp hlen
      cases hcreate : ConfigParser.create system.memory system.ifstream file with
      | error stop =>
        rw [main_not_configured hcreate] at hmain
        obtain ⟨content, hcontent, hbreaks⟩ := create_undefined_iff.mp ⟨stop, hcreate, hmain⟩
        exact ⟨name, file, content, rfl, hcontent, hbreaks⟩
      | ok config =>
        rcases main_configured hlimit hkernel ⟨name, file, rfl, hcreate⟩ with
          ⟨-, -, s, hrunning, -⟩ | ⟨-, hexited⟩
        · rw [hrunning] at hmain
          cases hmain
        · rw [hexited] at hmain
          cases hmain
    · rw [main_usage hlen] at hmain
      cases hmain
  · rintro ⟨name, file, content, rfl, hcontent, hbreaks⟩
    obtain ⟨stop, hstop, hprogress⟩ := create_undefined_iff.mpr ⟨content, hcontent, hbreaks⟩
    rw [main_not_configured hstop, hprogress]

theorem main_running {limit : Nat} (hlimit : (limit : Int) ≤ Selector.FD_SETSIZE)
    (hkernel : Kernel limit argv system) {s : Server} (hmain : main argv system = .running s) :
    Configures argv system s.config ∧ system.sockets.OpenAll s.config ∧
      Server.EachPass (Server.HasDescriptors limit) system.polls
        (Server.new s.config system.sockets.fd) ∧
      s.servSocks = (Server.new s.config system.sockets.fd).servSocks ∧ Server.Safe s := by
  obtain ⟨name, file, config, s₀, hargv, hcreate, -⟩ := main_eq_running_iff.mp hmain
  have hconfigures : Configures argv system config := ⟨name, file, hargv, hcreate⟩
  rcases main_configured hlimit hkernel hconfigures with
    ⟨hopen, hpass, s', hrunning, hconfig, hserv, hsafe⟩ | ⟨-, hexited⟩
  · obtain rfl : s' = s := Progress.running.inj (hrunning.symm.trans hmain)
    rw [hconfig]
    exact ⟨hconfigures, hopen, hpass, hserv, hsafe⟩
  · rw [hexited] at hmain
    cases hmain

end

/-! ## A configuration in the documented form -/

theorem parseTokens_printed (memory : Nat → ConfigParser.Memory) {servers : List ServerConfig}
    (h : ∀ server ∈ servers, ConfigParser.Printable server) {text : Str}
    (htext : ConfigParser.Spaced (servers.flatMap ConfigParser.printServer) text) :
    ConfigParser.parseTokens memory (ConfigParser.isspaceSplit text) = .ok servers := by
  have htokens : ∀ token ∈ servers.flatMap ConfigParser.printServer,
      ConfigParser.IsToken token := by
    rw [List.forall_mem_flatMap]
    exact fun server hserver => (h server hserver).isToken
  rw [ConfigParser.isspaceSplit_spaced htext htokens,
    ConfigParser.parseTokens_printTokens memory h]

/-- Every call for the listening socket succeeds, with the descriptor 3. -/
def openCalls : SocketCalls where
  socket := fun _ => some 3
  setsockopt := fun _ => true
  fcntl := fun _ => true
  bind := fun _ _ => true
  listen := fun _ => true

/-- A file with one server, and a first pass in which nothing is ready. -/
def printedSystem : System where
  memory := fun _ => ⟨7, 7, fun _ => false⟩
  ifstream := fun _ => some ConfigParser.printedText
  sockets := openCalls
  polls := [Server.idlePoll]

def printedArgv : List Str := [lit "webserv", lit "webserv.conf"]

set_option maxRecDepth 4000 in
theorem printedText_spaced : ConfigParser.Spaced
    ([ConfigParser.printedServer].flatMap ConfigParser.printServer) ConfigParser.printedText :=
  (by decide : ([ConfigParser.printedServer].flatMap ConfigParser.printServer).flatMap
    (fun token => token ++ lit " ") = ConfigParser.printedText) ▸ ConfigParser.spaced_blank _

theorem printedSystem_configures {config : WebservConfig}
    (h : Configures printedArgv printedSystem config) :
    config = .ofServConfs [ConfigParser.printedServer] := by
  obtain ⟨name, file, -, hcreate⟩ := h
  obtain ⟨content, servers, hcontent, hservers, rfl⟩ := ConfigParser.create_eq_ok_iff.mp hcreate
  obtain rfl : ConfigParser.printedText = content := Option.some.inj hcontent
  have hprintable := List.forall_mem_singleton.mpr ConfigParser.printable_printedServer
  rw [parseTokens_printed _ hprintable printedText_spaced] at hservers
  rw [← Except.ok.inj hservers]

theorem printedSystem_openAll :
    printedSystem.sockets.OpenAll (.ofServConfs [ConfigParser.printedServer]) :=
  fun _ _ => ⟨3, ⟨rfl, rfl, rfl, rfl, rfl⟩⟩

theorem printedSystem_kernel : Kernel 5 printedArgv printedSystem where
  sockets := by
    intro config hconfig _
    rw [printedSystem_configures hconfig]
    have hports : (WebservConfig.ofServConfs [ConfigParser.printedServer]).ports.toList =
        [8080] := rfl
    rw [Server.Sockets, hports]
    exact ⟨by decide, by decide, fun _ _ => trivial⟩
  passes := fun _ _ _ => ⟨Server.idlePoll_answered .., fun _ _ => trivial⟩

/-! ## How the program ends -/

/-- How the program ends or goes on, if no call of the event loop but `accept` fails: with a usage
message, in undefined behaviour for a file that breaks off, in the event loop, or with the message
of an exception. -/
theorem main_outcome (limit : Nat) (hlimit : (limit : Int) ≤ Selector.FD_SETSIZE)
    (argv : List Str) (system : System) (hkernel : Kernel limit argv system) :
    (main argv system = .exited EXIT_FAILURE ↔ argv.length ≠ 2) ∧
    (main argv system = .undefined ↔ ∃ name file content, argv = [name, file] ∧
      system.ifstream (cStr file) = some content ∧
      ConfigParser.BreaksOff system.memory (ConfigParser.isspaceSplit content)) ∧
    ((∃ s, main argv system = .running s) ↔ ∃ config, Configures argv system config ∧
      system.sockets.OpenAll config ∧ Server.EachPass (Server.HasDescriptors limit) system.polls
        (Server.new config system.sockets.fd)) ∧
    (∀ s, main argv system = .running s → Configures argv system s.config ∧ Server.Safe s) ∧
    ((∃ status, main argv system = .exited status) ∨ main argv system = .undefined ∨
      ∃ s, main argv system = .running s) := by
  refine ⟨main_exited_failure_iff hlimit hkernel, main_undefined_iff hlimit hkernel, ?_, ?_, ?_⟩
  · constructor
    · rintro ⟨s, hmain⟩
      obtain ⟨hconfigures, hopen, hpass, -⟩ := main_running hlimit hkernel hmain
      exact ⟨s.config, hconfigures, hopen, hpass⟩
    · rintro ⟨config, hconfigures, hopen, hpass⟩
      rcases main_configured hlimit hkernel hconfigures with ⟨-, -, s, hmain, -⟩ | ⟨hnot, -⟩
      · exact ⟨s, hmain⟩
      · exact absurd ⟨hopen, hpass⟩ hnot
  · intro s hmain
    obtain ⟨hconfigures, -, -, -, hsafe⟩ := main_running hlimit hkernel hmain
    exact ⟨hconfigures, hsafe⟩
  · by_cases hlen : argv.length = 2
    · obtain ⟨name, file, rfl⟩ := List.length_eq_two.mp hlen
      exact (main_file hlimit hkernel).imp_left fun h => ⟨0, h⟩
    · exact Or.inl ⟨EXIT_FAILURE, main_usage hlen⟩

theorem main_outcome_printed :
    (main printedArgv printedSystem = .exited EXIT_FAILURE ↔ printedArgv.length ≠ 2) ∧
    (main printedArgv printedSystem = .undefined ↔ ∃ name file content,
      printedArgv = [name, file] ∧ printedSystem.ifstream (cStr file) = some content ∧
      ConfigParser.BreaksOff printedSystem.memory (ConfigParser.isspaceSplit content)) ∧
    ((∃ s, main printedArgv printedSystem = .running s) ↔ ∃ config,
      Configures printedArgv printedSystem config ∧ printedSystem.sockets.OpenAll config ∧
      Server.EachPass (Server.HasDescriptors 5) printedSystem.polls
        (Server.new config printedSystem.sockets.fd)) ∧
    (∀ s, main printedArgv printedSystem = .running s →
      Configures printedArgv printedSystem s.config ∧ Server.Safe s) ∧
    ((∃ status, main printedArgv printedSystem = .exited status) ∨
      main printedArgv printedSystem = .undefined ∨
      ∃ s, main printedArgv printedSystem = .running s) :=
  main_outcome 5 (by decide) printedArgv printedSystem printedSystem_kernel

/-- The program serves what its configuration file says, in the documented form and with any white
space, as soon as it has its sockets and for as long as it has descriptors, if no call of the
event loop but `accept` fails. -/
theorem main_printed (limit : Nat) (hlimit : (limit : Int) ≤ Selector.FD_SETSIZE)
    (name file : Str) (system : System) (hkernel : Kernel limit [name, file] system)
    (servers : List ServerConfig) (hservers : ∀ server ∈ servers, ConfigParser.Printable server)
    (text : Str) (htext : ConfigParser.Spaced (servers.flatMap ConfigParser.printServer) text)
    (hfile : system.ifstream (cStr file) = some text)
    (hopen : system.sockets.OpenAll (.ofServConfs servers)) :
    ((∃ s, main [name, file] system = .running s) ↔
      Server.EachPass (Server.HasDescriptors limit) system.polls
        (Server.new (.ofServConfs servers) system.sockets.fd)) ∧
    ∀ s, main [name, file] system = .running s →
      s.config = .ofServConfs servers ∧ Server.Safe s ∧
        ∀ server ∈ servers, s.servSocks[system.sockets.fd server.port]? =
          some ⟨server.port, system.sockets.fd server.port⟩ := by
  have hparse : ConfigParser.parseTokens system.memory (ConfigParser.isspaceSplit text) =
      .ok servers := parseTokens_printed system.memory hservers htext
  have hconfigures : Configures [name, file] system (.ofServConfs servers) :=
    ⟨name, file, rfl, ConfigParser.create_eq_ok_iff.mpr ⟨text, servers, hfile, hparse, rfl⟩⟩
  rcases main_configured hlimit hkernel hconfigures with
    ⟨-, hpass, s, hmain, hconfig, hserv, hsafe⟩ | ⟨hnot, hmain⟩
  · refine ⟨iff_of_true ⟨s, hmain⟩ hpass, fun s' hmain' => ?_⟩
    obtain rfl : s = s' := Progress.running.inj (hmain.symm.trans hmain')
    refine ⟨hconfig, hsafe, fun server hserver => ?_⟩
    rw [hserv]
    exact (hkernel.sockets _ hconfigures hopen).servSock
      (mem_insertPorts.mpr ⟨server, hserver, rfl⟩)
  · refine ⟨iff_of_false ?_ fun hpass => hnot ⟨hopen, hpass⟩, fun s hrunning => ?_⟩
    · rintro ⟨s, hrunning⟩
      rw [hmain] at hrunning
      cases hrunning
    · rw [hmain] at hrunning
      cases hrunning

/-- The server listens on 8080. -/
theorem main_printed_server :
    ((∃ s, main printedArgv printedSystem = .running s) ↔
      Server.EachPass (Server.HasDescriptors 5) printedSystem.polls
        (Server.new (.ofServConfs [ConfigParser.printedServer]) printedSystem.sockets.fd)) ∧
    ∀ s, main printedArgv printedSystem = .running s →
      s.config = .ofServConfs [ConfigParser.printedServer] ∧ Server.Safe s ∧
        ∀ server ∈ [ConfigParser.printedServer],
          s.servSocks[printedSystem.sockets.fd server.port]? =
            some ⟨server.port, printedSystem.sockets.fd server.port⟩ :=
  main_printed 5 (by decide) (lit "webserv") (lit "webserv.conf") printedSystem
    printedSystem_kernel [ConfigParser.printedServer]
    (List.forall_mem_singleton.mpr ConfigParser.printable_printedServer)
    ConfigParser.printedText printedText_spaced rfl printedSystem_openAll

end Webserv
