import Webserv.Config.Accepted
import Webserv.Server.Selector

/-!
# The ports that are bound

A port is read by `atoi`, kept as a `size_t` and bound with its low 16 bits.  A listening socket
has the port of the configuration when the number in the listen directive fits into these and is
not zero.
-/

namespace Webserv

open Text

/-! ## Addresses -/

/-- `htons`: the high byte comes first. -/
def htons (hostshort : UInt16) : Str :=
  [UInt8.ofNat (hostshort.toNat / 256), UInt8.ofNat (hostshort.toNat % 256)]

def AF_INET : Nat := 2

/-- `struct sockaddr_in`, with `sin_port` and `sin_addr` in network byte order. -/
structure SockaddrIn where
  sinFamily : Nat
  sinPort : Str
  sinAddr : Str
  deriving DecidableEq, Repr

/-- What `setLocalAddress` passes to `bind`.  `htons` takes an `uint16_t`, and `INADDR_ANY` is
zero. -/
def ServerSocket.setLocalAddress (sock : ServerSocket) : SockaddrIn where
  sinFamily := AF_INET
  sinPort := htons (UInt16.ofNat sock.port)
  sinAddr := [0, 0, 0, 0]

/-- The port as the system reads it. -/
def SockaddrIn.port (addr : SockaddrIn) : Nat :=
  addr.sinPort.foldl (fun n b => n * 256 + b.toNat) 0

theorem ServerSocket.setLocalAddress_port (sock : ServerSocket) :
    sock.setLocalAddress.port = sock.port % 65536 := by
  have hhigh : sock.port % 65536 / 256 < 256 := by omega
  have hlow : sock.port % 65536 % 256 < 256 := by omega
  simp only [SockaddrIn.port, setLocalAddress, htons, List.foldl_cons, List.foldl_nil,
    UInt16.toNat_ofNat', UInt8.toNat_ofNat', Nat.reducePow, Nat.mod_eq_of_lt hhigh,
    Nat.mod_eq_of_lt hlow]
  omega

/-- The sockets for the ports of the configuration are bound to these ports, and no two of them
to the same one. -/
def WebservConfig.PortsBound (config : WebservConfig) : Prop :=
  (∀ sock : ServerSocket, sock.port ∈ config.ports →
    sock.setLocalAddress.port = sock.port ∧ sock.setLocalAddress.port ≠ 0) ∧
  ∀ sock sock' : ServerSocket, sock.port ∈ config.ports → sock'.port ∈ config.ports →
    sock.port ≠ sock'.port → sock.setLocalAddress.port ≠ sock'.setLocalAddress.port

theorem WebservConfig.portsBound_iff (config : WebservConfig) :
    config.PortsBound ↔ ∀ port ∈ config.ports, 1 ≤ port ∧ port ≤ 65535 := by
  constructor
  · rintro ⟨hbound, -⟩ port hport
    obtain ⟨heq, hne⟩ := hbound ⟨port, 0⟩ hport
    rw [ServerSocket.setLocalAddress_port] at heq hne
    dsimp only at heq hne
    omega
  · intro h
    have hbound (sock : ServerSocket) (hport : sock.port ∈ config.ports) :
        sock.setLocalAddress.port = sock.port := by
      have hrange := h sock.port hport
      rw [ServerSocket.setLocalAddress_port]
      omega
    refine ⟨fun sock hport => ⟨hbound sock hport, ?_⟩, fun sock sock' hport hport' hne => ?_⟩
    · have hrange := h sock.port hport
      rw [hbound sock hport]
      omega
    · rw [hbound sock hport, hbound sock' hport']
      exact hne

namespace ConfigParser

/-! ## Listen directives -/

/-- What `parseListen` hands to `ft_stoi`. -/
def portText (token : Str) : Str :=
  let portPart := token.drop (StringPos.succ (find (lit ":") token))
  match find SEMICOLON token with
  | none => portPart
  | some count => portPart.take count

theorem setListen_port (server : ServerConfig) (token : Str) :
    (setListen server token).port = sizeOfInt (ftStoi (portText token)) := rfl

theorem ftStoi_range (str : Str) : intMin ≤ ftStoi str ∧ ftStoi str ≤ intMax := by
  have hlow : -((4294967296 : Nat) / 2 : Int) ≤ ftStoi str := Int.le_bmod (by decide)
  have hhigh : ftStoi str < ((4294967296 : Nat) + 1) / 2 := Int.bmod_lt (by decide)
  rw [intMin, intMax]
  omega

/-- An `int` that is a port as a `size_t` was one before. -/
theorem sizeOfInt_range_iff {n : Int} (hmin : intMin ≤ n) (hmax : n ≤ intMax) :
    1 ≤ sizeOfInt n ∧ sizeOfInt n ≤ 65535 ↔ 1 ≤ n ∧ n ≤ 65535 := by
  rw [intMin] at hmin
  rw [intMax] at hmax
  unfold sizeOfInt
  omega

/-- The server has the port of every listen directive of its block. -/
def Listens (block : ServerBlock) (server : ServerConfig) : Prop :=
  ∀ arg, .listen arg ∈ block → server.port = sizeOfInt (ftStoi (portText arg))

/-- Only a listen directive touches the port, and it must be the first one. -/
theorem ServerDirective.apply_port {memory : Memory} {s s' : ServerConfig × Nat}
    {d : ServerDirective} (h : apply memory s d = .ok s') :
    (∃ arg, d = .listen arg ∧ isSet s.2 BIT_FLAG_LISTEN = false ∧
      s'.1.port = sizeOfInt (ftStoi (portText arg))) ∨
    (∀ arg, d ≠ .listen arg) ∧ s'.1.port = s.1.port := by
  cases d with
  | listen arg =>
    obtain ⟨hset, h⟩ := ite_throw_eq_ok_iff.mp h
    obtain rfl := Except.ok.inj h
    exact Or.inl ⟨arg, rfl, Bool.eq_false_iff.mpr hset, setListen_port s.1 arg⟩
  | serverName contents =>
    obtain rfl := Except.ok.inj h
    exact Or.inr ⟨by simp, rfl⟩
  | errorPage code path =>
    obtain rfl := Except.ok.inj h
    exact Or.inr ⟨by simp, rfl⟩
  | location uri other hother =>
    obtain ⟨-, rfl⟩ := addLocation_ok h
    exact Or.inr ⟨by simp, rfl⟩
  | locationBlock uri directives =>
    obtain ⟨t, -, h⟩ := Except.bind_eq_ok_iff.mp h
    obtain ⟨-, rfl⟩ := addLocation_ok h
    exact Or.inr ⟨by simp, rfl⟩
  | _ =>
    obtain ⟨-, h⟩ := ite_throw_eq_ok_iff.mp h
    obtain rfl := Except.ok.inj h
    exact Or.inr ⟨by simp, rfl⟩

theorem Listens.step {memory : Memory} {block : ServerBlock} {d : ServerDirective}
    {s s' : ServerConfig × Nat} (hlistens : Listens block s.1) (hinv : ServerSoFar block s)
    (h : ServerDirective.apply memory s d = .ok s') : Listens (block ++ [d]) s'.1 := by
  intro arg harg
  rw [List.mem_append, List.mem_singleton] at harg
  rcases ServerDirective.apply_port h with ⟨arg', rfl, hunset, hport⟩ | ⟨hother, hport⟩
  · rcases harg with harg | heq
    · -- the flag was not set, so there was no such directive
      have hcount := hinv.counted BIT_FLAG_LISTEN (by decide)
      rw [Counted, hunset, if_neg Bool.false_ne_true, List.countP_eq_zero] at hcount
      exact absurd (decide_eq_true rfl) (hcount _ harg)
    · rw [ServerDirective.listen.inj heq]
      exact hport
  · rw [hport]
    exact hlistens arg (harg.resolve_right fun heq => hother arg heq.symm)

theorem ServerBlock.apply_listens {memory : Memory} {block : ServerBlock}
    {s : ServerConfig × Nat}
    (h : (serverLoop memory).applyAll (newServer memory, 0) block = .ok s) :
    Listens block s.1 := by
  have hstart : ServerSoFar [] (newServer memory, 0) ∧ Listens [] (newServer memory) :=
    ⟨serverSoFar_new memory, by simp [Listens]⟩
  exact ((serverLoop memory).applyAll_induction
    (P := fun ds s => ServerSoFar ds s ∧ Listens ds s.1) hstart
    (fun _ _ _ _ hinv hd => ⟨hinv.1.step hd, hinv.2.step hinv.1 hd⟩) h).2

theorem blocks_listen {memory : Nat → Memory} {blocks : List ServerBlock}
    {servers : List ServerConfig} (h : (tokensLoop memory).applyAll [] blocks = .ok servers) :
    List.Forall₂ (fun block server => ServerAccepted block server ∧ Listens block server) blocks
      servers :=
  blocks_forall₂
    (fun _ _ _ hblock hvalid => ⟨serverAccepted hblock hvalid, ServerBlock.apply_listens hblock⟩) h

/-- A block that is accepted has a listen directive. -/
theorem ServerAccepted.exists_listen {block : ServerBlock} {server : ServerConfig}
    (h : ServerAccepted block server) : ∃ arg, .listen arg ∈ block := by
  have hpos : 0 < block.countP (·.flag = BIT_FLAG_LISTEN) := by
    rw [h.listen_once]
    exact Nat.one_pos
  obtain ⟨d, hd, hflag⟩ := List.countP_pos_iff.mp hpos
  rw [decide_eq_true_iff] at hflag
  cases d with
  | listen arg => exact ⟨arg, hd⟩
  | _ => simp [ServerDirective.flag, BIT_FLAG_LISTEN, BIT_FLAG_ROOT, BIT_FLAG_BODY_LIMIT] at hflag

/-! ## Accepted configurations -/

/-- The listen directives of a block name a port from 1 to 65535. -/
def ListensInRange (block : ServerBlock) : Prop :=
  ∀ arg, .listen arg ∈ block → 1 ≤ ftStoi (portText arg) ∧ ftStoi (portText arg) ≤ 65535

theorem listensInRange_iff {block : ServerBlock} {server : ServerConfig}
    (haccepted : ServerAccepted block server) (hlistens : Listens block server) :
    1 ≤ server.port ∧ server.port ≤ 65535 ↔ ListensInRange block := by
  have hrange (arg : Str) := ftStoi_range (portText arg)
  constructor
  · intro h arg harg
    rw [hlistens arg harg] at h
    exact (sizeOfInt_range_iff (hrange arg).1 (hrange arg).2).mp h
  · intro h
    obtain ⟨arg, harg⟩ := haccepted.exists_listen
    rw [hlistens arg harg]
    exact (sizeOfInt_range_iff (hrange arg).1 (hrange arg).2).mpr (h arg harg)

theorem forall_servers_iff {blocks : List ServerBlock} {servers : List ServerConfig}
    (h : List.Forall₂ (fun block server => ServerAccepted block server ∧ Listens block server)
      blocks servers) :
    (∀ server ∈ servers, 1 ≤ server.port ∧ server.port ≤ 65535) ↔
      ∀ block ∈ blocks, ListensInRange block := by
  induction h with
  | nil => simp
  | cons hserver _ ih =>
    rw [List.forall_mem_cons, List.forall_mem_cons, ih, listensInRange_iff hserver.1 hserver.2]

/-- The ports of an accepted configuration are bound exactly when the listen directives name
ports from 1 to 65535. -/
theorem portsBound_iff_listensInRange {memory : Nat → Memory} {tokens : List Str}
    {servers : List ServerConfig} (h : parseTokens memory tokens = .ok servers) :
    (∃ blocks : List ServerBlock, tokens = blocks.flatMap ServerBlock.tokens) ∧
      ∀ blocks : List ServerBlock, tokens = blocks.flatMap ServerBlock.tokens →
        ((WebservConfig.ofServConfs servers).PortsBound ↔
          ∀ block ∈ blocks, ListensInRange block) := by
  refine ⟨exists_blocks h, fun blocks htokens => ?_⟩
  rw [htokens, parseTokens_blocks] at h
  rw [WebservConfig.portsBound_iff, ← forall_servers_iff (blocks_listen h)]
  constructor
  · intro hports server hserver
    exact hports server.port (mem_insertPorts.mpr ⟨server, hserver, rfl⟩)
  · intro hservers port hport
    obtain ⟨server, hserver, rfl⟩ := mem_insertPorts.mp hport
    exact hservers server hserver

theorem portsBound_iff_listensInRange_80 :
    ∃ servers, (∃ blocks : List ServerBlock,
        isspaceSplit (lit "server \x7b listen a:80; \x7d") = blocks.flatMap ServerBlock.tokens) ∧
      ∀ blocks : List ServerBlock,
        isspaceSplit (lit "server \x7b listen a:80; \x7d") = blocks.flatMap ServerBlock.tokens →
        ((WebservConfig.ofServConfs servers).PortsBound ↔
          ∀ block ∈ blocks, ListensInRange block) := by
  have haccepted : ∃ servers, parseTokens (fun _ => ⟨0, 0, fun _ => false⟩)
      (isspaceSplit (lit "server \x7b listen a:80; \x7d")) = .ok servers := ⟨_, rfl⟩
  obtain ⟨servers, h⟩ := haccepted
  exact ⟨servers, portsBound_iff_listensInRange h⟩

/-- 65616 is bound as 80. -/
theorem not_portsBound : ¬ ∀ memory tokens servers, parseTokens memory tokens = .ok servers →
    (WebservConfig.ofServConfs servers).PortsBound := by
  intro h
  have haccepted : ∃ server, parseTokens (fun _ => ⟨0, 0, fun _ => false⟩)
      (isspaceSplit (lit "server \x7b listen a:65616; \x7d")) = .ok [server] ∧
      server.port = 65616 := ⟨_, rfl, rfl⟩
  obtain ⟨server, hparse, hport⟩ := haccepted
  have hbound := (WebservConfig.portsBound_iff _).mp (h _ _ _ hparse) server.port
    (mem_insertPorts.mpr ⟨server, List.mem_singleton_self server, rfl⟩)
  rw [hport] at hbound
  omega

/-- Every port of an accepted configuration is an `int` that was read. -/
theorem parseTokens_portsParsed {memory : Nat → Memory} {tokens : List Str}
    {servers : List ServerConfig} (h : parseTokens memory tokens = .ok servers) :
    (WebservConfig.ofServConfs servers).PortsParsed := by
  obtain ⟨blocks, rfl⟩ := exists_blocks h
  rw [parseTokens_blocks] at h
  intro port hport
  obtain ⟨server, hserver, rfl⟩ := mem_insertPorts.mp hport
  obtain ⟨block, haccepted, hlistens⟩ := exists_rel_of_mem (blocks_listen h) hserver
  obtain ⟨arg, harg⟩ := haccepted.exists_listen
  obtain ⟨hmin, hmax⟩ := ftStoi_range (portText arg)
  exact ⟨_, hmin, hmax, hlistens arg harg⟩

end ConfigParser

end Webserv
