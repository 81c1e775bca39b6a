import Webserv.Config.Accepted

/-!
# Files made of files

No check of `ConfigParser` goes beyond one server block.  A file that follows an accepted one is
read as if it stood alone, and a file is accepted if and only if it is made of files with one
server each.
-/

namespace Webserv

open Text

namespace ConfigParser

/-- The memory that is left behind this many servers. -/
def behind (memory : Nat → Memory) (n : Nat) (i : Nat) : Memory := memory (n + i)

/-- The block does not look at the servers that are stored. -/
theorem ServerBlock.apply_behind (memory : Nat → Memory) (servers : List ServerConfig)
    (block : ServerBlock) :
    ServerBlock.apply memory servers block =
      (ServerBlock.apply (behind memory servers.length) [] block).map (servers ++ ·) := by
  have hmemory : behind memory servers.length ([] : List ServerConfig).length =
      memory servers.length := rfl
  rw [ServerBlock.apply, ServerBlock.apply, ServerBlock.opened, ServerBlock.opened, hmemory]
  cases (serverLoop (memory servers.length)).applyAll (newServer (memory servers.length), 0)
    block with
  | error e => rfl
  | ok s =>
    obtain ⟨server, flag⟩ := s
    rw [Except.ok_bind, Except.ok_bind]
    dsimp only
    cases serverValidate server flag <;> rfl

theorem apply_eq_ok {memory : Nat → Memory} {servers servers' : List ServerConfig}
    {block : ServerBlock} (h : ServerBlock.apply memory servers block = .ok servers') :
    ∃ server, servers' = servers ++ [server] := by
  obtain ⟨s, -, h⟩ := Except.bind_eq_ok_iff.mp h
  obtain ⟨_, -, h⟩ := Except.bind_eq_ok_iff.mp h
  exact ⟨s.1, (Except.ok.inj h).symm⟩

/-- Neither do several blocks. -/
theorem applyAll_behind (memory : Nat → Memory) (servers : List ServerConfig)
    (blocks : List ServerBlock) :
    (tokensLoop memory).applyAll servers blocks =
      ((tokensLoop (behind memory servers.length)).applyAll [] blocks).map (servers ++ ·) := by
  induction blocks generalizing memory servers with
  | nil =>
    rw [DirectiveLoop.applyAll_nil, DirectiveLoop.applyAll_nil, Except.map, List.append_nil]
  | cons block blocks ih =>
    have happly : (tokensLoop memory).apply servers block =
        ((tokensLoop (behind memory servers.length)).apply [] block).map (servers ++ ·) :=
      ServerBlock.apply_behind memory servers block
    rw [DirectiveLoop.applyAll_cons, DirectiveLoop.applyAll_cons, happly]
    rcases hblock : (tokensLoop (behind memory servers.length)).apply [] block with e | servers'
    · rfl
    · obtain ⟨server, rfl⟩ := apply_eq_ok hblock
      have hmemory : behind memory (servers ++ [server]).length =
          behind (behind memory servers.length) [server].length := by
        funext i
        rw [behind, behind, behind, List.length_append, Nat.add_assoc]
      change (tokensLoop memory).applyAll (servers ++ [server]) blocks =
        ((tokensLoop (behind memory servers.length)).applyAll [server] blocks).map (servers ++ ·)
      rw [ih memory, ih (behind memory servers.length), hmemory]
      cases (tokensLoop (behind (behind memory servers.length) [server].length)).applyAll []
        blocks with
      | error e => rfl
      | ok rest => rw [Except.map, Except.map, Except.map, List.append_assoc]

/-- Behind complete blocks only complete blocks are accepted. -/
theorem exists_blocks_behind {memory : Nat → Memory} {blocks : List ServerBlock}
    {tokens : List Str} {servers : List ServerConfig}
    (h : parseTokens memory (blocks.flatMap ServerBlock.tokens ++ tokens) = .ok servers) :
    ∃ more : List ServerBlock, tokens = more.flatMap ServerBlock.tokens := by
  obtain ⟨more, rest, htokens, hstuck⟩ := (tokensLoop memory).exists_text tokens
  have htext : tokens = more.flatMap ServerBlock.tokens ++ rest := htokens
  obtain ⟨left, -, hrun⟩ := parseTokens_open memory (blocks ++ more) rest
  rw [List.flatMap_append, List.append_assoc, ← htext, h] at hrun
  obtain ⟨servers', -, hrest⟩ := Except.bind_eq_ok_iff.mp hrun.symm
  rcases tokens_stuck hstuck left servers' ((blocks.flatMap ServerBlock.tokens ++
    more.flatMap ServerBlock.tokens).reverse ++ []) with rfl | hcut | ⟨e, hthrows⟩
  · exact ⟨more, htext.trans (List.append_nil _)⟩
  · rw [hcut.pastEnd] at hrest
    cases hrest
  · rw [hthrows] at hrest
    cases hrest

/-- What follows an accepted file is read as if it stood alone. -/
theorem parseTokens_append {memory : Nat → Memory} {first second : List Str}
    {servers servers' : List ServerConfig} (h : parseTokens memory first = .ok servers) :
    parseTokens memory (first ++ second) = .ok servers' ↔
      ∃ more, parseTokens (behind memory servers.length) second = .ok more ∧
        servers' = servers ++ more := by
  obtain ⟨blocks, rfl⟩ := exists_blocks h
  rw [parseTokens_blocks] at h
  have hsecond : ∀ more : List ServerBlock,
      parseTokens memory (blocks.flatMap ServerBlock.tokens ++ more.flatMap ServerBlock.tokens) =
        (parseTokens (behind memory servers.length) (more.flatMap ServerBlock.tokens)).map
          (servers ++ ·) := by
    intro more
    rw [← List.flatMap_append, parseTokens_blocks, parseTokens_blocks,
      DirectiveLoop.applyAll_append, h, Except.ok_bind, applyAll_behind]
  constructor
  · intro happend
    obtain ⟨more, rfl⟩ := exists_blocks_behind happend
    rw [hsecond] at happend
    rcases hmore : parseTokens (behind memory servers.length)
      (more.flatMap ServerBlock.tokens) with e | stored
    · rw [hmore] at happend
      cases happend
    · rw [hmore] at happend
      exact ⟨stored, rfl, (Except.ok.inj happend).symm⟩
  · rintro ⟨stored, hmore, rfl⟩
    obtain ⟨more, rfl⟩ := exists_blocks hmore
    rw [hsecond, hmore]
    rfl

/-! ## Files with one server -/

/-- One server for every block. -/
theorem length_of_applyAll {memory : Nat → Memory} {blocks : List ServerBlock}
    {servers : List ServerConfig} (h : (tokensLoop memory).applyAll [] blocks = .ok servers) :
    servers.length = blocks.length := by
  refine (tokensLoop memory).applyAll_induction
    (P := fun blocks servers => servers.length = blocks.length) rfl
    (fun blocks block stored stored' hlength happly => ?_) h
  obtain ⟨server, rfl⟩ := apply_eq_ok happly
  rw [List.length_append, List.length_append, hlength]
  rfl

theorem parseTokens_eq_singleton_iff {memory : Nat → Memory} {tokens : List Str}
    {server : ServerConfig} :
    parseTokens memory tokens = .ok [server] ↔
      ∃ block : ServerBlock, tokens = block.tokens ∧
        ServerBlock.apply memory [] block = .ok [server] := by
  have hblock : ∀ block : ServerBlock, (tokensLoop memory).applyAll [] [block] =
      ServerBlock.apply memory [] block := by
    intro block
    rw [DirectiveLoop.applyAll_cons]
    change ServerBlock.apply memory [] block >>= _ = _
    cases ServerBlock.apply memory [] block <;> rfl
  constructor
  · intro h
    obtain ⟨blocks, rfl⟩ := exists_blocks h
    rw [parseTokens_blocks] at h
    obtain ⟨block, rfl⟩ := List.length_eq_one_iff.mp (length_of_applyAll h).symm
    exact ⟨block, List.flatMap_singleton _ _, (hblock block).symm.trans h⟩
  · rintro ⟨block, rfl, h⟩
    have htokens : block.tokens = [block].flatMap ServerBlock.tokens :=
      (List.flatMap_singleton _ _).symm
    rw [htokens, parseTokens_blocks, hblock, h]

/-- A file with one server uses the memory of the first server. -/
theorem parseTokens_singleton_congr {memory memory' : Nat → Memory} (h : memory 0 = memory' 0)
    {tokens : List Str} {server : ServerConfig}
    (hone : parseTokens memory tokens = .ok [server]) :
    parseTokens memory' tokens = .ok [server] := by
  obtain ⟨block, rfl, happly⟩ := parseTokens_eq_singleton_iff.mp hone
  refine parseTokens_eq_singleton_iff.mpr ⟨block, rfl, ?_⟩
  rw [ServerBlock.apply, ServerBlock.opened] at happly ⊢
  exact h ▸ happly

/-- The file begins with a file of one server. -/
theorem exists_first_file {memory : Nat → Memory} {tokens : List Str} {server : ServerConfig}
    {servers : List ServerConfig} (h : parseTokens memory tokens = .ok (server :: servers)) :
    ∃ file rest, tokens = file ++ rest ∧ parseTokens memory file = .ok [server] ∧
      parseTokens (behind memory 1) rest = .ok servers := by
  obtain ⟨blocks, rfl⟩ := exists_blocks h
  have happlied := (parseTokens_blocks memory blocks).symm.trans h
  obtain ⟨block, blocks, rfl⟩ := List.exists_cons_of_length_eq_add_one
    (length_of_applyAll happlied).symm
  rw [DirectiveLoop.applyAll_cons] at happlied
  obtain ⟨stored, happly, -⟩ := Except.bind_eq_ok_iff.mp happlied
  obtain ⟨first, rfl⟩ := apply_eq_ok happly
  have hfile : parseTokens memory block.tokens = .ok [first] :=
    parseTokens_eq_singleton_iff.mpr ⟨block, rfl, happly⟩
  rw [List.flatMap_cons, parseTokens_append hfile] at h
  obtain ⟨more, hmore, heq⟩ := h
  obtain ⟨rfl, rfl⟩ := List.cons.inj heq
  exact ⟨_, _, List.flatMap_cons, hfile, hmore⟩

/-- A file is accepted if and only if it is made of files that are accepted alone, with one server
each; these are its servers. -/
theorem parseTokens_eq_ok_iff (memory : Nat → Memory) (tokens : List Str)
    (servers : List ServerConfig) :
    parseTokens memory tokens = .ok servers ↔
      ∃ files : List (List Str), tokens = files.flatten ∧ files.length = servers.length ∧
        ∀ i file server, files[i]? = some file → servers[i]? = some server →
          parseTokens (fun _ => memory i) file = .ok [server] := by
  induction servers generalizing memory tokens with
  | nil =>
    constructor
    · intro h
      obtain ⟨blocks, rfl⟩ := exists_blocks h
      rw [parseTokens_blocks] at h
      rw [List.length_eq_zero_iff.mp (length_of_applyAll h).symm]
      exact ⟨[], rfl, rfl, fun i file server hfile => by simp at hfile⟩
    · rintro ⟨files, rfl, hlength, -⟩
      rw [List.length_eq_zero_iff.mp hlength]
      rfl
  | cons server servers ih =>
    constructor
    · intro h
      obtain ⟨file, rest, rfl, hfile, hrest⟩ := exists_first_file h
      obtain ⟨files, rfl, hlength, hfiles⟩ := (ih (behind memory 1) rest).mp hrest
      refine ⟨file :: files, rfl, congrArg (· + 1) hlength, fun i file' server' => ?_⟩
      cases i with
      | zero =>
        intro hfile' hserver'
        rw [← Option.some.inj hfile', ← Option.some.inj hserver']
        exact @parseTokens_singleton_congr memory (fun _ => memory 0) rfl _ _ hfile
      | succ i =>
        intro hfile' hserver'
        have hi := hfiles i file' server' hfile' hserver'
        rwa [behind, Nat.add_comm] at hi
    · rintro ⟨files, rfl, hlength, hfiles⟩
      obtain ⟨file, files, rfl⟩ := List.exists_cons_of_length_eq_add_one hlength
      have hfile : parseTokens memory file = .ok [server] :=
        @parseTokens_singleton_congr (fun _ => memory 0) memory rfl _ _
          (hfiles 0 file server rfl rfl)
      have hrest : parseTokens (behind memory 1) files.flatten = .ok servers := by
        refine (ih (behind memory 1) _).mpr ⟨files, rfl, by simpa using hlength, ?_⟩
        intro i file' server' hfile' hserver'
        rw [behind, Nat.add_comm]
        exact hfiles (i + 1) file' server' hfile' hserver'
      rw [List.flatten_cons, parseTokens_append hfile]
      exact ⟨servers, hrest, rfl⟩

end ConfigParser

end Webserv
