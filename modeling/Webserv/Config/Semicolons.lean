import Webserv.Config.Accepted
import Webserv.Config.Tokens

/-!
# The semicolon behind a directive

A list ends at the first token with a semicolon, and what is in front of that is its last element.
So a semicolon by itself adds an empty element, and the other directives leave it to the loop,
which does not know it.
-/

namespace Webserv

open Text

namespace ConfigParser

/-! ## Elements -/

/-- The elements of the three lists. -/
def locationElements (location : LocationConfig) : List Str :=
  location.allowedMethods ++ (location.indexes ++ location.cgiExtensions)

def serverElements (server : ServerConfig) : List Str :=
  server.server ++ server.locations.flatMap locationElements

namespace LocationDirective

/-- What the directive adds to a list. -/
def values : LocationDirective → List Str
  | allowedMethod contents => contents.values
  | index contents => contents.values
  | cgiExtension contents => contents.values
  | _ => []

theorem apply_elements {s s' : LocationConfig × Nat} {d : LocationDirective}
    (h : apply s d = .ok s') : (locationElements s'.1).Perm (locationElements s.1 ++ d.values) := by
  cases d with
  | allowedMethod contents =>
    obtain rfl := Except.ok.inj h
    simp only [locationElements, values, List.append_assoc]
    exact (List.perm_append_comm.trans (by rw [List.append_assoc])).append_left _
  | index contents =>
    obtain rfl := Except.ok.inj h
    simp only [locationElements, values, List.append_assoc]
    exact (List.perm_append_comm.append_left _).append_left _
  | cgiExtension contents =>
    obtain rfl := Except.ok.inj h
    simp only [locationElements, values, List.append_assoc]
    exact .refl _
  | redirect code uri =>
    obtain rfl := Except.ok.inj h
    simp only [locationElements, values, List.append_nil]
    exact .refl _
  | root arg =>
    obtain ⟨-, h⟩ := ite_throw_eq_ok_iff.mp h
    obtain rfl := Except.ok.inj h
    simp only [locationElements, values, List.append_nil]
    exact .refl _
  | autoindex arg =>
    obtain ⟨-, h⟩ := ite_throw_eq_ok_iff.mp h
    obtain ⟨on, -, h⟩ := Except.bind_eq_ok_iff.mp h
    obtain rfl := Except.ok.inj h
    simp only [locationElements, values, List.append_nil]
    exact .refl _

end LocationDirective

namespace ServerDirective

def values : ServerDirective → List Str
  | serverName contents => contents.values
  | locationBlock _ directives => directives.flatMap LocationDirective.values
  | _ => []

theorem addLocation_elements {s s' : ServerConfig × Nat} {location : LocationConfig}
    (h : addLocation s location = .ok s') :
    serverElements s'.1 = serverElements s.1 ++ locationElements location := by
  obtain ⟨-, rfl⟩ := addLocation_ok h
  simp [serverElements]

theorem apply_elements {memory : Memory} {s s' : ServerConfig × Nat} {d : ServerDirective}
    (h : apply memory s d = .ok s') :
    (serverElements s'.1).Perm (serverElements s.1 ++ d.values) := by
  cases d with
  | serverName contents =>
    obtain rfl := Except.ok.inj h
    simp only [serverElements, values, List.append_assoc]
    exact List.perm_append_comm.append_left _
  | errorPage code path =>
    obtain rfl := Except.ok.inj h
    simp only [serverElements, values, List.append_nil]
    exact .refl _
  | location uri other hother =>
    rw [addLocation_elements h]
    exact .refl _
  | locationBlock uri directives =>
    obtain ⟨t, hdirectives, h⟩ := Except.bind_eq_ok_iff.mp h
    rw [addLocation_elements h]
    exact (locationLoop.applyAll_collects (fun s => locationElements s.1)
      (fun _ _ _ => LocationDirective.apply_elements) hdirectives).append_left _
  | _ =>
    obtain ⟨-, h⟩ := ite_throw_eq_ok_iff.mp h
    obtain rfl := Except.ok.inj h
    simp only [serverElements, values, setListen, List.append_nil]
    exact .refl _

end ServerDirective

namespace ServerBlock

def values (block : ServerBlock) : List Str := block.flatMap ServerDirective.values

theorem apply_elements {memory : Nat → Memory} {servers servers' : List ServerConfig}
    {block : ServerBlock} (h : apply memory servers block = .ok servers') :
    (servers'.flatMap serverElements).Perm (servers.flatMap serverElements ++ block.values) := by
  obtain ⟨s, hdirectives, h⟩ := Except.bind_eq_ok_iff.mp h
  obtain ⟨_, -, h⟩ := Except.bind_eq_ok_iff.mp h
  obtain rfl := Except.ok.inj h
  rw [List.flatMap_append, List.flatMap_singleton]
  exact ((serverLoop _).applyAll_collects (fun s => serverElements s.1)
    (fun _ _ _ => ServerDirective.apply_elements) hdirectives).append_left _

end ServerBlock

/-- The elements of the servers are those of the directives. -/
theorem parseTokens_elements {memory : Nat → Memory} {blocks : List ServerBlock}
    {servers : List ServerConfig}
    (h : parseTokens memory (blocks.flatMap ServerBlock.tokens) = .ok servers) :
    (servers.flatMap serverElements).Perm (blocks.flatMap ServerBlock.values) := by
  rw [parseTokens_blocks] at h
  exact (tokensLoop memory).applyAll_collects (List.flatMap serverElements)
    (fun _ _ _ => ServerBlock.apply_elements) h

/-! ## Directives with a blank in front of their semicolon -/

/-- The token is the last one of a directive, with these in front of it and behind it. -/
inductive EndsAt (blocks : List ServerBlock) : List Str → Str → List Str → Prop
  | server {bs bs' : List ServerBlock} {ds ds' : List ServerDirective} {d : ServerDirective}
    {init : List Str} {last : Str} (hblocks : blocks = bs ++ (ds ++ d :: ds') :: bs')
    (htokens : d.tokens = init ++ [last]) :
    EndsAt blocks
      (bs.flatMap ServerBlock.tokens ++
        lit "server" :: LBRACE :: (ds.flatMap ServerDirective.tokens ++ init)) last
      (ds'.flatMap ServerDirective.tokens ++ RBRACE :: bs'.flatMap ServerBlock.tokens)
  | location {bs bs' : List ServerBlock} {ds ds' : List ServerDirective} {uri : Str}
    {ls ls' : List LocationDirective} {d : LocationDirective} {init : List Str} {last : Str}
    (hblocks : blocks = bs ++ (ds ++ .locationBlock uri (ls ++ d :: ls') :: ds') :: bs')
    (htokens : d.tokens = init ++ [last]) :
    EndsAt blocks
      (bs.flatMap ServerBlock.tokens ++
        lit "server" :: LBRACE :: (ds.flatMap ServerDirective.tokens ++
          lit "location" :: uri :: LBRACE :: (ls.flatMap LocationDirective.tokens ++ init))) last
      (ls'.flatMap LocationDirective.tokens ++
        RBRACE :: (ds'.flatMap ServerDirective.tokens ++
          RBRACE :: bs'.flatMap ServerBlock.tokens))

theorem EndsAt.tokens_eq {blocks : List ServerBlock} {front back : List Str} {last : Str}
    (h : EndsAt blocks front last back) :
    blocks.flatMap ServerBlock.tokens = front ++ last :: back := by
  cases h with
  | server hblocks htokens =>
    subst hblocks
    simp [ServerBlock.tokens, htokens]
  | location hblocks htokens =>
    subst hblocks
    simp [ServerBlock.tokens, ServerDirective.tokens, DirectiveLoop.text, locationLoop, htokens]

/-- A list with a blank in front of its semicolon has one more element. -/
theorem Contents.exists_respaced (contents : Contents) {a : Str} (hfree : 59 ∉ a) (b : Str) :
    ∃ contents' : Contents, contents'.tokens = contents.init ++ [a, 59 :: b] ∧
      contents'.values.length = contents.values.length + 1 := by
  have hopen : ∀ token ∈ contents.init ++ [a], find SEMICOLON token = none :=
    List.forall_mem_append.mpr
      ⟨contents.init_open, List.forall_mem_singleton.mpr (find_letter_none hfree)⟩
  have hclosed : (find SEMICOLON (59 :: b)).isSome = true := by
    have hfind : find [59] ([] ++ 59 :: b) = some ([] : Str).length :=
      find_letter List.not_mem_nil b
    rw [List.nil_append] at hfind
    rw [SEMICOLON, show lit ";" = [59] by decide, hfind]
    rfl
  refine ⟨⟨contents.init ++ [a], 59 :: b, hopen, hclosed⟩, ?_, ?_⟩
  · simp [Contents.tokens]
  · simp [Contents.values]

/-- The directive of a list with a blank in front of its semicolon. -/
theorem exists_respaced_list {δ : Type} {tokens values : δ → List Str} {keyword : Str}
    (directive : Contents → δ)
    (htokens : ∀ contents, tokens (directive contents) = keyword :: contents.tokens)
    (hvalues : ∀ contents, values (directive contents) = contents.values) {contents : Contents}
    {init : List Str} {a b : Str} (hfree : 59 ∉ a)
    (h : tokens (directive contents) = init ++ [a ++ 59 :: b]) :
    ∃ d' : δ, tokens d' = init ++ [a, 59 :: b] ∧
      (values d').length = (values (directive contents)).length + 1 := by
  rw [htokens, Contents.tokens, ← List.cons_append, List.append_singleton_inj] at h
  obtain ⟨rfl, -⟩ := h
  obtain ⟨contents', htokens', hlength⟩ := contents.exists_respaced hfree b
  refine ⟨directive contents', ?_, by rw [hvalues, hvalues, hlength]⟩
  rw [htokens, htokens']
  rfl

/-- The directive of one value without its semicolon. -/
theorem exists_respaced_value {δ : Type} {tokens : δ → List Str} (front : List Str)
    (directive : Str → δ) (htokens : ∀ arg, tokens (directive arg) = front ++ [arg]) {arg : Str}
    {init : List Str} {last : Str} (h : tokens (directive arg) = init ++ [last]) (a : Str) :
    ∃ d' : δ, tokens d' = init ++ [a] := by
  rw [htokens, List.append_singleton_inj] at h
  obtain ⟨rfl, -⟩ := h
  exact ⟨directive a, htokens a⟩

/-- A directive of a location with a blank in front of its semicolon: without the semicolon it is
a directive, or with it. -/
theorem LocationDirective.exists_respaced {d : LocationDirective} {init : List Str} {a b : Str}
    (h : d.tokens = init ++ [a ++ 59 :: b]) (hfree : 59 ∉ a) :
    (∃ d' : LocationDirective, d'.tokens = init ++ [a]) ∨
      ∃ d' : LocationDirective, d'.tokens = init ++ [a, 59 :: b] ∧
        d'.values.length = d.values.length + 1 := by
  cases d with
  | root arg =>
    exact Or.inl (exists_respaced_value [lit "root"] .root (fun _ => rfl) h a)
  | autoindex arg =>
    exact Or.inl (exists_respaced_value [lit "autoindex"] .autoindex (fun _ => rfl) h a)
  | redirect code uri =>
    exact Or.inl (exists_respaced_value [lit "return", code] (.redirect code) (fun _ => rfl) h a)
  | allowedMethod contents =>
    exact Or.inr (exists_respaced_list allowedMethod (fun _ => rfl) (fun _ => rfl) hfree h)
  | index contents =>
    exact Or.inr (exists_respaced_list index (fun _ => rfl) (fun _ => rfl) hfree h)
  | cgiExtension contents =>
    exact Or.inr (exists_respaced_list cgiExtension (fun _ => rfl) (fun _ => rfl) hfree h)

/-- The same for a server.  A token in the place of a brace may become one. -/
theorem ServerDirective.exists_respaced {d : ServerDirective} {init : List Str} {a b : Str}
    (h : d.tokens = init ++ [a ++ 59 :: b]) (hfree : 59 ∉ a) :
    (∃ d' : ServerDirective, d'.tokens = init ++ [a]) ∨
      (∃ d' : ServerDirective, d'.tokens = init ++ [a, 59 :: b] ∧
        d'.values.length = d.values.length + 1) ∨
      ∃ uri, init ++ [a] = [lit "location", uri, LBRACE] := by
  cases d with
  | listen arg =>
    exact Or.inl (exists_respaced_value [lit "listen"] .listen (fun _ => rfl) h a)
  | root arg =>
    exact Or.inl (exists_respaced_value [lit "root"] .root (fun _ => rfl) h a)
  | clientBodySizeLimit arg =>
    exact Or.inl (exists_respaced_value [lit "client_body_size_limit"] .clientBodySizeLimit
      (fun _ => rfl) h a)
  | errorPage code path =>
    exact Or.inl
      (exists_respaced_value [lit "error_page", code] (.errorPage code) (fun _ => rfl) h a)
  | serverName contents =>
    exact Or.inr (Or.inl (exists_respaced_list serverName (fun _ => rfl) (fun _ => rfl) hfree h))
  | location uri other hother =>
    obtain ⟨rfl, -⟩ := List.append_singleton_inj.mp
      (show [lit "location", uri] ++ [other] = _ from h)
    by_cases hbrace : a = LBRACE
    · exact Or.inr (Or.inr ⟨uri, by rw [hbrace]; rfl⟩)
    · exact Or.inl ⟨.location uri a hbrace, rfl⟩
  | locationBlock uri directives =>
    obtain ⟨-, hlast⟩ := List.append_singleton_inj.mp
      (show (lit "location" :: uri :: LBRACE :: locationLoop.text directives) ++ [RBRACE] = _
        from h)
    have hmem : (59 : Byte) ∈ RBRACE := by
      rw [hlast]
      exact List.mem_append_right _ (List.mem_cons_self ..)
    exact absurd hmem (by decide)

/-! ## Semicolons that the loops do not know -/

theorem semicolon_ne {keyword : Str} (h : keyword.head? ≠ some 59) (b : Str) :
    59 :: b ≠ keyword := by
  rintro rfl
  exact h rfl

theorem parseLocationLoop_semicolon (fuel : Nat) (location : LocationConfig) (flag : Nat)
    (before : List Str) (b : Str) (rest : List Str) :
    parseLocationLoop (fuel + 1) location ⟨before, (59 :: b) :: rest⟩ flag =
      throwRuntimeError "Error: Config: Syntax error." := by
  have hne {keyword : Str} (h : keyword.head? ≠ some 59) := semicolon_ne h b
  refine parseLocationLoop_error (hne (by decide)) ?_ fuel
  rw [parseLocationDirective, if_neg (hne (by decide)), if_neg (hne (by decide)),
    if_neg (hne (by decide)), if_neg (hne (by decide)), if_neg (hne (by decide)),
    if_neg (hne (by decide))]
  rfl

/-- The loop of a server does not return from here. -/
def Rejects (ts : List Str) : Prop :=
  ∀ memory fuel server before flag r,
    parseServerLoop memory (fuel + 1) server ⟨before, ts⟩ flag ≠ .ok r

theorem rejects_semicolon (b : Str) (rest : List Str) : Rejects ((59 :: b) :: rest) := by
  intro memory fuel server before flag r hr
  have hne {keyword : Str} (h : keyword.head? ≠ some 59) := semicolon_ne h b
  have hstop : parseServerDirective memory (59 :: b) server ⟨before, (59 :: b) :: rest⟩ flag =
      throwRuntimeError "Error: Config: Wrong syntax" := by
    rw [parseServerDirective, if_neg (hne (by decide)), if_neg (hne (by decide)),
      if_neg (hne (by decide)), if_neg (hne (by decide)), if_neg (hne (by decide)),
      if_neg (hne (by decide))]
  rw [parseServerLoop_error (hne (by decide)) hstop fuel] at hr
  cases hr

theorem rejects_location_semicolon (uri : Str) (ls : List LocationDirective) (b : Str)
    (rest : List Str) :
    Rejects (lit "location" :: uri :: LBRACE ::
      (ls.flatMap LocationDirective.tokens ++ (59 :: b) :: rest)) := by
  intro memory fuel server before flag r hr
  obtain ⟨left, -, hlocation⟩ := parseLocation_open memory server (lit "location" :: before) uri ls
    (List.append_ne_nil_of_right_ne_nil _ (List.cons_ne_nil (59 :: b) rest))
  rw [parseServerLoop, if_neg (List.cons_ne_nil _ _), Iter.deref_cons, Except.ok_bind,
    if_neg (by decide), parseServerDirective_location,
    show ls.flatMap LocationDirective.tokens = locationLoop.text ls from rfl, hlocation] at hr
  obtain ⟨s, hdirective, -⟩ := Except.bind_eq_ok_iff.mp hr
  obtain ⟨p, hread, -⟩ := Except.bind_eq_ok_iff.mp hdirective
  obtain ⟨t, -, hclosed⟩ := Except.bind_eq_ok_iff.mp hread
  rw [parseLocationLoop_semicolon] at hclosed
  cases hclosed

theorem Rejects.parseTokens_ne {ts : List Str} (h : Rejects ts) (memory : Nat → Memory)
    (bs : List ServerBlock) (ds : List ServerDirective) (servers : List ServerConfig) :
    parseTokens memory (bs.flatMap ServerBlock.tokens ++
      lit "server" :: LBRACE :: (ds.flatMap ServerDirective.tokens ++ ts)) ≠ .ok servers := by
  intro hr
  obtain ⟨left, -, hopen⟩ := parseTokens_open memory bs
    (lit "server" :: LBRACE :: (ds.flatMap ServerDirective.tokens ++ ts))
  rw [hopen] at hr
  obtain ⟨stored, -, hr⟩ := Except.bind_eq_ok_iff.mp hr
  rw [parseTokensLoop_open] at hr
  obtain ⟨t, hserver, -⟩ := Except.bind_eq_ok_iff.mp hr
  obtain ⟨left', -, hrun⟩ := parseServer_open (memory stored.length)
    (ServerBlock.opened memory stored)
    (LBRACE :: lit "server" :: ((bs.flatMap ServerBlock.tokens).reverse ++ [])) ds ts
  rw [hrun] at hserver
  obtain ⟨s, -, hloop⟩ := Except.bind_eq_ok_iff.mp hserver
  exact h _ left' s.1 _ s.2 t hloop

/-- With a blank in front of a semicolon the file is rejected or has one more element. -/
theorem EndsAt.respaced {blocks : List ServerBlock} {front back : List Str} {a b : Str}
    (h : EndsAt blocks front (a ++ 59 :: b) back) (hfree : 59 ∉ a) :
    (∀ memory servers, parseTokens memory (front ++ a :: (59 :: b) :: back) ≠ .ok servers) ∨
      ∃ blocks' : List ServerBlock,
        blocks'.flatMap ServerBlock.tokens = front ++ a :: (59 :: b) :: back ∧
          (blocks'.flatMap ServerBlock.values).length =
            (blocks.flatMap ServerBlock.values).length + 1 := by
  cases h with
  | @server bs bs' ds ds' d init _ hblocks htokens =>
    subst hblocks
    rcases ServerDirective.exists_respaced htokens hfree with
      ⟨d', hd'⟩ | ⟨d', hd', hlength⟩ | ⟨uri, huri⟩
    · refine Or.inl fun memory servers => ?_
      have hne := (rejects_semicolon b (ds'.flatMap ServerDirective.tokens ++
        RBRACE :: bs'.flatMap ServerBlock.tokens)).parseTokens_ne memory bs (ds ++ [d']) servers
      simpa [hd'] using hne
    · refine Or.inr ⟨bs ++ (ds ++ d' :: ds') :: bs', ?_, ?_⟩
      · simp [ServerBlock.tokens, hd']
      · simp only [ServerBlock.values, List.flatMap_append, List.flatMap_cons, List.length_append,
          hlength]
        omega
    · refine Or.inl fun memory servers => ?_
      have hne := (rejects_location_semicolon uri [] b (ds'.flatMap ServerDirective.tokens ++
        RBRACE :: bs'.flatMap ServerBlock.tokens)).parseTokens_ne memory bs ds servers
      rw [List.append_cons _ a]
      simp only [List.append_assoc, List.cons_append, huri, List.nil_append]
      exact hne
  | @location bs bs' ds ds' uri ls ls' d init _ hblocks htokens =>
    subst hblocks
    rcases LocationDirective.exists_respaced htokens hfree with ⟨d', hd'⟩ | ⟨d', hd', hlength⟩
    · refine Or.inl fun memory servers => ?_
      have hne := (rejects_location_semicolon uri (ls ++ [d']) b
        (ls'.flatMap LocationDirective.tokens ++ RBRACE :: (ds'.flatMap ServerDirective.tokens ++
          RBRACE :: bs'.flatMap ServerBlock.tokens))).parseTokens_ne memory bs ds servers
      simpa [hd'] using hne
    · refine Or.inr ⟨bs ++ (ds ++ .locationBlock uri (ls ++ d' :: ls') :: ds') :: bs', ?_, ?_⟩
      · simp [ServerBlock.tokens, ServerDirective.tokens, DirectiveLoop.text, locationLoop, hd']
      · simp only [ServerBlock.values, ServerDirective.values, List.flatMap_append,
          List.flatMap_cons, List.length_append, hlength]
        omega

/-! ## Lists -/

theorem LocationDirective.exists_contents {d : LocationDirective} {v : Str} (h : v ∈ d.values) :
    ∃ keyword, ∃ contents : Contents, d.tokens = keyword :: contents.tokens ∧
      d.values = contents.values := by
  cases d with
  | allowedMethod contents => exact ⟨_, contents, rfl, rfl⟩
  | index contents => exact ⟨_, contents, rfl, rfl⟩
  | cgiExtension contents => exact ⟨_, contents, rfl, rfl⟩
  | _ => cases h

theorem Contents.tokens_cons (contents : Contents) (keyword : Str) :
    keyword :: contents.tokens = (keyword :: contents.init) ++ [contents.last] := rfl

/-- An element belongs to a list, and the list ends a directive. -/
theorem exists_endsAt_of_value {blocks : List ServerBlock} {v : Str}
    (h : v ∈ blocks.flatMap ServerBlock.values) :
    ∃ front back, ∃ contents : Contents, EndsAt blocks front contents.last back ∧
      contents.values ⊆ blocks.flatMap ServerBlock.values := by
  obtain ⟨block, hblock, hv⟩ := List.mem_flatMap.mp h
  obtain ⟨d, hd, hvd⟩ := List.mem_flatMap.mp hv
  have hsubset : d.values ⊆ blocks.flatMap ServerBlock.values := fun w hw =>
    List.mem_flatMap.mpr ⟨block, hblock, List.mem_flatMap.mpr ⟨d, hd, hw⟩⟩
  obtain ⟨bs, bs', rfl⟩ := List.append_of_mem hblock
  obtain ⟨ds, ds', rfl⟩ := List.append_of_mem hd
  cases d with
  | serverName contents =>
    exact ⟨_, _, contents, .server rfl (contents.tokens_cons _), hsubset⟩
  | locationBlock uri directives =>
    obtain ⟨l, hl, hvl⟩ := List.mem_flatMap.mp hvd
    obtain ⟨keyword, contents, htokens, hvalues⟩ := LocationDirective.exists_contents hvl
    have hsubset' : contents.values ⊆ directives.flatMap LocationDirective.values := fun w hw =>
      List.mem_flatMap.mpr ⟨l, hl, hvalues ▸ hw⟩
    obtain ⟨ls, ls', rfl⟩ := List.append_of_mem hl
    rw [contents.tokens_cons] at htokens
    exact ⟨_, _, contents, .location rfl htokens, fun w hw => hsubset (hsubset' hw)⟩
  | _ => cases hvd

theorem Contents.exists_last (contents : Contents) :
    ∃ a b, contents.last = a ++ 59 :: b ∧ 59 ∉ a := by
  have hmem : (59 : Byte) ∈ contents.last := by
    have hinfix := find_isSome_iff.mp contents.last_closed
    exact hinfix.subset (show (59 : Byte) ∈ SEMICOLON by decide)
  exact List.eq_append_cons_of_mem hmem

/-! ## Accepted files -/

/-- No element of a list is empty. -/
def NoEmptyElement (server : ServerConfig) : Prop :=
  [] ∉ server.server ∧
    ∀ location ∈ server.locations, [] ∉ location.indexes ∧ [] ∉ location.cgiExtensions

/-- White space in front of the semicolon that ends a directive changes nothing. -/
def SpacingKept (memory : Nat → Memory) (text : Str) (servers : List ServerConfig) : Prop :=
  ∀ blocks front a b back before after blanks, EndsAt blocks front (a ++ 59 :: b) back → 59 ∉ a →
    TokenAt text front before (a ++ 59 :: b) after back →
    blanks ≠ [] → (∀ c ∈ blanks, isspace c = true) →
      parseTokens memory (isspaceSplit (before ++ a ++ blanks ++ 59 :: b ++ after)) = .ok servers

/-- The directives have no lists, and a semicolon that ends one stands at the head of its token. -/
structure PlainBlocks (blocks : List ServerBlock) : Prop where
  noLists : blocks.flatMap ServerBlock.values = []
  apart : ∀ front a b back, EndsAt blocks front (a ++ 59 :: b) back → 59 ∉ a → a = []

section

variable {memory : Nat → Memory} {servers : List ServerConfig} {blocks : List ServerBlock}
  (h : parseTokens memory (blocks.flatMap ServerBlock.tokens) = .ok servers)

include h

theorem nil_notMem_elements (hne : ∀ server ∈ servers, NoEmptyElement server) :
    [] ∉ servers.flatMap serverElements := by
  intro hmem
  obtain ⟨server, hserver, hmem⟩ := List.mem_flatMap.mp hmem
  obtain ⟨hnames, hlocations⟩ := hne server hserver
  rcases List.mem_append.mp hmem with hmem | hmem
  · exact hnames hmem
  obtain ⟨location, hlocation, hmem⟩ := List.mem_flatMap.mp hmem
  obtain ⟨hindexes, hextensions⟩ := hlocations location hlocation
  rcases List.mem_append.mp hmem with hmem | hmem
  · -- an empty method is not accepted
    rw [parseTokens_blocks] at h
    obtain ⟨block, haccepted⟩ := exists_rel_of_mem (blocks_accepted h) hserver
    obtain ⟨ds, hlocation'⟩ := exists_rel_of_mem haccepted.locations hlocation
    exact absurd (hlocation'.allowedMethods [] hmem) (by decide)
  · rcases List.mem_append.mp hmem with hmem | hmem
    · exact hindexes hmem
    · exact hextensions hmem

theorem noEmptyElement_of_noLists (hnone : blocks.flatMap ServerBlock.values = []) :
    ∀ server ∈ servers, NoEmptyElement server := by
  have helements := parseTokens_elements h
  rw [hnone, List.perm_nil, List.flatMap_eq_nil_iff] at helements
  intro server hserver
  have hserver' := helements server hserver
  rw [serverElements, List.append_eq_nil_iff, List.flatMap_eq_nil_iff] at hserver'
  refine ⟨by rw [hserver'.1]; exact List.not_mem_nil, fun location hlocation => ?_⟩
  have hlocation' := hserver'.2 location hlocation
  rw [locationElements, List.append_eq_nil_iff, List.append_eq_nil_iff] at hlocation'
  rw [hlocation'.2.1, hlocation'.2.2]
  exact ⟨List.not_mem_nil, List.not_mem_nil⟩

end

/-- A file that is accepted has no empty elements and does not depend on white space in front of
its semicolons if and only if it has no lists and all its semicolons stand apart already. -/
theorem spacingKept_iff {memory : Nat → Memory} {text : Str} {servers : List ServerConfig}
    (h : parseTokens memory (isspaceSplit text) = .ok servers) :
    ((∀ server ∈ servers, NoEmptyElement server) ∧ SpacingKept memory text servers) ↔
      ∀ blocks : List ServerBlock, isspaceSplit text = blocks.flatMap ServerBlock.tokens →
        PlainBlocks blocks := by
  constructor
  · rintro ⟨hne, hkept⟩ blocks htext
    rw [htext] at h
    have hapart : ∀ front a b back, EndsAt blocks front (a ++ 59 :: b) back → 59 ∉ a → a = [] := by
      intro front a b back hends hfree
      by_contra ha
      obtain ⟨before, after, hat⟩ := exists_tokenAt (htext.trans hends.tokens_eq)
      have hblank : ∀ c ∈ ([32] : Str), isspace c = true := List.forall_mem_singleton.mpr rfl
      have hne' : ([32] : Str) ≠ [] := List.cons_ne_nil _ _
      have hparse := hkept blocks front a b back before after [32] hends hfree hat hne' hblank
      rw [hat.cut ha (List.cons_ne_nil _ _) hblank hne'] at hparse
      rcases hends.respaced hfree with hrejects | ⟨blocks', htokens, hlength⟩
      · exact hrejects memory servers hparse
      · rw [← htokens] at hparse
        have hold := (parseTokens_elements h).length_eq
        have hnew := (parseTokens_elements hparse).length_eq
        omega
    refine ⟨List.eq_nil_iff_forall_not_mem.mpr fun v hv => ?_, hapart⟩
    obtain ⟨front, back, contents, hends, hvalues⟩ := exists_endsAt_of_value hv
    obtain ⟨a, b, hlast, hfree⟩ := contents.exists_last
    rw [hlast] at hends
    obtain rfl := hapart front a b back hends hfree
    have hempty : upTo SEMICOLON contents.last = [] := by
      rw [hlast]
      exact upTo_letter List.not_mem_nil b
    have hmem : [] ∈ contents.values := by
      rw [Contents.values, hempty]
      exact List.mem_append_right _ (List.mem_singleton_self _)
    exact nil_notMem_elements h hne ((parseTokens_elements h).mem_iff.mpr (hvalues hmem))
  · intro hplain
    obtain ⟨blocks, htext⟩ := exists_blocks h
    have hblocks := hplain blocks htext
    constructor
    · rw [htext] at h
      exact noEmptyElement_of_noLists h hblocks.noLists
    · intro blocks' front a b back before after blanks hends hfree hat hne hblanks
      have htokens := hat.isspaceSplit_eq.trans hends.tokens_eq.symm
      obtain rfl := (hplain blocks' htokens).apart front a b back hends hfree
      have hpadded := hat.padded hblanks
      rw [List.nil_append] at hpadded
      rw [List.append_nil, hpadded]
      exact h

theorem spacingKept_iff_listen :
    ∃ servers, parseTokens (fun _ => ⟨0, 0, fun _ => false⟩)
        (isspaceSplit (lit "server \x7b listen a:80; \x7d")) = .ok servers ∧
      (((∀ server ∈ servers, NoEmptyElement server) ∧
          SpacingKept (fun _ => ⟨0, 0, fun _ => false⟩) (lit "server \x7b listen a:80; \x7d")
            servers) ↔
        ∀ blocks : List ServerBlock,
          isspaceSplit (lit "server \x7b listen a:80; \x7d") = blocks.flatMap ServerBlock.tokens →
            PlainBlocks blocks) := by
  have haccepted : ∃ servers, parseTokens (fun _ => ⟨0, 0, fun _ => false⟩)
      (isspaceSplit (lit "server \x7b listen a:80; \x7d")) = .ok servers := ⟨_, rfl⟩
  obtain ⟨servers, h⟩ := haccepted
  exact ⟨servers, h, spacingKept_iff h⟩

/-- A blank in front of the semicolon adds an empty server name. -/
theorem not_spacingKept :
    ¬ ∀ memory text servers, parseTokens memory (isspaceSplit text) = .ok servers →
      (∀ server ∈ servers, NoEmptyElement server) ∧ SpacingKept memory text servers := by
  intro h
  have haccepted : ∃ server : ServerConfig, [] ∈ server.server ∧
      parseTokens (fun _ => ⟨0, 0, fun _ => false⟩)
        (isspaceSplit (lit "server \x7b listen a:80; server_name a ; \x7d")) = .ok [server] :=
    ⟨_, List.mem_cons_of_mem _ (List.mem_singleton_self _), rfl⟩
  obtain ⟨server, hempty, haccepted⟩ := haccepted
  obtain ⟨hne, -⟩ := h _ _ _ haccepted
  exact (hne server (List.mem_singleton_self _)).1 hempty

end ConfigParser

end Webserv
