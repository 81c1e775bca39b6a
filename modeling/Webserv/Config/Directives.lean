import Webserv.Config.ConfigParser
import Webserv.Control.DirectiveLoop

/-!
# The directives of a configuration

A configuration is a list of server blocks, a server block is a list of directives, and one of
these is the location block with directives of its own.  Each of the three loops of the parser
runs over such a list.
-/

namespace Webserv

open Text

namespace ConfigParser

/-! ## Lists of tokens -/

/-- A list that a directive takes: its last token is the first one with a semicolon. -/
structure Contents where
  init : List Str
  last : Str
  init_open : ∀ token ∈ init, find SEMICOLON token = none
  last_closed : (find SEMICOLON last).isSome = true

namespace Contents

def tokens (contents : Contents) : List Str := contents.init ++ [contents.last]

def values (contents : Contents) : List Str := contents.init ++ [upTo SEMICOLON contents.last]

/-- A text has a list at its head, or no semicolon at all. -/
theorem cases_tokens (ts : List Str) :
    (∀ token ∈ ts, find SEMICOLON token = none) ∨
      ∃ (contents : Contents) (rest : List Str), ts = contents.tokens ++ rest := by
  induction ts with
  | nil => exact Or.inl (by simp)
  | cons token ts ih =>
    cases htoken : find SEMICOLON token with
    | some pos =>
      exact Or.inr ⟨⟨[], token, by simp, by rw [htoken]; rfl⟩, ts, rfl⟩
    | none =>
      rcases ih with hopen | ⟨contents, rest, rfl⟩
      · exact Or.inl (List.forall_mem_cons.mpr ⟨htoken, hopen⟩)
      · refine Or.inr ⟨⟨token :: contents.init, contents.last, ?_, contents.last_closed⟩, rest, rfl⟩
        exact List.forall_mem_cons.mpr ⟨htoken, contents.init_open⟩

end Contents

theorem countFrom_contents (contents : Contents) (rest : List Str) :
    countFrom (contents.tokens ++ rest) = .ok (contents.init.length + 1) := by
  obtain ⟨init, last, hopen, hclosed⟩ := contents
  rw [Contents.tokens]
  induction init with
  | nil => simp [countFrom, hclosed]
  | cons token init ih =>
    rw [List.forall_mem_cons] at hopen
    have hcount := ih hopen.2
    dsimp only at hcount ⊢
    rw [List.cons_append, List.cons_append, countFrom, hopen.1, hcount]
    rfl

/-- Without a semicolon the count runs past the end. -/
theorem countFrom_open {ts : List Str} (h : ∀ token ∈ ts, find SEMICOLON token = none) :
    countFrom ts = .error .pastEnd := by
  induction ts with
  | nil => rfl
  | cons token ts ih =>
    rw [List.forall_mem_cons] at h
    rw [countFrom, h.1, ih h.2]
    rfl

theorem pushContents_eq (values : List Str) (before : List Str) (ts rest : List Str) :
    pushContents ts.length values ⟨before, ts ++ rest⟩ =
      .ok (values ++ ts.map (upTo SEMICOLON), ⟨ts.reverse ++ before, rest⟩) := by
  induction ts generalizing values before with
  | nil => simp [pushContents]
  | cons token ts ih =>
    rw [List.length_cons, pushContents]
    change pushContents ts.length (values ++ [upTo SEMICOLON token])
      ⟨token :: before, ts ++ rest⟩ = _
    rw [ih]
    simp

theorem upTo_of_none {sep str : Str} (h : find sep str = none) : upTo sep str = str := by
  rw [upTo, h]

theorem find_letter {c : Byte} {a : Str} (h : c ∉ a) (b : Str) :
    find [c] (a ++ c :: b) = some a.length := by
  refine (find_eq_some_iff (List.cons_ne_nil _ _)).mpr ⟨a, b, rfl, rfl, fun hin => h ?_⟩
  exact (List.append_nil a) ▸ hin.subset (List.mem_singleton_self c)

theorem find_letter_none {c : Byte} {a : Str} (h : c ∉ a) : find [c] a = none :=
  find_eq_none_iff.mpr fun hin => h (hin.subset (List.mem_singleton_self c))

theorem upTo_letter {c : Byte} {a : Str} (h : c ∉ a) (b : Str) : upTo [c] (a ++ c :: b) = a := by
  rw [upTo, find_letter h]
  exact List.take_left' rfl

theorem Contents.map_upTo (contents : Contents) :
    contents.tokens.map (upTo SEMICOLON) = contents.values := by
  rw [tokens, List.map_append, List.map_singleton, values]
  congr 1
  conv_rhs => rw [← List.map_id contents.init]
  exact List.map_congr_left fun token htoken => upTo_of_none (contents.init_open token htoken)

/-- The iterator is left at the last token of the list. -/
theorem parseContents_eq (values before : List Str) (contents : Contents) (rest : List Str) :
    parseContents values ⟨before, contents.tokens ++ rest⟩ =
      .ok (values ++ contents.values,
        ⟨contents.init.reverse ++ before, contents.last :: rest⟩) := by
  have hlen : contents.init.length + 1 = contents.tokens.length := by
    rw [Contents.tokens, List.length_append, List.length_singleton]
  rw [parseContents, countContents, countFrom_contents, Except.ok_bind, hlen, pushContents_eq,
    Except.ok_bind, contents.map_upTo]
  dsimp only
  rw [Contents.tokens, List.reverse_append]
  rfl

theorem parseContents_open (values before : List Str) {ts : List Str}
    (h : ∀ token ∈ ts, find SEMICOLON token = none) :
    parseContents values ⟨before, ts⟩ = .error .pastEnd := by
  rw [parseContents, countContents, countFrom_open h]
  rfl

/-! ## Directives of a location -/

inductive LocationDirective
  | root (arg : Str)
  | allowedMethod (contents : Contents)
  | index (contents : Contents)
  | autoindex (arg : Str)
  | cgiExtension (contents : Contents)
  | redirect (code uri : Str)

namespace LocationDirective

def tokens : LocationDirective → List Str
  | root arg => [lit "root", arg]
  | allowedMethod contents => lit "allowed_method" :: contents.tokens
  | index contents => lit "index" :: contents.tokens
  | autoindex arg => [lit "autoindex", arg]
  | cgiExtension contents => lit "cgi_extension" :: contents.tokens
  | redirect code uri => [lit "return", code, uri]

/-- The effect on a location and its flags. -/
def apply (s : LocationConfig × Nat) : LocationDirective → Except Stop (LocationConfig × Nat)
  | root arg =>
    if isSet s.2 BIT_FLAG_LOC_ROOT then
      throwRuntimeError "Error: Config: Duplicated root in location"
    else .ok ({ s.1 with root := upTo SEMICOLON arg }, s.2 ||| BIT_FLAG_LOC_ROOT)
  | allowedMethod contents =>
    .ok ({ s.1 with allowedMethods := s.1.allowedMethods ++ contents.values }, s.2)
  | index contents => .ok ({ s.1 with indexes := s.1.indexes ++ contents.values }, s.2)
  | autoindex arg =>
    if isSet s.2 BIT_FLAG_AUTOINDEX then
      throwRuntimeError "Error: Config: Duplicated autoindex"
    else do
      let on ← readSwitch arg
      return ({ s.1 with autoindex := on }, s.2 ||| BIT_FLAG_AUTOINDEX)
  | cgiExtension contents =>
    .ok ({ s.1 with cgiExtensions := s.1.cgiExtensions ++ contents.values }, s.2)
  | redirect code uri =>
    .ok ({ s.1 with redirect := s.1.redirect.insertIfNew (ftStoi code) (upTo SEMICOLON uri) }, s.2)

end LocationDirective

/-! The function that a keyword of a location selects, and what is done with its result. -/

section

variable (location : LocationConfig) (before ts : List Str) (flag : Nat)

theorem parseLocationDirective_root :
    parseLocationDirective (lit "root") location ⟨before, lit "root" :: ts⟩ flag =
      parseLocationRoot location ⟨lit "root" :: before, ts⟩ flag >>= fun s =>
        .ok (s.1, ⟨lit "root" :: before, ts⟩, s.2) := rfl

theorem parseLocationDirective_allowedMethod :
    parseLocationDirective (lit "allowed_method") location ⟨before, lit "allowed_method" :: ts⟩
        flag =
      parseLocationAllowedMethods location ⟨lit "allowed_method" :: before, ts⟩ >>= fun s =>
        .ok (s.1, s.2, flag) := rfl

theorem parseLocationDirective_index :
    parseLocationDirective (lit "index") location ⟨before, lit "index" :: ts⟩ flag =
      parseLocationIndexes location ⟨lit "index" :: before, ts⟩ >>= fun s =>
        .ok (s.1, s.2, flag) := rfl

theorem parseLocationDirective_autoindex :
    parseLocationDirective (lit "autoindex") location ⟨before, lit "autoindex" :: ts⟩ flag =
      parseLocationAutoindexes location ⟨lit "autoindex" :: before, ts⟩ flag >>= fun s =>
        .ok (s.1, ⟨lit "autoindex" :: before, ts⟩, s.2) := rfl

theorem parseLocationDirective_cgiExtension :
    parseLocationDirective (lit "cgi_extension") location ⟨before, lit "cgi_extension" :: ts⟩
        flag =
      parseLocationCGIExtension location ⟨lit "cgi_extension" :: before, ts⟩ >>= fun s =>
        .ok (s.1, s.2, flag) := rfl

theorem parseLocationDirective_return :
    parseLocationDirective (lit "return") location ⟨before, lit "return" :: ts⟩ flag =
      parseLocationRedirect location ⟨lit "return" :: before, ts⟩ >>= fun s =>
        .ok (s.1, s.2, flag) := rfl

end

/-- The directive is read as its effect says, and the iterator left at its last token. -/
theorem parseLocationDirective_eq (location : LocationConfig) (flag : Nat) (before : List Str)
    (d : LocationDirective) (rest : List Str) :
    ∃ keyword args init last, d.tokens = keyword :: args ∧ keyword ≠ RBRACE ∧
      d.tokens = init ++ [last] ∧
      parseLocationDirective keyword location ⟨before, d.tokens ++ rest⟩ flag =
        LocationDirective.apply (location, flag) d >>= fun s' =>
          .ok (s'.1, ⟨init.reverse ++ before, last :: rest⟩, s'.2) := by
  cases d with
  | root arg =>
    refine ⟨_, _, [lit "root"], arg, rfl, by decide, rfl, ?_⟩
    refine (parseLocationDirective_root location before (arg :: rest) flag).trans ?_
    rw [LocationDirective.apply]
    cases hset : isSet flag BIT_FLAG_LOC_ROOT with
    | true => simp [parseLocationRoot, hset, throwRuntimeError]
    | false => simp [parseLocationRoot, hset]
  | allowedMethod contents =>
    refine ⟨_, _, lit "allowed_method" :: contents.init, contents.last, rfl, by decide, rfl, ?_⟩
    refine (parseLocationDirective_allowedMethod location before (contents.tokens ++ rest)
      flag).trans ?_
    simp [LocationDirective.apply, parseLocationAllowedMethods, parseContents_eq]
  | index contents =>
    refine ⟨_, _, lit "index" :: contents.init, contents.last, rfl, by decide, rfl, ?_⟩
    refine (parseLocationDirective_index location before (contents.tokens ++ rest) flag).trans ?_
    simp [LocationDirective.apply, parseLocationIndexes, parseContents_eq]
  | autoindex arg =>
    refine ⟨_, _, [lit "autoindex"], arg, rfl, by decide, rfl, ?_⟩
    refine (parseLocationDirective_autoindex location before (arg :: rest) flag).trans ?_
    rw [LocationDirective.apply]
    cases hset : isSet flag BIT_FLAG_AUTOINDEX with
    | true => simp [parseLocationAutoindexes, hset, throwRuntimeError]
    | false =>
      cases hswitch : readSwitch arg with
      | error e => simp [parseLocationAutoindexes, hset, hswitch]
      | ok on => simp [parseLocationAutoindexes, hset, hswitch]
  | cgiExtension contents =>
    refine ⟨_, _, lit "cgi_extension" :: contents.init, contents.last, rfl, by decide, rfl, ?_⟩
    refine (parseLocationDirective_cgiExtension location before (contents.tokens ++ rest)
      flag).trans ?_
    simp [LocationDirective.apply, parseLocationCGIExtension, parseContents_eq]
  | redirect code uri =>
    refine ⟨_, _, [lit "return", code], uri, rfl, by decide, rfl, ?_⟩
    refine (parseLocationDirective_return location before (code :: uri :: rest) flag).trans ?_
    simp [LocationDirective.apply, parseLocationRedirect, parseCodeAndPath]

/-- One round of the loop, with the `++it` behind it. -/
theorem parseLocationLoop_step (fuel : Nat) (s : LocationConfig × Nat) (before : List Str)
    (d : LocationDirective) (rest : List Str) :
    parseLocationLoop (fuel + 1) s.1 ⟨before, d.tokens ++ rest⟩ s.2 =
      LocationDirective.apply s d >>= fun s' =>
        parseLocationLoop fuel s'.1 ⟨d.tokens.reverse ++ before, rest⟩ s'.2 := by
  obtain ⟨location, flag⟩ := s
  obtain ⟨keyword, args, init, last, hhead, hbrace, hlast, hparse⟩ :=
    parseLocationDirective_eq location flag before d rest
  have hderef : (⟨before, d.tokens ++ rest⟩ : Iter).deref = .ok keyword := by
    rw [hhead]
    rfl
  rw [parseLocationLoop, if_neg (by simp [hhead]), hderef, Except.ok_bind, if_neg hbrace, hparse]
  cases LocationDirective.apply (location, flag) d with
  | error e => rfl
  | ok s' =>
    rw [Except.ok_bind, Except.ok_bind, hlast, List.reverse_append]
    rfl

def locationLoop :
    DirectiveLoop Str LocationDirective (LocationConfig × Nat) Stop (LocationConfig × Iter) where
  tokens := LocationDirective.tokens
  apply := LocationDirective.apply
  loop := fun fuel s before after => parseLocationLoop fuel s.1 ⟨before, after⟩ s.2
  tokens_ne_nil := fun d => by cases d <;> exact List.cons_ne_nil _ _
  step := parseLocationLoop_step

theorem parseLocationLoop_close (fuel : Nat) (location : LocationConfig) (flag : Nat)
    (before rest : List Str) :
    parseLocationLoop (fuel + 1) location ⟨before, RBRACE :: rest⟩ flag =
      .ok (location, ⟨before, RBRACE :: rest⟩) := rfl

theorem parseLocationLoop_end (fuel : Nat) (location : LocationConfig) (flag : Nat)
    (before : List Str) :
    parseLocationLoop (fuel + 1) location ⟨before, []⟩ flag = .ok (location, ⟨before, []⟩) := rfl

/-! ## Directives of a server -/

inductive ServerDirective
  | listen (arg : Str)
  | serverName (contents : Contents)
  | root (arg : Str)
  | errorPage (code path : Str)
  | clientBodySizeLimit (arg : Str)
  /-- no block follows, and the token in its place is skipped -/
  | location (uri other : Str) (other_ne : other ≠ LBRACE)
  | locationBlock (uri : Str) (directives : List LocationDirective)

/-- The location that is begun by the next location directive of a server. -/
def openedLocation (memory : Memory) (server : ServerConfig) (uri : Str) : LocationConfig :=
  { newLocation (memory.autoindex server.locations.length) with location := uri }

/-- A location block, up to a place inside it or behind it. -/
theorem parseLocation_open (memory : Memory) (server : ServerConfig) (before : List Str)
    (uri : Str) (ds : List LocationDirective) {rest : List Str}
    (hne : locationLoop.text ds ++ rest ≠ []) :
    ∃ left, rest.length < left + 1 ∧
      parseLocation (newLocation (memory.autoindex server.locations.length))
          ⟨before, uri :: LBRACE :: (locationLoop.text ds ++ rest)⟩ =
        locationLoop.applyAll (openedLocation memory server uri, 0) ds >>= fun s =>
          parseLocationLoop (left + 1) s.1
            ⟨(locationLoop.text ds).reverse ++ LBRACE :: uri :: before, rest⟩ s.2 := by
  obtain ⟨left, hleft, hrun⟩ := locationLoop.run_of_fuel ds (Nat.lt_succ_self _)
    (openedLocation memory server uri, 0) (LBRACE :: uri :: before)
  refine ⟨left, hleft, ?_⟩
  rw [parseLocation, Iter.deref_cons, Except.ok_bind, Iter.next_cons, Except.ok_bind,
    Iter.deref_cons, Except.ok_bind, if_pos rfl, Iter.next_cons, Except.ok_bind]
  dsimp only
  rw [if_neg hne]
  exact hrun

def addLocation (s : ServerConfig × Nat) (location : LocationConfig) :
    Except Stop (ServerConfig × Nat) := do
  locationValidate location
  return ({ s.1 with locations := s.1.locations ++ [location] }, s.2)

namespace ServerDirective

def tokens : ServerDirective → List Str
  | listen arg => [lit "listen", arg]
  | serverName contents => lit "server_name" :: contents.tokens
  | root arg => [lit "root", arg]
  | errorPage code path => [lit "error_page", code, path]
  | clientBodySizeLimit arg => [lit "client_body_size_limit", arg]
  | location uri other _ => [lit "location", uri, other]
  | locationBlock uri directives =>
    lit "location" :: uri :: LBRACE :: (locationLoop.text directives ++ [RBRACE])

/-- The effect on a server and its flags. -/
def apply (memory : Memory) (s : ServerConfig × Nat) :
    ServerDirective → Except Stop (ServerConfig × Nat)
  | listen arg =>
    if isSet s.2 BIT_FLAG_LISTEN then throwRuntimeError "Error: Config: Duplicated listen"
    else .ok (setListen s.1 arg, s.2 ||| BIT_FLAG_LISTEN)
  | serverName contents => .ok ({ s.1 with server := s.1.server ++ contents.values }, s.2)
  | root arg =>
    if isSet s.2 BIT_FLAG_ROOT then throwRuntimeError "Error: Config: Duplicated root"
    else .ok ({ s.1 with root := upTo SEMICOLON arg }, s.2 ||| BIT_FLAG_ROOT)
  | errorPage code path =>
    .ok ({ s.1 with
      errorPages := s.1.errorPages.insertIfNew (ftStoi code) (upTo SEMICOLON path) }, s.2)
  | clientBodySizeLimit arg =>
    if isSet s.2 BIT_FLAG_BODY_LIMIT then
      throwRuntimeError "Error: Config: Duplicated client_body_size_limit"
    else
      .ok ({ s.1 with clientBodySizeLimit := sizeOfInt (ftStoi arg) },
        s.2 ||| BIT_FLAG_BODY_LIMIT)
  | location uri _ _ => addLocation s (openedLocation memory s.1 uri)
  | locationBlock uri directives => do
    let (loc, _) ← locationLoop.applyAll (openedLocation memory s.1 uri, 0) directives
    addLocation s loc

end ServerDirective

/-! The function that a keyword of a server selects. -/

section

variable (memory : Memory) (server : ServerConfig) (before ts : List Str) (flag : Nat)

theorem parseServerDirective_listen :
    parseServerDirective memory (lit "listen") server ⟨before, lit "listen" :: ts⟩ flag =
      parseListen server ⟨lit "listen" :: before, ts⟩ flag >>= fun s =>
        .ok (s.1, ⟨lit "listen" :: before, ts⟩, s.2) := rfl

theorem parseServerDirective_serverName :
    parseServerDirective memory (lit "server_name") server ⟨before, lit "server_name" :: ts⟩ flag =
      parseServerName server ⟨lit "server_name" :: before, ts⟩ >>= fun s =>
        .ok (s.1, s.2, flag) := rfl

theorem parseServerDirective_root :
    parseServerDirective memory (lit "root") server ⟨before, lit "root" :: ts⟩ flag =
      parseRoot server ⟨lit "root" :: before, ts⟩ flag >>= fun s =>
        .ok (s.1, ⟨lit "root" :: before, ts⟩, s.2) := rfl

theorem parseServerDirective_errorPage :
    parseServerDirective memory (lit "error_page") server ⟨before, lit "error_page" :: ts⟩ flag =
      parseErrorPages server ⟨lit "error_page" :: before, ts⟩ >>= fun s =>
        .ok (s.1, s.2, flag) := rfl

theorem parseServerDirective_clientBodySizeLimit :
    parseServerDirective memory (lit "client_body_size_limit") server
        ⟨before, lit "client_body_size_limit" :: ts⟩ flag =
      parseClientBodySizeLimit server ⟨lit "client_body_size_limit" :: before, ts⟩ flag >>= fun s =>
        .ok (s.1, ⟨lit "client_body_size_limit" :: before, ts⟩, s.2) := rfl

theorem parseServerDirective_location :
    parseServerDirective memory (lit "location") server ⟨before, lit "location" :: ts⟩ flag =
      parseLocation (newLocation (memory.autoindex server.locations.length))
          ⟨lit "location" :: before, ts⟩ >>= fun r =>
        addLocation (server, flag) r.1 >>= fun s => .ok (s.1, r.2, s.2) := by
  rw [parseServerDirective, if_neg (by decide), if_neg (by decide), if_neg (by decide),
    if_neg (by decide), if_neg (by decide), if_pos rfl, Iter.next_cons, Except.ok_bind]
  refine bind_congr fun r => ?_
  dsimp only [addLocation]
  cases locationValidate r.1 with
  | error e => rfl
  | ok _ => rfl

end

/-- The directive is read as its effect says, and the iterator left at its last token. -/
theorem parseServerDirective_eq (memory : Memory) (server : ServerConfig) (flag : Nat)
    (before : List Str) (d : ServerDirective) (rest : List Str) :
    ∃ keyword args init last, d.tokens = keyword :: args ∧ keyword ≠ RBRACE ∧
      d.tokens = init ++ [last] ∧
      parseServerDirective memory keyword server ⟨before, d.tokens ++ rest⟩ flag =
        ServerDirective.apply memory (server, flag) d >>= fun s' =>
          .ok (s'.1, ⟨init.reverse ++ before, last :: rest⟩, s'.2) := by
  cases d with
  | listen arg =>
    refine ⟨_, _, [lit "listen"], arg, rfl, by decide, rfl, ?_⟩
    refine (parseServerDirective_listen memory server before (arg :: rest) flag).trans ?_
    rw [ServerDirective.apply]
    cases hset : isSet flag BIT_FLAG_LISTEN with
    | true => simp [parseListen, hset, throwRuntimeError]
    | false => simp [parseListen, hset]
  | serverName contents =>
    refine ⟨_, _, lit "server_name" :: contents.init, contents.last, rfl, by decide, rfl, ?_⟩
    refine (parseServerDirective_serverName memory server before (contents.tokens ++ rest)
      flag).trans ?_
    simp [ServerDirective.apply, parseServerName, parseContents_eq]
  | root arg =>
    refine ⟨_, _, [lit "root"], arg, rfl, by decide, rfl, ?_⟩
    refine (parseServerDirective_root memory server before (arg :: rest) flag).trans ?_
    rw [ServerDirective.apply]
    cases hset : isSet flag BIT_FLAG_ROOT with
    | true => simp [parseRoot, hset, throwRuntimeError]
    | false => simp [parseRoot, hset]
  | errorPage code path =>
    refine ⟨_, _, [lit "error_page", code], path, rfl, by decide, rfl, ?_⟩
    refine (parseServerDirective_errorPage memory server before (code :: path :: rest)
      flag).trans ?_
    simp [ServerDirective.apply, parseErrorPages, parseCodeAndPath]
  | clientBodySizeLimit arg =>
    refine ⟨_, _, [lit "client_body_size_limit"], arg, rfl, by decide, rfl, ?_⟩
    refine (parseServerDirective_clientBodySizeLimit memory server before (arg :: rest)
      flag).trans ?_
    rw [ServerDirective.apply]
    cases hset : isSet flag BIT_FLAG_BODY_LIMIT with
    | true => simp [parseClientBodySizeLimit, hset, throwRuntimeError]
    | false => simp [parseClientBodySizeLimit, hset]
  | location uri other hother =>
    refine ⟨_, _, [lit "location", uri], other, rfl, by decide, rfl, ?_⟩
    refine (parseServerDirective_location memory server before (uri :: other :: rest) flag).trans ?_
    have hlocation : parseLocation (newLocation (memory.autoindex server.locations.length))
        ⟨lit "location" :: before, uri :: other :: rest⟩ =
          .ok (openedLocation memory server uri,
            ⟨uri :: lit "location" :: before, other :: rest⟩) := by
      rw [parseLocation, Iter.deref_cons, Except.ok_bind, Iter.next_cons, Except.ok_bind,
        Iter.deref_cons, Except.ok_bind, if_neg hother]
      rfl
    rw [hlocation, Except.ok_bind, ServerDirective.apply]
    rfl
  | locationBlock uri directives =>
    refine ⟨_, _, lit "location" :: uri :: LBRACE :: locationLoop.text directives, RBRACE, rfl,
      by decide, by simp [ServerDirective.tokens], ?_⟩
    have hne : locationLoop.text directives ++ RBRACE :: rest ≠ [] := by simp
    obtain ⟨left, -, hlocation⟩ := parseLocation_open memory server (lit "location" :: before) uri
      directives hne
    rw [ServerDirective.tokens, List.cons_append, List.cons_append, List.cons_append,
      List.append_assoc, List.singleton_append, parseServerDirective_location, hlocation,
      ServerDirective.apply]
    cases locationLoop.applyAll (openedLocation memory server uri, 0) directives with
    | error e => rfl
    | ok s =>
      rw [Except.ok_bind, parseLocationLoop_close, Except.ok_bind, Except.ok_bind]
      simp

theorem parseServerLoop_step (memory : Memory) (fuel : Nat) (s : ServerConfig × Nat)
    (before : List Str) (d : ServerDirective) (rest : List Str) :
    parseServerLoop memory (fuel + 1) s.1 ⟨before, d.tokens ++ rest⟩ s.2 =
      ServerDirective.apply memory s d >>= fun s' =>
        parseServerLoop memory fuel s'.1 ⟨d.tokens.reverse ++ before, rest⟩ s'.2 := by
  obtain ⟨server, flag⟩ := s
  obtain ⟨keyword, args, init, last, hhead, hbrace, hlast, hparse⟩ :=
    parseServerDirective_eq memory server flag before d rest
  have hderef : (⟨before, d.tokens ++ rest⟩ : Iter).deref = .ok keyword := by
    rw [hhead]
    rfl
  rw [parseServerLoop, if_neg (by simp [hhead]), hderef, Except.ok_bind, if_neg hbrace, hparse]
  cases ServerDirective.apply memory (server, flag) d with
  | error e => rfl
  | ok s' =>
    rw [Except.ok_bind, Except.ok_bind, hlast, List.reverse_append]
    rfl

def serverLoop (memory : Memory) :
    DirectiveLoop Str ServerDirective (ServerConfig × Nat) Stop (ServerConfig × Iter × Nat) where
  tokens := ServerDirective.tokens
  apply := ServerDirective.apply memory
  loop := fun fuel s before after => parseServerLoop memory fuel s.1 ⟨before, after⟩ s.2
  tokens_ne_nil := fun d => by cases d <;> exact List.cons_ne_nil _ _
  step := parseServerLoop_step memory

theorem parseServerLoop_close (memory : Memory) (fuel : Nat) (server : ServerConfig) (flag : Nat)
    (before rest : List Str) :
    parseServerLoop memory (fuel + 1) server ⟨before, RBRACE :: rest⟩ flag =
      .ok (server, ⟨before, RBRACE :: rest⟩, flag) := rfl

/-! ## Server blocks -/

/-- The directives between the braces. -/
abbrev ServerBlock := List ServerDirective

namespace ServerBlock

def tokens (block : ServerBlock) : List Str :=
  lit "server" :: LBRACE :: (block.flatMap ServerDirective.tokens ++ [RBRACE])

/-- The server that is begun by the next block. -/
def opened (memory : Nat → Memory) (servers : List ServerConfig) : ServerConfig × Nat :=
  (newServer (memory servers.length), 0)

/-- The effect on the servers that are stored. -/
def apply (memory : Nat → Memory) (servers : List ServerConfig) (block : ServerBlock) :
    Except Stop (List ServerConfig) := do
  let (server, flag) ← (serverLoop (memory servers.length)).applyAll (opened memory servers) block
  serverValidate server flag
  return servers ++ [server]

end ServerBlock

/-- A server block, up to a place inside it or behind it. -/
theorem parseServer_open (memory : Memory) (s : ServerConfig × Nat) (before : List Str)
    (block : ServerBlock) (rest : List Str) :
    ∃ left, rest.length < left + 1 ∧
      parseServer memory s.1 ⟨before, block.flatMap ServerDirective.tokens ++ rest⟩ s.2 =
        (serverLoop memory).applyAll s block >>= fun s' =>
          parseServerLoop memory (left + 1) s'.1
            ⟨(block.flatMap ServerDirective.tokens).reverse ++ before, rest⟩ s'.2 :=
  (serverLoop memory).run_of_fuel block (Nat.lt_succ_self _) s before

/-- The head of a server block. -/
theorem parseTokensLoop_open (memory : Nat → Memory) (fuel : Nat) (servers : List ServerConfig)
    (before rest : List Str) :
    parseTokensLoop memory (fuel + 1) servers ⟨before, lit "server" :: LBRACE :: rest⟩ =
      parseServer (memory servers.length) (ServerBlock.opened memory servers).1
          ⟨LBRACE :: lit "server" :: before, rest⟩
          (ServerBlock.opened memory servers).2 >>= fun r =>
        serverValidate r.1 r.2.2 >>= fun _ =>
          r.2.1.next >>= fun it => parseTokensLoop memory fuel (servers ++ [r.1]) it := by
  rw [parseTokensLoop, if_neg (List.cons_ne_nil _ _), Iter.deref_cons, Except.ok_bind, if_pos rfl,
    Iter.next_cons, Except.ok_bind, Iter.deref_cons, Except.ok_bind, if_pos rfl, Iter.next_cons,
    Except.ok_bind]
  rfl

theorem parseTokensLoop_step (memory : Nat → Memory) (fuel : Nat) (servers : List ServerConfig)
    (before : List Str) (block : ServerBlock) (rest : List Str) :
    parseTokensLoop memory (fuel + 1) servers ⟨before, block.tokens ++ rest⟩ =
      ServerBlock.apply memory servers block >>= fun servers' =>
        parseTokensLoop memory fuel servers' ⟨block.tokens.reverse ++ before, rest⟩ := by
  obtain ⟨left, -, hserver⟩ := parseServer_open (memory servers.length)
    (ServerBlock.opened memory servers) (LBRACE :: lit "server" :: before) block
    (RBRACE :: rest)
  have htokens : block.tokens ++ rest =
      lit "server" :: LBRACE :: (block.flatMap ServerDirective.tokens ++ RBRACE :: rest) := by
    simp [ServerBlock.tokens]
  have hreverse : block.tokens.reverse ++ before =
      RBRACE :: ((block.flatMap ServerDirective.tokens).reverse ++
        LBRACE :: lit "server" :: before) := by
    simp [ServerBlock.tokens]
  rw [htokens, parseTokensLoop_open, hserver, ServerBlock.apply, hreverse]
  cases (serverLoop (memory servers.length)).applyAll (ServerBlock.opened memory servers) block with
  | error e => rfl
  | ok s =>
    simp only [Except.ok_bind, parseServerLoop_close, Iter.next_cons]
    cases serverValidate s.1 s.2 with
    | error e => rfl
    | ok _ => rfl

def tokensLoop (memory : Nat → Memory) :
    DirectiveLoop Str ServerBlock (List ServerConfig) Stop (List ServerConfig) where
  tokens := ServerBlock.tokens
  apply := ServerBlock.apply memory
  loop := fun fuel servers before after => parseTokensLoop memory fuel servers ⟨before, after⟩
  tokens_ne_nil := fun _ => List.cons_ne_nil _ _
  step := parseTokensLoop_step memory

/-- A file, up to a place inside it or behind it. -/
theorem parseTokens_open (memory : Nat → Memory) (blocks : List ServerBlock) (rest : List Str) :
    ∃ left, rest.length < left + 1 ∧
      parseTokens memory (blocks.flatMap ServerBlock.tokens ++ rest) =
        (tokensLoop memory).applyAll [] blocks >>= fun servers =>
          parseTokensLoop memory (left + 1) servers
            ⟨(blocks.flatMap ServerBlock.tokens).reverse ++ [], rest⟩ :=
  (tokensLoop memory).run_of_fuel blocks (Nat.lt_succ_self _) [] []

end ConfigParser

end Webserv
