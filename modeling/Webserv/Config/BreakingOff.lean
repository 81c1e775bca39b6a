import Webserv.Config.Directives

/-!
# Where a configuration may break off

The sub-parsers of a directive do not know where the tokens end.  They stay inside the tokens
unless the file ends in the middle of a directive, or in a location block without its `}`.
-/

namespace Webserv

open Text

namespace ConfigParser

def Throws {α : Type} (r : Except Stop α) : Prop := ∃ e, r = .error (.thrown e)

/-- The call returns or throws. -/
def Ends {α : Type} (r : Except Stop α) : Prop := (∃ a, r = .ok a) ∨ Throws r

theorem Ends.ok {α : Type} (a : α) : Ends (.ok a : Except Stop α) := Or.inl ⟨a, rfl⟩

theorem Ends.thrown {α : Type} (e : Exn) : Ends (.error (.thrown e) : Except Stop α) :=
  Or.inr ⟨e, rfl⟩

theorem Throws.bind {α β : Type} {x : Except Stop α} (hx : Throws x) (f : α → Except Stop β) :
    Throws (x >>= f) := by
  obtain ⟨e, rfl⟩ := hx
  exact ⟨e, rfl⟩

theorem Ends.bind {α β : Type} {x : Except Stop α} {f : α → Except Stop β} (hx : Ends x)
    (hf : ∀ a, x = .ok a → Ends (f a)) : Ends (x >>= f) := by
  rcases hx with ⟨a, rfl⟩ | ⟨e, rfl⟩
  · exact hf a rfl
  · exact .thrown e

theorem Ends.ite {α : Type} {c : Prop} [Decidable c] {x y : Except Stop α} (hx : Ends x)
    (hy : Ends y) : Ends (if c then x else y) := by
  split
  · exact hx
  · exact hy

theorem not_ends_pastEnd {α : Type} : ¬ Ends (.error .pastEnd : Except Stop α) := by
  rintro (⟨a, h⟩ | ⟨e, h⟩) <;> cases h

/-! ## Effects -/

theorem Ends.applyAll {δ σ ρ : Type} (l : DirectiveLoop Str δ σ Stop ρ)
    (h : ∀ s d, Ends (l.apply s d)) (s : σ) (ds : List δ) : Ends (l.applyAll s ds) := by
  induction ds generalizing s with
  | nil => exact .ok s
  | cons d ds ih =>
    rw [l.applyAll_cons]
    exact (h s d).bind fun s' _ => ih s'

theorem readSwitch_ends (token : Str) : Ends (readSwitch token) :=
  .ite (.ok _) (.ite (.ok _) (.thrown _))

theorem LocationDirective.apply_ends (s : LocationConfig × Nat) (d : LocationDirective) :
    Ends (apply s d) := by
  cases d with
  | root arg => exact .ite (.thrown _) (.ok _)
  | autoindex arg =>
    exact .ite (.thrown _) ((readSwitch_ends arg).bind fun on _ => .ok _)
  | _ => exact .ok _

theorem locationValidate_ends (location : LocationConfig) : Ends (locationValidate location) :=
  .ite (.thrown _) (.ite (.thrown _) (.ite (.thrown _) (.ok _)))

theorem isValidErrorPagesLoop_ends (entries : List (Int × Str)) :
    Ends (isValidErrorPagesLoop entries) := by
  induction entries with
  | nil => exact .ok _
  | cons entry rest ih =>
    obtain ⟨code, path⟩ := entry
    cases path with
    | nil => exact .thrown _
    | cons c path => exact .ite (.ok _) ih

theorem serverValidate_ends (server : ServerConfig) (flag : Nat) :
    Ends (serverValidate server flag) := by
  refine .ite (.thrown _) (.ite (.thrown _) (.ite (.thrown _) ?_))
  exact (isValidErrorPagesLoop_ends _).bind fun valid _ =>
    .ite (.thrown _) (.ite (.thrown _) (.ok _))

theorem addLocation_ends (s : ServerConfig × Nat) (location : LocationConfig) :
    Ends (addLocation s location) :=
  (locationValidate_ends location).bind fun _ _ => .ok _

theorem ServerDirective.apply_ends (memory : Memory) (s : ServerConfig × Nat)
    (d : ServerDirective) : Ends (apply memory s d) := by
  cases d with
  | listen arg => exact .ite (.thrown _) (.ok _)
  | root arg => exact .ite (.thrown _) (.ok _)
  | clientBodySizeLimit arg => exact .ite (.thrown _) (.ok _)
  | location uri other hother => exact addLocation_ends s _
  | locationBlock uri directives =>
    exact (Ends.applyAll locationLoop LocationDirective.apply_ends _ _).bind fun s' _ =>
      addLocation_ends s _
  | _ => exact .ok _

theorem ServerBlock.apply_ends (memory : Nat → Memory) (servers : List ServerConfig)
    (block : ServerBlock) : Ends (apply memory servers block) :=
  (Ends.applyAll (serverLoop _) (ServerDirective.apply_ends _) _ _).bind fun _ _ =>
    (serverValidate_ends _ _).bind fun _ _ => .ok _

/-! ## Inside a location -/

/-- A directive of a location that is cut off. -/
inductive LocationCut (flag : Nat) : List Str → Prop
  | root : isSet flag BIT_FLAG_LOC_ROOT = false → LocationCut flag [lit "root"]
  | autoindex : isSet flag BIT_FLAG_AUTOINDEX = false → LocationCut flag [lit "autoindex"]
  | contents (keyword : Str) (ts : List Str) :
    keyword ∈ [lit "allowed_method", lit "index", lit "cgi_extension"] →
    (∀ token ∈ ts, find SEMICOLON token = none) → LocationCut flag (keyword :: ts)
  | redirect : LocationCut flag [lit "return"]
  | redirectCode (code : Str) : LocationCut flag [lit "return", code]

theorem parseLocationLoop_error {keyword : Str} (hkeyword : keyword ≠ RBRACE) {stop : Stop}
    {location : LocationConfig} {before ts : List Str} {flag : Nat}
    (h : parseLocationDirective keyword location ⟨before, keyword :: ts⟩ flag = .error stop)
    (fuel : Nat) :
    parseLocationLoop (fuel + 1) location ⟨before, keyword :: ts⟩ flag = .error stop := by
  rw [parseLocationLoop, if_neg (List.cons_ne_nil _ _), Iter.deref_cons, Except.ok_bind,
    if_neg hkeyword, h]
  rfl

theorem LocationCut.pastEnd {flag : Nat} {ts : List Str} (h : LocationCut flag ts) (fuel : Nat)
    (location : LocationConfig) (before : List Str) :
    parseLocationLoop (fuel + 1) location ⟨before, ts⟩ flag = .error .pastEnd := by
  cases h with
  | root hset =>
    refine parseLocationLoop_error (by decide) ?_ fuel
    rw [parseLocationDirective_root]
    simp [parseLocationRoot, hset]
  | autoindex hset =>
    refine parseLocationLoop_error (by decide) ?_ fuel
    rw [parseLocationDirective_autoindex]
    simp [parseLocationAutoindexes, hset]
  | contents keyword ts hkeyword hopen =>
    simp only [List.mem_cons, List.not_mem_nil, or_false] at hkeyword
    rcases hkeyword with rfl | rfl | rfl
    · refine parseLocationLoop_error (by decide) ?_ fuel
      rw [parseLocationDirective_allowedMethod]
      simp [parseLocationAllowedMethods, parseContents_open _ _ hopen]
    · refine parseLocationLoop_error (by decide) ?_ fuel
      rw [parseLocationDirective_index]
      simp [parseLocationIndexes, parseContents_open _ _ hopen]
    · refine parseLocationLoop_error (by decide) ?_ fuel
      rw [parseLocationDirective_cgiExtension]
      simp [parseLocationCGIExtension, parseContents_open _ _ hopen]
  | redirect =>
    refine parseLocationLoop_error (by decide) ?_ fuel
    rw [parseLocationDirective_return]
    simp [parseLocationRedirect, parseCodeAndPath]
  | redirectCode code =>
    refine parseLocationLoop_error (by decide) ?_ fuel
    rw [parseLocationDirective_return]
    simp [parseLocationRedirect, parseCodeAndPath]

theorem parseLocationLoop_throws {keyword : Str} (hkeyword : keyword ≠ RBRACE) (msg : String)
    {location : LocationConfig} {before ts : List Str} {flag : Nat}
    (h : parseLocationDirective keyword location ⟨before, keyword :: ts⟩ flag =
      throwRuntimeError msg) (fuel : Nat) :
    Throws (parseLocationLoop (fuel + 1) location ⟨before, keyword :: ts⟩ flag) :=
  ⟨_, parseLocationLoop_error hkeyword h fuel⟩

/-- A list directive that is not complete. -/
theorem locationCut_of_contents {keyword : Str}
    (hkeyword : keyword ∈ [lit "allowed_method", lit "index", lit "cgi_extension"])
    (directive : Contents → LocationDirective)
    (htokens : ∀ contents, (directive contents).tokens = keyword :: contents.tokens)
    {ts : List Str} (h : locationLoop.Stuck (keyword :: ts)) (flag : Nat) :
    LocationCut flag (keyword :: ts) := by
  rcases Contents.cases_tokens ts with hopen | ⟨contents, rest, rfl⟩
  · exact .contents keyword ts hkeyword hopen
  · refine absurd ?_ (h (directive contents) rest)
    rw [show locationLoop.tokens (directive contents) = _ from htokens contents]
    rfl

/-- What may stand behind the last complete directive of a location. -/
theorem location_stuck {rest : List Str} (h : locationLoop.Stuck rest) :
    rest = [] ∨ (∃ tail, rest = RBRACE :: tail) ∨
      ∀ fuel location before flag, LocationCut flag rest ∨
        Throws (parseLocationLoop (fuel + 1) location ⟨before, rest⟩ flag) := by
  cases rest with
  | nil => exact Or.inl rfl
  | cons token ts =>
    by_cases hclose : token = RBRACE
    · exact Or.inr (Or.inl ⟨ts, by rw [hclose]⟩)
    refine Or.inr (Or.inr fun fuel location before flag => ?_)
    by_cases hroot : token = lit "root"
    · subst hroot
      cases ts with
      | cons arg ts => exact absurd rfl (h (.root arg) ts)
      | nil =>
        cases hset : isSet flag BIT_FLAG_LOC_ROOT with
        | false => exact Or.inl (.root hset)
        | true =>
          refine Or.inr (parseLocationLoop_throws (by decide)
            "Error: Config: Duplicated root in location" ?_ fuel)
          rw [parseLocationDirective_root]
          simp [parseLocationRoot, hset, throwRuntimeError]
    by_cases hmethod : token = lit "allowed_method"
    · subst hmethod
      exact Or.inl (locationCut_of_contents (by simp) .allowedMethod (fun _ => rfl) h flag)
    by_cases hindex : token = lit "index"
    · subst hindex
      exact Or.inl (locationCut_of_contents (by simp) .index (fun _ => rfl) h flag)
    by_cases hautoindex : token = lit "autoindex"
    · subst hautoindex
      cases ts with
      | cons arg ts => exact absurd rfl (h (.autoindex arg) ts)
      | nil =>
        cases hset : isSet flag BIT_FLAG_AUTOINDEX with
        | false => exact Or.inl (.autoindex hset)
        | true =>
          refine Or.inr (parseLocationLoop_throws (by decide)
            "Error: Config: Duplicated autoindex" ?_ fuel)
          rw [parseLocationDirective_autoindex]
          simp [parseLocationAutoindexes, hset, throwRuntimeError]
    by_cases hextension : token = lit "cgi_extension"
    · subst hextension
      exact Or.inl (locationCut_of_contents (by simp) .cgiExtension (fun _ => rfl) h flag)
    by_cases hreturn : token = lit "return"
    · subst hreturn
      rcases ts with _ | ⟨code, _ | ⟨uri, ts⟩⟩
      · exact Or.inl .redirect
      · exact Or.inl (.redirectCode code)
      · exact absurd rfl (h (.redirect code uri) ts)
    refine Or.inr (parseLocationLoop_throws hclose "Error: Config: Syntax error." ?_ fuel)
    rw [parseLocationDirective, if_neg hroot, if_neg hmethod, if_neg hindex, if_neg hautoindex,
      if_neg hextension, if_neg hreturn]

/-! ## Inside a server -/

/-- A directive of a server that is cut off. -/
inductive ServerCut (memory : Memory) (s : ServerConfig × Nat) : List Str → Prop
  | value (keyword : Str) (bit : Nat) :
    (keyword, bit) ∈ [(lit "listen", BIT_FLAG_LISTEN), (lit "root", BIT_FLAG_ROOT),
      (lit "client_body_size_limit", BIT_FLAG_BODY_LIMIT)] →
    isSet s.2 bit = false → ServerCut memory s [keyword]
  | serverName (ts : List Str) : (∀ token ∈ ts, find SEMICOLON token = none) →
    ServerCut memory s (lit "server_name" :: ts)
  | errorPage : ServerCut memory s [lit "error_page"]
  | errorPageCode (code : Str) : ServerCut memory s [lit "error_page", code]
  | location : ServerCut memory s [lit "location"]
  | locationUri (uri : Str) : ServerCut memory s [lit "location", uri]
  /-- a location block without its `}` -/
  | unclosed (uri : Str) (ds : List LocationDirective) (s' : LocationConfig × Nat) : ds ≠ [] →
    locationLoop.applyAll (openedLocation memory s.1 uri, 0) ds = .ok s' →
    locationValidate s'.1 = .ok () →
    ServerCut memory s (lit "location" :: uri :: LBRACE :: locationLoop.text ds)
  /-- a directive of a location -/
  | block (uri : Str) (ds : List LocationDirective) (s' : LocationConfig × Nat) (ts : List Str) :
    locationLoop.applyAll (openedLocation memory s.1 uri, 0) ds = .ok s' →
    LocationCut s'.2 ts →
    ServerCut memory s (lit "location" :: uri :: LBRACE :: (locationLoop.text ds ++ ts))

theorem parseServerLoop_error {memory : Memory} {keyword : Str} (hkeyword : keyword ≠ RBRACE)
    {stop : Stop} {server : ServerConfig} {before ts : List Str} {flag : Nat}
    (h : parseServerDirective memory keyword server ⟨before, keyword :: ts⟩ flag = .error stop)
    (fuel : Nat) :
    parseServerLoop memory (fuel + 1) server ⟨before, keyword :: ts⟩ flag = .error stop := by
  rw [parseServerLoop, if_neg (List.cons_ne_nil _ _), Iter.deref_cons, Except.ok_bind,
    if_neg hkeyword, h]
  rfl

theorem parseServerLoop_throws {memory : Memory} {keyword : Str} (hkeyword : keyword ≠ RBRACE)
    (msg : String) {server : ServerConfig} {before ts : List Str} {flag : Nat}
    (h : parseServerDirective memory keyword server ⟨before, keyword :: ts⟩ flag =
      throwRuntimeError msg) (fuel : Nat) :
    Throws (parseServerLoop memory (fuel + 1) server ⟨before, keyword :: ts⟩ flag) :=
  ⟨_, parseServerLoop_error hkeyword h fuel⟩

/-- The location is read up to the end of the tokens, and the loop goes on behind it. -/
theorem parseServerLoop_atEnd {memory : Memory} {keyword : Str} (hkeyword : keyword ≠ RBRACE)
    {server server' : ServerConfig} {before before' ts : List Str} {flag flag' : Nat}
    (h : parseServerDirective memory keyword server ⟨before, keyword :: ts⟩ flag =
      .ok (server', ⟨before', []⟩, flag')) (fuel : Nat) :
    parseServerLoop memory (fuel + 1) server ⟨before, keyword :: ts⟩ flag = .error .pastEnd := by
  rw [parseServerLoop, if_neg (List.cons_ne_nil _ _), Iter.deref_cons, Except.ok_bind,
    if_neg hkeyword, h]
  rfl

theorem ServerCut.pastEnd {memory : Memory} {s : ServerConfig × Nat} {ts : List Str}
    (h : ServerCut memory s ts) (fuel : Nat) (before : List Str) :
    parseServerLoop memory (fuel + 1) s.1 ⟨before, ts⟩ s.2 = .error .pastEnd := by
  obtain ⟨server, flag⟩ := s
  cases h with
  | value keyword bit hkeyword hset =>
    simp only [List.mem_cons, Prod.mk.injEq, List.not_mem_nil, or_false] at hkeyword
    dsimp only at hset
    rcases hkeyword with ⟨rfl, rfl⟩ | ⟨rfl, rfl⟩ | ⟨rfl, rfl⟩
    · refine parseServerLoop_error (by decide) ?_ fuel
      rw [parseServerDirective_listen]
      simp [parseListen, hset]
    · refine parseServerLoop_error (by decide) ?_ fuel
      rw [parseServerDirective_root]
      simp [parseRoot, hset]
    · refine parseServerLoop_error (by decide) ?_ fuel
      rw [parseServerDirective_clientBodySizeLimit]
      simp [parseClientBodySizeLimit, hset]
  | serverName ts hopen =>
    refine parseServerLoop_error (by decide) ?_ fuel
    rw [parseServerDirective_serverName]
    simp [parseServerName, parseContents_open _ _ hopen]
  | errorPage =>
    refine parseServerLoop_error (by decide) ?_ fuel
    rw [parseServerDirective_errorPage]
    simp [parseErrorPages, parseCodeAndPath]
  | errorPageCode code =>
    refine parseServerLoop_error (by decide) ?_ fuel
    rw [parseServerDirective_errorPage]
    simp [parseErrorPages, parseCodeAndPath]
  | location =>
    refine parseServerLoop_error (by decide) ?_ fuel
    rw [parseServerDirective_location, parseLocation]
    rfl
  | locationUri uri =>
    refine parseServerLoop_error (by decide) ?_ fuel
    rw [parseServerDirective_location, parseLocation]
    rfl
  | unclosed uri ds s' hne hds hvalid =>
    have htext : locationLoop.text ds ++ [] ≠ [] := by
      rw [List.append_nil]
      intro hnil
      have hle := locationLoop.length_le_text ds
      rw [hnil, List.length_nil] at hle
      exact hne (List.length_eq_zero_iff.mp (Nat.le_zero.mp hle))
    obtain ⟨left, -, hlocation⟩ :=
      parseLocation_open memory server (lit "location" :: before) uri ds htext
    rw [List.append_nil, hds, Except.ok_bind, parseLocationLoop_end] at hlocation
    have hread : parseServerDirective memory (lit "location") server
        ⟨before, lit "location" :: uri :: LBRACE :: locationLoop.text ds⟩ flag =
          .ok ({ server with locations := server.locations ++ [s'.1] },
            ⟨(locationLoop.text ds).reverse ++ LBRACE :: uri :: lit "location" :: before, []⟩,
            flag) := by
      rw [parseServerDirective_location, hlocation, Except.ok_bind, addLocation, hvalid]
      rfl
    exact parseServerLoop_atEnd (by decide) hread fuel
  | block uri ds s' ts hds hcut =>
    have htext : locationLoop.text ds ++ ts ≠ [] := by
      cases hcut <;> exact List.append_ne_nil_of_right_ne_nil _ (List.cons_ne_nil _ _)
    obtain ⟨left, -, hlocation⟩ :=
      parseLocation_open memory server (lit "location" :: before) uri ds htext
    rw [hds, Except.ok_bind, hcut.pastEnd] at hlocation
    refine parseServerLoop_error (by decide) ?_ fuel
    rw [parseServerDirective_location, hlocation]
    rfl

theorem parseServerLoop_location_throws {memory : Memory} {server : ServerConfig}
    {before ts : List Str} (flag : Nat)
    (h : Throws (parseLocation (newLocation (memory.autoindex server.locations.length))
      ⟨lit "location" :: before, ts⟩)) (fuel : Nat) :
    Throws (parseServerLoop memory (fuel + 1) server ⟨before, lit "location" :: ts⟩ flag) := by
  obtain ⟨e, he⟩ := h
  refine ⟨e, parseServerLoop_error (by decide) ?_ fuel⟩
  rw [parseServerDirective_location, he]
  rfl

/-- A location block that is not complete. -/
theorem serverCut_or_throws_of_block {memory : Memory} {uri : Str} {ts : List Str}
    (h : (serverLoop memory).Stuck (lit "location" :: uri :: LBRACE :: ts)) (fuel : Nat)
    (server : ServerConfig) (flag : Nat) (before : List Str) :
    ServerCut memory (server, flag) (lit "location" :: uri :: LBRACE :: ts) ∨
      Throws (parseServerLoop memory (fuel + 1) server
        ⟨before, lit "location" :: uri :: LBRACE :: ts⟩ flag) := by
  obtain ⟨ds, rest, rfl, hstuck⟩ := locationLoop.exists_text ts
  by_cases hne : locationLoop.text ds ++ rest = []
  · rw [hne]
    exact Or.inr (parseServerLoop_location_throws flag ⟨_, rfl⟩ fuel)
  obtain ⟨left, -, hlocation⟩ := parseLocation_open memory server (lit "location" :: before) uri ds
    hne
  rcases Ends.applyAll locationLoop LocationDirective.apply_ends
    (openedLocation memory server uri, 0) ds with ⟨s', hds⟩ | hthrows
  · rw [hds, Except.ok_bind] at hlocation
    rcases location_stuck hstuck with rfl | ⟨tail, rfl⟩ | hcut
    · rw [List.append_nil] at hne hlocation ⊢
      rw [parseLocationLoop_end] at hlocation
      rcases locationValidate_ends s'.1 with ⟨_, hvalid⟩ | ⟨e, hvalid⟩
      · refine Or.inl (.unclosed uri ds s' ?_ hds hvalid)
        rintro rfl
        exact hne rfl
      · refine Or.inr ⟨e, parseServerLoop_error (by decide) ?_ fuel⟩
        rw [parseServerDirective_location, hlocation, Except.ok_bind, addLocation, hvalid]
        rfl
    · refine absurd ?_ (h (.locationBlock uri ds) tail)
      change _ = lit "location" :: uri :: LBRACE :: ((locationLoop.text ds ++ [RBRACE]) ++ tail)
      rw [List.append_assoc]
      rfl
    · rcases hcut left s'.1 ((locationLoop.text ds).reverse ++ LBRACE :: uri :: lit "location" ::
        before) s'.2 with hcut | hthrows
      · exact Or.inl (.block uri ds s' rest hds hcut)
      · rw [← hlocation] at hthrows
        exact Or.inr (parseServerLoop_location_throws flag hthrows fuel)
  · refine Or.inr (parseServerLoop_location_throws flag ?_ fuel)
    rw [hlocation]
    exact hthrows.bind _

/-- A directive whose value is missing, unless it was read before. -/
theorem serverCut_or_throws_of_value {memory : Memory} {keyword : Str} (bit : Nat)
    (hkeyword : (keyword, bit) ∈ [(lit "listen", BIT_FLAG_LISTEN), (lit "root", BIT_FLAG_ROOT),
      (lit "client_body_size_limit", BIT_FLAG_BODY_LIMIT)]) (hbrace : keyword ≠ RBRACE)
    (msg : String) {server : ServerConfig} {flag : Nat} {before : List Str}
    (h : isSet flag bit = true →
      parseServerDirective memory keyword server ⟨before, [keyword]⟩ flag = throwRuntimeError msg)
    (fuel : Nat) :
    ServerCut memory (server, flag) [keyword] ∨
      Throws (parseServerLoop memory (fuel + 1) server ⟨before, [keyword]⟩ flag) := by
  cases hset : isSet flag bit with
  | false => exact Or.inl (.value keyword bit hkeyword hset)
  | true => exact Or.inr (parseServerLoop_throws hbrace msg (h hset) fuel)

/-- What may stand behind the last complete directive of a server. -/
theorem server_stuck {memory : Memory} {rest : List Str} (h : (serverLoop memory).Stuck rest) :
    (∃ tail, rest = RBRACE :: tail) ∨
      ∀ fuel s before, ServerCut memory s rest ∨
        Throws (parseServerLoop memory (fuel + 1) s.1 ⟨before, rest⟩ s.2) := by
  cases rest with
  | nil => exact Or.inr fun fuel s before => Or.inr ⟨_, rfl⟩
  | cons token ts =>
    by_cases hclose : token = RBRACE
    · exact Or.inl ⟨ts, by rw [hclose]⟩
    refine Or.inr fun fuel s before => ?_
    obtain ⟨server, flag⟩ := s
    by_cases hlisten : token = lit "listen"
    · subst hlisten
      cases ts with
      | cons arg ts => exact absurd rfl (h (.listen arg) ts)
      | nil =>
        refine serverCut_or_throws_of_value BIT_FLAG_LISTEN (by simp) (by decide)
          "Error: Config: Duplicated listen" (fun hset => ?_) fuel
        rw [parseServerDirective_listen]
        simp [parseListen, hset, throwRuntimeError]
    by_cases hname : token = lit "server_name"
    · subst hname
      rcases Contents.cases_tokens ts with hopen | ⟨contents, rest, rfl⟩
      · exact Or.inl (.serverName ts hopen)
      · exact absurd rfl (h (.serverName contents) rest)
    by_cases hroot : token = lit "root"
    · subst hroot
      cases ts with
      | cons arg ts => exact absurd rfl (h (.root arg) ts)
      | nil =>
        refine serverCut_or_throws_of_value BIT_FLAG_ROOT (by simp) (by decide)
          "Error: Config: Duplicated root" (fun hset => ?_) fuel
        rw [parseServerDirective_root]
        simp [parseRoot, hset, throwRuntimeError]
    by_cases herror : token = lit "error_page"
    · subst herror
      rcases ts with _ | ⟨code, _ | ⟨path, ts⟩⟩
      · exact Or.inl .errorPage
      · exact Or.inl (.errorPageCode code)
      · exact absurd rfl (h (.errorPage code path) ts)
    by_cases hlimit : token = lit "client_body_size_limit"
    · subst hlimit
      cases ts with
      | cons arg ts => exact absurd rfl (h (.clientBodySizeLimit arg) ts)
      | nil =>
        refine serverCut_or_throws_of_value BIT_FLAG_BODY_LIMIT (by simp) (by decide)
          "Error: Config: Duplicated client_body_size_limit" (fun hset => ?_) fuel
        rw [parseServerDirective_clientBodySizeLimit]
        simp [parseClientBodySizeLimit, hset, throwRuntimeError]
    by_cases hlocation : token = lit "location"
    · subst hlocation
      rcases ts with _ | ⟨uri, _ | ⟨brace, ts⟩⟩
      · exact Or.inl .location
      · exact Or.inl (.locationUri uri)
      · by_cases hbrace : brace = LBRACE
        · subst hbrace
          exact serverCut_or_throws_of_block h fuel server flag before
        · exact absurd rfl (h (.location uri brace hbrace) ts)
    refine Or.inr (parseServerLoop_throws hclose "Error: Config: Wrong syntax" ?_ fuel)
    rw [parseServerDirective, if_neg hlisten, if_neg hname, if_neg hroot, if_neg herror,
      if_neg hlimit, if_neg hlocation]

/-! ## Inside a file -/

/-- A server block that is cut off. -/
inductive ServerBlockCut (memory : Nat → Memory) (servers : List ServerConfig) : List Str → Prop
  | server : ServerBlockCut memory servers [lit "server"]
  | block (block : ServerBlock) (s : ServerConfig × Nat) (ts : List Str) :
    (serverLoop (memory servers.length)).applyAll (ServerBlock.opened memory servers) block =
      .ok s →
    ServerCut (memory servers.length) s ts →
    ServerBlockCut memory servers
      (lit "server" :: LBRACE :: (block.flatMap ServerDirective.tokens ++ ts))

/-- The file breaks off in a directive: everything in front of it is accepted. -/
def BreaksOff (memory : Nat → Memory) (tokens : List Str) : Prop :=
  ∃ blocks servers ts, tokens = blocks.flatMap ServerBlock.tokens ++ ts ∧
    (tokensLoop memory).applyAll [] blocks = .ok servers ∧ ServerBlockCut memory servers ts

theorem ServerBlockCut.pastEnd {memory : Nat → Memory} {servers : List ServerConfig}
    {ts : List Str} (h : ServerBlockCut memory servers ts) (fuel : Nat) (before : List Str) :
    parseTokensLoop memory (fuel + 1) servers ⟨before, ts⟩ = .error .pastEnd := by
  cases h with
  | server =>
    rw [parseTokensLoop, if_neg (List.cons_ne_nil _ _), Iter.deref_cons, Except.ok_bind, if_pos rfl]
    rfl
  | block block s ts hblock hcut =>
    obtain ⟨left, -, hserver⟩ := parseServer_open (memory servers.length)
      (ServerBlock.opened memory servers) (LBRACE :: lit "server" :: before) block ts
    rw [hblock, Except.ok_bind, hcut.pastEnd] at hserver
    rw [parseTokensLoop_open, hserver]
    rfl

/-- What may stand behind the last complete server block. -/
theorem tokens_stuck {memory : Nat → Memory} {rest : List Str}
    (h : (tokensLoop memory).Stuck rest) (fuel : Nat) (servers : List ServerConfig)
    (before : List Str) :
    rest = [] ∨ ServerBlockCut memory servers rest ∨
      Throws (parseTokensLoop memory (fuel + 1) servers ⟨before, rest⟩) := by
  rcases rest with _ | ⟨token, ts⟩
  · exact Or.inl rfl
  refine Or.inr ?_
  by_cases hserver : token = lit "server"
  · subst hserver
    rcases ts with _ | ⟨brace, ts⟩
    · exact Or.inl .server
    by_cases hbrace : brace = LBRACE
    · subst hbrace
      obtain ⟨block, rest, htext, hstuck⟩ := (serverLoop (memory servers.length)).exists_text ts
      have htokens : ts = block.flatMap ServerDirective.tokens ++ rest := htext
      subst htokens
      obtain ⟨left, -, hserver⟩ := parseServer_open (memory servers.length)
        (ServerBlock.opened memory servers) (LBRACE :: lit "server" :: before) block rest
      have hopen := parseTokensLoop_open memory fuel servers before
        (block.flatMap ServerDirective.tokens ++ rest)
      rw [hserver] at hopen
      rcases Ends.applyAll (serverLoop (memory servers.length)) (ServerDirective.apply_ends _)
        (ServerBlock.opened memory servers) block with ⟨s, hblock⟩ | hthrows
      · rw [hblock, Except.ok_bind] at hopen
        rcases server_stuck hstuck with ⟨tail, rfl⟩ | hcut
        · refine absurd ?_ (h block tail)
          change _ = lit "server" :: LBRACE ::
            ((block.flatMap ServerDirective.tokens ++ [RBRACE]) ++ tail)
          rw [List.append_assoc]
          rfl
        · rcases hcut left s ((block.flatMap ServerDirective.tokens).reverse ++
            LBRACE :: lit "server" :: before) with hcut | hthrows
          · exact Or.inl (.block block s rest hblock hcut)
          · refine Or.inr ?_
            rw [hopen]
            exact hthrows.bind _
      · refine Or.inr ?_
        rw [hopen]
        exact (hthrows.bind _).bind _
    · refine Or.inr ⟨.runtimeError "Error: Config: Wrong syntax", ?_⟩
      rw [parseTokensLoop, if_neg (List.cons_ne_nil _ _), Iter.deref_cons, Except.ok_bind,
        if_pos rfl, Iter.next_cons, Except.ok_bind, Iter.deref_cons, Except.ok_bind,
        if_neg hbrace]
      rfl
  · refine Or.inr ⟨.runtimeError "Error: Config: Wrong syntax", ?_⟩
    rw [parseTokensLoop, if_neg (List.cons_ne_nil _ _), Iter.deref_cons, Except.ok_bind,
      if_neg hserver]
    rfl

theorem BreaksOff.pastEnd {memory : Nat → Memory} {tokens : List Str}
    (h : BreaksOff memory tokens) : parseTokens memory tokens = .error .pastEnd := by
  obtain ⟨blocks, servers, ts, rfl, hblocks, hcut⟩ := h
  obtain ⟨left, -, hrun⟩ := parseTokens_open memory blocks ts
  rw [hrun, hblocks, Except.ok_bind, hcut.pastEnd]

theorem breaksOff_or_ends (memory : Nat → Memory) (tokens : List Str) :
    BreaksOff memory tokens ∨ Ends (parseTokens memory tokens) := by
  obtain ⟨blocks, rest, htokens, hstuck⟩ := (tokensLoop memory).exists_text tokens
  obtain ⟨left, -, hrun⟩ := parseTokens_open memory blocks rest
  rw [show tokens = blocks.flatMap ServerBlock.tokens ++ rest from htokens, hrun]
  rcases Ends.applyAll (tokensLoop memory) (ServerBlock.apply_ends memory) [] blocks with
    ⟨servers, hblocks⟩ | hthrows
  · rw [hblocks, Except.ok_bind]
    rcases tokens_stuck hstuck left servers
      ((blocks.flatMap ServerBlock.tokens).reverse ++ []) with rfl | hcut | hthrows
    · exact Or.inr (.ok servers)
    · exact Or.inl ⟨blocks, servers, rest, rfl, hblocks, hcut⟩
    · exact Or.inr (Or.inr hthrows)
  · exact Or.inr (Or.inr (hthrows.bind _))

/-- The parser returns or throws, unless the file breaks off in a directive. -/
theorem parseTokens_ends_iff (memory : Nat → Memory) (content : Str) :
    Ends (parseTokens memory (isspaceSplit content)) ↔
      ¬ BreaksOff memory (isspaceSplit content) := by
  constructor
  · intro hends hbreaks
    rw [hbreaks.pastEnd] at hends
    exact not_ends_pastEnd hends
  · intro hnot
    rcases breaksOff_or_ends memory (isspaceSplit content) with hbreaks | hends
    · exact absurd hbreaks hnot
    · exact hends

/-- A location without its `}`. -/
theorem parseTokens_unclosed :
    ¬ ∀ memory content, Ends (parseTokens memory (isspaceSplit content)) := by
  intro h
  have hends := h (fun _ => ⟨0, 0, fun _ => false⟩)
    (lit "server \x7b listen a:80; location / \x7b index a;")
  have hpast : parseTokens (fun _ => ⟨0, 0, fun _ => false⟩)
      (isspaceSplit (lit "server \x7b listen a:80; location / \x7b index a;")) =
        .error .pastEnd := by rfl
  rw [hpast] at hends
  exact not_ends_pastEnd hends

end ConfigParser

end Webserv
