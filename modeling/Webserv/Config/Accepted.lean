import Webserv.Config.BreakingOff
import Webserv.Config.Validation

/-!
# Accepted configurations

A file that is accepted is a list of server blocks.  What the flags and the validators guarantee
about a server and its locations is read off the directives of its block.
-/

namespace Webserv

open Text

namespace ConfigParser

/-! ## Flags -/

theorem isSet_or (flag flag' bit : Nat) :
    isSet (flag ||| flag') bit = (isSet flag bit || isSet flag' bit) := by
  rw [isSet, isSet, isSet, Nat.and_or_distrib_right, ← Bool.decide_or]
  refine decide_eq_decide.mpr ?_
  rw [Ne, Nat.or_eq_zero_iff, not_and_or]

def BIT_FLAGS : List Nat :=
  [BIT_FLAG_LISTEN, BIT_FLAG_ROOT, BIT_FLAG_BODY_LIMIT, BIT_FLAG_LOC_ROOT, BIT_FLAG_AUTOINDEX]

theorem ne_zero_of_mem {bit : Nat} (h : bit ∈ BIT_FLAGS) : bit ≠ 0 := by
  rintro rfl
  exact absurd h (by decide)

/-- The flags are different bits. -/
theorem isSet_bit {flag bit : Nat} (hflag : flag ∈ 0 :: BIT_FLAGS) (hbit : bit ∈ BIT_FLAGS) :
    isSet flag bit = decide (flag = bit) := by
  have hfinite : ∀ a ∈ 0 :: BIT_FLAGS, ∀ b ∈ BIT_FLAGS, isSet a b = decide (a = b) := by decide
  exact hfinite flag hflag bit hbit

/-- The directives of one kind are counted by their flag. -/
def Counted (count flag bit : Nat) : Prop := count = if isSet flag bit then 1 else 0

theorem Counted.le_one {count flag bit : Nat} (h : Counted count flag bit) : count ≤ 1 := by
  rw [h]
  split <;> omega

/-- A directive that sets its flag, and must not find it set. -/
theorem Counted.step {δ : Type} {flagOf : δ → Nat} {ds : List δ} {flag bit : Nat}
    (h : Counted (ds.countP (flagOf · = bit)) flag bit) (hbit : bit ∈ BIT_FLAGS) {d : δ}
    (hd : flagOf d ∈ 0 :: BIT_FLAGS) (hfree : flagOf d ≠ 0 → isSet flag (flagOf d) = false) :
    Counted ((ds ++ [d]).countP (flagOf · = bit)) (flag ||| flagOf d) bit := by
  rw [Counted, List.countP_append, List.countP_singleton, h, isSet_or, isSet_bit hd hbit]
  by_cases heq : flagOf d = bit
  · have hunset : isSet flag bit = false := heq ▸ hfree (heq ▸ ne_zero_of_mem hbit)
    simp [heq, hunset]
  · simp [heq]

/-! ## Location blocks -/

namespace LocationDirective

/-- The flag that the directive sets. -/
def flag : LocationDirective → Nat
  | root _ => BIT_FLAG_LOC_ROOT
  | autoindex _ => BIT_FLAG_AUTOINDEX
  | _ => 0

theorem flag_mem (d : LocationDirective) : d.flag ∈ 0 :: BIT_FLAGS := by
  cases d <;> simp [flag, BIT_FLAGS]

/-- What is known of a directive that is taken. -/
structure Effect (s s' : LocationConfig × Nat) (d : LocationDirective) : Prop where
  flag : s'.2 = s.2 ||| d.flag
  free : d.flag ≠ 0 → isSet s.2 d.flag = false
  autoindex : ∀ arg, d = .autoindex arg → readSwitch arg = .ok s'.1.autoindex
  autoindex_keep : (∀ arg, d ≠ .autoindex arg) → s'.1.autoindex = s.1.autoindex
  redirect : ∀ code uri, d = .redirect code uri → ftStoi code ∈ s'.1.redirect
  redirect_keep : ∀ code : Int, code ∈ s.1.redirect → code ∈ s'.1.redirect

theorem effect {s s' : LocationConfig × Nat} {d : LocationDirective} (h : apply s d = .ok s') :
    Effect s s' d := by
  cases d with
  | root arg =>
    obtain ⟨hset, h⟩ := ite_throw_eq_ok_iff.mp h
    obtain rfl := Except.ok.inj h
    exact ⟨rfl, fun _ => Bool.eq_false_iff.mpr hset, by simp, fun _ => rfl, by simp,
      fun _ hcode => hcode⟩
  | autoindex arg =>
    obtain ⟨hset, h⟩ := ite_throw_eq_ok_iff.mp h
    obtain ⟨on, hon, h⟩ := Except.bind_eq_ok_iff.mp h
    obtain rfl := Except.ok.inj h
    refine ⟨rfl, fun _ => Bool.eq_false_iff.mpr hset, fun arg' harg => ?_,
      fun hother => absurd rfl (hother arg), by simp, fun _ hcode => hcode⟩
    obtain rfl : arg = arg' := LocationDirective.autoindex.inj harg
    exact hon
  | redirect code uri =>
    obtain rfl := Except.ok.inj h
    refine ⟨(Nat.or_zero s.2).symm, fun hpos => absurd rfl hpos, by simp, fun _ => rfl,
      fun code' uri' hcode => ?_,
      fun code' hcode => Std.ExtTreeMap.mem_insertIfNew.mpr (Or.inr hcode)⟩
    obtain ⟨rfl, -⟩ := LocationDirective.redirect.inj hcode
    exact Std.ExtTreeMap.mem_insertIfNew_self
  | _ =>
    obtain rfl := Except.ok.inj h
    exact ⟨(Nat.or_zero s.2).symm, fun hpos => absurd rfl hpos, by simp, fun _ => rfl, by simp,
      fun _ hcode => hcode⟩

end LocationDirective

/-- What the directives of a location have left in it and in its flags. -/
structure LocationSoFar (ds : List LocationDirective) (s : LocationConfig × Nat) : Prop where
  counted : ∀ bit ∈ BIT_FLAGS, Counted (ds.countP (·.flag = bit)) s.2 bit
  autoindex : ∀ arg, .autoindex arg ∈ ds → readSwitch arg = .ok s.1.autoindex
  redirect : ∀ code uri, .redirect code uri ∈ ds → ftStoi code ∈ s.1.redirect

theorem LocationSoFar.step {ds : List LocationDirective} {d : LocationDirective}
    {s s' : LocationConfig × Nat} (hinv : LocationSoFar ds s)
    (h : LocationDirective.apply s d = .ok s') : LocationSoFar (ds ++ [d]) s' := by
  have heffect := LocationDirective.effect h
  refine ⟨fun bit hbit => ?_, fun arg harg => ?_, fun code uri hcode => ?_⟩
  · rw [heffect.flag]
    exact (hinv.counted bit hbit).step hbit d.flag_mem heffect.free
  · rw [List.mem_append, List.mem_singleton] at harg
    by_cases hd : ∃ arg', d = .autoindex arg'
    · obtain ⟨arg', rfl⟩ := hd
      rcases harg with harg | harg
      · -- the flag was not set, so there was no such directive
        have hcount := hinv.counted BIT_FLAG_AUTOINDEX (by decide)
        have hpos : BIT_FLAG_AUTOINDEX ≠ 0 := by decide
        have hunset : isSet s.2 BIT_FLAG_AUTOINDEX = false := heffect.free hpos
        rw [Counted, hunset, if_neg Bool.false_ne_true, List.countP_eq_zero] at hcount
        exact absurd (decide_eq_true rfl) (hcount _ harg)
      · exact heffect.autoindex arg harg.symm
    · rw [heffect.autoindex_keep fun arg' heq => hd ⟨arg', heq⟩]
      exact hinv.autoindex arg (harg.resolve_right fun heq => hd ⟨arg, heq.symm⟩)
  · rcases List.mem_append.mp hcode with hcode | hcode
    · exact heffect.redirect_keep _ (hinv.redirect code uri hcode)
    · exact heffect.redirect code uri (List.mem_singleton.mp hcode).symm

theorem counted_nil {δ : Type} (flagOf : δ → Nat) (bit : Nat) :
    Counted (([] : List δ).countP (flagOf · = bit)) 0 bit := by
  simp [Counted, isSet]

/-- What holds of a location and the directives of its block. -/
structure LocationAccepted (ds : List LocationDirective) (location : LocationConfig) : Prop where
  root_once : ds.countP (·.flag = BIT_FLAG_LOC_ROOT) ≤ 1
  autoindex_once : ds.countP (·.flag = BIT_FLAG_AUTOINDEX) ≤ 1
  autoindex : ∀ arg, .autoindex arg ∈ ds →
    upTo SEMICOLON arg = lit "on" ∧ location.autoindex = true ∨
      upTo SEMICOLON arg = lit "off" ∧ location.autoindex = false
  allowedMethods : ∀ m ∈ location.allowedMethods, m ∈ VALID_METHODS
  redirect_read : ∀ code uri, .redirect code uri ∈ ds → ftStoi code ∈ location.redirect
  redirect : ∀ code : Int, code ∈ location.redirect → 101 ≤ code ∧ code ≤ 599
  root : ¬ lit "./" <:+: location.root

theorem readSwitch_ok {arg : Str} {on : Bool} (h : readSwitch arg = .ok on) :
    upTo SEMICOLON arg = lit "on" ∧ on = true ∨ upTo SEMICOLON arg = lit "off" ∧ on = false := by
  rw [readSwitch] at h
  split at h
  · next hon => exact Or.inl ⟨hon, (Except.ok.inj h).symm⟩
  · split at h
    · next hoff => exact Or.inr ⟨hoff, (Except.ok.inj h).symm⟩
    · cases h

theorem locationAccepted {location : LocationConfig} {ds : List LocationDirective}
    {s : LocationConfig × Nat} (h : locationLoop.applyAll (location, 0) ds = .ok s)
    (hvalid : locationValidate s.1 = .ok ()) : LocationAccepted ds s.1 := by
  have hstart : LocationSoFar [] (location, 0) :=
    ⟨fun bit _ => counted_nil _ bit, by simp, by simp⟩
  have hinv : LocationSoFar ds s :=
    locationLoop.applyAll_induction hstart (fun _ _ _ _ hinv hd => hinv.step hd) h
  obtain ⟨hmethods, hredirect, hroot⟩ := locationValidate_iff.mp hvalid
  exact {
    root_once := (hinv.counted _ (by decide)).le_one
    autoindex_once := (hinv.counted _ (by decide)).le_one
    autoindex := fun arg harg => readSwitch_ok (hinv.autoindex arg harg)
    allowedMethods := mem_of_isValidVector hmethods
    redirect_read := hinv.redirect
    redirect := isValidStatus_iff.mp hredirect
    root := isValidRoot_iff.mp hroot }

/-! ## Server blocks -/

theorem addLocation_ok {s s' : ServerConfig × Nat} {location : LocationConfig}
    (h : addLocation s location = .ok s') : locationValidate location = .ok () ∧
      s' = ({ s.1 with locations := s.1.locations ++ [location] }, s.2) := by
  obtain ⟨_, hvalid, h⟩ := Except.bind_eq_ok_iff.mp h
  exact ⟨hvalid, (Except.ok.inj h).symm⟩

namespace ServerDirective

/-- The flag that the directive sets. -/
def flag : ServerDirective → Nat
  | listen _ => BIT_FLAG_LISTEN
  | root _ => BIT_FLAG_ROOT
  | clientBodySizeLimit _ => BIT_FLAG_BODY_LIMIT
  | _ => 0

/-- The directives in the block of a location. -/
def locationDirectives : ServerDirective → Option (List LocationDirective)
  | location _ _ _ => some []
  | locationBlock _ directives => some directives
  | _ => none

theorem flag_mem (d : ServerDirective) : d.flag ∈ 0 :: BIT_FLAGS := by
  cases d <;> simp [flag, BIT_FLAGS]

/-- What is known of a directive that is taken. -/
structure Effect (s s' : ServerConfig × Nat) (d : ServerDirective) : Prop where
  flag : s'.2 = s.2 ||| d.flag
  free : d.flag ≠ 0 → isSet s.2 d.flag = false
  errorPage : ∀ code path, d = .errorPage code path → ftStoi code ∈ s'.1.errorPages
  errorPage_keep : ∀ code : Int, code ∈ s.1.errorPages → code ∈ s'.1.errorPages
  location : ∀ ds, d.locationDirectives = some ds → ∃ location, LocationAccepted ds location ∧
    s'.1.locations = s.1.locations ++ [location]
  location_keep : d.locationDirectives = none → s'.1.locations = s.1.locations

theorem effect {memory : Memory} {s s' : ServerConfig × Nat} {d : ServerDirective}
    (h : apply memory s d = .ok s') : Effect s s' d := by
  have hlocation {ds : List LocationDirective} {location : LocationConfig}
      {t : LocationConfig × Nat} (hds : locationLoop.applyAll (location, 0) ds = .ok t)
      (h : addLocation s t.1 = .ok s') : LocationAccepted ds t.1 ∧
        s' = ({ s.1 with locations := s.1.locations ++ [t.1] }, s.2) := by
    obtain ⟨hvalid, heq⟩ := addLocation_ok h
    exact ⟨locationAccepted hds hvalid, heq⟩
  cases d with
  | serverName contents =>
    obtain rfl := Except.ok.inj h
    exact ⟨(Nat.or_zero s.2).symm, fun hpos => absurd rfl hpos, by simp, fun _ hcode => hcode,
      by simp [locationDirectives], fun _ => rfl⟩
  | errorPage code path =>
    obtain rfl := Except.ok.inj h
    refine ⟨(Nat.or_zero s.2).symm, fun hpos => absurd rfl hpos, fun code' path' hcode => ?_,
      fun code' hcode => Std.ExtTreeMap.mem_insertIfNew.mpr (Or.inr hcode),
      by simp [locationDirectives], fun _ => rfl⟩
    obtain ⟨rfl, -⟩ := ServerDirective.errorPage.inj hcode
    exact Std.ExtTreeMap.mem_insertIfNew_self
  | location uri other hother =>
    obtain ⟨haccepted, rfl⟩ := hlocation (locationLoop.applyAll_nil _) h
    refine ⟨(Nat.or_zero s.2).symm, fun hpos => absurd rfl hpos, by simp, fun _ hcode => hcode,
      fun ds hds => ?_, by simp [locationDirectives]⟩
    obtain rfl : [] = ds := Option.some.inj hds
    exact ⟨_, haccepted, rfl⟩
  | locationBlock uri directives =>
    obtain ⟨t, hdirectives, h⟩ := Except.bind_eq_ok_iff.mp h
    obtain ⟨haccepted, rfl⟩ := hlocation hdirectives h
    refine ⟨(Nat.or_zero s.2).symm, fun hpos => absurd rfl hpos, by simp, fun _ hcode => hcode,
      fun ds hds => ?_, by simp [locationDirectives]⟩
    obtain rfl : directives = ds := Option.some.inj hds
    exact ⟨_, haccepted, rfl⟩
  | _ =>
    obtain ⟨hset, h⟩ := ite_throw_eq_ok_iff.mp h
    obtain rfl := Except.ok.inj h
    exact ⟨rfl, fun _ => Bool.eq_false_iff.mpr hset, by simp, fun _ hcode => hcode,
      by simp [locationDirectives], fun _ => rfl⟩

end ServerDirective

/-- What the directives of a server have left in it and in its flags. -/
structure ServerSoFar (block : ServerBlock) (s : ServerConfig × Nat) : Prop where
  counted : ∀ bit ∈ BIT_FLAGS, Counted (block.countP (·.flag = bit)) s.2 bit
  errorPages : ∀ code path, .errorPage code path ∈ block → ftStoi code ∈ s.1.errorPages
  locations : List.Forall₂ LocationAccepted (block.filterMap ServerDirective.locationDirectives)
    s.1.locations

theorem ServerSoFar.step {memory : Memory} {block : ServerBlock} {d : ServerDirective}
    {s s' : ServerConfig × Nat} (hinv : ServerSoFar block s)
    (h : ServerDirective.apply memory s d = .ok s') : ServerSoFar (block ++ [d]) s' := by
  have heffect := ServerDirective.effect h
  refine ⟨fun bit hbit => ?_, fun code path hcode => ?_, ?_⟩
  · rw [heffect.flag]
    exact (hinv.counted bit hbit).step hbit d.flag_mem heffect.free
  · rcases List.mem_append.mp hcode with hcode | hcode
    · exact heffect.errorPage_keep _ (hinv.errorPages code path hcode)
    · exact heffect.errorPage code path (List.mem_singleton.mp hcode).symm
  · rw [List.filterMap_append]
    cases hd : d.locationDirectives with
    | none =>
      rw [List.filterMap_cons_none hd, List.filterMap_nil, List.append_nil,
        heffect.location_keep hd]
      exact hinv.locations
    | some ds =>
      obtain ⟨location, haccepted, hlocations⟩ := heffect.location ds hd
      rw [List.filterMap_cons_some hd, List.filterMap_nil, hlocations]
      exact List.rel_append hinv.locations (.cons haccepted .nil)

/-- What holds of a server and the directives of its block. -/
structure ServerAccepted (block : ServerBlock) (server : ServerConfig) : Prop where
  listen_once : block.countP (·.flag = BIT_FLAG_LISTEN) = 1
  root_once : block.countP (·.flag = BIT_FLAG_ROOT) ≤ 1
  client_body_size_limit_once : block.countP (·.flag = BIT_FLAG_BODY_LIMIT) ≤ 1
  errorPages_read : ∀ code path, .errorPage code path ∈ block → ftStoi code ∈ server.errorPages
  errorPages : ∀ code : Int, code ∈ server.errorPages → 101 ≤ code ∧ code ≤ 599
  errorPages_slash : ∀ (code : Int) (path : Str), server.errorPages[code]? = some path →
    path.head? = some 47
  root : ¬ lit "./" <:+: server.root
  locations_first : ¬ FirstRepeated server
  locations : List.Forall₂ LocationAccepted (block.filterMap ServerDirective.locationDirectives)
    server.locations

theorem serverSoFar_new (memory : Memory) : ServerSoFar [] (newServer memory, 0) :=
  ⟨fun bit _ => counted_nil _ bit, by simp, .nil⟩

theorem serverAccepted {memory : Memory} {block : ServerBlock} {s : ServerConfig × Nat}
    (h : (serverLoop memory).applyAll (newServer memory, 0) block = .ok s)
    (hvalid : serverValidate s.1 s.2 = .ok ()) : ServerAccepted block s.1 := by
  have hinv : ServerSoFar block s := (serverLoop memory).applyAll_induction
    (serverSoFar_new memory) (fun _ _ _ _ hinv hd => hinv.step hd) h
  obtain ⟨hlisten, hdup, hstatus, hpages, hroot⟩ := serverValidate_iff.mp hvalid
  have hcount := hinv.counted BIT_FLAG_LISTEN (by decide)
  rw [Counted, if_pos hlisten] at hcount
  exact {
    listen_once := hcount
    root_once := (hinv.counted _ (by decide)).le_one
    client_body_size_limit_once := (hinv.counted _ (by decide)).le_one
    errorPages_read := hinv.errorPages
    errorPages := isValidStatus_iff.mp hstatus
    errorPages_slash := isValidErrorPages_iff.mp hpages
    root := isValidRoot_iff.mp hroot
    locations_first := fun hrepeated => by
      rw [isDupLocation_iff.mpr hrepeated] at hdup
      cases hdup
    locations := hinv.locations }

/-! ## Files -/

theorem parseTokens_blocks (memory : Nat → Memory) (blocks : List ServerBlock) :
    parseTokens memory (blocks.flatMap ServerBlock.tokens) =
      (tokensLoop memory).applyAll [] blocks := by
  obtain ⟨left, -, hrun⟩ := parseTokens_open memory blocks []
  rw [List.append_nil] at hrun
  rw [hrun]
  cases (tokensLoop memory).applyAll [] blocks with
  | error e => rfl
  | ok servers => rfl

/-- Only complete blocks are accepted. -/
theorem exists_blocks {memory : Nat → Memory} {tokens : List Str} {servers : List ServerConfig}
    (h : parseTokens memory tokens = .ok servers) :
    ∃ blocks : List ServerBlock, tokens = blocks.flatMap ServerBlock.tokens := by
  obtain ⟨blocks, rest, rfl, hstuck⟩ := (tokensLoop memory).exists_text tokens
  obtain ⟨left, -, hrun⟩ := parseTokens_open memory blocks rest
  have hloop := hrun.symm.trans h
  obtain ⟨servers', _, hrest⟩ := Except.bind_eq_ok_iff.mp hloop
  rcases tokens_stuck hstuck left servers'
    ((blocks.flatMap ServerBlock.tokens).reverse ++ []) with rfl | hcut | ⟨e, hthrows⟩
  · exact ⟨blocks, List.append_nil _⟩
  · rw [hcut.pastEnd] at hrest
    cases hrest
  · rw [hthrows] at hrest
    cases hrest

/-- What holds of a block and its server holds of the blocks and the servers of a file. -/
theorem blocks_forall₂ {R : ServerBlock → ServerConfig → Prop}
    (hR : ∀ memory block s, (serverLoop memory).applyAll (newServer memory, 0) block = .ok s →
      serverValidate s.1 s.2 = .ok () → R block s.1)
    {memory : Nat → Memory} {blocks : List ServerBlock} {servers : List ServerConfig}
    (h : (tokensLoop memory).applyAll [] blocks = .ok servers) :
    List.Forall₂ R blocks servers := by
  refine (tokensLoop memory).applyAll_induction .nil (fun _ _ _ _ hinv h => ?_) h
  obtain ⟨s, hblock, h⟩ := Except.bind_eq_ok_iff.mp h
  obtain ⟨_, hvalid, h⟩ := Except.bind_eq_ok_iff.mp h
  obtain rfl := Except.ok.inj h
  exact List.rel_append hinv (.cons (hR _ _ _ hblock hvalid) .nil)

theorem blocks_accepted {memory : Nat → Memory} {blocks : List ServerBlock}
    {servers : List ServerConfig} (h : (tokensLoop memory).applyAll [] blocks = .ok servers) :
    List.Forall₂ ServerAccepted blocks servers :=
  blocks_forall₂ (fun _ _ _ => serverAccepted) h

/-- A file that is accepted is made of server blocks, and each of them gives the server that it
describes. -/
theorem parseTokens_accepted {memory : Nat → Memory} {tokens : List Str}
    {servers : List ServerConfig} (h : parseTokens memory tokens = .ok servers) :
    (∃ blocks : List ServerBlock, tokens = blocks.flatMap ServerBlock.tokens) ∧
      ∀ blocks : List ServerBlock, tokens = blocks.flatMap ServerBlock.tokens →
        List.Forall₂ ServerAccepted blocks servers := by
  refine ⟨exists_blocks h, fun blocks htokens => ?_⟩
  rw [htokens, parseTokens_blocks] at h
  exact blocks_accepted h

theorem parseTokens_accepted_autoindex :
    ∃ servers, (∃ blocks : List ServerBlock,
        isspaceSplit (lit "server \x7b listen a:80; location / \x7b autoindex on; \x7d \x7d") =
          blocks.flatMap ServerBlock.tokens) ∧
      ∀ blocks : List ServerBlock,
        isspaceSplit (lit "server \x7b listen a:80; location / \x7b autoindex on; \x7d \x7d") =
          blocks.flatMap ServerBlock.tokens →
        List.Forall₂ ServerAccepted blocks servers := by
  have haccepted : ∃ servers, parseTokens (fun _ => ⟨0, 0, fun _ => false⟩)
      (isspaceSplit (lit "server \x7b listen a:80; location / \x7b autoindex on; \x7d \x7d")) =
        .ok servers := ⟨_, rfl⟩
  obtain ⟨servers, h⟩ := haccepted
  exact ⟨servers, parseTokens_accepted h⟩

theorem exists_rel_of_mem {α β : Type} {R : α → β → Prop} {l : List α} {l' : List β}
    (h : List.Forall₂ R l l') {b : β} (hb : b ∈ l') : ∃ a, R a b := by
  induction h with
  | nil => cases hb
  | cons hrel _ ih =>
    rcases List.mem_cons.mp hb with rfl | hb
    · exact ⟨_, hrel⟩
    · exact ih hb

/-- `isDupLocation` finds equal locations, and accepted locations are distinct, exactly when the
first location decides about that. -/
theorem isDupLocation_distinct_iff (server : ServerConfig) :
    ((isDupLocation server = true ↔ ¬ DistinctLocations server) ↔ FirstDecides server) ∧
      ∀ memory tokens servers, parseTokens memory tokens = .ok servers → server ∈ servers →
        (DistinctLocations server ↔ FirstDecides server) := by
  constructor
  · rw [isDupLocation_iff, distinctLocations_iff, FirstDecides]
    tauto
  · intro memory tokens servers h hserver
    obtain ⟨blocks, rfl⟩ := exists_blocks h
    rw [parseTokens_blocks] at h
    obtain ⟨block, haccepted⟩ := exists_rel_of_mem (blocks_accepted h) hserver
    rw [distinctLocations_iff, FirstDecides, or_iff_left haccepted.locations_first]
    exact and_iff_left haccepted.locations_first

/-- Two equal locations behind a different one. -/
theorem not_isDupLocation_distinct :
    ¬ ((∀ server, isDupLocation server = true ↔ ¬ DistinctLocations server) ∧
      ∀ memory tokens servers, parseTokens memory tokens = .ok servers →
        ∀ server ∈ servers, DistinctLocations server) := by
  rintro ⟨-, h⟩
  have haccepted : ∃ server, parseTokens (fun _ => ⟨0, 0, fun _ => false⟩)
      (isspaceSplit
        (lit "server \x7b listen a:80; location /a x location /b x location /b x \x7d")) =
      .ok [server] ∧ server.locations.map LocationConfig.location =
        [lit "/a", lit "/b", lit "/b"] := ⟨_, rfl, rfl⟩
  obtain ⟨server, hparse, hlocations⟩ := haccepted
  have hdistinct := h _ _ _ hparse server (List.mem_singleton_self server)
  rw [DistinctLocations, hlocations] at hdistinct
  exact absurd hdistinct (by decide)

end ConfigParser

end Webserv
