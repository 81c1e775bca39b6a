import Webserv.Config.Directives
import Webserv.Config.Tokens
import Webserv.Config.Validation
import Webserv.Control.Entries

/-!
# Printed configurations

A configuration that is printed in the syntax of the parser is read back as it was.
-/

namespace Webserv

open Text

namespace ConfigParser

/-! ## Printing -/

/-- The last value of a directive. -/
def closed (value : Str) : Str := value ++ SEMICOLON

/-- An empty list is left out. -/
def printContents (keyword : Str) (values : List Str) : List Str :=
  if values = [] then [] else keyword :: (values.dropLast ++ [closed (values.getLastD [])])

/-- An empty root is left out. -/
def printRoot (root : Str) : List Str := if root = [] then [] else [lit "root", closed root]

def printCodeAndPath (keyword : Str) (entry : Int × Str) : List Str :=
  [keyword, decimalInt entry.1, closed entry.2]

def printLocation (location : LocationConfig) : List Str :=
  [lit "location", location.location, LBRACE] ++
    (printRoot location.root ++
      (printContents (lit "allowed_method") location.allowedMethods ++
        (printContents (lit "index") location.indexes ++
          ([lit "autoindex", closed (if location.autoindex then lit "on" else lit "off")] ++
            (printContents (lit "cgi_extension") location.cgiExtensions ++
              location.redirect.toList.flatMap (printCodeAndPath (lit "return"))))))) ++
    [RBRACE]

def printServer (server : ServerConfig) : List Str :=
  [lit "server", LBRACE] ++
    ([lit "listen", closed (server.host ++ lit ":" ++ decimal server.port)] ++
      (printContents (lit "server_name") server.server ++
        (printRoot server.root ++
          (server.errorPages.toList.flatMap (printCodeAndPath (lit "error_page")) ++
            ([lit "client_body_size_limit", closed (decimal server.clientBodySizeLimit)] ++
              server.locations.flatMap printLocation))))) ++
    [RBRACE]

/-- The tokens are written one after the other, with white space between them. -/
inductive Spaced : List Str → Str → Prop
  | nil : Spaced [] []
  | cons (token blanks : Str) {tokens : List Str} {text : Str} :
    (∀ c ∈ blanks, isspace c = true) → (tokens ≠ [] → blanks ≠ []) → Spaced tokens text →
    Spaced (token :: tokens) (token ++ (blanks ++ text))

/-! ## What can be printed -/

/-- Free of white space, NUL and semicolons. -/
def Plain (str : Str) : Prop := ∀ c ∈ str, isspace c = false ∧ c ≠ 0 ∧ c ≠ 59

def PlainList (values : List Str) : Prop := ∀ value ∈ values, value ≠ [] ∧ Plain value

instance (str : Str) : Decidable (Plain str) :=
  List.decidableBAll (fun c => isspace c = false ∧ c ≠ 0 ∧ c ≠ 59) str

instance (values : List Str) : Decidable (PlainList values) :=
  List.decidableBAll (fun value => value ≠ [] ∧ Plain value) values

/-- Codes in the range that is accepted. -/
def PlainMap (configMap : Std.ExtTreeMap Int Str) : Prop :=
  ∀ (code : Int) (uri : Str), configMap[code]? = some uri → 101 ≤ code ∧ code ≤ 599 ∧ Plain uri

structure PrintableLocation (l : LocationConfig) : Prop where
  location_ne_nil : l.location ≠ []
  location : Plain l.location
  root : Plain l.root
  root_valid : ¬ lit "./" <:+: l.root
  allowedMethods : PlainList l.allowedMethods
  allowedMethods_valid : isValidVector l.allowedMethods VALID_METHODS = true
  indexes : PlainList l.indexes
  cgiExtensions : PlainList l.cgiExtensions
  redirect : PlainMap l.redirect

structure Printable (s : ServerConfig) : Prop where
  host : Plain s.host
  host_colon : 58 ∉ s.host
  port : (s.port : Int) ≤ intMax
  server : PlainList s.server
  root : Plain s.root
  root_valid : ¬ lit "./" <:+: s.root
  errorPages : PlainMap s.errorPages
  errorPages_slash : ∀ (code : Int) (path : Str), s.errorPages[code]? = some path →
    path.head? = some 47
  clientBodySizeLimit : (s.clientBodySizeLimit : Int) ≤ intMax
  locations : ∀ l ∈ s.locations, PrintableLocation l
  distinct : (s.locations.map LocationConfig.location).Nodup

/-! ## Splitting the text -/

theorem Plain.isToken {str : Str} (h : Plain str) (hne : str ≠ []) : IsToken str :=
  ⟨hne, fun c hc => ⟨(h c hc).1, (h c hc).2.1⟩⟩

theorem isToken_closed {str : Str} (h : Plain str) : IsToken (closed str) := by
  refine ⟨List.append_ne_nil_of_right_ne_nil _ (by decide), fun c hc => ?_⟩
  rcases List.mem_append.mp hc with hc | hc
  · exact ⟨(h c hc).1, (h c hc).2.1⟩
  · obtain rfl := List.mem_singleton.mp (show c ∈ [(59 : Byte)] from hc)
    decide

theorem isspaceSplit_spaced {tokens : List Str} {text : Str} (h : Spaced tokens text)
    (htokens : ∀ token ∈ tokens, IsToken token) : isspaceSplit text = tokens := by
  have hloop : 0 ∉ text ∧ isspaceSplitLoop [] text = tokens := by
    induction h with
    | nil => exact ⟨List.not_mem_nil, rfl⟩
    | @cons token blanks tokens text hblanks hsep hspaced ih =>
      rw [List.forall_mem_cons] at htokens
      obtain ⟨hzero, hsplit⟩ := ih htokens.2
      have hend : text ≠ [] → blanks ≠ [] := by
        intro htext
        refine hsep fun htokens => htext ?_
        rw [htokens] at hspaced
        cases hspaced
        rfl
      constructor
      · rw [List.mem_append, List.mem_append, not_or, not_or]
        refine ⟨fun h0 => (htokens.1.2 0 h0).2 rfl, fun h0 => ?_, hzero⟩
        exact absurd (hblanks 0 h0) (by decide)
      · rw [isspaceSplitLoop_token fun c hc => (htokens.1.2 c hc).1, List.nil_append,
          isspaceSplitLoop_stored htokens.1.1 hblanks hend, hsplit]
  rw [isspaceSplit, cStr_eq_self hloop.1, hloop.2]

/-! ## Reading values -/

theorem Plain.semicolon {str : Str} (h : Plain str) : 59 ∉ str := fun hmem => (h 59 hmem).2.2 rfl

theorem upTo_closed {str : Str} (h : Plain str) : upTo SEMICOLON (closed str) = str :=
  upTo_letter h.semicolon []

theorem plain_of_digits {digits : Str} (h : ∀ c ∈ digits, isdigit c = true) : Plain digits := by
  intro c hc
  refine ⟨isspace_of_digit (h c hc), ?_, ?_⟩
  · rintro rfl
    exact absurd (h 0 hc) (by decide)
  · rintro rfl
    exact absurd (h 59 hc) (by decide)

theorem plain_decimal (n : Nat) : Plain (decimal n) :=
  plain_of_digits fun _ => isdigit_of_mem_decimal

/-- `atoi` reads the number in front of what is no digit. -/
theorem ftStoi_decimal {n : Nat} (hn : (n : Int) ≤ intMax) {rest : Str}
    (hrest : ∀ c ∈ rest.head?, isdigit c = false) : ftStoi (decimal n ++ rest) = n := by
  have hprefix : IntPrefix (decimal n ++ rest) [] (decimal n) :=
    { split := ⟨[], rest, by simp, by simp, hrest⟩
      isSign := Or.inl rfl
      ne_nil := decimal_ne_nil n
      isdigit_of_mem := fun _ => isdigit_of_mem_decimal }
  have hvalue : signedValue [] (decimal n) = n := by
    rw [signedValue, if_neg (by decide), ofDigits_decimal]
  rw [intMax] at hn
  have hfits : saturate (n : Int) = ⟨n, true, false⟩ := by
    rw [saturate, longMin, longMax, if_neg (by omega), if_neg (by omega)]
  rw [ftStoi, strtol_intPrefix hprefix, hvalue, hfits]
  change (n : Int).bmod 4294967296 = n
  exact Int.bmod_eq_of_le (by omega) (by omega)

theorem decimalInt_of_nonneg {code : Int} (h : 0 ≤ code) :
    decimalInt code = decimal code.toNat := by
  rw [decimalInt, if_neg (by omega)]
  congr 1
  omega

theorem ftStoi_decimalInt {code : Int} (h : 0 ≤ code) (hmax : code ≤ intMax) :
    ftStoi (decimalInt code) = code := by
  have hnat : (code.toNat : Int) = code := Int.toNat_of_nonneg h
  have hread : ftStoi (decimal code.toNat ++ []) = code.toNat :=
    ftStoi_decimal (by omega) (by simp)
  rw [List.append_nil, hnat] at hread
  rw [decimalInt_of_nonneg h, hread]

theorem ftStoi_closed {n : Nat} (hn : (n : Int) ≤ intMax) : ftStoi (closed (decimal n)) = n := by
  refine ftStoi_decimal hn fun c hc => ?_
  obtain rfl : (59 : Byte) = c := Option.some.inj hc
  decide

theorem setListen_printed (s : ServerConfig) {host : Str} (hcolon : 58 ∉ host) (hhost : Plain host)
    {port : Nat} (hport : (port : Int) ≤ intMax) :
    setListen s (closed (host ++ lit ":" ++ decimal port)) =
      { s with host := host, port := port } := by
  have htoken : closed (host ++ lit ":" ++ decimal port) =
      host ++ 58 :: (decimal port ++ SEMICOLON) := by
    simp only [closed, List.append_assoc]
    rfl
  have hfree : (59 : Byte) ∉ host ++ lit ":" ++ decimal port := by
    simp only [List.mem_append, not_or]
    exact ⟨⟨hhost.semicolon, by decide⟩, (plain_decimal port).semicolon⟩
  have hsemicolon : find SEMICOLON (closed (host ++ lit ":" ++ decimal port)) =
      some (host ++ lit ":" ++ decimal port).length := find_letter hfree []
  have hread : ftStoi (decimal port ++ SEMICOLON) = port := ftStoi_closed hport
  have hlit : lit ":" = [58] := rfl
  rw [setListen, hsemicolon]
  dsimp only
  rw [htoken, hlit, find_letter hcolon, upTo_letter hcolon]
  have hdrop : (host ++ 58 :: (decimal port ++ SEMICOLON)).drop
      (StringPos.succ (some host.length)) = decimal port ++ SEMICOLON := by
    rw [StringPos.succ, ← List.drop_drop, List.drop_left' rfl]
    rfl
  have htake : (decimal port ++ SEMICOLON).take (host ++ [58] ++ decimal port).length =
      decimal port ++ SEMICOLON := by
    refine List.take_of_length_le ?_
    simp only [List.length_append, List.length_singleton]
    have : SEMICOLON.length = 1 := rfl
    omega
  rw [hdrop, htake, hread, sizeOfInt_natCast hport]

/-! ## Reading directives -/

/-- The list directive with these values. -/
theorem exists_contents {values : List Str} (h : PlainList values) (hne : values ≠ []) :
    ∃ contents : Contents, contents.values = values ∧
      contents.tokens = values.dropLast ++ [closed (values.getLastD [])] := by
  have hsplit := List.dropLast_append_getLast hne
  have hlast : values.getLastD [] = values.getLast hne := by
    rw [List.getLastD_eq_getLast?, List.getLast?_eq_some_getLast hne]
    rfl
  have hplain : ∀ value ∈ values, find SEMICOLON value = none := fun value hvalue =>
    find_letter_none (h value hvalue).2.semicolon
  have hclosed : find SEMICOLON (closed (values.getLast hne)) = some (values.getLast hne).length :=
    find_letter (h _ (List.getLast_mem hne)).2.semicolon []
  refine ⟨⟨values.dropLast, closed (values.getLast hne), fun value hvalue =>
    hplain value (List.dropLast_subset values hvalue), by rw [hclosed]; rfl⟩, ?_, ?_⟩
  · rw [Contents.values, upTo_closed (h _ (List.getLast_mem hne)).2, hsplit]
  · rw [Contents.tokens, hlast]

/-- A list is read into an empty one.  An empty list is not printed and changes nothing. -/
theorem reads_printContents {δ σ ρ : Type} (l : DirectiveLoop Str δ σ Stop ρ)
    (directive : Contents → δ) {keyword : Str}
    (htokens : ∀ contents, l.tokens (directive contents) = keyword :: contents.tokens)
    {values : List Str} (h : PlainList values) {s s' : σ} (hempty : values = [] → s = s')
    (happly : ∀ contents : Contents, contents.values = values →
      l.apply s (directive contents) = .ok s') :
    l.Reads s (printContents keyword values) s' := by
  unfold printContents
  split
  · next hnil =>
    rw [hempty hnil]
    exact .nil s'
  · next hne =>
    obtain ⟨contents, hvalues, hcontents⟩ := exists_contents h hne
    rw [← hcontents, ← htokens contents]
    exact .single _ (happly contents hvalues)

/-- What the insertions leave behind. -/
def insertAll (entries : List (Int × Str)) : Std.ExtTreeMap Int Str :=
  entries.foldl (fun configMap entry => configMap.insertIfNew entry.1 entry.2) ∅

theorem insertAll_toList (configMap : Std.ExtTreeMap Int Str) :
    insertAll configMap.toList = configMap := Entries.foldl_insertIfNew_toList configMap

/-- The entries of a map are read into an empty one. -/
theorem reads_printCodes {δ σ ρ : Type} (l : DirectiveLoop Str δ σ Stop ρ)
    (directive : Str → Str → δ) {keyword : Str}
    (htokens : ∀ code uri, l.tokens (directive code uri) = [keyword, code, uri])
    {configMap : Std.ExtTreeMap Int Str} (h : PlainMap configMap)
    (state : Std.ExtTreeMap Int Str → σ)
    (happly : ∀ m code uri, l.apply (state m) (directive code uri) =
      .ok (state (m.insertIfNew (ftStoi code) (upTo SEMICOLON uri)))) :
    l.Reads (state ∅) (configMap.toList.flatMap (printCodeAndPath keyword)) (state configMap) := by
  have hstep : ∀ done entry rest, configMap.toList = done ++ entry :: rest →
      l.Reads (state (insertAll done)) (printCodeAndPath keyword entry)
        (state (insertAll (done ++ [entry]))) := by
    intro done entry rest hsplit
    have hmem : (entry.1, entry.2) ∈ configMap.toList := by
      rw [hsplit]
      simp
    obtain ⟨hmin, hmax, hplain⟩ :=
      h entry.1 entry.2 (Std.ExtTreeMap.mem_toList_iff_getElem?_eq_some.mp hmem)
    have hread : ftStoi (decimalInt entry.1) = entry.1 :=
      ftStoi_decimalInt (by omega) (by rw [intMax]; omega)
    have hinsert : insertAll (done ++ [entry]) =
        (insertAll done).insertIfNew entry.1 entry.2 := by
      rw [insertAll, List.foldl_append]
      rfl
    rw [printCodeAndPath, ← htokens, hinsert]
    refine .single _ ?_
    rw [happly, hread, upTo_closed hplain]
  have hreads : l.Reads (state (insertAll [])) (configMap.toList.flatMap (printCodeAndPath keyword))
      (state (insertAll configMap.toList)) := .flatMap (fun done => state (insertAll done)) hstep
  rw [insertAll_toList] at hreads
  exact hreads

/-! ## Reading a location -/

theorem isValidStatus_of_plain {configMap : Std.ExtTreeMap Int Str} (h : PlainMap configMap) :
    isValidStatus configMap = true := by
  rw [isValidStatus_iff]
  intro code hcode
  obtain ⟨uri, huri⟩ := Option.isSome_iff_exists.mp
    (Std.ExtTreeMap.mem_iff_isSome_getElem?.mp hcode)
  obtain ⟨hmin, hmax, -⟩ := h code uri huri
  exact ⟨hmin, hmax⟩

theorem PrintableLocation.locationValidate_ok {location : LocationConfig}
    (h : PrintableLocation location) : locationValidate location = .ok () :=
  locationValidate_iff.mpr ⟨h.allowedMethods_valid, isValidStatus_of_plain h.redirect,
    isValidRoot_iff.mpr h.root_valid⟩

theorem readSwitch_printed (on : Bool) :
    readSwitch (closed (if on then lit "on" else lit "off")) = .ok on := by
  cases on <;> decide

theorem reads_printRoot {location : LocationConfig} (h : Plain location.root) :
    locationLoop.Reads ({ location with root := [] }, 0) (printRoot location.root)
      (location, if location.root = [] then 0 else 0 ||| BIT_FLAG_LOC_ROOT) := by
  obtain ⟨uri, redirect, root, methods, indexes, autoindex, extensions⟩ := location
  dsimp only at h ⊢
  unfold printRoot
  split
  · next hnil =>
    rw [hnil]
    exact .nil _
  · have happly : LocationDirective.apply (⟨uri, redirect, [], methods, indexes, autoindex,
        extensions⟩, 0) (.root (closed root)) =
          .ok (⟨uri, redirect, root, methods, indexes, autoindex, extensions⟩,
            0 ||| BIT_FLAG_LOC_ROOT) := by
      rw [LocationDirective.apply, if_neg (by decide : ¬ isSet 0 BIT_FLAG_LOC_ROOT = true),
        upTo_closed h]
    exact .single (LocationDirective.root (closed root)) happly

/-- What stands between the braces of a location. -/
theorem PrintableLocation.reads_directives {uri root : Str} {redirect : Std.ExtTreeMap Int Str}
    {methods indexes extensions : List Str} {autoindex : Bool}
    (h : PrintableLocation ⟨uri, redirect, root, methods, indexes, autoindex, extensions⟩)
    (junk : Bool) :
    ∃ flag, locationLoop.Reads (⟨uri, ∅, [], [], [], junk, []⟩, 0)
      (printRoot root ++
        (printContents (lit "allowed_method") methods ++
          (printContents (lit "index") indexes ++
            ([lit "autoindex", closed (if autoindex then lit "on" else lit "off")] ++
              (printContents (lit "cgi_extension") extensions ++
                redirect.toList.flatMap (printCodeAndPath (lit "return")))))))
      (⟨uri, redirect, root, methods, indexes, autoindex, extensions⟩, flag) := by
  let opened : LocationConfig := ⟨uri, ∅, root, [], [], junk, []⟩
  have hopened : Plain opened.root := h.root
  have hroot := reads_printRoot hopened
  dsimp only [opened] at hroot
  generalize hflag : (if root = [] then 0 else 0 ||| BIT_FLAG_LOC_ROOT) = flag at hroot
  have hfree : isSet flag BIT_FLAG_AUTOINDEX = false := by
    rw [← hflag]
    split <;> decide
  have hmethods : locationLoop.Reads (⟨uri, ∅, root, [], [], junk, []⟩, flag)
      (printContents (lit "allowed_method") methods)
      (⟨uri, ∅, root, methods, [], junk, []⟩, flag) := by
    refine reads_printContents locationLoop LocationDirective.allowedMethod (fun _ => rfl)
      h.allowedMethods (fun hnil => ?_) (fun contents hvalues => ?_)
    · obtain rfl : methods = [] := hnil
      rfl
    · obtain rfl : contents.values = methods := hvalues
      rfl
  have hindexes : locationLoop.Reads (⟨uri, ∅, root, methods, [], junk, []⟩, flag)
      (printContents (lit "index") indexes)
      (⟨uri, ∅, root, methods, indexes, junk, []⟩, flag) := by
    refine reads_printContents locationLoop LocationDirective.index (fun _ => rfl)
      h.indexes (fun hnil => ?_) (fun contents hvalues => ?_)
    · obtain rfl : indexes = [] := hnil
      rfl
    · obtain rfl : contents.values = indexes := hvalues
      rfl
  have hautoindex : locationLoop.Reads (⟨uri, ∅, root, methods, indexes, junk, []⟩, flag)
      [lit "autoindex", closed (if autoindex then lit "on" else lit "off")]
      (⟨uri, ∅, root, methods, indexes, autoindex, []⟩, flag ||| BIT_FLAG_AUTOINDEX) := by
    refine .single (LocationDirective.autoindex _) ?_
    change (if isSet flag BIT_FLAG_AUTOINDEX then _ else _) = _
    rw [if_neg (by rw [hfree]; decide), readSwitch_printed]
    rfl
  have hextensions : locationLoop.Reads
      (⟨uri, ∅, root, methods, indexes, autoindex, []⟩, flag ||| BIT_FLAG_AUTOINDEX)
      (printContents (lit "cgi_extension") extensions)
      (⟨uri, ∅, root, methods, indexes, autoindex, extensions⟩, flag ||| BIT_FLAG_AUTOINDEX) := by
    refine reads_printContents locationLoop LocationDirective.cgiExtension (fun _ => rfl)
      h.cgiExtensions (fun hnil => ?_) (fun contents hvalues => ?_)
    · obtain rfl : extensions = [] := hnil
      rfl
    · obtain rfl : contents.values = extensions := hvalues
      rfl
  have hredirect := reads_printCodes locationLoop LocationDirective.redirect (fun _ _ => rfl)
    h.redirect (fun m => (⟨uri, m, root, methods, indexes, autoindex, extensions⟩,
      flag ||| BIT_FLAG_AUTOINDEX)) (fun _ _ _ => rfl)
  exact ⟨_, hroot.append (hmethods.append (hindexes.append (hautoindex.append
    (hextensions.append hredirect))))⟩

/-- A printed location is appended to those of the server. -/
theorem PrintableLocation.reads {location : LocationConfig} (h : PrintableLocation location)
    (memory : Memory) (server : ServerConfig) (flag : Nat) :
    (serverLoop memory).Reads (server, flag) (printLocation location)
      ({ server with locations := server.locations ++ [location] }, flag) := by
  obtain ⟨uri, redirect, root, methods, indexes, autoindex, extensions⟩ := location
  obtain ⟨last, ds, htext, hds⟩ :=
    h.reads_directives (memory.autoindex server.locations.length)
  have htokens : printLocation ⟨uri, redirect, root, methods, indexes, autoindex, extensions⟩ =
      (ServerDirective.locationBlock uri ds).tokens := by
    rw [ServerDirective.tokens, htext]
    rfl
  rw [htokens]
  refine .single (ServerDirective.locationBlock uri ds) ?_
  change (locationLoop.applyAll (openedLocation memory server uri, 0) ds >>= fun s =>
    addLocation (server, flag) s.1) = _
  rw [show locationLoop.applyAll (openedLocation memory server uri, 0) ds = _ from hds,
    Except.ok_bind, addLocation, h.locationValidate_ok]
  rfl

/-! ## Reading a server -/

theorem Printable.serverValidate_ok {server : ServerConfig} (h : Printable server) {flag : Nat}
    (hflag : isSet flag BIT_FLAG_LISTEN = true) : serverValidate server flag = .ok () := by
  have hdistinct : isDupLocation server = false := by
    rw [Bool.eq_false_iff, Ne, isDupLocation_iff]
    exact (distinctLocations_iff.mp h.distinct).2
  exact serverValidate_iff.mpr ⟨hflag, hdistinct, isValidStatus_of_plain h.errorPages,
    isValidErrorPages_iff.mpr h.errorPages_slash, isValidRoot_iff.mpr h.root_valid⟩

/-- What stands between the braces of a server. -/
theorem Printable.reads_directives {port : Nat} {host : Str} {names : List Str}
    {errorPages : Std.ExtTreeMap Int Str} {root : Str} {limit : Nat}
    {locations : List LocationConfig}
    (h : Printable ⟨port, host, names, errorPages, root, limit, locations⟩) (memory : Memory) :
    ∃ flag, isSet flag BIT_FLAG_LISTEN = true ∧
      (serverLoop memory).Reads (newServer memory, 0)
        ([lit "listen", closed (host ++ lit ":" ++ decimal port)] ++
          (printContents (lit "server_name") names ++
            (printRoot root ++
              (errorPages.toList.flatMap (printCodeAndPath (lit "error_page")) ++
                ([lit "client_body_size_limit", closed (decimal limit)] ++
                  locations.flatMap printLocation)))))
        (⟨port, host, names, errorPages, root, limit, locations⟩, flag) := by
  let junk := memory.clientBodySizeLimit
  have hlisten : (serverLoop memory).Reads (newServer memory, 0)
      [lit "listen", closed (host ++ lit ":" ++ decimal port)]
      (⟨port, host, [], ∅, [], junk, []⟩, 0 ||| BIT_FLAG_LISTEN) := by
    have happly : ServerDirective.apply memory (newServer memory, 0)
        (.listen (closed (host ++ lit ":" ++ decimal port))) =
          .ok (⟨port, host, [], ∅, [], junk, []⟩, 0 ||| BIT_FLAG_LISTEN) := by
      rw [ServerDirective.apply, if_neg (by decide : ¬ isSet 0 BIT_FLAG_LISTEN = true),
        setListen_printed _ h.host_colon h.host h.port]
      rfl
    exact .single (ServerDirective.listen _) happly
  have hnames : (serverLoop memory).Reads
      (⟨port, host, [], ∅, [], junk, []⟩, 0 ||| BIT_FLAG_LISTEN)
      (printContents (lit "server_name") names)
      (⟨port, host, names, ∅, [], junk, []⟩, 0 ||| BIT_FLAG_LISTEN) := by
    refine reads_printContents (serverLoop memory) ServerDirective.serverName (fun _ => rfl)
      h.server (fun hnil => ?_) (fun contents hvalues => ?_)
    · obtain rfl : names = [] := hnil
      rfl
    · obtain rfl : contents.values = names := hvalues
      rfl
  have hroot : (serverLoop memory).Reads
      (⟨port, host, names, ∅, [], junk, []⟩, 0 ||| BIT_FLAG_LISTEN) (printRoot root)
      (⟨port, host, names, ∅, root, junk, []⟩,
        if root = [] then 0 ||| BIT_FLAG_LISTEN else 0 ||| BIT_FLAG_LISTEN ||| BIT_FLAG_ROOT) := by
    unfold printRoot
    split
    · next hnil =>
      rw [hnil]
      exact .nil _
    · have happly : ServerDirective.apply memory
          (⟨port, host, names, ∅, [], junk, []⟩, 0 ||| BIT_FLAG_LISTEN) (.root (closed root)) =
            .ok (⟨port, host, names, ∅, root, junk, []⟩,
              0 ||| BIT_FLAG_LISTEN ||| BIT_FLAG_ROOT) := by
        rw [ServerDirective.apply,
          if_neg (by decide : ¬ isSet (0 ||| BIT_FLAG_LISTEN) BIT_FLAG_ROOT = true),
          upTo_closed h.root]
      exact .single (ServerDirective.root _) happly
  generalize hflag : (if root = [] then 0 ||| BIT_FLAG_LISTEN
    else 0 ||| BIT_FLAG_LISTEN ||| BIT_FLAG_ROOT) = flag at hroot
  have hfree : isSet flag BIT_FLAG_BODY_LIMIT = false ∧
      isSet (flag ||| BIT_FLAG_BODY_LIMIT) BIT_FLAG_LISTEN = true := by
    rw [← hflag]
    split <;> decide
  have herrors := reads_printCodes (serverLoop memory) ServerDirective.errorPage (fun _ _ => rfl)
    h.errorPages (fun m => (⟨port, host, names, m, root, junk, []⟩, flag)) (fun _ _ _ => rfl)
  have hlimit : (serverLoop memory).Reads (⟨port, host, names, errorPages, root, junk, []⟩, flag)
      [lit "client_body_size_limit", closed (decimal limit)]
      (⟨port, host, names, errorPages, root, limit, []⟩, flag ||| BIT_FLAG_BODY_LIMIT) := by
    have happly : ServerDirective.apply memory
        (⟨port, host, names, errorPages, root, junk, []⟩, flag)
        (.clientBodySizeLimit (closed (decimal limit))) =
          .ok (⟨port, host, names, errorPages, root, limit, []⟩, flag ||| BIT_FLAG_BODY_LIMIT) := by
      rw [ServerDirective.apply, if_neg (Bool.eq_false_iff.mp hfree.1),
        ftStoi_closed h.clientBodySizeLimit, sizeOfInt_natCast h.clientBodySizeLimit]
    exact .single (ServerDirective.clientBodySizeLimit _) happly
  have hlocations : (serverLoop memory).Reads
      (⟨port, host, names, errorPages, root, limit, []⟩, flag ||| BIT_FLAG_BODY_LIMIT)
      (locations.flatMap printLocation)
      (⟨port, host, names, errorPages, root, limit, locations⟩, flag ||| BIT_FLAG_BODY_LIMIT) := by
    let state (done : List LocationConfig) : ServerConfig × Nat :=
      (⟨port, host, names, errorPages, root, limit, done⟩, flag ||| BIT_FLAG_BODY_LIMIT)
    refine .flatMap state fun done location rest hsplit => ?_
    have hmem : location ∈ locations := by
      rw [hsplit]
      simp
    exact (h.locations location hmem).reads memory _ _
  exact ⟨_, hfree.2, hlisten.append (hnames.append (hroot.append (herrors.append
    (hlimit.append hlocations))))⟩

/-- A printed server is appended to those that are stored. -/
theorem Printable.reads {server : ServerConfig} (h : Printable server) (memory : Nat → Memory)
    (servers : List ServerConfig) :
    (tokensLoop memory).Reads servers (printServer server) (servers ++ [server]) := by
  obtain ⟨port, host, names, errorPages, root, limit, locations⟩ := server
  obtain ⟨flag, hflag, block, htext, hblock⟩ := h.reads_directives (memory servers.length)
  have htokens : printServer ⟨port, host, names, errorPages, root, limit, locations⟩ =
      ServerBlock.tokens block := by
    rw [ServerBlock.tokens, show block.flatMap ServerDirective.tokens = _ from htext]
    rfl
  rw [htokens]
  refine .single block ?_
  change ((serverLoop (memory servers.length)).applyAll (ServerBlock.opened memory servers) block
    >>= fun s => serverValidate s.1 s.2 >>= fun _ => .ok (servers ++ [s.1])) = _
  rw [show (serverLoop (memory servers.length)).applyAll (ServerBlock.opened memory servers)
    block = _ from hblock, Except.ok_bind, h.serverValidate_ok hflag]
  rfl

/-! ## Reading a file -/

theorem parseTokens_printTokens (memory : Nat → Memory) {servers : List ServerConfig}
    (h : ∀ server ∈ servers, Printable server) :
    parseTokens memory (servers.flatMap printServer) = .ok servers := by
  have hreads : (tokensLoop memory).Reads [] (servers.flatMap printServer) servers := by
    refine .flatMap (fun done => done) fun done server rest hsplit => ?_
    have hmem : server ∈ servers := by
      rw [hsplit]
      simp
    exact (h server hmem).reads memory done
  obtain ⟨blocks, htext, hblocks⟩ := hreads
  obtain ⟨left, -, hrun⟩ := parseTokens_open memory blocks []
  rw [List.append_nil] at hrun
  rw [← htext, show (tokensLoop memory).text blocks = blocks.flatMap ServerBlock.tokens from rfl,
    hrun, hblocks]
  rfl

/-! ## The tokens of the text -/

theorem isToken_printContents {keyword : Str} (hkeyword : IsToken keyword) {values : List Str}
    (h : PlainList values) : ∀ token ∈ printContents keyword values, IsToken token := by
  unfold printContents
  split
  · simp
  · next hne =>
    rw [List.forall_mem_cons, List.forall_mem_append, List.forall_mem_singleton]
    refine ⟨hkeyword, fun token htoken => ?_, isToken_closed ?_⟩
    · obtain ⟨hne, hplain⟩ := h token (List.dropLast_subset values htoken)
      exact hplain.isToken hne
    · rw [List.getLastD_eq_getLast?, List.getLast?_eq_some_getLast hne]
      exact (h _ (List.getLast_mem hne)).2

theorem isToken_printRoot {root : Str} (h : Plain root) :
    ∀ token ∈ printRoot root, IsToken token := by
  unfold printRoot
  split
  · simp
  · rw [List.forall_mem_cons, List.forall_mem_singleton]
    exact ⟨by decide, isToken_closed h⟩

theorem isToken_printCodes {keyword : Str} (hkeyword : IsToken keyword)
    {configMap : Std.ExtTreeMap Int Str} (h : PlainMap configMap) :
    ∀ token ∈ configMap.toList.flatMap (printCodeAndPath keyword), IsToken token := by
  rw [List.forall_mem_flatMap]
  intro entry hentry
  obtain ⟨hmin, -, hplain⟩ :=
    h entry.1 entry.2 (Std.ExtTreeMap.mem_toList_iff_getElem?_eq_some.mp hentry)
  rw [printCodeAndPath, decimalInt_of_nonneg (by omega), List.forall_mem_cons,
    List.forall_mem_cons, List.forall_mem_singleton]
  exact ⟨hkeyword, (plain_decimal _).isToken (decimal_ne_nil _), isToken_closed hplain⟩

theorem PrintableLocation.isToken {location : LocationConfig} (h : PrintableLocation location) :
    ∀ token ∈ printLocation location, IsToken token := by
  have hopen : ∀ token ∈ [lit "location", location.location, LBRACE], IsToken token := by
    rw [List.forall_mem_cons, List.forall_mem_cons, List.forall_mem_singleton]
    exact ⟨by decide, h.location.isToken h.location_ne_nil, by decide⟩
  have hautoindex : ∀ token ∈
      [lit "autoindex", closed (if location.autoindex then lit "on" else lit "off")],
      IsToken token := by
    cases location.autoindex <;> decide
  simp only [printLocation, List.forall_mem_append, List.forall_mem_singleton]
  exact ⟨⟨hopen, isToken_printRoot h.root, isToken_printContents (by decide) h.allowedMethods,
    isToken_printContents (by decide) h.indexes, hautoindex,
    isToken_printContents (by decide) h.cgiExtensions,
    isToken_printCodes (by decide) h.redirect⟩, by decide⟩

theorem Printable.isToken {server : ServerConfig} (h : Printable server) :
    ∀ token ∈ printServer server, IsToken token := by
  have hopen : ∀ token ∈ [lit "server", LBRACE], IsToken token := by decide
  have hlisten : ∀ token ∈
      [lit "listen", closed (server.host ++ lit ":" ++ decimal server.port)], IsToken token := by
    rw [List.forall_mem_cons, List.forall_mem_singleton]
    refine ⟨by decide, isToken_closed fun c hc => ?_⟩
    rw [List.mem_append, List.mem_append] at hc
    rcases hc with (hc | hc) | hc
    · exact h.host c hc
    · obtain rfl := List.mem_singleton.mp (show c ∈ [(58 : Byte)] from hc)
      decide
    · exact plain_decimal _ c hc
  have hlimit : ∀ token ∈
      [lit "client_body_size_limit", closed (decimal server.clientBodySizeLimit)],
      IsToken token := by
    rw [List.forall_mem_cons, List.forall_mem_singleton]
    exact ⟨by decide, isToken_closed (plain_decimal _)⟩
  have hlocations : ∀ token ∈ server.locations.flatMap printLocation, IsToken token := by
    rw [List.forall_mem_flatMap]
    exact fun location hlocation => (h.locations location hlocation).isToken
  simp only [printServer, List.forall_mem_append, List.forall_mem_singleton]
  exact ⟨⟨hopen, hlisten, isToken_printContents (by decide) h.server, isToken_printRoot h.root,
    isToken_printCodes (by decide) h.errorPages, hlimit, hlocations⟩, by decide⟩

/-- Whatever white space stands between the tokens, the servers are read back. -/
theorem parseTokens_spaced (memory : Nat → Memory) {servers : List ServerConfig}
    (h : ∀ server ∈ servers, Printable server) {text : Str}
    (htext : Spaced (servers.flatMap printServer) text) :
    parseTokens memory (isspaceSplit text) = .ok servers := by
  have htokens : ∀ token ∈ servers.flatMap printServer, IsToken token := by
    rw [List.forall_mem_flatMap]
    exact fun server hserver => (h server hserver).isToken
  rw [isspaceSplit_spaced htext htokens, parseTokens_printTokens memory h]

/-- One blank behind every token. -/
theorem spaced_blank (tokens : List Str) :
    Spaced tokens (tokens.flatMap fun token => token ++ lit " ") := by
  induction tokens with
  | nil => exact .nil
  | cons token tokens ih =>
    rw [List.flatMap_cons, List.append_assoc]
    exact .cons token (lit " ") (List.forall_mem_singleton.mpr (by decide)) (fun _ => by decide) ih

/-- The map with one entry. -/
def oneEntry (code : Int) (uri : Str) : Std.ExtTreeMap Int Str :=
  (∅ : Std.ExtTreeMap Int Str).insertIfNew code uri

theorem getElem?_oneEntry {code k : Int} {uri v : Str} (h : (oneEntry code uri)[k]? = some v) :
    code = k ∧ uri = v := by
  rw [oneEntry, Std.ExtTreeMap.getElem?_insertIfNew] at h
  split at h
  · next heq => exact ⟨Std.LawfulEqCmp.compare_eq_iff_eq.mp heq.1, Option.some.inj h⟩
  · simp at h

/-- A location named like a directive, whose index is named like a brace. -/
def printedLocation : LocationConfig where
  location := lit "server"
  redirect := oneEntry 301 []
  root := lit "www"
  allowedMethods := [lit "GET", lit "POST"]
  indexes := [lit "index", RBRACE]
  autoindex := true
  cgiExtensions := []

def printedServer : ServerConfig where
  port := 8080
  host := lit "a"
  server := [lit "a", lit "listen"]
  errorPages := oneEntry 404 (lit "/404.html")
  root := []
  clientBodySizeLimit := 100
  locations := [printedLocation]

theorem printable_printedLocation : PrintableLocation printedLocation where
  location_ne_nil := by decide
  location := by decide
  root := by decide
  root_valid := by decide
  allowedMethods := by decide
  allowedMethods_valid := by decide
  indexes := by decide
  cgiExtensions := by decide
  redirect := fun code uri h => by
    obtain ⟨rfl, rfl⟩ := getElem?_oneEntry h
    decide

theorem printable_printedServer : Printable printedServer where
  host := by decide
  host_colon := by decide
  port := by decide
  server := by decide
  root := by decide
  root_valid := by decide
  errorPages := fun code uri h => by
    obtain ⟨rfl, rfl⟩ := getElem?_oneEntry h
    decide
  errorPages_slash := fun code path h => by
    obtain ⟨rfl, rfl⟩ := getElem?_oneEntry h
    rfl
  clientBodySizeLimit := by decide
  locations := List.forall_mem_singleton.mpr printable_printedLocation
  distinct := by decide

def printedText : Str :=
  lit "server \x7b listen a:8080; server_name a listen; error_page 404 /404.html; " ++
    lit "client_body_size_limit 100; location server \x7b root www; allowed_method GET POST; " ++
    lit "index index \x7d; autoindex on; return 301 ; \x7d \x7d "

set_option maxRecDepth 4000 in
theorem parseTokens_spaced_server :
    parseTokens (fun _ => ⟨7, 7, fun _ => false⟩) (isspaceSplit printedText) =
      .ok [printedServer] := by
  have htext : Spaced ([printedServer].flatMap printServer) printedText :=
    (by decide : ([printedServer].flatMap printServer).flatMap (fun token => token ++ lit " ") =
      printedText) ▸ spaced_blank _
  exact parseTokens_spaced _ (List.forall_mem_singleton.mpr printable_printedServer) htext

end ConfigParser

end Webserv
