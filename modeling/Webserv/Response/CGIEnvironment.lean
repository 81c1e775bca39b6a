import Webserv.Request.HeaderFieldGrammar
import Webserv.Request.Session
import Webserv.Response.CGI

/-!
# The environment of a script

The value of a header field goes from its lines to the map of the header, from there to the
request object, and from that to the environment.  The converter looks two of the fields up under
names with an underscore, which are field names of their own: `User-Agent` is not found under
`user_agent`.
-/

namespace Webserv

open Text HttpParser

/-! ## Environments -/

/-- The value of the first entry of this name. -/
def getenv (envs : List Str) (name : Str) : Option Str :=
  (envs.find? fun env => (name ++ lit "=").isPrefixOf env).map (·.drop (name.length + 1))

/-- An entry of the array that `utility::map2Array` makes. -/
def envEntry (nameValue : Str × Str) : Str := cStr (nameValue.1 ++ lit "=" ++ nameValue.2)

/-- A name that can be told from its value. -/
def EnvName (name : Str) : Prop := 0 ∉ name ∧ 61 ∉ name

instance (name : Str) : Decidable (EnvName name) :=
  inferInstanceAs (Decidable (0 ∉ name ∧ 61 ∉ name))

theorem envEntry_eq {name : Str} (hname : EnvName name) (value : Str) :
    envEntry (name, value) = name ++ 61 :: cStr value := by
  have hfront : 0 ∉ name ++ lit "=" := by
    rw [List.mem_append, not_or]
    exact ⟨hname.1, by decide⟩
  rw [envEntry, cStr_append hfront, List.append_assoc]
  rfl

theorem isPrefixOf_envEntry {name name' : Str} (hname : EnvName name) (hname' : EnvName name')
    (value : Str) :
    (name ++ lit "=").isPrefixOf (envEntry (name', value)) = (compare name' name == .eq) := by
  rw [envEntry_eq hname', Bool.eq_iff_iff, List.isPrefixOf_iff_prefix, beq_iff_eq,
    Std.LawfulEqCmp.compare_eq_iff_eq]
  constructor
  · rintro ⟨rest, h⟩
    have hsplit : name ++ 61 :: rest = name' ++ 61 :: cStr value := by
      rw [← h, List.append_assoc]
      rfl
    exact (append_cons_unique hname.2 hname'.2 hsplit).1.symm
  · rintro rfl
    exact ⟨cStr value, by rw [List.append_assoc]; rfl⟩

/-- A variable has the value of the map, up to its first NUL. -/
theorem getenv_map2Array {map : Std.ExtTreeMap Str Str} (hmap : ∀ name ∈ map, EnvName name)
    {name : Str} (hname : EnvName name) :
    getenv (map.toList.map envEntry) name = map[name]?.map cStr := by
  have hfind : map.toList.find? ((name ++ lit "=").isPrefixOf ∘ envEntry) =
      map.toList.find? (compare ·.1 name == .eq) := by
    refine List.find?_congr fun nameValue hmem => ?_
    obtain ⟨name', value⟩ := nameValue
    have hvalue := Std.ExtTreeMap.mem_toList_iff_getElem?_eq_some.mp hmem
    refine isPrefixOf_envEntry hname (hmap name' ?_) value
    rw [Std.ExtTreeMap.mem_iff_isSome_getElem?, hvalue]
    rfl
  rw [getenv, List.find?_map, hfind]
  by_cases hmem : name ∈ map
  · obtain ⟨value, hvalue⟩ := Option.isSome_iff_exists.mp
      (Std.ExtTreeMap.mem_iff_isSome_getElem?.mp hmem)
    rw [Std.ExtTreeMap.find?_toList_eq_some_iff_getKey?_eq_some_and_getElem?_eq_some.mpr
      ⟨Std.ExtTreeMap.getKey?_eq_some hmem, hvalue⟩, hvalue, Option.map_some, Option.map_some,
      Option.map_some, envEntry_eq hname, List.append_cons, List.drop_left' (by simp)]
  · rw [Std.ExtTreeMap.find?_toList_eq_none_iff_not_mem.mpr hmem,
      Std.ExtTreeMap.getElem?_eq_none hmem]
    rfl

namespace CGI

/-- The variables that are made from the header and the body of the request. -/
def requestPairs (req : HttpRequestDTO) : List (Str × Str) :=
  [(lit "AUTH_TYPE", req.authorization),
    (lit "CONTENT_LENGTH", req.contentLength),
    (lit "CONTENT_TYPE", req.contentType),
    (lit "HTTP_ACCEPT", req.accept),
    (lit "HTTP_FORWARDED", req.forwarded),
    (lit "HTTP_REFERER", req.referer),
    (lit "HTTP_USER_AGENT", req.userAgent),
    (lit "HTTP_X_FORWARDED_FOR", req.xForwardedFor)]

theorem createEnvs_pairs (cgi : CGI) (path : Path) :
    ∃ pairs, (createEnvs path).run cgi =
        (.ok ((Std.ExtTreeMap.ofList pairs).toList.map envEntry), cgi) ∧
      (pairs.map Prod.fst).Nodup ∧ (∀ name ∈ pairs.map Prod.fst, EnvName name) ∧
      requestPairs cgi.req ⊆ pairs := by
  refine ⟨_, rfl, ?_, ?_, ?_⟩
  · simp only [List.map_cons, List.map_nil]
    decide
  · simp only [List.map_cons, List.map_nil]
    decide
  · rw [requestPairs]
    simp only [List.cons_subset, List.mem_cons, List.nil_subset, true_or, or_true, and_self]

theorem getenv_createEnvs (cgi : CGI) (path : Path) :
    ∃ envs, (createEnvs path).run cgi = (.ok envs, cgi) ∧
      ∀ nameValue ∈ requestPairs cgi.req,
        getenv envs nameValue.1 = some (cStr nameValue.2) := by
  obtain ⟨pairs, hrun, hnodup, hnames, hsubset⟩ := createEnvs_pairs cgi path
  refine ⟨_, hrun, fun nameValue hmem => ?_⟩
  have hpair := hsubset hmem
  have hname := hnames _ (List.mem_map_of_mem hpair)
  have hdistinct : pairs.Pairwise fun a b => ¬ compare a.1 b.1 = .eq :=
    (List.pairwise_map.mp hnodup).imp fun hne heq =>
      hne (Std.LawfulEqCmp.compare_eq_iff_eq.mp heq)
  have hvalue : (Std.ExtTreeMap.ofList pairs)[nameValue.1]? = some nameValue.2 :=
    Std.ExtTreeMap.getElem?_ofList_of_mem Std.ReflCmp.compare_self hdistinct hpair
  have hmap : ∀ name ∈ Std.ExtTreeMap.ofList pairs, EnvName name := by
    intro name hmem
    rw [Std.ExtTreeMap.mem_ofList, List.contains_iff_mem] at hmem
    exact hnames name hmem
  rw [getenv_map2Array hmap hname, hvalue, Option.map_some]

end CGI

/-! ## Accepted requests -/

/-- The text is a request line, lines with these fields, and what follows them. -/
def HeaderFields (text : Str) (fields : List HeaderFieldPair) : Prop :=
  ∃ line lines rest, (∀ l ∈ line :: lines, IsLine CR LF l) ∧
    text = unlines CRLF (line :: lines) ++ CRLF ++ rest ∧ List.Forall₂ IsField lines fields

/-- The values of a name, with commas between them. -/
def joinedValue (fields : List HeaderFieldPair) (n : Str) : Str :=
  (joined (valuesOf fields n)).getD []

/-- The variables for header fields, each with the name of its field. -/
def scriptVariables : List (Str × Str) :=
  [(lit "AUTH_TYPE", lit "authorization"),
    (lit "CONTENT_TYPE", lit "content-type"),
    (lit "HTTP_ACCEPT", lit "accept"),
    (lit "HTTP_FORWARDED", lit "forwarded"),
    (lit "HTTP_REFERER", lit "referer"),
    (lit "HTTP_USER_AGENT", lit "user-agent"),
    (lit "HTTP_X_FORWARDED_FOR", lit "x-forwarded-for")]

/-- The environment has the values of the header, and the size of the body. -/
structure EnvsCarry (fields : List HeaderFieldPair) (body : Str) (envs : List Str) : Prop where
  values : ∀ variableField ∈ scriptVariables,
    getenv envs variableField.1 = some (joinedValue fields variableField.2)
  contentLength : getenv envs (lit "CONTENT_LENGTH") = some (decimal body.length)

/-- Five values have no NUL, and the other two are those that stand under another name. -/
structure Carried (fields : List HeaderFieldPair) : Prop where
  nulFree : ∀ n ∈ [lit "authorization", lit "content-type", lit "accept", lit "forwarded",
    lit "referer"], 0 ∉ joinedValue fields n
  userAgent : cStr (joinedValue fields (lit "user_agent")) = joinedValue fields (lit "user-agent")
  xForwardedFor : cStr (joinedValue fields (lit "x_forwarded_for")) =
    joinedValue fields (lit "x-forwarded-for")

theorem exists_headerFields {text body : Str} {header : RequestHeader}
    (h : Verdict.ofText text = .accepted header body) :
    ∃ fields, HeaderFields text fields ∧
      ∀ n, header.headerMap[n]? = joined (valuesOf fields n) := by
  obtain ⟨block, bytes, hsplit, hparse, -⟩ := Verdict.ofText_eq_accepted_iff.mp h
  obtain ⟨hblock, rfl⟩ := splitHeader_eq_some_iff.mp hsplit
  obtain ⟨line, lines, hall, rfl, -, hmap⟩ := headerBlock_lines hblock hparse
  obtain ⟨fields, hfields, -, hmerged⟩ := foldlM_addLine_iff.mp hmap
  refine ⟨fields, ⟨line, lines, bytes, hall, rfl, hfields⟩, fun n => ?_⟩
  rw [hmerged, getElem?_merged]

/-- The environment for a request whose map has these values. -/
theorem createEnvs_carry {request : HttpRequest} {fields : List HeaderFieldPair}
    (hmap : ∀ n, request.header.headerMap[n]? = joined (valuesOf fields n)) (cgi : CGI)
    (path : Path) (hreq : cgi.req = HttpRequestConverter.toDTO request) :
    ∃ envs, (CGI.createEnvs path).run cgi = (.ok envs, cgi) ∧
      (EnvsCarry fields request.body envs ↔ Carried fields) := by
  obtain ⟨envs, hrun, henvs⟩ := CGI.getenv_createEnvs cgi path
  refine ⟨envs, hrun, ?_⟩
  have hsearch (n : Str) :
      HttpRequestConverter.searchFieldValue request.header.headerMap n = joinedValue fields n := by
    rw [HttpRequestConverter.searchFieldValue, hmap, joinedValue]
  rw [hreq] at henvs
  simp only [CGI.requestPairs, HttpRequestConverter.toDTO, hsearch, List.forall_mem_cons] at henvs
  obtain ⟨hauth, hlength, htype, haccept, hforwarded, hreferer, hagent, hfor, -⟩ := henvs
  have hvalues : (∀ variableField ∈ scriptVariables,
      getenv envs variableField.1 = some (joinedValue fields variableField.2)) ↔
        Carried fields := by
    simp only [scriptVariables, List.forall_mem_cons, hauth, htype, haccept, hforwarded, hreferer,
      hagent, hfor, Option.some.injEq, cStr_eq_self_iff]
    constructor
    · rintro ⟨hauth, htype, haccept, hforwarded, hreferer, hagent, hfor, -⟩
      refine ⟨?_, hagent, hfor⟩
      simp only [List.forall_mem_cons]
      exact ⟨hauth, htype, haccept, hforwarded, hreferer, List.forall_mem_nil _⟩
    · rintro ⟨hfree, hagent, hfor⟩
      simp only [List.forall_mem_cons] at hfree
      obtain ⟨hauth, htype, haccept, hforwarded, hreferer, -⟩ := hfree
      exact ⟨hauth, htype, haccept, hforwarded, hreferer, hagent, hfor, List.forall_mem_nil _⟩
  have hsize : getenv envs (lit "CONTENT_LENGTH") = some (decimal request.body.length) := by
    rw [hlength, utility.toString, cStr_decimal]
  exact ⟨fun h => hvalues.mp h.values, fun h => ⟨hvalues.mpr h, hsize⟩⟩

/-- Every variable has the value of its header if and only if no value is cut and the two fields
that are looked up under other names have the values that stand under those. -/
theorem HttpRequestParser.envsCarry_iff (conf : ServerConfig) (history : List ParseCall)
    (c : ParseCall) (hfinished : (parseAll (fresh conf) (history ++ [c])).finished = true)
    (cgi : CGI) (path : Path) :
    let request := (parseAll (fresh conf) (history ++ [c])).buildRequest
    ∃ fields envs, HeaderFields (currentText (parseAll (fresh conf) history) c) fields ∧
      (CGI.createEnvs path).run { cgi with req := HttpRequestConverter.toDTO request } =
        (.ok envs, { cgi with req := HttpRequestConverter.toDTO request }) ∧
      (EnvsCarry fields request.body envs ↔ Carried fields) := by
  intro request
  obtain ⟨servConfig, header, body, hverdict, hreport⟩ := Session.accepted_of_finished hfinished
  obtain ⟨fields, hfields, hmap⟩ := exists_headerFields hverdict
  have hrequest : request = HttpRequestParser.buildRequest _ :=
    congrArg HttpRequestParser.buildRequest hreport
  have hheader : request.header = header := by
    rw [hrequest]
    rfl
  rw [← hheader] at hmap
  obtain ⟨envs, hrun, hcarry⟩ := createEnvs_carry hmap
    { cgi with req := HttpRequestConverter.toDTO request } path rfl
  exact ⟨fields, envs, hfields, hrun, hcarry⟩

/-- A request with a `User-Agent`. -/
def curlCall : ParseCall where
  unparsedStr := lit "GET / HTTP/1.1\r\nHost: a\r\nUser-Agent: curl\r\n\r\n"
  port := 80
  config := HttpRequestParser.oneServer 80

/-- The path `/`. -/
def rootPath : Path := ⟨lit "/", [], [[]], [[]], lit "/", [], []⟩

theorem HttpRequestParser.envsCarry_iff_curl :
    let request := (parseAll (fresh default) ([] ++ [curlCall])).buildRequest
    ∃ fields envs, HeaderFields (currentText (parseAll (fresh default) []) curlCall) fields ∧
      (CGI.createEnvs rootPath).run { CGI.new with req := HttpRequestConverter.toDTO request } =
        (.ok envs, { CGI.new with req := HttpRequestConverter.toDTO request }) ∧
      (EnvsCarry fields request.body envs ↔ Carried fields) :=
  envsCarry_iff default [] curlCall (by decide) .new rootPath

/-- `HTTP_USER_AGENT` is empty for `User-Agent: curl`. -/
theorem HttpRequestParser.not_envsCarry : ¬ ∀ (conf : ServerConfig) (history : List ParseCall)
    (c : ParseCall) (fields : List HeaderFieldPair) (envs : List Str) (cgi cgi' : CGI)
    (path : Path),
    (parseAll (fresh conf) (history ++ [c])).finished = true →
    HeaderFields (currentText (parseAll (fresh conf) history) c) fields →
    cgi.req = HttpRequestConverter.toDTO (parseAll (fresh conf) (history ++ [c])).buildRequest →
    (CGI.createEnvs path).run cgi = (.ok envs, cgi') →
    EnvsCarry fields (parseAll (fresh conf) (history ++ [c])).buildRequest.body envs := by
  intro h
  have hfinished : (parseAll (fresh default) ([] ++ [curlCall])).finished = true := by decide
  obtain ⟨servConfig, header, body, hverdict, hreport⟩ := Session.accepted_of_finished hfinished
  obtain ⟨fields, hfields, hmap⟩ := exists_headerFields hverdict
  have hheader : (parseAll (fresh default) ([] ++ [curlCall])).buildRequest.header = header := by
    rw [hreport]
    rfl
  rw [← hheader] at hmap
  obtain ⟨envs, hrun, hcarry⟩ := createEnvs_carry hmap { CGI.new with
    req := HttpRequestConverter.toDTO
      (parseAll (fresh default) ([] ++ [curlCall])).buildRequest } rootPath rfl
  have henvs := h default [] curlCall fields envs _ _ rootPath hfinished hfields rfl hrun
  have hagent := (hcarry.mp henvs).userAgent
  rw [joinedValue, joinedValue, ← hmap, ← hmap] at hagent
  exact absurd hagent (by decide)

end Webserv
