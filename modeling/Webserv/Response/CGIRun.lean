import Webserv.Response.ErrorResponse

/-!
# Running a CGI script

A script run either throws something that no clause of the builder catches, or returns what was
read from the script.
-/

namespace Webserv

open Text

/-- The run ended with something that is not a `std::exception`. -/
def Fatal {σ α : Type} (r : Except Raised α × σ) : Prop :=
  ∃ e s, r = (.error e, s) ∧ ∀ x, e ≠ .std x

namespace Fatal

variable {σ τ α β : Type}

theorem throw {e : Raised} (h : ∀ x, e ≠ .std x) (s : σ) :
    Fatal ((MonadExcept.throw e : Method σ Raised α).run s) := ⟨e, s, rfl, h⟩

theorem bind {x : Method σ Raised α} {s : σ} (h : Fatal (x.run s)) (f : α → Method σ Raised β) :
    Fatal ((x >>= f).run s) := by
  obtain ⟨e, s', hrun, he⟩ := h
  exact ⟨e, s', Method.run_bind_error hrun f, he⟩

theorem zoom {member : σ → τ} {put : τ → σ → σ} {x : Method τ Raised α} {s : σ}
    (h : Fatal (x.run (member s))) : Fatal ((Method.zoom member put x).run s) := by
  obtain ⟨e, t, hrun, he⟩ := h
  exact ⟨e, put t s, by rw [Method.run_zoom, hrun], he⟩

/-- A `try` whose clauses stop nothing but a `std::exception` lets it through. -/
theorem tryCatch {x : Method σ Raised α} {s : σ} (h : Fatal (x.run s))
    {handle : Raised → Method σ Raised α}
    (hhandle : ∀ e, (∀ y, e ≠ .std y) → handle e = MonadExcept.throw e) :
    Fatal ((MonadExcept.tryCatch x handle).run s) := by
  obtain ⟨e, s', hrun, he⟩ := h
  rw [Method.run_tryCatch, hrun]
  dsimp only
  rw [hhandle e he]
  exact throw he s'

theorem fst_ne_ok {r : Except Raised α × σ} (h : Fatal r) (a : α) : r.1 ≠ .ok a := by
  obtain ⟨e, s, rfl, -⟩ := h
  simp

end Fatal

/-- No clause of `build` catches what is not a `std::exception`. -/
theorem HttpResponseBuilder.build_of_fatal {os : Os} {req : HttpRequestDTO}
    {b : HttpResponseBuilder} (h : Fatal ((tryBuild os req).run b)) :
    Fatal ((build os req).run b) := by
  refine h.tryCatch fun e hstd => ?_
  cases e with
  | std e => exact absurd rfl (hstd e)
  | _ => rfl

namespace CGI

theorem check_cases (c : Bool) (cgi : CGI) :
    Fatal ((check c).run cgi) ∨ (check c).run cgi = (.ok (), cgi) := by
  cases c with
  | false => exact Or.inl (.throw (by simp) cgi)
  | true => exact Or.inr rfl

/-- A `check` in front of a run that ends this way. -/
theorem check_bind_cases {α : Type} {P : Except Raised α × CGI → Prop} {c : Bool}
    {f : Unit → CgiM α} {cgi : CGI} (h : Fatal ((f ()).run cgi) ∨ P ((f ()).run cgi)) :
    Fatal ((check c >>= f).run cgi) ∨ P ((check c >>= f).run cgi) := by
  rcases check_cases c cgi with hfatal | hrun
  · exact Or.inl (hfatal.bind f)
  · rw [Method.run_bind_ok hrun]
    exact h

/-- The run returned what `read` delivered, up to its first NUL. -/
def Returned (calls : CgiCalls) (cgi : CGI) (r : Except Raised Str × CGI) : Prop :=
  ∃ data, calls.read BUF_SIZE = some data ∧ r = (.ok (cStr data), cgi)

theorem parentProcess_cases (calls : CgiCalls) (cgi : CGI) :
    Fatal ((parentProcess calls).run cgi) ∨ Returned calls cgi ((parentProcess calls).run cgi) := by
  refine check_bind_cases (check_bind_cases ?_)
  rw [Method.run_ite]
  split
  · exact Or.inl (Fatal.bind (.throw (by simp) cgi) _)
  · refine check_bind_cases (check_bind_cases ?_)
    cases hread : calls.read BUF_SIZE with
    | none => exact Or.inl (.throw (by simp) cgi)
    | some data =>
      dsimp only
      split
      · exact Or.inr ⟨data, hread, rfl⟩
      · exact Or.inl (.throw (by simp) cgi)

/-- The child never comes back to the builder. -/
theorem childProcess_fatal (calls : CgiCalls) (execCommandPath : Str) (execArgs execEnvs : List Str)
    (cgi : CGI) : Fatal ((childProcess calls execCommandPath execArgs execEnvs).run cgi) := by
  have h : ∀ {c : Bool} {f : Unit → CgiM Str}, Fatal ((f ()).run cgi) →
      Fatal ((check c >>= f).run cgi) := by
    intro c f hf
    rcases check_cases c cgi with hfatal | hrun
    · exact hfatal.bind f
    · rw [Method.run_bind_ok hrun]
      exact hf
  exact h (h (h (h (h (h (h (.throw (by simp) cgi)))))))

/-- The object once the script is started. -/
def started (cgi : CGI) (execCommandPath : Str) (execArgs : List Str) : CGI :=
  { cgi with scripts := cgi.scripts ++ [(execCommandPath, execArgs)] }

theorem buildCGIResponse_cases (calls : CgiCalls) (execCommandPath : Str)
    (execArgs execEnvs : List Str) (cgi : CGI) :
    Fatal ((buildCGIResponse calls execCommandPath execArgs execEnvs).run cgi) ∨
      Returned calls (started cgi execCommandPath execArgs)
        ((buildCGIResponse calls execCommandPath execArgs execEnvs).run cgi) := by
  have hpipe : Fatal ((createPipe calls).run cgi) ∨ (createPipe calls).run cgi = (.ok (), cgi) := by
    rcases check_cases calls.pipeP2c cgi with hfatal | hrun
    · exact Or.inl (hfatal.bind _)
    · rw [createPipe, Method.run_bind_ok hrun]
      exact check_cases calls.pipeC2p cgi
  rcases hpipe with hfatal | hrun
  · exact Or.inl (hfatal.bind _)
  · rw [buildCGIResponse, Method.run_bind_ok hrun]
    cases calls.fork with
    | failed => exact Or.inl (.throw (by simp) cgi)
    | child => exact Or.inl (childProcess_fatal calls execCommandPath execArgs execEnvs _)
    | parent => exact parentProcess_cases calls _

theorem findSecond_some {map : Std.ExtTreeMap Str Str} {key value : Str}
    (h : map[key]? = some value) (cgi : CGI) :
    (findSecond map key).run cgi = (.ok value, cgi) := by
  rw [findSecond, h]
  rfl

theorem createArgs_run {path : Path} (hpath : path.rawPath ≠ []) {command : Str}
    (h : EXEC_COMMANDS[path.extension]? = some command) (cgi : CGI) :
    (createArgs path).run cgi =
      (.ok (allocStr command :: allocStr (lit "www/cgi-bin/" ++ path.rawPath.drop 1) ::
        path.args.map allocStr), cgi) := by
  have hlen : 1 ≤ path.rawPath.length := List.length_pos_of_ne_nil hpath
  rw [createArgs, Method.run_bind_ok (findSecond_some h cgi),
    Method.run_bind_ok (run_lift_exn_ok (substr_drop hlen) cgi)]
  rfl

/-- The two tables have the same keys. -/
theorem mem_EXEC_COMMANDS_iff {key : Str} : key ∈ EXEC_COMMANDS ↔ key ∈ EXEC_PATHS := by
  rw [EXEC_COMMANDS, EXEC_PATHS, Std.ExtTreeMap.mem_ofList, Std.ExtTreeMap.mem_ofList]
  rfl

/-- The run of `buildCGIResponse` within `run`, once interpreter and arguments are known. -/
theorem run_started (calls : CgiCalls) (req : HttpRequestDTO) (conf : ConfigDTO) {path : Path}
    (hpath : path.rawPath ≠ []) (hext : path.extension ∈ EXEC_PATHS) (cgi : CGI) :
    ∃ execCommandPath execArgs execEnvs, (run calls req conf path).run cgi =
      (buildCGIResponse calls execCommandPath execArgs execEnvs >>= fun cgiResponse =>
        modify fun cgi => { cgi with cgiResponse := cgiResponse }).run
          { cgi with req := req, conf := conf } := by
  obtain ⟨execPath, hexec⟩ := Option.isSome_iff_exists.mp
    (Std.ExtTreeMap.mem_iff_isSome_getElem?.mp hext)
  obtain ⟨command, hcommand⟩ := Option.isSome_iff_exists.mp
    (Std.ExtTreeMap.mem_iff_isSome_getElem?.mp (mem_EXEC_COMMANDS_iff.mpr hext))
  have hargs : ∃ execArgs, (createArgs path).run { cgi with req := req, conf := conf } =
      (.ok execArgs, { cgi with req := req, conf := conf }) :=
    ⟨_, createArgs_run hpath hcommand _⟩
  obtain ⟨execArgs, hargs⟩ := hargs
  have henvs : ∃ execEnvs, (createEnvs path).run { cgi with req := req, conf := conf } =
      (.ok execEnvs, { cgi with req := req, conf := conf }) := ⟨_, rfl⟩
  obtain ⟨execEnvs, henvs⟩ := henvs
  refine ⟨cStr execPath, execArgs, execEnvs, ?_⟩
  rw [run, Method.run_modify_bind, Method.run_bind_ok (findSecond_some hexec _),
    Method.run_bind_ok hargs, Method.run_bind_ok henvs]

/-- A run for a path with a slash is fatal or stores what was read. -/
theorem run_cases (calls : CgiCalls) (req : HttpRequestDTO) (conf : ConfigDTO) {path : Path}
    (hpath : path.rawPath ≠ []) (cgi : CGI) :
    Fatal ((run calls req conf path).run cgi) ∨
      ∃ data cgi', calls.read BUF_SIZE = some data ∧
        (run calls req conf path).run cgi = (.ok (), cgi') ∧ cgi'.cgiResponse = cStr data := by
  by_cases hext : path.extension ∈ EXEC_PATHS
  · obtain ⟨execCommandPath, execArgs, execEnvs, hrun⟩ := run_started calls req conf hpath hext cgi
    rw [hrun]
    rcases buildCGIResponse_cases calls execCommandPath execArgs execEnvs
        { cgi with req := req, conf := conf } with hfatal | ⟨data, hread, hrun⟩
    · exact Or.inl (hfatal.bind _)
    · rw [Method.run_bind_ok hrun]
      exact Or.inr ⟨data, _, hread, rfl, rfl⟩
  · refine Or.inl ?_
    have hnone : EXEC_PATHS[path.extension]? = none := Std.ExtTreeMap.getElem?_eq_none hext
    rw [run, Method.run_modify_bind, findSecond, hnone]
    exact (Fatal.throw (by simp) _).bind _

end CGI

namespace CGIParser

/-- No header line ends at its first colon. -/
def AcceptsLines (lines : List Str) : Prop :=
  ∀ line ∈ lines.takeWhile (· ≠ []), ∃ nameValuePair, makeHeaderFieldPair line = .ok nameValuePair

/-- The lines behind the first empty one. -/
def bodyLines (lines : List Str) : List Str := (lines.dropWhile (· ≠ [])).tail

theorem bodyLines_cons_nil (rest : List Str) : bodyLines ([] :: rest) = rest := by
  rw [bodyLines, List.dropWhile_cons_of_neg (by simp), List.tail_cons]

theorem bodyLines_cons {line : Str} (hne : line ≠ []) (rest : List Str) :
    bodyLines (line :: rest) = bodyLines rest := by
  rw [bodyLines, List.dropWhile_cons_of_pos (by simp [hne]), bodyLines]

theorem acceptsLines_cons {line : Str} (hne : line ≠ []) (rest : List Str) :
    AcceptsLines (line :: rest) ↔
      (∃ nameValuePair, makeHeaderFieldPair line = .ok nameValuePair) ∧ AcceptsLines rest := by
  have htake : (line :: rest).takeWhile (· ≠ []) = line :: rest.takeWhile (· ≠ []) :=
    List.takeWhile_cons_of_pos (by simp [hne])
  unfold AcceptsLines
  rw [htake, List.forall_mem_cons]

theorem parseHeaderField_line {line name value : Str} (hne : line ≠ [])
    (hpair : makeHeaderFieldPair line = .ok (name, value)) (rest : List Str) (p : CGIParser) :
    (parseHeaderField (line :: rest)).run p =
      (parseHeaderField rest).run { p with cgiHeader := p.cgiHeader.insertIfNew name value } := by
  rw [parseHeaderField, if_neg hne, Method.run_bind_ok (run_lift_exn_ok hpair p),
    Method.run_modify_bind]

/-- What the header lines leave alone: the first value of a name stays. -/
structure Kept (p p' : CGIParser) : Prop where
  body : p'.resBodyStr = p.resBodyStr
  header : ∀ name value : Str, p.cgiHeader[name]? = some value → p'.cgiHeader[name]? = some value

theorem Kept.of_insert {p p' : CGIParser} {name value : Str}
    (h : Kept { p with cgiHeader := p.cgiHeader.insertIfNew name value } p') : Kept p p' := by
  refine ⟨h.body, fun name' value' hvalue => h.header name' value' ?_⟩
  have hmem : name' ∈ p.cgiHeader := by
    rw [Std.ExtTreeMap.mem_iff_isSome_getElem?, hvalue]
    rfl
  rw [Std.ExtTreeMap.getElem?_insertIfNew, if_neg, hvalue]
  rintro ⟨hname, hnew⟩
  rw [Std.LawfulEqCmp.compare_eq_iff_eq] at hname
  exact hnew (hname ▸ hmem)

theorem parseHeaderField_cases (lines : List Str) (p : CGIParser) :
    (AcceptsLines lines ∧
        ∃ p', (parseHeaderField lines).run p = (.ok (bodyLines lines), p') ∧ Kept p p') ∨
      (¬ AcceptsLines lines ∧
        ∃ e p', (parseHeaderField lines).run p = (.error (.std e), p')) := by
  induction lines generalizing p with
  | nil => exact Or.inl ⟨List.forall_mem_nil _, p, rfl, rfl, fun _ _ => id⟩
  | cons line rest ih =>
    by_cases hne : line = []
    · subst hne
      rw [bodyLines_cons_nil]
      exact Or.inl ⟨List.forall_mem_nil _, p, rfl, rfl, fun _ _ => id⟩
    · rw [acceptsLines_cons hne, bodyLines_cons hne]
      cases hpair : makeHeaderFieldPair line with
      | error e =>
        refine Or.inr ⟨fun h => ?_, e, p, by rw [parseHeaderField, if_neg hne, hpair]; rfl⟩
        obtain ⟨⟨pair, hok⟩, -⟩ := h
        cases hok
      | ok pair =>
        rw [parseHeaderField_line hne hpair]
        rcases ih { p with cgiHeader := p.cgiHeader.insertIfNew pair.1 pair.2 } with
          ⟨hrest, p', hrun, hkept⟩ | ⟨hrest, hrun⟩
        · exact Or.inl ⟨⟨⟨pair, rfl⟩, hrest⟩, p', hrun, hkept.of_insert⟩
        · exact Or.inr ⟨fun h => hrest h.2, hrun⟩

/-- The body is what stands behind the first empty line, with an `LF` behind every line. -/
def bodyStr (cgiResponse : Str) : Str :=
  (bodyLines (getlines cgiResponse)).flatMap (· ++ lit "\n")

theorem parse_cases (cgiResponse : Str) (p : CGIParser) :
    (AcceptsLines (getlines cgiResponse) ∧ ∃ p', (parse cgiResponse).run p = (.ok (), p') ∧
        p'.resBodyStr = p.resBodyStr ++ bodyStr cgiResponse) ∨
      (¬ AcceptsLines (getlines cgiResponse) ∧
        ∃ e p', (parse cgiResponse).run p = (.error (.std e), p')) := by
  rcases parseHeaderField_cases (getlines cgiResponse) p with
    ⟨hok, p', hrun, hkept⟩ | ⟨hbad, e, p', hrun⟩
  · refine Or.inl ⟨hok, ?_⟩
    rw [parse, Method.run_bind_ok hrun, ← hkept.body]
    exact ⟨_, rfl, rfl⟩
  · refine Or.inr ⟨hbad, e, p', ?_⟩
    rw [parse, Method.run_bind_error hrun]

end CGIParser

end Webserv
