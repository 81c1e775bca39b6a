import Webserv.Response.ContentLength

/-!
# When a response is built

`build` answers every exception that is a `std::exception`.  What else is thrown comes from a
script that cannot be run.
-/

namespace Webserv

open Text

/-- The method returned. -/
def Returns {σ α : Type} (r : Except Raised α × σ) : Prop := ∃ a s, r = (.ok a, s)

namespace Returns

variable {σ α β : Type}

theorem pure (a : α) (s : σ) : Returns ((Pure.pure a : Method σ Raised α).run s) := ⟨a, s, rfl⟩

theorem bind_modify_iff {x : Method σ Raised α} {f : α → σ → σ} {s : σ} :
    Returns ((x >>= fun a => (modify (f a) : Method σ Raised PUnit)).run s) ↔
      Returns (x.run s) := by
  rcases hrun : x.run s with ⟨e | a, s'⟩
  · rw [Method.run_bind_error hrun]
    exact iff_of_false (fun h => nomatch h) (fun h => nomatch h)
  · rw [Method.run_bind_ok hrun]
    exact iff_of_true ⟨_, _, rfl⟩ ⟨_, _, rfl⟩

end Returns

/-! ## What the builder catches -/

/-- Whatever the method throws is a `std::exception`. -/
def Catchable {σ α : Type} (x : Method σ Raised α) : Prop := ∀ s, ¬ Fatal (x.run s)

theorem not_fatal_ok {σ α : Type} {a : α} {s : σ} :
    ¬ Fatal ((.ok a, s) : Except Raised α × σ) := by
  rintro ⟨e, s', heq, -⟩
  cases heq

theorem not_fatal_std {σ α : Type} {e : Exn} {s : σ} :
    ¬ Fatal ((.error (.std e), s) : Except Raised α × σ) := by
  rintro ⟨e', s', heq, hstd⟩
  exact hstd e (Except.error.inj (Prod.mk.inj heq).1).symm

theorem not_fatal_bind {σ α β : Type} {x : Method σ Raised α} {f : α → Method σ Raised β} {s : σ}
    (hx : ¬ Fatal (x.run s)) (hf : ∀ a, Catchable (f a)) : ¬ Fatal ((x >>= f).run s) := by
  rcases hrun : x.run s with ⟨e | a, s'⟩
  · rw [Method.run_bind_error hrun]
    rintro ⟨e', t, heq, hstd⟩
    obtain rfl := Except.error.inj (Prod.mk.inj heq).1
    exact hx ⟨e, s', hrun, hstd⟩
  · rw [Method.run_bind_ok hrun]
    exact hf a s'

namespace Catchable

variable {σ τ α β : Type}

theorem pure (a : α) : Catchable (Pure.pure a : Method σ Raised α) := fun _ => not_fatal_ok

theorem get : Catchable (MonadState.get : Method σ Raised σ) := fun _ => not_fatal_ok

theorem modify (f : σ → σ) : Catchable (modify f : Method σ Raised PUnit) := fun _ => not_fatal_ok

theorem throw (e : Exn) : Catchable (MonadExcept.throw (.std e) : Method σ Raised α) :=
  fun _ => not_fatal_std

theorem bind {x : Method σ Raised α} {f : α → Method σ Raised β} (hx : Catchable x)
    (hf : ∀ a, Catchable (f a)) : Catchable (x >>= f) := fun s => not_fatal_bind (hx s) hf

theorem zoom {member : σ → τ} {put : τ → σ → σ} {x : Method τ Raised α} (hx : Catchable x) :
    Catchable (Method.zoom member put x) := by
  rintro s ⟨e, s', heq, hstd⟩
  refine hx (member s) ⟨e, (x.run (member s)).2, ?_, hstd⟩
  rw [← (Prod.mk.inj heq).1]

end Catchable

theorem Fatal.not_returns {σ α : Type} {r : Except Raised α × σ} (h : Fatal r) : ¬ Returns r := by
  rintro ⟨a, s, rfl⟩
  exact h.fst_ne_ok a rfl

namespace CGI

/-- The calls of the parent process succeed, and the output fits into the buffer. -/
def ParentReturns (calls : CgiCalls) : Prop :=
  calls.close .p2cRead = true ∧ calls.close .c2pWrite = true ∧ calls.write = .returned ∧
    calls.close .p2cWrite = true ∧ calls.close .c2pRead = true ∧
    ∃ data, calls.read BUF_SIZE = some data ∧ data.length < BUF_SIZE

/-- What a script needs to be run: an interpreter for its extension, and system calls of the
server that succeed.  The calls of the child do not matter. -/
structure CanRun (calls : CgiCalls) (path : Path) : Prop where
  extension : path.extension ∈ EXEC_PATHS
  pipeP2c : calls.pipeP2c = true
  pipeC2p : calls.pipeC2p = true
  fork : calls.fork = .parent
  parent : ParentReturns calls

theorem check_bind_returns {α : Type} {c : Bool} {f : Unit → CgiM α} {cgi : CGI} :
    Returns ((check c >>= f).run cgi) ↔ c = true ∧ Returns ((f ()).run cgi) := by
  cases c with
  | false =>
    have hfatal : Fatal ((check false).run cgi) := .throw (by simp) cgi
    exact iff_of_false (hfatal.bind f).not_returns (by simp)
  | true => exact (and_iff_right rfl).symm

theorem parentProcess_returns {calls : CgiCalls} {cgi : CGI} :
    Returns ((parentProcess calls).run cgi) ↔ ParentReturns calls := by
  rw [ParentReturns, parentProcess, throwclose, check_bind_returns, throwclose, check_bind_returns]
  refine and_congr_right fun _ => and_congr_right fun _ => ?_
  cases hwrite : calls.write with
  | sigpipe =>
    refine iff_of_false ?_ (by simp)
    rw [if_pos rfl]
    exact ((Fatal.throw (by simp) cgi).bind _).not_returns
  | returned =>
    rw [if_neg (by simp), and_iff_right rfl]
    dsimp only
    rw [throwclose, check_bind_returns, throwclose, check_bind_returns]
    refine and_congr_right fun _ => and_congr_right fun _ => ?_
    cases hread : calls.read BUF_SIZE with
    | none =>
      refine iff_of_false ?_ (by simp)
      exact (Fatal.throw (by simp) cgi).not_returns
    | some data =>
      dsimp only
      by_cases hlen : data.length < BUF_SIZE
      · rw [if_pos hlen]
        exact iff_of_true (.pure _ _) ⟨data, rfl, hlen⟩
      · rw [if_neg hlen]
        refine iff_of_false (Fatal.throw (by simp) cgi).not_returns ?_
        rintro ⟨data', hdata, hlt⟩
        exact hlen (Option.some.inj hdata ▸ hlt)

theorem createPipe_bind_returns {α : Type} {calls : CgiCalls} {f : Unit → CgiM α} {cgi : CGI} :
    Returns ((createPipe calls >>= f).run cgi) ↔
      calls.pipeP2c = true ∧ calls.pipeC2p = true ∧ Returns ((f ()).run cgi) := by
  rw [createPipe, Method.run_bind_assoc, check_bind_returns, check_bind_returns]

theorem buildCGIResponse_returns {calls : CgiCalls} {execCommandPath : Str}
    {execArgs execEnvs : List Str} {cgi : CGI} :
    Returns ((buildCGIResponse calls execCommandPath execArgs execEnvs).run cgi) ↔
      calls.pipeP2c = true ∧ calls.pipeC2p = true ∧ calls.fork = .parent ∧ ParentReturns calls := by
  rw [buildCGIResponse, createPipe_bind_returns]
  refine and_congr_right fun _ => and_congr_right fun _ => ?_
  cases calls.fork with
  | failed => exact iff_of_false (Fatal.throw (by simp) cgi).not_returns (by simp)
  | child => exact iff_of_false (childProcess_fatal _ _ _ _ _).not_returns (by simp)
  | parent =>
    rw [and_iff_right rfl]
    exact parentProcess_returns

/-- Exactly then a script is run and its output read. -/
theorem run_returns_iff (calls : CgiCalls) (req : HttpRequestDTO) (conf : ConfigDTO) {path : Path}
    (hpath : path.rawPath ≠ []) (cgi : CGI) :
    Returns ((run calls req conf path).run cgi) ↔ CanRun calls path := by
  by_cases hext : path.extension ∈ EXEC_PATHS
  · obtain ⟨execCommandPath, execArgs, execEnvs, hrun⟩ := run_started calls req conf hpath hext cgi
    rw [hrun, Returns.bind_modify_iff, buildCGIResponse_returns]
    constructor
    · rintro ⟨hp2c, hc2p, hfork, hparent⟩
      exact ⟨hext, hp2c, hc2p, hfork, hparent⟩
    · intro h
      exact ⟨h.pipeP2c, h.pipeC2p, h.fork, h.parent⟩
  · refine iff_of_false ?_ fun h => hext h.extension
    have hnone : EXEC_PATHS[path.extension]? = none := Std.ExtTreeMap.getElem?_eq_none hext
    rw [run, Method.run_modify_bind, findSecond, hnone]
    exact ((Fatal.throw (by simp) _).bind _).not_returns

end CGI

theorem CGIParser.parse_catchable (cgiResponse : Str) :
    Catchable (CGIParser.parse cgiResponse) := by
  intro p
  rcases CGIParser.parse_cases cgiResponse p with ⟨-, p', hrun, -⟩ | ⟨-, e, p', hrun⟩
  · rw [hrun]
    exact not_fatal_ok
  · rw [hrun]
    exact not_fatal_std

namespace HttpResponseBuilder

theorem buildHeader_catchable (os : Os) (req : HttpRequestDTO) :
    Catchable (buildHeader os req) := by
  intro b
  rcases buildHeader_cases os req b with ⟨-, b', hrun, -⟩ | ⟨-, e, b', hrun⟩
  · rw [hrun]
    exact not_fatal_ok
  · rw [hrun]
    exact not_fatal_std

theorem readFile_catchable (os : Os) (purpose : ReadPurpose) (fullpath : Str) :
    Catchable (readFile os purpose fullpath) := by
  rw [readFile]
  cases os.ifstream (cStr fullpath) with
  | none => exact .throw _
  | some content => exact .modify _

/-- What a script throws is the only thing that `doCGI` does not leave to `build`. -/
theorem doCGI_fatal_iff (os : Os) {req : HttpRequestDTO} {path : Path}
    (hpath : Path.ofPathquery req.path = .ok path) (b : HttpResponseBuilder) :
    Fatal ((doCGI os req).run b) ↔ ¬ CGI.CanRun os.cgi path := by
  rw [doCGI, Method.run_bind_ok (run_lift_exn_ok hpath b), Method.run_get_bind]
  have hraw := Path.rawPath_ne_nil hpath
  by_cases hcan : CGI.CanRun os.cgi path
  · obtain ⟨a, cgi, hrun⟩ := (CGI.run_returns_iff os.cgi req b.conf hraw b.cgi).mpr hcan
    refine iff_of_false ?_ (not_not.mpr hcan)
    have hzoom : (Method.zoom (·.cgi) (fun cgi b => { b with cgi := cgi })
        (CGI.run os.cgi req b.conf path) : BuilderM Unit).run b =
          (.ok a, { b with cgi := cgi }) := by
      rw [Method.run_zoom, hrun]
    rw [Method.run_bind_ok hzoom]
    exact Catchable.bind .get (fun b => .bind (.zoom (CGIParser.parse_catchable _)) fun _ =>
      .bind (.modify _) fun _ => .bind (buildHeader_catchable os req) fun _ => .modify _) _
  · refine iff_of_true (Fatal.bind (.zoom ?_) _) hcan
    rcases CGI.run_cases os.cgi req b.conf hraw b.cgi with hfatal | ⟨_, cgi, -, hrun, -⟩
    · exact hfatal
    · exact absurd ((CGI.run_returns_iff os.cgi req b.conf hraw b.cgi).mp ⟨_, _, hrun⟩) hcan

theorem deliver_fatal_iff (os : Os) {req : HttpRequestDTO} {path : Path}
    (hpath : Path.ofPathquery req.path = .ok path) (b : HttpResponseBuilder) :
    Fatal ((deliver os req).run b) ↔ b.isFileCgi = true ∧ ¬ CGI.CanRun os.cgi path := by
  rw [deliver, Method.run_get_bind, Method.run_ite]
  split
  · next hcgi =>
    rw [doCGI_fatal_iff os hpath b]
    exact (and_iff_right hcgi).symm
  · next hcgi =>
    refine iff_of_false ?_ fun h => hcgi h.1
    rw [Method.run_ite]
    split
    · exact Catchable.bind (.pure _) (fun _ => buildHeader_catchable os req) b
    · exact Catchable.bind (readFile_catchable os _ _) (fun _ => buildHeader_catchable os req) b

/-! ## `build` -/

/-- The request is not for a script, or the script can be run. -/
def CanBuild (os : Os) (conf : ConfigDTO) (req : HttpRequestDTO) : Prop :=
  ∀ cwd path location name, Admits os conf req cwd path location name →
    isCGI location name = true → CGI.CanRun os.cgi path

theorem build_returns_of_not_fatal {os : Os} {req : HttpRequestDTO} {b : HttpResponseBuilder}
    (h : ¬ Fatal ((tryBuild os req).run b)) : Returns ((build os req).run b) := by
  rcases hrun : (tryBuild os req).run b with ⟨e | response, b'⟩
  · cases e with
    | std e =>
      obtain ⟨response, b'', hbuild, -⟩ := build_of_std hrun
      exact ⟨response, b'', hbuild⟩
    | _ => exact absurd ⟨_, b', hrun, by simp⟩ h
  · exact ⟨response, b', build_of_ok hrun⟩

/-- `build` returns a response exactly when no script is in the way. -/
theorem build_returns_iff (os : Os) (conf : ConfigDTO) (req : HttpRequestDTO) :
    Returns ((build os req).run (new conf)) ↔ CanBuild os conf req := by
  by_cases hadmits : ∃ cwd path location name, Admits os conf req cwd path location name
  · obtain ⟨cwd, path, location, name, hadmits⟩ := hadmits
    obtain ⟨locIt, htry⟩ := tryBuild_admitted hadmits
    let b := admitted (searched conf cwd path location name locIt) req.method
    have hcgi : b.isFileCgi = isCGI location name := rfl
    by_cases hfatal : Fatal ((deliver os req).run b)
    · refine iff_of_false (build_of_fatal_deliver htry hfatal).not_returns fun hbuild => ?_
      obtain ⟨hscript, hcannot⟩ := (deliver_fatal_iff os hadmits.parsed b).mp hfatal
      exact hcannot (hbuild cwd path location name hadmits (hcgi ▸ hscript))
    · refine iff_of_true (build_returns_of_not_fatal ?_) ?_
      · rw [htry]
        exact not_fatal_bind hfatal (fun _ => .bind .get fun _ => .pure _)
      · intro cwd' path' location' name' hadmits' hscript
        obtain ⟨rfl, rfl, rfl, rfl⟩ := hadmits.unique hadmits'
        by_contra hcannot
        exact hfatal ((deliver_fatal_iff os hadmits.parsed b).mpr ⟨hcgi.trans hscript, hcannot⟩)
  · obtain ⟨httpStatus, response, b', hrun, -⟩ := build_not_admitted hadmits
    refine iff_of_true ⟨response, b', hrun⟩ fun cwd path location name h => ?_
    exact absurd ⟨cwd, path, location, name, h⟩ hadmits

end HttpResponseBuilder

end Webserv
