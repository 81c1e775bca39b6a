import Webserv.Response.ContentLength

/-!
# Where a response fails

The status and the builder with which an error response is begun.  Up to `deliver` nothing is in
the body, and the file name is the one that was tried last.
-/

namespace Webserv

open Text

namespace HttpResponseBuilder

section

variable (os : Os) (conf : ConfigDTO) (req : HttpRequestDTO)

/-- The request is refused before anything is delivered. -/
inductive RefusedAt (cwd : Str) : Int → HttpResponseBuilder → Prop
  | noSlash (hslash : ¬ Path.HasSlash req.path) : RefusedAt cwd 500 ((new conf).rooted cwd)
  | rejected {path : Path} (hpath : Path.ofPathquery req.path = .ok path)
    (hstatus : req.responseStatusCode ≠ HttpStatus.ok) :
    RefusedAt cwd (utility.toInt req.responseStatusCode) ((new conf).located cwd path)
  | notFound {path : Path} {msg : String} {b : HttpResponseBuilder}
    (hpath : Path.ofPathquery req.path = .ok path)
    (hstatus : req.responseStatusCode = HttpStatus.ok)
    (hsearch : search os cwd (serverRoot cwd conf) path.pathDir path.pathFile conf.locations = none)
    (hrun : (tryBuild os req).run (new conf) = (.error (.std (.response 404 msg)), b)) :
    RefusedAt cwd 404 b
  | forbidden {path : Path} {location : LocationConfig} {name : Str} {msg : String}
    {b : HttpResponseBuilder} (hpath : Path.ofPathquery req.path = .ok path)
    (hstatus : req.responseStatusCode = HttpStatus.ok)
    (hsearch : search os cwd (serverRoot cwd conf) path.pathDir path.pathFile conf.locations =
      some (location, name))
    (hforbidden : ¬ (allowed location name req.method ∧
      os.access (cStr (locationDir cwd (serverRoot cwd conf) location ++ name)) = true))
    (hrun : (tryBuild os req).run (new conf) = (.error (.std (.response 403 msg)), b)) :
    RefusedAt cwd 403 b

/-- An error response is begun with this status and this builder. -/
inductive FailedAt : Int → HttpResponseBuilder → Prop
  | noCwd (hcwd : os.getcwd = none) : FailedAt 500 (new conf)
  | refused {cwd : Str} {httpStatus : Int} {b : HttpResponseBuilder}
    (hcwd : os.getcwd = some cwd) (h : RefusedAt os conf req cwd httpStatus b) :
    FailedAt httpStatus b
  | undelivered {cwd : Str} {path : Path} {location : LocationConfig} {name : Str} {e : Exn}
    {b : HttpResponseBuilder} (hadmits : Admits os conf req cwd path location name)
    (hrun : (tryBuild os req).run (new conf) = (.error (.std e), b)) :
    FailedAt (caughtStatus e) b

/-- The name of the file that was tried last. -/
def triedFile : Str :=
  match os.getcwd with
  | none => []
  | some cwd =>
    match Path.ofPathquery req.path with
    | .error _ => []
    | .ok path =>
      if req.responseStatusCode ≠ HttpStatus.ok then path.pathFile
      else
        match search os cwd (serverRoot cwd conf) path.pathDir path.pathFile conf.locations with
        | some (_, name) => name
        | none =>
          lastFile os cwd (serverRoot cwd conf) path.pathDir path.pathFile conf.locations

end

variable {os : Os} {conf : ConfigDTO} {req : HttpRequestDTO} {cwd : Str} {httpStatus : Int}
  {b : HttpResponseBuilder}

theorem RefusedAt.build_eq (h : RefusedAt os conf req cwd httpStatus b)
    (hcwd : os.getcwd = some cwd) :
    (build os req).run (new conf) = (buildErrorResponse os httpStatus req).run b := by
  cases h with
  | noSlash hslash => exact build_of_thrown (tryBuild_noSlash hcwd hslash (new conf))
  | @rejected path hpath hstatus =>
    have htry : (tryBuild os req).run (new conf) =
        (buildErrorResponse os (utility.toInt req.responseStatusCode) req).run
          ((new conf).located cwd path) := by
      rw [tryBuild_located hcwd hpath, if_pos hstatus]
    rw [buildErrorResponse_run] at htry ⊢
    exact build_of_ok htry
  | notFound hpath hstatus hsearch hrun => exact build_of_thrown hrun
  | forbidden hpath hstatus hsearch hforbidden hrun => exact build_of_thrown hrun

theorem FailedAt.build_eq (h : FailedAt os conf req httpStatus b) :
    (build os req).run (new conf) = (buildErrorResponse os httpStatus req).run b := by
  cases h with
  | noCwd hcwd => exact build_of_thrown (tryBuild_noCwd hcwd req (new conf))
  | refused hcwd h => exact h.build_eq hcwd
  | undelivered hadmits hrun => exact build_of_thrown hrun

/-- A request that no location admits is refused. -/
theorem exists_failedAt_of_not_admits
    (h : ¬ ∃ cwd path location name, Admits os conf req cwd path location name) :
    ∃ httpStatus b, FailedAt os conf req httpStatus b := by
  cases hcwd : os.getcwd with
  | none => exact ⟨500, _, .noCwd hcwd⟩
  | some cwd =>
    by_cases hslash : Path.HasSlash req.path
    · obtain ⟨path, hpath⟩ := Path.ofPathquery_of_hasSlash hslash
      by_cases hstatus : req.responseStatusCode = HttpStatus.ok
      · cases hsearch : search os cwd (serverRoot cwd conf) path.pathDir path.pathFile
            conf.locations with
        | none =>
          obtain ⟨msg, locIt, hrun⟩ := tryBuild_notFound hstatus hcwd hpath hsearch
          exact ⟨404, _, .refused hcwd (.notFound hpath hstatus hsearch hrun)⟩
        | some p =>
          obtain ⟨location, name⟩ := p
          have hforbidden : ¬ (allowed location name req.method ∧
              os.access (cStr (locationDir cwd (serverRoot cwd conf) location ++ name)) = true) :=
            fun hpermitted => h ⟨cwd, path, location, name, hstatus, hcwd, hpath, hsearch,
              hpermitted.1, hpermitted.2⟩
          obtain ⟨msg, locIt, hrun⟩ := tryBuild_forbidden hstatus hcwd hpath hsearch hforbidden
          exact ⟨403, _, .refused hcwd (.forbidden hpath hstatus hsearch hforbidden hrun)⟩
      · exact ⟨_, _, .refused hcwd (.rejected hpath hstatus)⟩
    · exact ⟨500, _, .refused hcwd (.noSlash hslash)⟩

/-- A response that is not the file or the output of the script is begun as an error response. -/
theorem exists_failedAt_of_not_delivers {response : HttpResponse}
    (h : (build os req).run (new conf) = (.ok response, b)) (hnot : ¬ Delivers os conf req) :
    ∃ httpStatus b', FailedAt os conf req httpStatus b' := by
  by_cases hadmits : ∃ cwd path location name, Admits os conf req cwd path location name
  · obtain ⟨cwd, path, location, name, hadmits⟩ := hadmits
    obtain ⟨locIt, htry⟩ := tryBuild_admitted hadmits
    let b₀ := admitted (searched conf cwd path location name locIt) req.method
    have hdelivery := deliver_delivery os hadmits.parsed b₀
    generalize hrun : (deliver os req).run b₀ = r at hdelivery
    cases hdelivery with
    | fatal hfatal =>
      have hthrown := build_of_fatal_deliver htry (hrun ▸ hfatal)
      exact absurd (congrArg Prod.fst h) (hthrown.fst_ne_ok _)
    | done b' hdeliverable =>
      exact absurd ⟨cwd, path, location, name, hadmits, hdeliverable⟩ hnot
    | failed e b' =>
      rw [Method.run_bind_error hrun] at htry
      exact ⟨_, b', .undelivered hadmits htry⟩
  · exact exists_failedAt_of_not_admits hadmits

/-- What is known of the builder of a refused request. -/
structure RefusedState (conf : ConfigDTO) (cwd : Str) (b : HttpResponseBuilder) : Prop where
  conf_eq : b.conf = conf
  body : b.resBodyStr = []
  defaultRoot : b.defaultRoot = serverRoot cwd conf
  location : b.filepathExists = true → b.foundLocation ∈ conf.locations

theorem RefusedAt.state (h : RefusedAt os conf req cwd httpStatus b)
    (hcwd : os.getcwd = some cwd) : RefusedState conf cwd b := by
  cases h with
  | noSlash hslash => exact ⟨rfl, rfl, rfl, fun hexists => by cases hexists⟩
  | rejected hpath hstatus => exact ⟨rfl, rfl, rfl, fun hexists => by cases hexists⟩
  | notFound hpath hstatus hsearch hrun =>
    obtain ⟨msg, locIt, htry⟩ := tryBuild_notFound hstatus hcwd hpath hsearch
    obtain ⟨-, rfl⟩ := Prod.mk.inj (hrun.symm.trans htry)
    exact ⟨rfl, rfl, rfl, fun hexists => by cases hexists⟩
  | forbidden hpath hstatus hsearch hforbidden hrun =>
    obtain ⟨msg, locIt, htry⟩ := tryBuild_forbidden hstatus hcwd hpath hsearch hforbidden
    obtain ⟨-, rfl⟩ := Prod.mk.inj (hrun.symm.trans htry)
    exact ⟨rfl, rfl, rfl, fun _ => (search_foundIn hsearch).mem⟩

theorem RefusedAt.pathFile (h : RefusedAt os conf req cwd httpStatus b)
    (hcwd : os.getcwd = some cwd) : b.pathFile = triedFile os conf req := by
  rw [triedFile, hcwd]
  dsimp only
  cases h with
  | noSlash hslash =>
    rw [Path.ofPathquery_of_not_hasSlash hslash]
    rfl
  | rejected hpath hstatus =>
    rw [hpath]
    dsimp only
    rw [if_pos hstatus]
    rfl
  | notFound hpath hstatus hsearch hrun =>
    obtain ⟨msg, locIt, htry⟩ := tryBuild_notFound hstatus hcwd hpath hsearch
    obtain ⟨-, rfl⟩ := Prod.mk.inj (hrun.symm.trans htry)
    rw [hpath]
    dsimp only
    rw [if_neg (not_not.mpr hstatus), hsearch]
    rfl
  | forbidden hpath hstatus hsearch hforbidden hrun =>
    obtain ⟨msg, locIt, htry⟩ := tryBuild_forbidden hstatus hcwd hpath hsearch hforbidden
    obtain ⟨-, rfl⟩ := Prod.mk.inj (hrun.symm.trans htry)
    rw [hpath]
    dsimp only
    rw [if_neg (not_not.mpr hstatus), hsearch]
    rfl

/-- The builder of a request that was admitted and not delivered. -/
theorem undelivered_eq {path : Path} {location : LocationConfig} {name : Str} {e : Exn}
    (hadmits : Admits os conf req cwd path location name)
    (hrun : (tryBuild os req).run (new conf) = (.error (.std e), b)) :
    ∃ locIt, (deliver os req).run
        (admitted (searched conf cwd path location name locIt) req.method) =
      (.error (.std e), b) := by
  obtain ⟨locIt, htry⟩ := tryBuild_admitted hadmits
  refine ⟨locIt, ?_⟩
  rw [hrun] at htry
  rcases hdeliver : (deliver os req).run
      (admitted (searched conf cwd path location name locIt) req.method) with ⟨e' | u, b'⟩
  · rw [Method.run_bind_error hdeliver] at htry
    obtain ⟨he, rfl⟩ := Prod.mk.inj htry
    rw [Except.error.inj he]
  · rw [Method.run_bind_ok hdeliver] at htry
    cases htry

theorem FailedAt.pathFile (h : FailedAt os conf req httpStatus b) :
    b.pathFile = triedFile os conf req := by
  cases h with
  | noCwd hcwd =>
    rw [triedFile, hcwd]
    rfl
  | refused hcwd h => exact h.pathFile hcwd
  | @undelivered cwd path location name e b hadmits hrun =>
    obtain ⟨locIt, hdeliver⟩ := undelivered_eq hadmits hrun
    have hname : Method.Keeps HttpResponseBuilder.pathFile (deliver os req) :=
      deliver_keeps (fun _ _ _ _ _ _ => rfl) os req
    have hkeeps := hname (admitted (searched conf cwd path location name locIt) req.method)
    rw [hdeliver] at hkeeps
    rw [triedFile, hadmits.getcwd]
    dsimp only
    rw [hadmits.parsed]
    dsimp only
    rw [if_neg (not_not.mpr hadmits.status), hadmits.search]
    exact hkeeps

end HttpResponseBuilder

end Webserv
