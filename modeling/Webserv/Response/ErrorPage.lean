import Webserv.Response.Dispatch
import Webserv.Response.Failures
import Webserv.Response.FileLines

/-!
# Configured error pages

The page for a status is looked for under the root of the location once a file was found, and
under that of the server otherwise.  `buildErrorResponse` does not fall back to the root of the
server for a location without one.
-/

namespace Webserv

open Text

namespace HttpResponseBuilder

/-! ## The page that is used -/

/-- The builder with the configured page, if there is one that can be read and is not empty. -/
def customPage (os : Os) (httpStatus : Int) (b : HttpResponseBuilder) :
    Option HttpResponseBuilder :=
  let errorPage := b.conf.errorPages[httpStatus]?.getD []
  if errorPage = [] then none
  else (withCustomPage os errorPage b).filter fun b' => b'.resBodyStr ≠ []

/-- The built-in page is the one that is sent. -/
def UsesBuiltIn (os : Os) (httpStatus : Int) (b : HttpResponseBuilder) : Prop :=
  customPage os httpStatus b = none

section

variable {os : Os} {httpStatus : Int} {b b' : HttpResponseBuilder}

theorem withErrorPage_builtIn (h : UsesBuiltIn os httpStatus b) :
    ∃ reads,
      withErrorPage os httpStatus b = withDefaultPage httpStatus { b with reads := reads } := by
  unfold UsesBuiltIn customPage at h
  rw [withErrorPage]
  dsimp only at h ⊢
  split
  · exact ⟨b.reads, rfl⟩
  · next hne =>
    rw [if_neg hne, Option.filter_eq_none_iff] at h
    cases hpage : withCustomPage os (b.conf.errorPages[httpStatus]?.getD []) b with
    | none => exact ⟨b.reads, rfl⟩
    | some b' =>
      have hbody : b'.resBodyStr = [] := by simpa using h b' hpage
      dsimp only
      rw [if_pos hbody]
      unfold withCustomPage at hpage
      split at hpage
      · obtain rfl := Option.some.inj hpage
        exact ⟨b.reads, rfl⟩
      · next root hroot =>
        -- the file is empty, so the body is the one from before
        obtain ⟨content, -, rfl⟩ := Option.map_eq_some_iff.mp hpage
        have hold := (List.append_eq_nil_iff.mp hbody).1
        refine ⟨b.reads ++ [(.errorPage, root ++ b.conf.errorPages[httpStatus]?.getD [])], ?_⟩
        rw [withDefaultPage, withDefaultPage, hbody, hold]
        rfl

theorem buildErrorResponse_builtIn (req : HttpRequestDTO) (h : UsesBuiltIn os httpStatus b) :
    ∃ reads, (buildErrorResponse os httpStatus req).run b =
      (buildDefaultErrorPage os httpStatus req).run { b with reads := reads } := by
  obtain ⟨reads, hpage⟩ := withErrorPage_builtIn h
  exact ⟨reads, by rw [buildErrorResponse_run, hpage, buildDefaultErrorPage_run]⟩

end

/-! ## Refused requests -/

section

variable {os : Os} {conf : ConfigDTO} {req : HttpRequestDTO} {cwd page : Str} {httpStatus : Int}
  {b : HttpResponseBuilder}

end

end HttpResponseBuilder

end Webserv
