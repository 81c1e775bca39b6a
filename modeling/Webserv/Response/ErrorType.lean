import Webserv.Response.ErrorPage

/-!
# The type of an error page

`buildErrorHeader` takes the type from the name of the file that was tried last, not from the
page that is sent.
-/

namespace Webserv

open Text

/-! ## Types of names -/

def MIMEType.HTML_EXTENSIONS : List Str := [lit "html", lit "htm", lit "shtml"]

theorem MIMEType.mimeTypeMap_html {extension : Str} :
    mimeTypeMap[extension]? = some (lit "text/html") ↔ extension ∈ HTML_EXTENSIONS := by
  have htable : ∀ entry ∈ mimeTypeMap.toList,
      entry.2 = lit "text/html" → entry.1 ∈ HTML_EXTENSIONS := by decide
  constructor
  · intro h
    exact htable _ (Std.ExtTreeMap.mem_toList_iff_getElem?_eq_some.mpr h) rfl
  · intro h
    have hextensions : ∀ e ∈ HTML_EXTENSIONS, mimeTypeMap[e]? = some (lit "text/html") := by decide
    exact hextensions extension h

namespace HttpResponseBuilder

/-- A name that ends in an extension of HTML files, and is not just that. -/
def HtmlName (name : Str) : Prop :=
  ∃ front extension, name = front ++ 46 :: extension ∧ front ≠ [] ∧
    extension ∈ MIMEType.HTML_EXTENSIONS

theorem getContentTypeByExtension_noDot {name : Str} (h : 46 ∉ name) :
    getContentTypeByExtension name = MIMEType.default := by
  have hnone : findLast (fun c => c = 46) name = none :=
    Path.findLast_eq_none_iff.mpr fun c hc => decide_eq_false fun heq => h (heq ▸ hc)
  rw [getContentTypeByExtension, hnone]

/-- What stands behind the last dot is looked up, unless nothing stands in front of it. -/
theorem getContentTypeByExtension_dot (front : Str) {extension : Str} (h : 46 ∉ extension) :
    getContentTypeByExtension (front ++ 46 :: extension) =
      if front = [] then MIMEType.default
      else MIMEType.mimeTypeMap[extension]?.getD MIMEType.default := by
  have hlast : findLast (fun c => c = 46) (front ++ 46 :: extension) = some front.length :=
    findLast_append rfl fun d hd => decide_eq_false fun heq => h (heq ▸ hd)
  have hdrop : (front ++ 46 :: extension).drop (front.length + 1) = extension := by
    rw [← List.drop_drop, List.drop_left' rfl]
    rfl
  have hlength : 1 + extension.length = (front ++ 46 :: extension).length ↔ front = [] := by
    rw [List.length_append, List.length_cons, ← List.length_eq_zero_iff]
    omega
  rw [getContentTypeByExtension, hlast]
  dsimp only
  rw [hdrop]
  simp only [hlength]

theorem HTML_EXTENSIONS_noDot {extension : Str} (h : extension ∈ MIMEType.HTML_EXTENSIONS) :
    46 ∉ extension := by
  have hall : ∀ e ∈ MIMEType.HTML_EXTENSIONS, 46 ∉ e := by decide
  exact hall extension h

theorem getContentTypeByExtension_html {name : Str} :
    getContentTypeByExtension name = TEXT_HTML ↔ HtmlName name := by
  have hdefault : MIMEType.default ≠ TEXT_HTML := by decide
  constructor
  · intro h
    by_cases hdot : 46 ∈ name
    · obtain ⟨front, extension, rfl, hextension⟩ := exists_eq_append_last hdot
      rw [getContentTypeByExtension_dot front hextension] at h
      split at h
      · exact absurd h hdefault
      · next hfront =>
        refine ⟨front, extension, rfl, hfront, MIMEType.mimeTypeMap_html.mp ?_⟩
        cases htype : MIMEType.mimeTypeMap[extension]? with
        | none =>
          rw [htype] at h
          exact absurd h hdefault
        | some type =>
          rw [htype] at h
          exact congrArg some h
    · rw [getContentTypeByExtension_noDot hdot] at h
      exact absurd h hdefault
  · rintro ⟨front, extension, rfl, hfront, hextension⟩
    rw [getContentTypeByExtension_dot front (HTML_EXTENSIONS_noDot hextension), if_neg hfront,
      MIMEType.mimeTypeMap_html.mpr hextension]
    rfl

/-! ## Types of error pages -/

/-- The file name of a path, as `parseRequestPath` takes it from a request. -/
def fileName (path : Str) : Str := (path.reverse.takeWhile (· ≠ 47)).reverse

/-- The configured page is the one that is sent. -/
def UsesConfigured (os : Os) (httpStatus : Int) (b : HttpResponseBuilder) : Prop :=
  b.pageRoot ≠ none ∧ ¬ UsesBuiltIn os httpStatus b

/-- The response has the type of the page that is sent. -/
def PageTyped (os : Os) (conf : ConfigDTO) (req : HttpRequestDTO) (httpStatus : Int)
    (b : HttpResponseBuilder) : Prop :=
  ∃ response b', (build os req).run (new conf) = (.ok response, b') ∧
    (UsesBuiltIn os httpStatus b → response.contentType = TEXT_HTML) ∧
    (UsesConfigured os httpStatus b → ∀ page, conf.errorPages[httpStatus]? = some page →
      response.contentType = getContentTypeByExtension (fileName page))

section

variable {os : Os} {conf : ConfigDTO} {req : HttpRequestDTO} {httpStatus : Int}
  {b : HttpResponseBuilder}

/-- Every error response has the type of the file that was tried last. -/
theorem FailedAt.contentType (h : FailedAt os conf req httpStatus b) :
    ∃ response b', (build os req).run (new conf) = (.ok response, b') ∧
      response.contentType = getContentTypeByExtension (triedFile os conf req) := by
  have hname : (withErrorPage os httpStatus b).pathFile = b.pathFile :=
    withErrorPage_keeps HttpResponseBuilder.pathFile (fun _ _ _ => rfl) os httpStatus b
  rw [h.build_eq, buildErrorResponse_run, ← h.pathFile, ← hname]
  exact ⟨_, _, rfl, rfl⟩

end

/-- The type is right exactly when the file that was tried last has the type of the page. -/
theorem pageTyped_iff (os : Os) (conf : ConfigDTO) (req : HttpRequestDTO) (httpStatus : Int)
    (b : HttpResponseBuilder) (h : FailedAt os conf req httpStatus b) :
    PageTyped os conf req httpStatus b ↔
      (UsesBuiltIn os httpStatus b → HtmlName (triedFile os conf req)) ∧
      (UsesConfigured os httpStatus b → ∀ page, conf.errorPages[httpStatus]? = some page →
        getContentTypeByExtension (triedFile os conf req) =
          getContentTypeByExtension (fileName page)) := by
  obtain ⟨response, b', hrun, htype⟩ := h.contentType
  rw [← htype, ← getContentTypeByExtension_html, ← htype]
  constructor
  · rintro ⟨response', b'', hrun', htyped⟩
    obtain ⟨hresponse, -⟩ := Prod.mk.inj (hrun.symm.trans hrun')
    rw [Except.ok.inj hresponse]
    exact htyped
  · intro htyped
    exact ⟨response, b', hrun, htyped⟩

/-- `GET /missing.html` -/
theorem pageTyped_iff_missing_html :
    ∃ req b, FailedAt siteOs siteConf req 404 b ∧ (PageTyped siteOs siteConf req 404 b ↔
      (UsesBuiltIn siteOs 404 b → HtmlName (triedFile siteOs siteConf req)) ∧
      (UsesConfigured siteOs 404 b → ∀ page, siteConf.errorPages[(404 : Int)]? = some page →
        getContentTypeByExtension (triedFile siteOs siteConf req) =
          getContentTypeByExtension (fileName page))) := by
  have hpath : Path.ofPathquery (lit "/missing.html") = .ok (filePath (lit "missing.html")) := by
    decide
  have hfailed : FailedAt siteOs siteConf { siteReq with path := lit "/missing.html" } 404 _ :=
    .refused rfl (.notFound hpath rfl rfl rfl)
  exact ⟨{ siteReq with path := lit "/missing.html" }, _, hfailed, pageTyped_iff _ _ _ _ _ hfailed⟩

/-- `GET /missing.png` is answered with a page in HTML that is called an image. -/
theorem not_pageTyped : ¬ ∀ (os : Os) (conf : ConfigDTO) (req : HttpRequestDTO) (httpStatus : Int)
    (b : HttpResponseBuilder), FailedAt os conf req httpStatus b →
    PageTyped os conf req httpStatus b := by
  intro h
  have hpath : Path.ofPathquery (lit "/missing.png") = .ok (filePath (lit "missing.png")) := by
    decide
  have hfailed : FailedAt siteOs siteConf { siteReq with path := lit "/missing.png" } 404 _ :=
    .refused rfl (.notFound hpath rfl rfl rfl)
  obtain ⟨response, b', hrun, htype⟩ := hfailed.contentType
  obtain ⟨response', b'', hrun', hbuiltIn, -⟩ := h _ _ _ _ _ hfailed
  obtain ⟨hresponse, -⟩ := Prod.mk.inj (hrun.symm.trans hrun')
  have hhtml : response.contentType = TEXT_HTML := by
    rw [Except.ok.inj hresponse]
    exact hbuiltIn rfl
  have htried : triedFile siteOs siteConf { siteReq with path := lit "/missing.png" } =
      lit "missing.png" := by decide
  rw [htype, htried] at hhtml
  exact absurd hhtml (by decide)

end HttpResponseBuilder

end Webserv
