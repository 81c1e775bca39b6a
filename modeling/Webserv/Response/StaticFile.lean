import Webserv.Response.ContentLength
import Webserv.Response.FileLines

/-!
# The body of a static file

A file is read line by line and its lines are written with `CRLF`.  The body is therefore never
the content of the file, unless there is none.
-/

namespace Webserv

open Text

namespace HttpResponseBuilder

/-- A file that `deliver` has read is the one that was found, and the header is built from its
lines. -/
theorem deliver_read {os : Os} {req : HttpRequestDTO} {b : HttpResponseBuilder} {file : Str}
    (hnew : (ReadPurpose.requestedFile, file) ∉ b.reads)
    (h : (ReadPurpose.requestedFile, file) ∈ ((deliver os req).run b).2.reads) :
    ∃ content, os.ifstream (cStr file) = some content ∧
      (deliver os req).run b =
        (buildHeader os req).run (withFile .requestedFile file content b) := by
  obtain rfl : file = b.filepathPath := ((deliver_reads os req b h).resolve_left hnew).2
  have hheader : Method.Keeps HttpResponseBuilder.reads (buildHeader os req) :=
    buildHeader_keeps (fun _ _ => rfl) os req
  have hscript : Method.Keeps HttpResponseBuilder.reads (doCGI os req) :=
    doCGI_keeps (fun _ _ _ _ _ => rfl) os req
  rw [deliver, Method.run_get_bind, Method.run_ite, Method.run_ite] at h ⊢
  split at h
  · rw [hscript b] at h
    exact absurd h hnew
  · next hcgi =>
    rw [if_neg hcgi]
    split at h
    · rw [deleteFile, Method.run_pure_bind, hheader b] at h
      exact absurd h hnew
    · next hdelete =>
      rw [if_neg hdelete]
      cases hread : os.ifstream (cStr b.filepathPath) with
      | none =>
        rw [Method.run_bind_error (readFile_error hread b)] at h
        exact absurd h hnew
      | some content => exact ⟨content, rfl, Method.run_bind_ok (readFile_ok hread b) _⟩

/-- Every line of the file, with `CRLF` in place of the newline and also behind a last line that
has none. -/
def crlfLines (content : Str) : Str :=
  content.flatMap (fun c => if c = 10 then CRLF else [c]) ++ if EndsLine content then [] else CRLF

/-- The body of a file that is served is made of its lines, and is its content only when there
is none. -/
theorem build_serves_lines (os : Os) (conf : ConfigDTO) (req : HttpRequestDTO)
    (response : HttpResponse) (b : HttpResponseBuilder) (file : Str)
    (h : (build os req).run (new conf) = (.ok response, b))
    (hstatus : response.statusCode = HttpStatus.ok)
    (hfile : (ReadPurpose.requestedFile, file) ∈ b.reads) :
    ∃ content, os.ifstream (cStr file) = some content ∧ response.body = crlfLines content ∧
      (response.body = content ↔ content = []) := by
  have hread : (ReadPurpose.requestedFile, file) ∈
      ((build os req).run (new conf)).2.reads := by
    rw [h]
    exact hfile
  have hadmits : ∃ cwd path location name, Admits os conf req cwd path location name := by
    by_contra hnot
    obtain ⟨httpStatus, response', b', hrun, -, hsame⟩ := build_not_admitted hnot
    rw [hrun] at hread
    exact absurd ((hsame.reads file).mp hread) (List.not_mem_nil)
  obtain ⟨cwd, path, location, name, hadmits⟩ := hadmits
  obtain ⟨locIt, htry⟩ := tryBuild_admitted hadmits
  obtain ⟨content, hcontent, hdeliver⟩ :=
    deliver_read List.not_mem_nil (mem_reads_deliver htry hread)
  let b₁ := withFile .requestedFile file content
    (admitted (searched conf cwd path location name locIt) req.method)
  cases hstat : os.stat (cStr b₁.filepathPath) with
  | none =>
    -- an error response is built, which has another status
    rw [buildHeader_noStat (b := b₁) hstat] at hdeliver
    rw [Method.run_bind_error hdeliver] at htry
    obtain ⟨response', b', hrun, herror, -⟩ := build_of_std htry
    rw [hrun] at h
    obtain ⟨hresponse, -⟩ := Prod.mk.inj h
    rw [← Except.ok.inj hresponse, herror.statusCode] at hstatus
    exact absurd hstatus (by decide)
  | some modTime =>
    obtain ⟨b₂, hheader, -, hbody, -⟩ := buildHeader_stat (b := b₁) hstat req
    rw [hheader] at hdeliver
    rw [Method.run_bind_ok hdeliver] at htry
    rw [build_of_ok htry] at h
    obtain ⟨hresponse, -⟩ := Prod.mk.inj h
    have hlines : response.body = (getlines content).flatMap (· ++ CRLF) := by
      rw [← Except.ok.inj hresponse]
      exact hbody
    refine ⟨content, hcontent, ?_, ?_⟩
    · rw [hlines, getlines_join, crlfLines]
    · rw [hlines]
      exact getlines_join_CRLF_eq_iff

theorem build_serves_lines_index :
    ∃ content, siteOs.ifstream (lit "/srv/index.html") = some content ∧
      lit "hello\r\n" = crlfLines content ∧ (lit "hello\r\n" = content ↔ content = []) :=
  build_serves_lines siteOs siteConf siteReq _ _ (lit "/srv/index.html") rfl rfl (by decide)

/-- The newline behind `hello` is replaced by `CRLF`. -/
theorem not_build_serves_content : ¬ ∀ os conf req response b file content,
    (build os req).run (new conf) = (.ok response, b) →
    response.statusCode = HttpStatus.ok → (ReadPurpose.requestedFile, file) ∈ b.reads →
    os.ifstream (cStr file) = some content → response.body = content := by
  intro h
  have hsame := h siteOs siteConf siteReq _ _ (lit "/srv/index.html") (lit "hello\n") rfl rfl
    (by decide) rfl
  exact absurd hsame (by decide)

end HttpResponseBuilder

end Webserv
