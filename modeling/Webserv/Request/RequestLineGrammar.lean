import Webserv.Control.Except
import Webserv.Request.RequestLineParser

/-!
# The grammar of a request line

`RequestLineParser` cuts the line at positions that it does not test.  A line of three words is
cut at its blanks.  In every other line a position is `npos`, and `substr` throws, or the version
is the whole line, which starts with the method and is refused.
-/

namespace Webserv

open Text HttpParser

namespace RequestLineParser

/-- A method, blanks, a URI without blanks, one blank, and whatever is left. -/
structure Words (line method uri version : Str) : Prop where
  split : ∃ n, line = method ++ (List.replicate (n + 1) 32 ++ (uri ++ 32 :: version))
  method_free : 32 ∉ method
  uri_ne_nil : uri ≠ []
  uri_free : 32 ∉ uri

def IsMethod (method : Str) : Prop :=
  method = lit "GET" ∨ method = lit "POST" ∨ method = lit "DELETE"

/-- `HTTP/` and these two digits. -/
def versionText (major minor : Byte) : Str := lit "HTTP/" ++ [major, 46, minor]

/-- A protocol version that is well formed and not 1.1. -/
def IsOtherVersion (version : Str) : Prop :=
  ∃ major minor, isdigit major = true ∧ isdigit minor = true ∧
    ¬ (major = 49 ∧ minor = 49) ∧ version = versionText major minor

theorem isSpace_of_notMem {s : Str} (h : 32 ∉ s) : ∀ c ∈ s, isSpace c = false :=
  fun _ hc => decide_eq_false fun heq => h (heq ▸ hc)

theorem isSpace_replicate (n : Nat) : ∀ c ∈ List.replicate n (32 : Byte), isSpace c = true := by
  intro c hc
  rw [List.eq_of_mem_replicate hc]
  rfl

/-- A text that starts with a blank: blanks, and what stands behind them. -/
theorem exists_blanks (rest : Str) :
    ∃ n word, 32 :: rest = List.replicate (n + 1) 32 ++ word ∧
      ∀ c ∈ word.head?, isSpace c = false := by
  induction rest with
  | nil => exact ⟨0, [], rfl, by simp⟩
  | cons c rest ih =>
    by_cases hc : c = 32
    · subst hc
      obtain ⟨n, word, hsplit, hword⟩ := ih
      exact ⟨n + 1, word, by rw [hsplit, List.replicate_succ]; rfl, hword⟩
    · refine ⟨0, c :: rest, rfl, fun d hd => ?_⟩
      obtain rfl := Option.some.inj hd
      exact decide_eq_false hc

/-! ## Cutting the line -/

theorem parseMethod_of_split {line method rest : Str} (h : line = method ++ 32 :: rest)
    (hfree : 32 ∉ method) : parseMethod line = .ok (method, some method.length) := by
  have hdrop : line.drop 0 = method ++ 32 :: rest := h
  have hend : findFirst isSpace line (some 0) = some (0 + method.length) :=
    findFirst_of_drop hdrop (isSpace_of_notMem hfree) rfl
  rw [parseMethod, hend, Nat.zero_add, substr_of_drop (Nat.zero_le _) hdrop]
  rfl

/-- Where the URI begins, behind the blanks. -/
theorem uriBegin_of_split {line method word : Str} {n : Nat} {c : Byte}
    (h : line = method ++ (List.replicate (n + 1) 32 ++ c :: word)) (hc : isSpace c = false) :
    findFirst (fun c => !isSpace c) line (some method.length) =
      some (method.length + (n + 1)) := by
  have hdrop : line.drop method.length = List.replicate (n + 1) 32 ++ c :: word := by
    rw [h, List.drop_left' rfl]
  have hbegin := findFirst_of_drop (p := fun c => !isSpace c) hdrop
    (fun d hd => by rw [isSpace_replicate _ d hd]; rfl) (by rw [hc]; rfl)
  rw [hbegin, List.length_replicate]

theorem parse_of_words {line method uri version : Str} (h : Words line method uri version) :
    parse line =
      validateRequestLine ⟨method, uri, version⟩ >>= fun _ => .ok ⟨method, uri, version⟩ := by
  obtain ⟨n, hline⟩ := h.split
  obtain ⟨c, word, rfl⟩ := List.exists_cons_of_ne_nil h.uri_ne_nil
  have hc : isSpace c = false := isSpace_of_notMem h.uri_free c (List.mem_cons_self ..)
  have hmethod : parseMethod line = .ok (method, some method.length) :=
    parseMethod_of_split (by rw [hline, List.replicate_succ]; rfl) h.method_free
  have hbegin := uriBegin_of_split (hline.trans rfl) hc
  have hdrop : line.drop (method.length + (n + 1)) = (c :: word) ++ 32 :: version := by
    rw [← List.drop_drop, hline, List.drop_left' rfl, List.drop_left' List.length_replicate]
  have hlen : method.length + (n + 1) + (c :: word).length + 1 ≤ line.length := by
    rw [hline]
    simp only [List.length_append, List.length_replicate, List.length_cons]
    omega
  have hend : findFirst isSpace line (some (method.length + (n + 1))) =
      some (method.length + (n + 1) + (c :: word).length) :=
    findFirst_of_drop hdrop (isSpace_of_notMem h.uri_free) rfl
  have hsub : StringPos.sub (some (method.length + (n + 1) + (c :: word).length))
      (some (method.length + (n + 1))) = some (c :: word).length := by
    rw [StringPos.sub, if_pos (Nat.le_add_right _ _), Nat.add_sub_cancel_left]
  have huri : parseUri line (some method.length) =
      .ok (c :: word, some (method.length + (n + 1) + (c :: word).length)) := by
    rw [parseUri, hbegin, hend, hsub, substr_of_drop (by omega) hdrop]
    rfl
  have hversion : parseHttpVersion line
      (some (method.length + (n + 1) + (c :: word).length)) = .ok version := by
    have htail : line.drop (method.length + (n + 1) + (c :: word).length + 1) = version := by
      rw [← List.drop_drop, ← List.drop_drop, hdrop, List.drop_left' rfl]
      rfl
    rw [parseHttpVersion, StringPos.succ, substr_drop hlen, htail]
  rw [parse, hmethod, Except.ok_bind]
  dsimp only
  rw [huri, Except.ok_bind]
  dsimp only
  rw [hversion, Except.ok_bind]
  rfl

/-! ## Validation -/

theorem validateMethod_ok_iff {method : Str} :
    validateMethod method = .ok () ↔ IsMethod method := by
  unfold validateMethod IsMethod
  split
  · next hnil =>
    rw [hnil]
    decide
  · split
    · next hother =>
      refine iff_of_false (fun h => by cases h) ?_
      tauto
    · next hnot =>
      refine iff_of_true rfl ?_
      tauto

/-- No failure but that of the version has its status. -/
theorem validateMethod_error {method : Str} {e : Exn} (h : validateMethod method = .error e) :
    ∃ reason, e = .parseError HttpStatus.badRequest reason := by
  unfold validateMethod at h
  split at h
  · exact ⟨_, (Except.error.inj h).symm⟩
  · split at h
    · exact ⟨_, (Except.error.inj h).symm⟩
    · cases h

theorem validateHttpVersion_text (major dot minor : Byte) :
    validateHttpVersion (lit "HTTP/" ++ [major, dot, minor]) =
      if dot ≠ 46 then .error (.parseError HttpStatus.badRequest ". is not found")
      else if !isdigit major || !isdigit minor then
        .error (.parseError HttpStatus.badRequest "version has other than digit")
      else if major ≠ 49 || minor ≠ 49 then
        .error (.parseError HttpStatus.httpVersionNotSupported "version is not supported")
      else .ok () := by
  have hsub : substr (lit "HTTP/" ++ [major, dot, minor]) (some 5) = .ok [major, dot, minor] := rfl
  have hlen : (lit "HTTP/" ++ [major, dot, minor]).length = 8 := rfl
  have htake : (lit "HTTP/" ++ [major, dot, minor]).take 5 = lit "HTTP/" := rfl
  rw [validateHttpVersion, hlen, htake, hsub]
  by_cases hdot : dot = 46
  · simp [hdot]
    rfl
  · simp [hdot]

/-- A version is refused as malformed, or it is `HTTP/` and two digits. -/
theorem validateHttpVersion_cases (version : Str) :
    (∃ reason, validateHttpVersion version = .error (.parseError HttpStatus.badRequest reason)) ∨
      ∃ major minor, isdigit major = true ∧ isdigit minor = true ∧
        version = versionText major minor := by
  by_cases hlen : version.length = 8
  · by_cases htake : version.take 5 = lit "HTTP/"
    · obtain ⟨major, dot, minor, hdrop⟩ : ∃ major dot minor, version.drop 5 = [major, dot, minor] :=
        List.length_eq_three.mp (by rw [List.length_drop, hlen])
      have hversion : version = lit "HTTP/" ++ [major, dot, minor] := by
        rw [← htake, ← hdrop, List.take_append_drop]
      rw [hversion, validateHttpVersion_text]
      by_cases hdot : dot = 46
      · rw [if_neg (not_not.mpr hdot)]
        by_cases hdigits : isdigit major = true ∧ isdigit minor = true
        · exact Or.inr ⟨major, minor, hdigits.1, hdigits.2, by rw [hdot]; rfl⟩
        · rw [if_pos (by simpa [-not_and, not_and_or] using hdigits)]
          exact Or.inl ⟨_, rfl⟩
      · rw [if_pos hdot]
        exact Or.inl ⟨_, rfl⟩
    · refine Or.inl ⟨"Invalid Protocol", ?_⟩
      simp [validateHttpVersion, hlen, htake]
  · refine Or.inl ⟨"HttpVersion length error", ?_⟩
    simp [validateHttpVersion, hlen]

theorem validateHttpVersion_versionText {major minor : Byte} (hmajor : isdigit major = true)
    (hminor : isdigit minor = true) :
    validateHttpVersion (versionText major minor) =
      if major = 49 ∧ minor = 49 then .ok ()
      else .error (.parseError HttpStatus.httpVersionNotSupported "version is not supported") := by
  rw [versionText, validateHttpVersion_text, if_neg (by simp), if_neg (by simp [hmajor, hminor])]
  by_cases hone : major = 49 ∧ minor = 49
  · rw [if_pos hone, if_neg (by simp [hone])]
  · rw [if_neg hone, if_pos (by simpa [-not_and, not_and_or] using hone)]

/-- How the validation of the three words ends. -/
inductive Validated (method uri version : Str) : Prop
  | accepted (isMethod : IsMethod method) (hversion : version = lit "HTTP/1.1")
      (h : validateRequestLine ⟨method, uri, version⟩ = .ok ())
  | notSupported (isMethod : IsMethod method) (other : IsOtherVersion version)
      (h : validateRequestLine ⟨method, uri, version⟩ =
        .error (.parseError HttpStatus.httpVersionNotSupported "version is not supported"))
  | refused {reason : String} (h : validateRequestLine ⟨method, uri, version⟩ =
      .error (.parseError HttpStatus.badRequest reason))
      (notMethod : ¬ (IsMethod method ∧ (version = lit "HTTP/1.1" ∨ IsOtherVersion version)))

theorem validated (method : Str) {uri : Str} (huri : uri ≠ []) (version : Str) :
    Validated method uri version := by
  have huriOk : validateUri uri = .ok () := if_neg huri
  by_cases hmethod : IsMethod method
  · have hline : validateRequestLine ⟨method, uri, version⟩ = validateHttpVersion version := by
      rw [validateRequestLine, validateMethod_ok_iff.mpr hmethod, Except.ok_bind, huriOk,
        Except.ok_bind]
    rcases validateHttpVersion_cases version with ⟨reason, hreason⟩ | ⟨major, minor, h1, h2, heq⟩
    · refine .refused (hline.trans hreason) fun h => ?_
      rcases h.2 with rfl | ⟨major, minor, h1, h2, hone, rfl⟩
      · have hok : validateHttpVersion (lit "HTTP/1.1") = .ok () := by decide
        cases hok.symm.trans hreason
      · rw [validateHttpVersion_versionText h1 h2, if_neg hone] at hreason
        cases hreason
    · have hversion := validateHttpVersion_versionText h1 h2
      rw [← heq] at hversion
      by_cases hone : major = 49 ∧ minor = 49
      · rw [if_pos hone] at hversion
        refine .accepted hmethod ?_ (hline.trans hversion)
        rw [heq, hone.1, hone.2]
        rfl
      · rw [if_neg hone] at hversion
        exact .notSupported hmethod ⟨major, minor, h1, h2, hone, heq⟩ (hline.trans hversion)
  · rcases Except.ok_or_error (validateMethod method) with ⟨_, hok⟩ | ⟨e, he⟩
    · exact absurd (validateMethod_ok_iff.mp hok) hmethod
    · obtain ⟨reason, rfl⟩ := validateMethod_error he
      have hline : validateRequestLine ⟨method, uri, version⟩ =
          .error (.parseError HttpStatus.badRequest reason) := by
        rw [validateRequestLine, he, Except.error_bind]
      exact .refused hline fun h => hmethod h.1

/-! ## Other lines -/

theorem parse_of_no_blank {line : Str} (h : 32 ∉ line) :
    parse line = .error (.outOfRange "basic_string::substr") := by
  have hdrop : ∀ c ∈ line.drop 0, isSpace c = false := isSpace_of_notMem h
  have hmethod : parseMethod line = .ok (line, npos) := by
    rw [parseMethod, findFirst_of_none hdrop]
    simp only [substr, substr?, Nat.zero_le, if_true, List.drop_zero]
    rfl
  rw [parse, hmethod]
  rfl

theorem parse_of_blanks {line method : Str} {n : Nat}
    (h : line = method ++ List.replicate (n + 1) 32) (hfree : 32 ∉ method) :
    parse line = .error (.outOfRange "basic_string::substr") := by
  have hmethod : parseMethod line = .ok (method, some method.length) :=
    parseMethod_of_split (by rw [h, List.replicate_succ]) hfree
  have hdrop : line.drop method.length = List.replicate (n + 1) 32 := by
    rw [h, List.drop_left' rfl]
  have hbegin : findFirst (fun c => !isSpace c) line (some method.length) = npos := by
    refine findFirst_of_none fun c hc => ?_
    rw [hdrop] at hc
    rw [isSpace_replicate _ c hc]
    rfl
  rw [parse, hmethod, Except.ok_bind]
  dsimp only
  rw [parseUri, hbegin]
  rfl

/-- Without a blank behind the URI the version is the whole line. -/
theorem parse_of_two_words {line method uri : Str} {n : Nat}
    (h : line = method ++ (List.replicate (n + 1) 32 ++ uri)) (hmethodFree : 32 ∉ method)
    (huri : uri ≠ []) (hfree : 32 ∉ uri) :
    parse line = validateRequestLine ⟨method, uri, line⟩ >>= fun _ => .ok ⟨method, uri, line⟩ := by
  obtain ⟨c, word, rfl⟩ := List.exists_cons_of_ne_nil huri
  have hmethod : parseMethod line = .ok (method, some method.length) :=
    parseMethod_of_split (by rw [h, List.replicate_succ]; rfl) hmethodFree
  have hbegin := uriBegin_of_split h (isSpace_of_notMem hfree c (List.mem_cons_self ..))
  have hdrop : line.drop (method.length + (n + 1)) = c :: word := by
    rw [← List.drop_drop, h, List.drop_left' rfl, List.drop_left' List.length_replicate]
  have hend : findFirst isSpace line (some (method.length + (n + 1))) = npos := by
    refine findFirst_of_none ?_
    rw [hdrop]
    exact isSpace_of_notMem hfree
  have hlen : method.length + (n + 1) ≤ line.length := by
    rw [h]
    simp only [List.length_append, List.length_replicate]
    omega
  have huriParsed : parseUri line (some method.length) = .ok (c :: word, npos) := by
    rw [parseUri, hbegin, hend, StringPos.sub, substr_drop hlen, hdrop]
    rfl
  have hversion : parseHttpVersion line npos = .ok line := by
    rw [parseHttpVersion, StringPos.succ, substr_drop (Nat.zero_le _), List.drop_zero]
  rw [parse, hmethod, Except.ok_bind]
  dsimp only
  rw [huriParsed, Except.ok_bind]
  dsimp only
  rw [hversion, Except.ok_bind]
  rfl

/-- A line that starts with a method is no version. -/
theorem not_version_of_method {line method rest : Str} (hmethod : IsMethod method)
    (h : line = method ++ rest) : ¬ (line = lit "HTTP/1.1" ∨ IsOtherVersion line) := by
  have hhead : line.head? ≠ some 72 := by
    rw [h]
    rcases hmethod with rfl | rfl | rfl
    · exact fun heq => absurd (Option.some.inj heq) (by decide : (71 : Byte) ≠ 72)
    · exact fun heq => absurd (Option.some.inj heq) (by decide : (80 : Byte) ≠ 72)
    · exact fun heq => absurd (Option.some.inj heq) (by decide : (68 : Byte) ≠ 72)
  intro hversion
  rcases hversion with hversion | ⟨major, minor, -, -, -, hversion⟩
  · rw [hversion] at hhead
    exact hhead rfl
  · rw [hversion] at hhead
    exact hhead rfl

/-- A line has three words, or it is refused for another reason than its version. -/
theorem words_or_refused (line : Str) :
    (∃ method uri version, Words line method uri version) ∨
      ∃ e, parse line = .error e ∧
        ∀ reason, e ≠ .parseError HttpStatus.httpVersionNotSupported reason := by
  by_cases hblank : 32 ∈ line
  · obtain ⟨method, rest, hline, hfree⟩ := List.eq_append_cons_of_mem hblank
    obtain ⟨n, word, hrest, hword⟩ := exists_blanks rest
    rw [hrest] at hline
    cases word with
    | nil =>
      rw [List.append_nil] at hline
      exact Or.inr ⟨_, parse_of_blanks hline hfree, fun _ h => by cases h⟩
    | cons c word =>
      have hc : isSpace c = false := hword c rfl
      by_cases hsecond : 32 ∈ c :: word
      · obtain ⟨uri, version, huri, huriFree⟩ := List.eq_append_cons_of_mem hsecond
        rw [huri] at hline
        refine Or.inl ⟨method, uri, version, ⟨n, hline⟩, hfree, ?_, huriFree⟩
        rintro rfl
        obtain ⟨rfl, -⟩ := List.cons.inj huri
        cases hc
      · have hparse := parse_of_two_words hline hfree (List.cons_ne_nil c word) hsecond
        have hnotVersion : ¬ (IsMethod method ∧ (line = lit "HTTP/1.1" ∨ IsOtherVersion line)) :=
          fun h => not_version_of_method h.1 hline h.2
        cases validated method (List.cons_ne_nil c word) line with
        | accepted hmethod hversion _ => exact absurd ⟨hmethod, Or.inl hversion⟩ hnotVersion
        | notSupported hmethod other _ => exact absurd ⟨hmethod, Or.inr other⟩ hnotVersion
        | refused hvalid _ =>
          rw [hvalid, Except.error_bind] at hparse
          refine Or.inr ⟨_, hparse, fun reason h => ?_⟩
          exact absurd (Exn.parseError.inj h).1 (by decide)
  · exact Or.inr ⟨_, parse_of_no_blank hblank, fun _ h => by cases h⟩

/-! ## The two outcomes that the grammar decides -/

theorem not_isOtherVersion : ¬ IsOtherVersion (lit "HTTP/1.1") := by
  rintro ⟨major, minor, -, -, hone, heq⟩
  have hdigits : [49, 46, 49] = [major, 46, minor] := congrArg (List.drop 5) heq
  simp only [List.cons.injEq, true_and, and_true] at hdigits
  exact hone ⟨hdigits.1.symm, hdigits.2.symm⟩

theorem Words.parse_ok_iff {line method uri version : Str} (h : Words line method uri version)
    {r : RequestLine} :
    parse line = .ok r ↔
      IsMethod method ∧ version = lit "HTTP/1.1" ∧ r = ⟨method, uri, version⟩ := by
  rw [parse_of_words h]
  cases validated method h.uri_ne_nil version with
  | accepted hmethod hversion hvalid =>
    rw [hvalid, Except.ok_bind]
    exact ⟨fun hr => ⟨hmethod, hversion, (Except.ok.inj hr).symm⟩, fun hr => by rw [hr.2.2]⟩
  | notSupported _ other hvalid =>
    rw [hvalid, Except.error_bind]
    refine iff_of_false (fun hr => by cases hr) fun hr => not_isOtherVersion ?_
    rw [← hr.2.1]
    exact other
  | refused hvalid hnot =>
    rw [hvalid, Except.error_bind]
    exact iff_of_false (fun hr => by cases hr) fun hr => hnot ⟨hr.1, Or.inl hr.2.1⟩

theorem Words.parse_notSupported_iff {line method uri version : Str}
    (h : Words line method uri version) :
    (∃ reason, parse line = .error (.parseError HttpStatus.httpVersionNotSupported reason)) ↔
      IsMethod method ∧ IsOtherVersion version := by
  rw [parse_of_words h]
  cases validated method h.uri_ne_nil version with
  | accepted _ hversion hvalid =>
    rw [hvalid, Except.ok_bind]
    refine iff_of_false (fun ⟨_, hr⟩ => by cases hr) fun hr => not_isOtherVersion ?_
    rw [← hversion]
    exact hr.2
  | notSupported hmethod other hvalid =>
    rw [hvalid, Except.error_bind]
    exact iff_of_true ⟨_, rfl⟩ ⟨hmethod, other⟩
  | refused hvalid hnot =>
    rw [hvalid, Except.error_bind]
    refine iff_of_false (fun ⟨_, hr⟩ => ?_) fun hr => hnot ⟨hr.1, Or.inr hr.2⟩
    exact absurd (Exn.parseError.inj (Except.error.inj hr)).1 (by decide)

/-- An accepted line has three words. -/
theorem words_of_parse_ok {line : Str} {r : RequestLine} (h : parse line = .ok r) :
    IsMethod r.method ∧ r.version = lit "HTTP/1.1" ∧ Words line r.method r.uri r.version := by
  rcases words_or_refused line with ⟨method, uri, version, hwords⟩ | ⟨e, he, -⟩
  · obtain ⟨hmethod, hversion, rfl⟩ := hwords.parse_ok_iff.mp h
    exact ⟨hmethod, hversion, hwords⟩
  · cases he.symm.trans h

/-- The lines that are accepted, and the ones that are refused for their version. -/
theorem parse_iff (line : Str) :
    (∀ r, parse line = .ok r ↔ ∃ method uri, IsMethod method ∧
        Words line method uri (lit "HTTP/1.1") ∧ r = ⟨method, uri, lit "HTTP/1.1"⟩) ∧
      ((∃ reason, parse line = .error (.parseError HttpStatus.httpVersionNotSupported reason)) ↔
        ∃ method uri version, IsMethod method ∧ IsOtherVersion version ∧
          Words line method uri version) := by
  constructor
  · intro r
    constructor
    · intro hr
      obtain ⟨hmethod, hversion, hwords⟩ := words_of_parse_ok hr
      rw [hversion] at hwords
      refine ⟨r.method, r.uri, hmethod, hwords, ?_⟩
      rw [← hversion]
    · rintro ⟨method, uri, hmethod, hwords, rfl⟩
      exact hwords.parse_ok_iff.mpr ⟨hmethod, rfl, rfl⟩
  · constructor
    · rintro ⟨reason, hreason⟩
      rcases words_or_refused line with ⟨method, uri, version, hwords⟩ | ⟨e, he, hne⟩
      · obtain ⟨hmethod, hother⟩ := hwords.parse_notSupported_iff.mp ⟨reason, hreason⟩
        exact ⟨method, uri, version, hmethod, hother, hwords⟩
      · exact absurd (Except.error.inj (he.symm.trans hreason)) (hne reason)
    · rintro ⟨method, uri, version, hmethod, hother, hwords⟩
      exact hwords.parse_notSupported_iff.mpr ⟨hmethod, hother⟩

end RequestLineParser

end Webserv
