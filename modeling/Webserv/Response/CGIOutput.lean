import Webserv.Control.Entries
import Webserv.Response.CGIRun
import Webserv.Response.FileLines

/-!
# The output of a script

Header lines, a blank line and a body.  `CGIParser` ends a line at `LF` alone and puts an `LF`
behind every line of the body, so it reads back what ends its lines with `LF` throughout.
-/

namespace Webserv

open Text

/-! ## Outputs -/

/-- A header line without its end. -/
structure CgiField where
  name : Str
  value : Str
  colon_free : 58 ∉ name
  name_line : 10 ∉ name
  value_line : 10 ∉ value

namespace CgiField

def line (field : CgiField) : Str := field.name ++ lit ": " ++ field.value

variable (field : CgiField)

theorem line_ne_nil : field.line ≠ [] := by
  rw [line, List.append_assoc]
  exact List.append_ne_nil_of_right_ne_nil _ (List.cons_ne_nil _ _)

theorem line_free : 10 ∉ field.line := by
  rw [line, List.mem_append, List.mem_append]
  rintro ((h | h) | h)
  · exact field.name_line h
  · exact absurd h (by decide)
  · exact field.value_line h

/-- The line is cut at its first colon, and two bytes are left out. -/
theorem makeHeaderFieldPair_line (tail : Str) :
    CGIParser.makeHeaderFieldPair (field.line ++ tail) =
      .ok (field.name, field.value ++ tail) := by
  have hline : field.line ++ tail = field.name ++ 58 :: 32 :: (field.value ++ tail) := by
    rw [line, List.append_assoc, List.append_assoc]
    rfl
  have hfree : ∀ d ∈ field.name, decide (d = 58) = false :=
    fun d hd => decide_eq_false fun heq => field.colon_free (heq ▸ hd)
  have hfind : findFirst (fun c => c = 58) (field.line ++ tail) (some 0) =
      some field.name.length := by
    rw [hline, findFirst_of_drop List.drop_zero hfree rfl, Nat.zero_add]
  have hname : substr (field.line ++ tail) (some 0) (some field.name.length) =
      .ok field.name := by
    rw [hline]
    exact substr_of_drop (Nat.zero_le _) List.drop_zero
  have hvalue : substr (field.line ++ tail) (some (field.name.length + 1 + 1)) =
      .ok (field.value ++ tail) := by
    have hdrop : (field.line ++ tail).drop (field.name.length + 1 + 1) = field.value ++ tail := by
      rw [hline, Nat.add_assoc, ← List.drop_drop, List.drop_left' rfl]
      rfl
    rw [substr_drop, hdrop]
    simp [hline]
  rw [CGIParser.makeHeaderFieldPair, hfind, hname, Except.ok_bind, StringPos.succ, hvalue]
  rfl

end CgiField

inductive LineEnd
  | lf
  | crlf
  deriving DecidableEq

def LineEnd.text : LineEnd → Str
  | lf => lit "\n"
  | crlf => lit "\r\n"

/-- What stands in front of the newline. -/
def LineEnd.front : LineEnd → Str
  | lf => []
  | crlf => [13]

/-- The header lines, a blank line and the body. -/
def cgiOutput (lineEnd : LineEnd) (fields : List CgiField) (body : Str) : Str :=
  fields.flatMap (fun field => field.line ++ lineEnd.text) ++ lineEnd.text ++ body

/-- The parser does not throw, has the value of every name, and has the body. -/
def ReadsOutput (lineEnd : LineEnd) (fields : List CgiField) (body : Str) : Prop :=
  ∃ parser, (CGIParser.parse (cgiOutput lineEnd fields body)).run .new = (.ok (), parser) ∧
    (∀ field ∈ fields, parser.cgiHeader[field.name]? = some field.value) ∧
    parser.resBodyStr = body

/-- A name with two values has no value that a map can give. -/
def Consistent (fields : List CgiField) : Prop :=
  ∀ field ∈ fields, ∀ other ∈ fields, field.name = other.name → field.value = other.value

theorem getlines_cgiOutput (lineEnd : LineEnd) (fields : List CgiField) (body : Str) :
    getlines (cgiOutput lineEnd fields body) =
      fields.map (fun field => field.line ++ lineEnd.front) ++ lineEnd.front :: getlines body := by
  have htext : lineEnd.text = lineEnd.front ++ [10] := by cases lineEnd <;> rfl
  have hfront : 10 ∉ lineEnd.front := by cases lineEnd <;> decide
  rw [cgiOutput, htext]
  induction fields with
  | nil =>
    rw [List.flatMap_nil, List.nil_append, List.append_assoc]
    exact getlines_line hfront body
  | cons field fields ih =>
    have hline : 10 ∉ field.line ++ lineEnd.front := by
      rw [List.mem_append, not_or]
      exact ⟨field.line_free, hfront⟩
    rw [List.map_cons, List.cons_append, ← ih, ← getlines_line hline]
    simp only [List.flatMap_cons, List.append_assoc, List.cons_append, List.nil_append]

/-! ## What is read back -/

theorem insertFields_iff (fields : List CgiField) :
    (∀ field ∈ fields, (fields.foldl (fun headers field =>
        headers.insertIfNew field.name field.value) (∅ : Std.ExtTreeMap Str Str))[field.name]? =
          some field.value) ↔ Consistent fields := by
  constructor
  · intro h field hfield other hother hname
    refine Option.some.inj ?_
    rw [← h field hfield, ← h other hother, hname]
  · intro h field hfield
    obtain ⟨first, hfirst⟩ : ∃ first, fields.find? (·.name = field.name) = some first :=
      Option.isSome_iff_exists.mp (List.find?_isSome.mpr ⟨field, hfield, by simp⟩)
    have hname : first.name = field.name := by simpa using List.find?_some hfirst
    rw [Entries.getElem?_foldl_insertIfNew, hfirst, Std.ExtTreeMap.getElem?_empty, Option.none_or,
      Option.map_some, h first (List.mem_of_find?_eq_some hfirst) field hfield hname]

namespace CGIParser

theorem parseHeaderField_fields (fields : List CgiField) (rest : List Str) (p : CGIParser) :
    (parseHeaderField (fields.map CgiField.line ++ rest)).run p =
      (parseHeaderField rest).run { p with
        cgiHeader := fields.foldl (fun headers field =>
          headers.insertIfNew field.name field.value) p.cgiHeader } := by
  induction fields generalizing p with
  | nil => rfl
  | cons field fields ih =>
    have hpair := field.makeHeaderFieldPair_line []
    rw [List.append_nil, List.append_nil] at hpair
    rw [List.map_cons, List.cons_append, parseHeaderField_line field.line_ne_nil hpair, ih,
      List.foldl_cons]

theorem parse_of_fields {cgiResponse : Str} {rest : List Str} {p p' : CGIParser}
    (h : (parseHeaderField (getlines cgiResponse)).run p = (.ok rest, p')) :
    (parse cgiResponse).run p =
      (.ok (), { p' with resBodyStr := p'.resBodyStr ++ rest.flatMap (· ++ lit "\n") }) := by
  rw [parse, Method.run_bind_ok h]
  rfl

theorem parseHeaderField_ok {lines rest : List Str} {p p' : CGIParser}
    (h : (parseHeaderField lines).run p = (.ok rest, p')) :
    rest = bodyLines lines ∧ Kept p p' := by
  rcases parseHeaderField_cases lines p with ⟨-, q, hrun, hkept⟩ | ⟨-, e, q, hrun⟩
  · obtain ⟨hrest, rfl⟩ := Prod.mk.inj (hrun.symm.trans h)
    exact ⟨(Except.ok.inj hrest).symm, hkept⟩
  · rw [hrun] at h
    cases h

theorem bodyLines_nil_or (lines : List Str) :
    bodyLines lines = [] ∨ ∃ front, lines = front ++ [] :: bodyLines lines := by
  induction lines with
  | nil => exact Or.inl rfl
  | cons line rest ih =>
    by_cases hne : line = []
    · subst hne
      exact Or.inr ⟨[], by rw [bodyLines_cons_nil, List.nil_append]⟩
    · rw [bodyLines_cons hne]
      refine ih.imp_right ?_
      rintro ⟨front, hfront⟩
      exact ⟨line :: front, by rw [List.cons_append, ← hfront]⟩

end CGIParser

theorem readsOutput_lf (fields : List CgiField) (body : Str) :
    ReadsOutput .lf fields body ↔ EndsLine body ∧ Consistent fields := by
  have hlines := getlines_cgiOutput .lf fields body
  simp only [LineEnd.front, List.append_nil] at hlines
  have hrun := CGIParser.parse_of_fields (p := .new)
    (by rw [hlines, CGIParser.parseHeaderField_fields]; rfl)
  rw [ReadsOutput, hrun]
  constructor
  · rintro ⟨parser, hparser, hfields, hbody⟩
    obtain ⟨-, rfl⟩ := Prod.mk.inj hparser
    exact ⟨getlines_join_newline_eq_iff.mp hbody, (insertFields_iff fields).mp hfields⟩
  · rintro ⟨hbody, hfields⟩
    exact ⟨_, rfl, (insertFields_iff fields).mpr hfields, getlines_join_newline_eq_iff.mpr hbody⟩

/-- A text that is the body read behind a blank line of its own is empty. -/
theorem eq_nil_of_bodyStr {body : Str} (h : CGIParser.bodyStr body = body) : body = [] := by
  rw [CGIParser.bodyStr] at h
  rcases CGIParser.bodyLines_nil_or (getlines body) with hnil | ⟨front, hfront⟩
  · rw [hnil] at h
    exact h.symm
  · have hjoin := getlines_join_newline body
    rw [hfront, List.flatMap_append, List.flatMap_cons, List.nil_append, h] at hjoin
    have hlen := congrArg List.length hjoin
    simp only [List.length_append] at hlen
    split at hjoin
    · next hends =>
      rw [if_pos hends] at hlen
      change _ + (1 + body.length) = body.length + 0 at hlen
      omega
    · next hends =>
      rw [if_neg hends] at hlen
      change _ + (1 + body.length) = body.length + 1 at hlen
      have hnil : front.flatMap (· ++ lit "\n") = [] := List.eq_nil_of_length_eq_zero (by omega)
      rw [hnil, List.nil_append] at hjoin
      refine absurd (fun c hc => ?_) hends
      -- the newline has moved from the front of the body to its end
      obtain ⟨init, rfl⟩ := List.getLast?_eq_some_iff.mp hc
      have hlast := congrArg List.getLast? hjoin
      simpa [lit] using hlast

/-- With a line of `CR` in the place of the blank one the first blank line of the body ends the
header. -/
theorem readsOutput_crlf (fields : List CgiField) (body : Str) :
    ReadsOutput .crlf fields body ↔ fields = [] ∧ body = [] := by
  constructor
  · rintro ⟨parser, hparser, hfields, hbody⟩
    obtain ⟨rest, p, hrun, hdone⟩ := Method.run_bind_eq_ok hparser
    rw [getlines_cgiOutput] at hrun
    have hresult : parser = { p with
        resBodyStr := p.resBodyStr ++ rest.flatMap (· ++ lit "\n") } :=
      (Prod.mk.inj hdone).2.symm
    subst hresult
    cases fields with
    | nil =>
      have hblank : CGIParser.makeHeaderFieldPair LineEnd.crlf.front = .ok ([13], []) := rfl
      have hne : LineEnd.crlf.front ≠ [] := by decide
      rw [List.map_nil, List.nil_append, CGIParser.parseHeaderField_line hne hblank] at hrun
      obtain ⟨hrest, hkept⟩ := CGIParser.parseHeaderField_ok hrun
      rw [hkept.body, hrest] at hbody
      exact ⟨rfl, eq_nil_of_bodyStr hbody⟩
    | cons field fields =>
      rw [List.map_cons, List.cons_append, CGIParser.parseHeaderField_line
        (List.append_ne_nil_of_left_ne_nil field.line_ne_nil _)
        (field.makeHeaderFieldPair_line _)] at hrun
      have hkept := (CGIParser.parseHeaderField_ok hrun).2.header field.name
        (field.value ++ LineEnd.crlf.front) (by
          rw [Std.ExtTreeMap.getElem?_insertIfNew, if_pos]
          simp [CGIParser.new])
      have hvalue := hfields field (List.mem_cons_self ..)
      dsimp only at hvalue
      rw [hkept] at hvalue
      have hlen := congrArg List.length (Option.some.inj hvalue)
      rw [List.length_append, LineEnd.front, List.length_singleton] at hlen
      omega
  · rintro ⟨rfl, rfl⟩
    exact ⟨_, rfl, List.forall_mem_nil _, rfl⟩

/-- An output is read back if and only if its lines end with `LF`, the last one of the body
included, or nothing is in it. -/
theorem readsOutput_iff (lineEnd : LineEnd) (fields : List CgiField) (body : Str) :
    ReadsOutput lineEnd fields body ↔
      lineEnd = .lf ∧ EndsLine body ∧ Consistent fields ∨
        lineEnd = .crlf ∧ fields = [] ∧ body = [] := by
  cases lineEnd with
  | lf => simp [readsOutput_lf]
  | crlf => simp [readsOutput_crlf]

/-- `Content-Type: text/html` -/
def htmlField : CgiField :=
  ⟨lit "Content-Type", lit "text/html", by decide, by decide, by decide⟩

/-- A body without a newline behind it. -/
theorem not_readsOutput : ¬ ∀ lineEnd fields body, ReadsOutput lineEnd fields body := by
  intro h
  obtain ⟨hends, -⟩ := (readsOutput_lf [htmlField] (lit "hello")).mp (h _ _ _)
  exact absurd hends (by decide)

end Webserv
