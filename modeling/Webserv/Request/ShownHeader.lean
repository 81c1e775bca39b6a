import Webserv.Request.HeaderLines
import Webserv.Request.Session

/-!
# The header that a parser shows

The header field is assigned when a whole header was accepted, and cleared.
-/

namespace Webserv

open Text HttpParser

namespace HttpRequestParser

/-- The parser shows no header that was not accepted as a whole. -/
def ShowsParsed (p : HttpRequestParser) : Prop :=
  p.parsedHeader = .empty ∨ ∃ block, RequestHeaderParser.parse block = .ok p.parsedHeader

theorem clearStep_showsParsed : Method.Maintains ShowsParsed clearStep fun _ => True := by
  refine Method.Maintains.get.bind fun p _ => .ite ?_ (.pure trivial)
  exact .seq (.modify fun _ _ => Or.inl rfl) fun _ => .modify fun _ h => h

theorem headerStep_showsParsed (unparsedStr : Str) (port : Nat) (config : WebservConfig) :
    Method.Maintains ShowsParsed (headerStep unparsedStr port config) fun _ => True := by
  have hheader : Method.Maintains ShowsParsed (parseRequestHeader unparsedStr)
      fun header => ∃ block, RequestHeaderParser.parse block = .ok header := by
    refine .seq (.lift fun _ _ => trivial) fun block => ?_
    have hparse : Method.Maintains ShowsParsed
        (liftM (RequestHeaderParser.parse block) : ParserM RequestHeader)
        fun header => ∃ block, RequestHeaderParser.parse block = .ok header :=
      .lift fun header h => ⟨block, h⟩
    refine hparse.bind fun header h => ?_
    refine .ite (.seq (.modify fun _ h => h) fun _ => .pure h) ?_
    exact .seq (.modify fun _ h => h) fun _ => .pure h
  refine Method.Maintains.get.bind fun p _ => .ite ?_ (.pure trivial)
  refine hheader.bind fun header h => .seq (.modify fun _ _ => Or.inr h) fun _ => ?_
  exact .seq (.lift fun _ _ => trivial) fun _ => .modify fun _ h => h

theorem bodyStep_showsParsed (unparsedStr : Str) :
    Method.Maintains ShowsParsed (bodyStep unparsedStr) fun _ => True := by
  have hbody : ∀ length,
      Method.Maintains ShowsParsed (parseBody unparsedStr length) fun _ => True := fun length =>
    .seq (.lift fun _ _ => trivial) fun _ => .seq (.lift fun _ _ => trivial) fun _ =>
      .seq (.modify fun _ h => h) fun _ => .pure trivial
  refine Method.Maintains.get.bind fun p _ => .ite ?_ (.pure trivial)
  exact .seq (.lift fun _ _ => trivial) fun _ => .seq (hbody _) fun _ => .modify fun _ h => h

theorem chunkedStep_showsParsed (unparsedStr : Str) :
    Method.Maintains ShowsParsed (chunkedStep unparsedStr) fun _ => True := by
  have hbody : ∀ text, Method.Maintains ShowsParsed (parseChunkedBody text) fun _ => True :=
    fun text => .seq (.lift fun _ _ => trivial) fun _ =>
      .seq (.modify fun _ h => h) fun _ => .pure trivial
  have hend : ∀ text, Method.Maintains ShowsParsed
      (liftM (findHeaderEnd text) >>= fun headerEnd =>
        if (findFrom text chunkedEnd headerEnd).isSome then
          liftM (fetchUnparsedBody text) >>= fun unparsedBody =>
            parseChunkedBody unparsedBody >>= fun body =>
              modify fun p => { p with parsedBody := body }
        else pure () : ParserM Unit) fun _ => True := by
    intro text
    refine .seq (.lift fun _ _ => trivial) fun _ => .ite ?_ (.pure trivial)
    exact .seq (.lift fun _ _ => trivial) fun _ => .seq (hbody _) fun _ => .modify fun _ h => h
  refine Method.Maintains.get.bind fun p _ => .ite ?_ (.pure trivial)
  refine .seq (.modify fun _ h => h) fun _ => .ite ?_ (hend _)
  exact .seq (.throw _) fun _ => hend _

theorem parse_showsParsed {p : HttpRequestParser} (h : p.ShowsParsed) (unparsedStr : Str)
    (port : Nat) (config : WebservConfig) : (p.parse unparsedStr port config).ShowsParsed := by
  have htry : Method.Maintains ShowsParsed (parseTry unparsedStr port config) fun _ => True :=
    .seq clearStep_showsParsed fun _ => .seq (headerStep_showsParsed _ _ _) fun _ =>
      .seq (bodyStep_showsParsed _) fun _ => chunkedStep_showsParsed _
  have hrun := (htry p h).1
  rw [parse]
  generalize (parseTry unparsedStr port config).run p = r at hrun
  rcases r with ⟨e | _, p'⟩
  · exact hrun
  · exact hrun

theorem parseAll_showsParsed {p : HttpRequestParser} (h : p.ShowsParsed)
    (calls : List ParseCall) : (parseAll p calls).ShowsParsed := by
  induction calls generalizing p with
  | nil => exact h
  | cons c calls ih => exact ih (parse_showsParsed h _ _ _)

end HttpRequestParser

theorem RequestLineParser.version_isInfix {line : Str} {r : RequestLine}
    (h : RequestLineParser.parse line = .ok r) : r.version <:+: line := by
  obtain ⟨_, -, h⟩ := Except.bind_eq_ok_iff.mp h
  obtain ⟨_, -, h⟩ := Except.bind_eq_ok_iff.mp h
  obtain ⟨version, hversion, h⟩ := Except.bind_eq_ok_iff.mp h
  obtain ⟨_, -, h⟩ := Except.bind_eq_ok_iff.mp h
  rw [← Except.ok.inj h]
  exact substr_isInfix hversion

end Webserv
