import Webserv.Request.HeaderLines
import Webserv.Request.Refinement

/-!
# The two ends of a header

`HttpRequestParser` cuts the header off at the first `CRLF CRLF`, and `RequestHeaderParser` reads
the slice line by line until a line behind the first one is empty.  The loop ends exactly where
the slice does.
-/

namespace Webserv

open Text HttpParser HttpRequestParser RequestHeaderParser

/-- A header block is a first line, which may be empty, lines that are not, and an empty one. -/
theorem HeaderBlock.exists_lines {block : Str} (h : HeaderBlock block) :
    ∃ line lines, ¬ CRLF <:+: line ∧ (∀ l ∈ lines, IsLine CR LF l) ∧
      block = unlines CRLF (line :: lines) ++ CRLF := by
  obtain ⟨a, rfl, hfirst⟩ := headerBlock_iff.mp h
  exact exists_lines_of_double CR_ne_LF hfirst

/-- The lines that are read of the header are those of its slice, and the last of them ends where
the slice does. -/
theorem readLines_fetchUnparsedHeader {text : Str} (h : CRLF ++ CRLF <:+: text) :
    ∃ (slice line : Str) (offset : Nat) (lines : List Str),
      fetchUnparsedHeader text = .ok slice ∧ findHeaderEnd text = .ok slice.length ∧
        getLine slice 0 = .ok (line, offset) ∧
        readLines slice (slice.length + 1) offset = .ok (lines, slice.length) ∧
        unlines CRLF (line :: lines ++ [[]]) = slice := by
  cases hsplit : splitHeader text with
  | none => exact absurd h (splitHeader_eq_none_iff.mp hsplit)
  | some p =>
    obtain ⟨slice, rest⟩ := p
    obtain ⟨hblock, rfl⟩ := splitHeader_eq_some_iff.mp hsplit
    obtain ⟨line, lines, hline, hlines, hslice⟩ := hblock.exists_lines
    obtain ⟨offset, hget, hread⟩ := readLines_block hline hlines hslice
    refine ⟨slice, line, offset, lines, ?_, ?_, hget, hread, ?_⟩
    · rw [fetchUnparsedHeader_eq, hsplit]
    · rw [findHeaderEnd_eq, hsplit]
    · rw [unlines_append, unlines_cons CRLF [], unlines_nil, List.append_nil, List.nil_append,
        hslice]

/-- A CR in front of a terminator, and an LF behind one. -/
theorem readLines_fetchUnparsedHeader_overlap :
    ∃ (slice line : Str) (offset : Nat) (lines : List Str),
      fetchUnparsedHeader (lit "GET\r\r\n\nHost: a\r\n\r\nbody") = .ok slice ∧
        findHeaderEnd (lit "GET\r\r\n\nHost: a\r\n\r\nbody") = .ok slice.length ∧
        getLine slice 0 = .ok (line, offset) ∧
        readLines slice (slice.length + 1) offset = .ok (lines, slice.length) ∧
        unlines CRLF (line :: lines ++ [[]]) = slice :=
  readLines_fetchUnparsedHeader (by decide)

end Webserv
