import Webserv.Response.Returns

/-!
# The output of a script

The parent reads the pipe once, terminates what it got as a C string and makes a `std::string`
of it.  So the output of the script arrives if and only if the pipe hands it over in one piece,
the piece leaves room for the terminator, and it has no NUL of its own.
-/

namespace Webserv

open Text

namespace CGI

/-- The indices of `buf` that are written to by `read` and for the terminator. -/
def writtenIndices : Option Str → List Int
  | none => [-1]
  | some data => (List.range (data.length + 1)).map fun i : Nat => (i : Int)

theorem writtenIndices_in_buf_iff (data : Str) :
    (∀ i ∈ writtenIndices (some data), 0 ≤ i ∧ i < BUF_SIZE) ↔ data.length < BUF_SIZE := by
  constructor
  · intro h
    have hlast := (h data.length (List.mem_map_of_mem List.self_mem_range_succ)).2
    omega
  · intro hlen i hi
    obtain ⟨k, hk, rfl⟩ := List.mem_map.mp hi
    rw [List.mem_range] at hk
    omega

/-- The parent's calls succeed, and its one `read` gets the whole output, which is shorter than
the buffer and has no NUL. -/
structure Delivered (calls : CgiCalls) (output : Str) : Prop where
  pipeP2c : calls.pipeP2c = true
  pipeC2p : calls.pipeC2p = true
  closes : ∀ fd, calls.close fd = true
  write : calls.write = .returned
  read : calls.read BUF_SIZE = some output
  short : output.length < BUF_SIZE
  text : 0 ∉ output

theorem Delivered.parentReturns {calls : CgiCalls} {output : Str} (h : Delivered calls output) :
    ParentReturns calls :=
  ⟨h.closes _, h.closes _, h.write, h.closes _, h.closes _, output, h.read, h.short⟩

theorem ParentReturns.closes {calls : CgiCalls} (h : ParentReturns calls) (fd : PipeEnd) :
    calls.close fd = true := by
  obtain ⟨hp2cRead, hc2pWrite, -, hp2cWrite, hc2pRead, -⟩ := h
  cases fd with
  | p2cRead => exact hp2cRead
  | p2cWrite => exact hp2cWrite
  | c2pRead => exact hc2pRead
  | c2pWrite => exact hc2pWrite

/-- A C string that is its whole source has no NUL. -/
theorem notMem_of_cStr_eq {data output : Str} (hpre : data <+: output)
    (h : cStr data = output) : data = output ∧ 0 ∉ output := by
  have hle := length_cStr_le data
  have hdata : data = output := by
    refine hpre.eq_of_length (Nat.le_antisymm hpre.length_le ?_)
    rw [← h]
    exact hle
  exact ⟨hdata, h ▸ zero_notMem_cStr data⟩

/-- The parent returns the output of the script and stays within its buffer if and only if the
output is delivered. -/
theorem buildCGIResponse_output_iff (calls : CgiCalls) (hfork : calls.fork = .parent)
    (output : Str) (hpipe : ∀ data, calls.read BUF_SIZE = some data → data <+: output)
    (execCommandPath : Str) (execArgs execEnvs : List Str) (cgi : CGI) :
    (((buildCGIResponse calls execCommandPath execArgs execEnvs).run cgi).1 = .ok output ∧
        ∀ i ∈ writtenIndices (calls.read BUF_SIZE), 0 ≤ i ∧ i < BUF_SIZE) ↔
      Delivered calls output := by
  have hcases := buildCGIResponse_cases calls execCommandPath execArgs execEnvs cgi
  constructor
  · rintro ⟨hok, hindices⟩
    have hreturns : Returns ((buildCGIResponse calls execCommandPath execArgs execEnvs).run cgi) :=
      ⟨output, _, Prod.ext hok rfl⟩
    obtain ⟨hp2c, hc2p, -, hparent⟩ := buildCGIResponse_returns.mp hreturns
    rcases hcases with hfatal | ⟨data, hread, hrun⟩
    · exact absurd hreturns hfatal.not_returns
    · rw [hrun] at hok
      obtain ⟨rfl, hnul⟩ := notMem_of_cStr_eq (hpipe data hread) (Except.ok.inj hok)
      rw [hread, writtenIndices_in_buf_iff] at hindices
      exact ⟨hp2c, hc2p, hparent.closes, hparent.2.2.1, hread, hindices, hnul⟩
  · intro h
    have hreturns : Returns ((buildCGIResponse calls execCommandPath execArgs execEnvs).run cgi) :=
      buildCGIResponse_returns.mpr ⟨h.pipeP2c, h.pipeC2p, hfork, h.parentReturns⟩
    rcases hcases with hfatal | ⟨data, hread, hrun⟩
    · exact absurd hreturns hfatal.not_returns
    · obtain rfl : data = output := Option.some.inj (hread.symm.trans h.read)
      rw [hrun, cStr_eq_self h.text, hread, writtenIndices_in_buf_iff]
      exact ⟨rfl, h.short⟩

/-- The calls for a script whose output arrives up to the end of `piece` at first. -/
def printing (piece : Str) : CgiCalls :=
  { CgiCalls.silent with
    read := fun count => some (piece.take count)
    length_read := fun count data h => by
      rw [← Option.some.inj h]
      exact List.length_take_le count piece }

theorem printing_isPrefix {piece output : Str} (h : piece <+: output) (data : Str)
    (hdata : (printing piece).read BUF_SIZE = some data) : data <+: output := by
  rw [← Option.some.inj hdata]
  exact (List.take_prefix BUF_SIZE piece).trans h

/-- A script that prints a line. -/
theorem buildCGIResponse_output_iff_line :
    (((buildCGIResponse (printing (lit "hi\n")) [] [] []).run .new).1 = .ok (lit "hi\n") ∧
        ∀ i ∈ writtenIndices ((printing (lit "hi\n")).read BUF_SIZE), 0 ≤ i ∧ i < BUF_SIZE) ↔
      Delivered (printing (lit "hi\n")) (lit "hi\n") :=
  buildCGIResponse_output_iff (printing (lit "hi\n")) rfl (lit "hi\n")
    (printing_isPrefix (List.prefix_refl _)) [] [] [] .new

/-- A NUL in the output, an output that fills the buffer, and one that comes in two pieces. -/
theorem buildCGIResponse_loses_output :
    ((buildCGIResponse (printing [65, 0, 66]) [] [] []).run .new).1 ≠ .ok [65, 0, 66] ∧
      ¬ (∀ i ∈ writtenIndices ((printing (List.replicate BUF_SIZE 65)).read BUF_SIZE),
        0 ≤ i ∧ i < BUF_SIZE) ∧
      ((buildCGIResponse (printing (lit "hel")) [] [] []).run .new).1 ≠ .ok (lit "hello") := by
  refine ⟨?_, fun h => ?_, ?_⟩
  · intro h
    cases Except.ok.inj h
  · have hread : (printing (List.replicate BUF_SIZE 65)).read BUF_SIZE =
        some (List.replicate BUF_SIZE 65) := by
      exact congrArg some (List.take_of_length_le (by simp))
    rw [hread, writtenIndices_in_buf_iff, List.length_replicate] at h
    exact Nat.lt_irrefl _ h
  · intro h
    cases Except.ok.inj h

end CGI

end Webserv
