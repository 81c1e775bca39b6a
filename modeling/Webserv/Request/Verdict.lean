import Webserv.Request.HttpRequestParser

/-!
# The verdict on the text of a request

What the parser decides, without its fields: the text received so far for one request is split
behind its first empty line, and either it is a complete request, or it can be no request at
all, or it is a chunked request whose end has not arrived.  Only the last case makes the next
segment part of the same request.
-/

namespace Webserv

open Text HttpParser

/-- The header block of a text, up to and including its first empty line, and what follows. -/
def splitHeader (text : Str) : Option (Str × Str) :=
  (find (CRLF ++ CRLF) text).map fun i => (text.take (i + 4), text.drop (i + 4))

/-- A text that ends with its first empty line. -/
def HeaderBlock (block : Str) : Prop := splitHeader block = some (block, [])

instance (block : Str) : Decidable (HeaderBlock block) := inferInstanceAs (Decidable (_ = _))

theorem headerBlock_iff {block : Str} :
    HeaderBlock block ↔
      ∃ a, block = a ++ (CRLF ++ CRLF) ∧ ¬ CRLF ++ CRLF <:+: a ++ [CR, LF, CR] := by
  unfold HeaderBlock splitHeader
  rw [Option.map_eq_some_iff]
  constructor
  · intro h
    obtain ⟨i, hi, heq⟩ := h
    obtain ⟨a, b, rfl, rfl, hfirst⟩ := (find_eq_some_iff (by decide)).mp hi
    have hrest : b = [] := by
      have hdrop := (Prod.mk.inj heq).2
      rwa [List.drop_append, List.drop_of_length_le (by omega), List.nil_append,
        Nat.add_sub_cancel_left] at hdrop
    subst hrest
    exact ⟨a, by rw [List.append_nil], hfirst⟩
  · intro h
    obtain ⟨a, rfl, hfirst⟩ := h
    refine ⟨a.length, (find_eq_some_iff (by decide)).mpr ⟨a, [], by simp, rfl, hfirst⟩, ?_⟩
    have hlen : (a ++ (CRLF ++ CRLF)).length = a.length + 4 := List.length_append
    rw [← hlen, List.take_length, List.drop_length]

theorem splitHeader_eq_some_iff {text block rest : Str} :
    splitHeader text = some (block, rest) ↔ HeaderBlock block ∧ text = block ++ rest := by
  constructor
  · intro h
    obtain ⟨i, hi, heq⟩ := Option.map_eq_some_iff.mp h
    obtain ⟨rfl, rfl⟩ := Prod.mk.inj heq
    refine ⟨?_, (List.take_append_drop _ _).symm⟩
    have hlen : (text.take (i + 4)).length = i + 4 :=
      List.length_take_of_le (find_add_length_le (by decide) hi)
    have htake : find (CRLF ++ CRLF) (text.take (i + 4)) = some i :=
      find_take_of_eq_some (by decide) hi (Nat.le_refl _)
    have hdrop : (text.take (i + 4)).drop (i + 4) = [] := List.drop_of_length_le (by omega)
    rw [HeaderBlock, splitHeader, htake, Option.map_some, List.take_of_length_le (by omega), hdrop]
  · intro h
    obtain ⟨hblock, rfl⟩ := h
    obtain ⟨i, hi, heq⟩ := Option.map_eq_some_iff.mp hblock
    obtain ⟨htake, hdrop⟩ := Prod.mk.inj heq
    have hlen : block.length = i + 4 := by
      have hle := find_add_length_le (by decide) hi
      have hge := List.drop_eq_nil_iff.mp hdrop
      exact Nat.le_antisymm hge hle
    rw [splitHeader, find_append_of_eq_some (by decide) hi, Option.map_some, ← hlen,
      List.take_left' rfl, List.drop_left' rfl]

theorem splitHeader_append {text block rest : Str} (h : splitHeader text = some (block, rest))
    (more : Str) : splitHeader (text ++ more) = some (block, rest ++ more) := by
  obtain ⟨hblock, rfl⟩ := splitHeader_eq_some_iff.mp h
  exact splitHeader_eq_some_iff.mpr ⟨hblock, List.append_assoc _ _ _⟩

theorem splitHeader_eq_none_iff {text : Str} :
    splitHeader text = none ↔ ¬ CRLF ++ CRLF <:+: text := by
  rw [splitHeader, Option.map_eq_none_iff, find_eq_none_iff]

theorem splitHeader_infix {text block rest : Str} (h : splitHeader text = some (block, rest)) :
    CRLF ++ CRLF <:+: text := by
  by_contra hno
  rw [splitHeader_eq_none_iff.mpr hno] at h
  cases h

/-! ## The verdict -/

inductive Verdict
  /-- a chunked request whose end has not arrived -/
  | waiting (header : RequestHeader)
  | accepted (header : RequestHeader) (body : Str)
  /-- the header is there when it was accepted before the failure -/
  | rejected (header : Option RequestHeader) (code : Str)
  deriving DecidableEq

namespace Verdict

def ofBody (header : RequestHeader) : Except Exn Str → Verdict
  | .ok body => .accepted header body
  | .error e => .rejected (some header) (HttpRequestParser.errorStatus e)

def ofRest (header : RequestHeader) (block rest : Str) : Verdict :=
  if header.transferEncodingIsChunked then
    if block.length + rest.length > kMaxHeaderLength + kMaxBodyLength then
      .rejected (some header) HttpStatus.payloadTooLarge
    else if HttpRequestParser.chunkedEnd <:+: rest then
      ofBody header (MessageBodyParser.parseChunkedBody rest)
    else .waiting header
  else ofBody header (header.contentLength >>= MessageBodyParser.parseBody rest)

def ofText (text : Str) : Verdict :=
  match splitHeader text with
  | none => .rejected none HttpStatus.badRequest
  | some (block, rest) =>
    match RequestHeaderParser.parse block with
    | .error e => .rejected none (HttpRequestParser.errorStatus e)
    | .ok header => ofRest header block rest

/-- The header that was accepted, if one was. -/
def header : Verdict → Option RequestHeader
  | waiting h => some h
  | accepted h _ => some h
  | rejected h _ => h

def isWaiting : Verdict → Bool
  | waiting _ => true
  | _ => false

@[simp] theorem header_ofBody (h : RequestHeader) (r : Except Exn Str) :
    (ofBody h r).header = some h := by
  cases r <;> rfl

@[simp] theorem header_ofRest (h : RequestHeader) (block rest : Str) :
    (ofRest h block rest).header = some h := by
  unfold ofRest
  split
  · split
    · rfl
    · split
      · exact header_ofBody h _
      · rfl
  · exact header_ofBody h _

theorem header_ofText_eq_some_iff {text : Str} {h : RequestHeader} :
    (ofText text).header = some h ↔
      ∃ block rest, splitHeader text = some (block, rest) ∧
        RequestHeaderParser.parse block = .ok h := by
  unfold ofText
  cases hsplit : splitHeader text with
  | none => simp [header]
  | some p =>
    obtain ⟨block, rest⟩ := p
    cases hparse : RequestHeaderParser.parse block with
    | error e => simp [header, hparse]
    | ok h' => simp [hparse]

/-- A text that is waiting has a chunked header, and is not too long. -/
theorem ofText_eq_waiting_iff {text : Str} {h : RequestHeader} :
    ofText text = .waiting h ↔
      ∃ block rest, splitHeader text = some (block, rest) ∧
        RequestHeaderParser.parse block = .ok h ∧ h.transferEncodingIsChunked = true ∧
        block.length + rest.length ≤ kMaxHeaderLength + kMaxBodyLength ∧
        ¬ HttpRequestParser.chunkedEnd <:+: rest := by
  constructor
  · intro hw
    obtain ⟨block, rest, hsplit, hparse⟩ := header_ofText_eq_some_iff.mp
      (show (ofText text).header = some h by rw [hw]; rfl)
    refine ⟨block, rest, hsplit, hparse, ?_⟩
    simp only [ofText, hsplit, hparse, ofRest] at hw
    split at hw
    · next hchunked =>
      split at hw
      · cases hw
      · next hlen =>
        split at hw
        · cases hb : MessageBodyParser.parseChunkedBody rest <;> simp [ofBody, hb] at hw
        · next hend => exact ⟨hchunked, Nat.le_of_not_lt hlen, hend⟩
    · cases hb : h.contentLength >>= MessageBodyParser.parseBody rest <;> simp [ofBody, hb] at hw
  · intro hw
    obtain ⟨block, rest, hsplit, hparse, hchunked, hlen, hend⟩ := hw
    simp only [ofText, hsplit, hparse, ofRest, hchunked, if_true]
    rw [if_neg (Nat.not_lt.mpr hlen), if_neg hend]

theorem ofBody_eq_accepted_iff {h h' : RequestHeader} {r : Except Exn Str} {body : Str} :
    ofBody h r = .accepted h' body ↔ h = h' ∧ r = .ok body := by
  cases r <;> simp [ofBody]

theorem ofText_eq_accepted_iff {text : Str} {h : RequestHeader} {body : Str} :
    ofText text = .accepted h body ↔
      ∃ block rest, splitHeader text = some (block, rest) ∧
        RequestHeaderParser.parse block = .ok h ∧
        ((h.transferEncodingIsChunked = true ∧
            block.length + rest.length ≤ kMaxHeaderLength + kMaxBodyLength ∧
            HttpRequestParser.chunkedEnd <:+: rest ∧
            MessageBodyParser.parseChunkedBody rest = .ok body) ∨
          (h.transferEncodingIsChunked = false ∧
            (h.contentLength >>= MessageBodyParser.parseBody rest) = .ok body)) := by
  constructor
  · intro hacc
    obtain ⟨block, rest, hsplit, hparse⟩ := header_ofText_eq_some_iff.mp
      (show (ofText text).header = some h by rw [hacc]; rfl)
    refine ⟨block, rest, hsplit, hparse, ?_⟩
    simp only [ofText, hsplit, hparse, ofRest] at hacc
    split at hacc
    · next hchunked =>
      split at hacc
      · cases hacc
      · next hlen =>
        split at hacc
        · next hend =>
          exact Or.inl ⟨hchunked, Nat.le_of_not_lt hlen, hend, (ofBody_eq_accepted_iff.mp hacc).2⟩
        · cases hacc
    · next hchunked =>
      exact Or.inr ⟨Bool.eq_false_iff.mpr hchunked, (ofBody_eq_accepted_iff.mp hacc).2⟩
  · intro hacc
    obtain ⟨block, rest, hsplit, hparse, hbody⟩ := hacc
    simp only [ofText, hsplit, hparse, ofRest]
    rcases hbody with ⟨hchunked, hlen, hend, hbody⟩ | ⟨hchunked, hbody⟩
    · rw [if_pos hchunked, if_neg (Nat.not_lt.mpr hlen), if_pos hend, hbody]
      rfl
    · rw [if_neg (by simp [hchunked]), hbody]
      rfl

/-- More text does not change the header of a request that waits for it. -/
theorem header_ofText_append {text : Str} {h : RequestHeader} (hw : (ofText text).header = some h)
    (more : Str) : (ofText (text ++ more)).header = some h := by
  obtain ⟨block, rest, hsplit, hparse⟩ := header_ofText_eq_some_iff.mp hw
  exact header_ofText_eq_some_iff.mpr ⟨block, rest ++ more, splitHeader_append hsplit more, hparse⟩

end Verdict

end Webserv
