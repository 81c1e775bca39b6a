import Mathlib.Data.DFinsupp.WellFounded
import Mathlib.Data.Prod.Lex
import Mathlib.Logic.Function.Basic
import Mathlib.Logic.Relation
import Mathlib.SetTheory.Ordinal.Rank

/-!
# Processes and pipes

Processes that only share pipes.  A pipe hands over its bytes in order and has room for a bounded
number of them; a read waits for the first byte or for the last writer to go, a write for room or
for the last reader to go.  A write of at most `atomic` bytes is not cut.  The interleaving is
arbitrary.

The results are for any programs: no byte is lost, repeated or made up, what a network waits for
when no process can go on, and that programs which take finitely many steps make a network that
does.
-/

namespace Pipes

variable {ι π β : Type*}

/-- The two ends of a pipe. -/
inductive End (ι : Type*)
  | reading (i : ι)
  | writing (i : ι)
  deriving DecidableEq

/-- What a program does next, and how it goes on. -/
inductive Action (ι β γ : Type*)
  | compute (next : γ)
  | dup (e : End ι) (next : γ)
  | close (e : End ι) (next : γ)
  | read (i : ι) (count : ℕ) (next : List β → γ)
  | write (i : ι) (data : List β) (next : γ)
  | halt

/-- The action of a program whose states are seen through `f`. -/
def Action.map {γ γ' : Type*} (f : γ → γ') : Action ι β γ → Action ι β γ'
  | compute g => .compute (f g)
  | dup e g => .dup e (f g)
  | close e g => .close e (f g)
  | read i count next => .read i count fun data => f (next data)
  | write i data g => .write i data (f g)
  | halt => .halt

/-- The states that a program may reach by one action, with what it gets from each pipe. -/
inductive Action.Next {γ : Type*} : Action ι β γ → (ι → List β) → γ → Prop
  | compute (g : γ) : Next (compute g) (fun _ => []) g
  | dup (e : End ι) (g : γ) : Next (dup e g) (fun _ => []) g
  | close (e : End ι) (g : γ) : Next (close e g) (fun _ => []) g
  | read (i : ι) (count : ℕ) (next : List β → γ) (got : ι → List β) :
      (∀ j, j ≠ i → got j = []) → Next (read i count next) got (next (got i))
  | write (i : ι) (data : List β) (g : γ) : Next (write i data g) (fun _ => []) g

theorem Action.next_map {γ γ' : Type*} {f : γ → γ'} {a : Action ι β γ} {got : ι → List β} {g' : γ'}
    (h : (a.map f).Next got g') : ∃ g, a.Next got g ∧ g' = f g := by
  cases a <;> cases h
  case compute g => exact ⟨g, .compute g, rfl⟩
  case dup e g => exact ⟨g, .dup e g, rfl⟩
  case close e g => exact ⟨g, .close e g, rfl⟩
  case read i count next h => exact ⟨next (got i), .read i count next got h, rfl⟩
  case write i data g => exact ⟨g, .write i data g, rfl⟩

theorem Action.next_read {γ : Type*} {i : ι} {count : ℕ} {next : List β → γ} {got : ι → List β}
    {g : γ} (h : (Action.read i count next).Next got g) : g = next (got i) := by
  cases h
  rfl

inductive Status
  | running
  | halted
  /-- by the signal for a write that nobody can read -/
  | killed
  deriving DecidableEq

/-- `ends` has an end once for each of its descriptors.  `progress` is how much of the write
under way the pipe has taken. -/
structure Process (ι γ : Type*) where
  state : γ
  ends : List (End ι)
  progress : ℕ
  status : Status

/-- `written` and `taken` record what went into a pipe and came out of it. -/
structure Network (ι β : Type*) {π : Type*} (γ : π → Type*) where
  content : ι → List β
  written : ι → List β
  taken : ι → List β
  procs : ∀ p, Process ι (γ p)

variable {γ : π → Type*} [DecidableEq ι] [DecidableEq π]

namespace Network

def HasReader (s : Network ι β γ) (i : ι) : Prop := ∃ p, .reading i ∈ (s.procs p).ends

def HasWriter (s : Network ι β γ) (i : ι) : Prop := ∃ p, .writing i ∈ (s.procs p).ends

/-- The process `p` is replaced. -/
def put (s : Network ι β γ) (p : π) (proc : Process ι (γ p)) : Network ι β γ :=
  { s with procs := Function.update s.procs p proc }

/-- The program of `p` goes on, with these ends open. -/
def goto (s : Network ι β γ) (p : π) (g : γ p) (ends : List (End ι)) : Network ι β γ :=
  s.put p ⟨g, ends, 0, .running⟩

/-- The process `p` ends, and all of its descriptors are closed. -/
def stop (s : Network ι β γ) (p : π) (status : Status) : Network ι β γ :=
  s.put p { s.procs p with ends := [], status := status }

/-- The first bytes of a pipe are taken out. -/
def take (s : Network ι β γ) (i : ι) (count : ℕ) : Network ι β γ :=
  { s with
    content := Function.update s.content i ((s.content i).drop count)
    taken := Function.update s.taken i (s.taken i ++ (s.content i).take count) }

/-- The pipe takes this piece of the write under way. -/
def push (s : Network ι β γ) (p : π) (i : ι) (piece : List β) : Network ι β γ :=
  { s with
    content := Function.update s.content i (s.content i ++ piece)
    written := Function.update s.written i (s.written i ++ piece)
    procs := Function.update s.procs p
      { s.procs p with progress := (s.procs p).progress + piece.length } }

end Network

open Network

section

variable (act : ∀ p, γ p → Action ι β (γ p)) (capacity : ι → ℕ) (atomic : ℕ)

/-- The pipe `i` has room for this piece of the data. -/
structure Fits (s : Network ι β γ) (p : π) (i : ι) (data piece : List β) : Prop where
  nonempty : piece ≠ []
  next : piece <+: data.drop (s.procs p).progress
  room : (s.content i).length + piece.length ≤ capacity i
  whole : data.length ≤ atomic → piece = data

/-- One step of the process `p`.  A call on an end that is not open fails, and the program goes
on. -/
inductive Step (p : π) (s : Network ι β γ) : Network ι β γ → Prop
  | compute {g : γ p} : (s.procs p).status = .running →
      act p (s.procs p).state = .compute g → Step p s (s.goto p g (s.procs p).ends)
  | dup {e : End ι} {g : γ p} : (s.procs p).status = .running →
      act p (s.procs p).state = .dup e g → e ∈ (s.procs p).ends →
      Step p s (s.goto p g (e :: (s.procs p).ends))
  | close {e : End ι} {g : γ p} : (s.procs p).status = .running →
      act p (s.procs p).state = .close e g →
      Step p s (s.goto p g ((s.procs p).ends.erase e))
  | read {i : ι} {count : ℕ} {next : List β → γ p} : (s.procs p).status = .running →
      act p (s.procs p).state = .read i count next → .reading i ∈ (s.procs p).ends →
      s.content i ≠ [] →
      Step p s ((s.take i count).goto p (next ((s.content i).take count)) (s.procs p).ends)
  | eof {i : ι} {count : ℕ} {next : List β → γ p} : (s.procs p).status = .running →
      act p (s.procs p).state = .read i count next → .reading i ∈ (s.procs p).ends →
      s.content i = [] → ¬ s.HasWriter i → Step p s (s.goto p (next []) (s.procs p).ends)
  | push {i : ι} {data piece : List β} {g : γ p} : (s.procs p).status = .running →
      act p (s.procs p).state = .write i data g → .writing i ∈ (s.procs p).ends →
      s.HasReader i → Fits capacity atomic s p i data piece → Step p s (s.push p i piece)
  | wrote {i : ι} {data : List β} {g : γ p} : (s.procs p).status = .running →
      act p (s.procs p).state = .write i data g → .writing i ∈ (s.procs p).ends →
      (s.procs p).progress = data.length → Step p s (s.goto p g (s.procs p).ends)
  | sigpipe {i : ι} {data : List β} {g : γ p} : (s.procs p).status = .running →
      act p (s.procs p).state = .write i data g → .writing i ∈ (s.procs p).ends →
      (s.procs p).progress < data.length → ¬ s.HasReader i → Step p s (s.stop p .killed)
  | badDup {e : End ι} {g : γ p} : (s.procs p).status = .running →
      act p (s.procs p).state = .dup e g → e ∉ (s.procs p).ends →
      Step p s (s.goto p g (s.procs p).ends)
  | badRead {i : ι} {count : ℕ} {next : List β → γ p} : (s.procs p).status = .running →
      act p (s.procs p).state = .read i count next → .reading i ∉ (s.procs p).ends →
      Step p s (s.goto p (next []) (s.procs p).ends)
  | badWrite {i : ι} {data : List β} {g : γ p} : (s.procs p).status = .running →
      act p (s.procs p).state = .write i data g → .writing i ∉ (s.procs p).ends →
      Step p s (s.goto p g (s.procs p).ends)
  | halt : (s.procs p).status = .running → act p (s.procs p).state = .halt →
      Step p s (s.stop p .halted)

/-- A step of any process. -/
def AnyStep (s s' : Network ι β γ) : Prop := ∃ p, Step act capacity atomic p s s'

/-- What an execution leads to. -/
def Reaches (s s' : Network ι β γ) : Prop :=
  Relation.ReflTransGen (AnyStep act capacity atomic) s s'

variable {act capacity atomic} {s s' : Network ι β γ} {p : π}

/-! ## Frames -/

omit [DecidableEq ι] in
theorem procs_put (s : Network ι β γ) (p : π) (proc : Process ι (γ p)) :
    (s.put p proc).procs p = proc := Function.update_self ..

omit [DecidableEq ι] in
theorem procs_put_of_ne (s : Network ι β γ) {p q : π} (h : q ≠ p) (proc : Process ι (γ p)) :
    (s.put p proc).procs q = s.procs q := Function.update_of_ne h ..

theorem procs_push (s : Network ι β γ) (p : π) (i : ι) (piece : List β) :
    (s.push p i piece).procs p =
      { s.procs p with progress := (s.procs p).progress + piece.length } :=
  Function.update_self ..

theorem written_push (s : Network ι β γ) (p : π) (i : ι) (piece : List β) :
    (s.push p i piece).written i = s.written i ++ piece := Function.update_self ..

theorem written_push_of_ne (s : Network ι β γ) (p : π) {i j : ι} (h : j ≠ i) (piece : List β) :
    (s.push p i piece).written j = s.written j := Function.update_of_ne h ..

theorem content_push (s : Network ι β γ) (p : π) (i : ι) (piece : List β) :
    (s.push p i piece).content i = s.content i ++ piece := Function.update_self ..

theorem content_push_of_ne (s : Network ι β γ) (p : π) {i j : ι} (h : j ≠ i) (piece : List β) :
    (s.push p i piece).content j = s.content j := Function.update_of_ne h ..

omit [DecidableEq π] in
theorem taken_take (s : Network ι β γ) (i : ι) (count : ℕ) :
    (s.take i count).taken i = s.taken i ++ (s.content i).take count := Function.update_self ..

omit [DecidableEq π] in
theorem taken_take_of_ne (s : Network ι β γ) {i j : ι} (h : j ≠ i) (count : ℕ) :
    (s.take i count).taken j = s.taken j := Function.update_of_ne h ..

/-- A step leaves the other processes alone. -/
theorem Step.procs_of_ne (h : Step act capacity atomic p s s') {q : π} (hq : q ≠ p) :
    s'.procs q = s.procs q := by
  cases h <;> exact Function.update_of_ne hq ..

/-- What a step makes of its own process, and of what came out of the pipes: its program goes on,
the pipe takes a piece of its data, or it ends. -/
inductive Moved (act : ∀ p, γ p → Action ι β (γ p)) (capacity : ι → ℕ) (atomic : ℕ) (p : π)
    (s : Network ι β γ) : Process ι (γ p) → (ι → List β) → Prop
  | next {g : γ p} (ends : List (End ι)) (got : ι → List β) :
      (act p (s.procs p).state).Next got g →
      Moved act capacity atomic p s ⟨g, ends, 0, .running⟩ fun i => s.taken i ++ got i
  | push {i : ι} {data piece : List β} {g : γ p} :
      act p (s.procs p).state = .write i data g → Fits capacity atomic s p i data piece →
      Moved act capacity atomic p s
        { s.procs p with progress := (s.procs p).progress + piece.length } s.taken
  | stop {status : Status} : status ≠ .running →
      Moved act capacity atomic p s { s.procs p with ends := [], status := status } s.taken

theorem Step.moved (h : Step act capacity atomic p s s') :
    Moved act capacity atomic p s (s'.procs p) s'.taken := by
  have hput : ∀ (s : Network ι β γ) (proc : Process ι (γ p)), (s.put p proc).procs p = proc :=
    fun s => procs_put s p
  have hnext : ∀ {g : γ p} (ends : List (End ι)),
      (act p (s.procs p).state).Next (fun _ => []) g →
      Moved act capacity atomic p s ⟨g, ends, 0, .running⟩ s.taken := by
    intro g ends hnext
    have hmoved : Moved act capacity atomic p s ⟨g, ends, 0, .running⟩ fun i => s.taken i ++ [] :=
      .next ends _ hnext
    simpa only [List.append_nil] using hmoved
  cases h with
  | compute _ hact | dup _ hact | close _ hact | wrote _ hact | badDup _ hact | badWrite _ hact =>
    rw [goto, hput]
    refine hnext _ ?_
    rw [hact]
    constructor
  | @eof i count next _ hact | @badRead i count next _ hact =>
    rw [goto, hput]
    refine hnext _ ?_
    rw [hact]
    exact .read i count next (fun _ => []) fun _ _ => rfl
  | @read i count next _ hact =>
    have htaken : (s.take i count).taken =
        fun j => s.taken j ++ if j = i then (s.content i).take count else [] := by
      funext j
      by_cases hj : j = i
      · rw [if_pos hj, hj, taken_take]
      · rw [if_neg hj, taken_take_of_ne s hj, List.append_nil]
    have hread : (act p (s.procs p).state).Next
        (fun j => if j = i then (s.content i).take count else [])
        (next ((s.content i).take count)) := by
      rw [hact]
      have hgot := Action.Next.read i count next
        (fun j => if j = i then (s.content i).take count else []) fun j hj => if_neg hj
      rwa [if_pos rfl] at hgot
    rw [goto, hput]
    change Moved act capacity atomic p s _ (s.take i count).taken
    rw [htaken]
    exact .next _ _ hread
  | @push i data piece g _ hact _ _ hfits =>
    rw [procs_push]
    exact .push hact hfits
  | sigpipe | halt =>
    rw [stop, hput]
    exact .stop (by decide)

theorem Step.running (h : Step act capacity atomic p s s') :
    (s.procs p).status = .running := by
  cases h <;> assumption

/-- No process gets an end that it does not have. -/
theorem Step.mem_ends (h : Step act capacity atomic p s s') {q : π} {e : End ι}
    (he : e ∈ (s'.procs q).ends) : e ∈ (s.procs q).ends := by
  by_cases hq : q = p
  · subst hq
    cases h with
    | compute | read | eof | wrote | badDup | badRead | badWrite =>
      rw [goto, procs_put] at he
      exact he
    | dup _ _ hmem =>
      rw [goto, procs_put] at he
      rcases List.mem_cons.mp he with rfl | he
      · exact hmem
      · exact he
    | close =>
      rw [goto, procs_put] at he
      exact List.mem_of_mem_erase he
    | push =>
      rw [procs_push] at he
      exact he
    | sigpipe | halt =>
      rw [stop, procs_put] at he
      exact absurd he List.not_mem_nil
  · rwa [h.procs_of_ne hq] at he

/-- A pipe that nobody can read stays so. -/
theorem Step.hasReader (h : Step act capacity atomic p s s') {i : ι} (hi : s'.HasReader i) :
    s.HasReader i := by
  obtain ⟨q, hq⟩ := hi
  exact ⟨q, h.mem_ends hq⟩

/-! ## Steps of a known action -/

theorem Step.of_compute (h : Step act capacity atomic p s s') {g : γ p}
    (hact : act p (s.procs p).state = .compute g) : s' = s.goto p g (s.procs p).ends := by
  cases h with
  | compute _ h' =>
    cases hact.symm.trans h'
    rfl
  | close _ h' | dup _ h' | read _ h' | eof _ h' | push _ h' | wrote _ h' | sigpipe _ h'
  | badDup _ h' | badRead _ h' | badWrite _ h' | halt _ h' => cases hact.symm.trans h'

theorem Step.of_dup (h : Step act capacity atomic p s s') {e : End ι} {g : γ p}
    (hact : act p (s.procs p).state = .dup e g) :
    s' = s.goto p g (if e ∈ (s.procs p).ends then e :: (s.procs p).ends else (s.procs p).ends) := by
  cases h with
  | dup _ h' he =>
    cases hact.symm.trans h'
    rw [if_pos he]
  | badDup _ h' he =>
    cases hact.symm.trans h'
    rw [if_neg he]
  | close _ h' | compute _ h' | read _ h' | eof _ h' | push _ h' | wrote _ h' | sigpipe _ h'
  | badRead _ h' | badWrite _ h' | halt _ h' => cases hact.symm.trans h'

theorem Step.of_close (h : Step act capacity atomic p s s') {e : End ι} {g : γ p}
    (hact : act p (s.procs p).state = .close e g) :
    s' = s.goto p g ((s.procs p).ends.erase e) := by
  cases h with
  | close _ h' =>
    cases hact.symm.trans h'
    rfl
  | compute _ h' | dup _ h' | read _ h' | eof _ h' | push _ h' | wrote _ h' | sigpipe _ h'
  | badDup _ h' | badRead _ h' | badWrite _ h' | halt _ h' => cases hact.symm.trans h'

/-- A read takes what is there, or finds that nothing will come. -/
theorem Step.of_read (h : Step act capacity atomic p s s') {i : ι} {count : ℕ}
    {next : List β → γ p} (hact : act p (s.procs p).state = .read i count next) :
    (.reading i ∈ (s.procs p).ends ∧ s.content i ≠ [] ∧
      s' = (s.take i count).goto p (next ((s.content i).take count)) (s.procs p).ends) ∨
    (.reading i ∈ (s.procs p).ends ∧ s.content i = [] ∧ ¬ s.HasWriter i ∧
      s' = s.goto p (next []) (s.procs p).ends) ∨
    (.reading i ∉ (s.procs p).ends ∧ s' = s.goto p (next []) (s.procs p).ends) := by
  cases h with
  | read _ h' hend hcontent =>
    cases hact.symm.trans h'
    exact Or.inl ⟨hend, hcontent, rfl⟩
  | eof _ h' hend hcontent hwriter =>
    cases hact.symm.trans h'
    exact Or.inr (Or.inl ⟨hend, hcontent, hwriter, rfl⟩)
  | badRead _ h' hend =>
    cases hact.symm.trans h'
    exact Or.inr (Or.inr ⟨hend, rfl⟩)
  | compute _ h' | dup _ h' | close _ h' | push _ h' | wrote _ h' | sigpipe _ h' | badDup _ h'
  | badWrite _ h' | halt _ h' => cases hact.symm.trans h'

/-- A write hands over a piece, or is done, or finds that nobody will read. -/
theorem Step.of_write (h : Step act capacity atomic p s s') {i : ι} {data : List β} {g : γ p}
    (hact : act p (s.procs p).state = .write i data g) :
    (∃ piece, .writing i ∈ (s.procs p).ends ∧ s.HasReader i ∧
      Fits capacity atomic s p i data piece ∧ s' = s.push p i piece) ∨
    (.writing i ∈ (s.procs p).ends ∧ (s.procs p).progress = data.length ∧
      s' = s.goto p g (s.procs p).ends) ∨
    (.writing i ∈ (s.procs p).ends ∧ (s.procs p).progress < data.length ∧ ¬ s.HasReader i ∧
      s' = s.stop p .killed) ∨
    (.writing i ∉ (s.procs p).ends ∧ s' = s.goto p g (s.procs p).ends) := by
  cases h with
  | push _ h' hend hreader hfits =>
    cases hact.symm.trans h'
    exact Or.inl ⟨_, hend, hreader, hfits, rfl⟩
  | wrote _ h' hend hdone =>
    cases hact.symm.trans h'
    exact Or.inr (Or.inl ⟨hend, hdone, rfl⟩)
  | sigpipe _ h' hend hlt hreader =>
    cases hact.symm.trans h'
    exact Or.inr (Or.inr (Or.inl ⟨hend, hlt, hreader, rfl⟩))
  | badWrite _ h' hend =>
    cases hact.symm.trans h'
    exact Or.inr (Or.inr (Or.inr ⟨hend, rfl⟩))
  | compute _ h' | dup _ h' | close _ h' | read _ h' | eof _ h' | badDup _ h' | badRead _ h'
  | halt _ h' => cases hact.symm.trans h'

theorem Step.of_halt (h : Step act capacity atomic p s s')
    (hact : act p (s.procs p).state = .halt) : s' = s.stop p .halted := by
  cases h with
  | halt => rfl
  | compute _ h' | dup _ h' | close _ h' | read _ h' | eof _ h' | push _ h' | wrote _ h'
  | sigpipe _ h' | badDup _ h' | badRead _ h' | badWrite _ h' => cases hact.symm.trans h'

/-- An invariant that every step keeps holds wherever an execution leads. -/
theorem Reaches.induction {P : Network ι β γ → Prop} (h : Reaches act capacity atomic s s')
    (hs : P s) (hstep : ∀ p s s', Step act capacity atomic p s s' → P s → P s') : P s' := by
  induction h with
  | refl => exact hs
  | tail _ hlast ih =>
    obtain ⟨p, hp⟩ := hlast
    exact hstep p _ _ hp ih

/-! ## No byte is lost -/

/-- What a pipe holds is what went into it and did not come out yet. -/
def Conserved (s : Network ι β γ) : Prop := ∀ i, s.written i = s.taken i ++ s.content i

omit [DecidableEq π] in
theorem conserved_take (h : Conserved s) (i : ι) (count : ℕ) : Conserved (s.take i count) := by
  intro j
  by_cases hj : j = i
  · subst hj
    change s.written j = (s.take j count).taken j ++ Function.update s.content j _ j
    rw [taken_take, Function.update_self, List.append_assoc, List.take_append_drop, h]
  · change s.written j = (s.take i count).taken j ++ Function.update s.content i _ j
    rw [taken_take_of_ne s hj, Function.update_of_ne hj, h]

theorem conserved_push (h : Conserved s) (p : π) (i : ι) (piece : List β) :
    Conserved (s.push p i piece) := by
  intro j
  by_cases hj : j = i
  · subst hj
    change (s.push p j piece).written j = s.taken j ++ (s.push p j piece).content j
    rw [written_push, content_push, h, List.append_assoc]
  · change (s.push p i piece).written j = s.taken j ++ (s.push p i piece).content j
    rw [written_push_of_ne s p hj, content_push_of_ne s p hj, h]

/-- Every execution conserves the bytes of every pipe. -/
theorem Step.conserved (hstep : Step act capacity atomic p s s') (h : Conserved s) :
    Conserved s' := by
  cases hstep with
  | read => exact conserved_take h _ _
  | push => exact conserved_push h _ _ _
  | compute | dup | close | eof | wrote | sigpipe | badDup | badRead | badWrite | halt => exact h

/-- No pipe holds more than it has room for. -/
theorem Step.within_capacity (hstep : Step act capacity atomic p s s')
    (h : ∀ i, (s.content i).length ≤ capacity i) (i : ι) : (s'.content i).length ≤ capacity i := by
  cases hstep with
  | @read j count =>
    change (Function.update s.content j _ i).length ≤ _
    by_cases hi : i = j
    · subst hi
      rw [Function.update_self, List.length_drop]
      exact (Nat.sub_le _ _).trans (h i)
    · rw [Function.update_of_ne hi]
      exact h i
  | @push j data piece g _ _ _ _ hfits =>
    by_cases hi : i = j
    · subst hi
      rw [content_push, List.length_append]
      exact hfits.room
    · rw [content_push_of_ne s p hi]
      exact h i
  | compute | dup | close | eof | wrote | sigpipe | badDup | badRead | badWrite | halt => exact h i

/-! ## Networks that wait -/

def Ended (s : Network ι β γ) (p : π) : Prop := (s.procs p).status ≠ .running

/-- The process waits for the first byte of a pipe that somebody may write to. -/
def WaitsToRead (act : ∀ p, γ p → Action ι β (γ p)) (s : Network ι β γ) (p : π) (i : ι) : Prop :=
  (s.procs p).status = .running ∧
    (∃ count next, act p (s.procs p).state = .read i count next) ∧
    .reading i ∈ (s.procs p).ends ∧ s.content i = [] ∧ s.HasWriter i

/-- The process waits for room in a pipe that somebody may read. -/
def WaitsToWrite (act : ∀ p, γ p → Action ι β (γ p)) (capacity : ι → ℕ) (atomic : ℕ)
    (s : Network ι β γ) (p : π) (i : ι) : Prop :=
  (s.procs p).status = .running ∧ .writing i ∈ (s.procs p).ends ∧ s.HasReader i ∧
    ∃ data g, act p (s.procs p).state = .write i data g ∧
      (s.procs p).progress ≠ data.length ∧ ∀ piece, ¬ Fits capacity atomic s p i data piece

/-- The pipe has never taken more than the data of the write under way. -/
def Bounded (act : ∀ p, γ p → Action ι β (γ p)) (atomic : ℕ) (s : Network ι β γ) (p : π) : Prop :=
  ∀ i data g, act p (s.procs p).state = .write i data g →
    (s.procs p).progress ≤ data.length ∧
      (data.length ≤ atomic → (s.procs p).progress = 0 ∨ (s.procs p).progress = data.length)

/-- A process that cannot go on has ended, or waits for a byte or for room. -/
theorem cannot_step_iff (hbounded : Bounded act atomic s p) :
    (∀ s', ¬ Step act capacity atomic p s s') ↔
      Ended s p ∨ (∃ i, WaitsToRead act s p i) ∨ ∃ i, WaitsToWrite act capacity atomic s p i := by
  constructor
  · intro h
    by_cases hrun : (s.procs p).status = .running
    · refine Or.inr ?_
      cases hact : act p (s.procs p).state with
      | compute g => exact absurd (Step.compute hrun hact) (h _)
      | dup e g =>
        by_cases he : e ∈ (s.procs p).ends
        · exact absurd (Step.dup hrun hact he) (h _)
        · exact absurd (Step.badDup hrun hact he) (h _)
      | close e g => exact absurd (Step.close hrun hact) (h _)
      | read i count next =>
        by_cases hend : .reading i ∈ (s.procs p).ends
        · by_cases hcontent : s.content i = []
          · by_cases hwriter : s.HasWriter i
            · exact Or.inl ⟨i, hrun, ⟨count, next, hact⟩, hend, hcontent, hwriter⟩
            · exact absurd (Step.eof hrun hact hend hcontent hwriter) (h _)
          · exact absurd (Step.read hrun hact hend hcontent) (h _)
        · exact absurd (Step.badRead hrun hact hend) (h _)
      | write i data g =>
        by_cases hend : .writing i ∈ (s.procs p).ends
        · by_cases hdone : (s.procs p).progress = data.length
          · exact absurd (Step.wrote hrun hact hend hdone) (h _)
          · have hlt := Nat.lt_of_le_of_ne (hbounded i data g hact).1 hdone
            by_cases hreader : s.HasReader i
            · exact Or.inr ⟨i, hrun, hend, hreader, data, g, hact, hdone, fun piece hfits =>
                h _ (Step.push hrun hact hend hreader hfits)⟩
            · exact absurd (Step.sigpipe hrun hact hend hlt hreader) (h _)
        · exact absurd (Step.badWrite hrun hact hend) (h _)
      | halt => exact absurd (Step.halt hrun hact) (h _)
    · exact Or.inl hrun
  · rintro (hended | ⟨i, hrun, ⟨count, next, hact⟩, hend, hcontent, hwriter⟩ |
      ⟨i, hrun, hend, hreader, data, g, hact, hdone, hfits⟩) s' hstep
    · exact hended hstep.running
    · cases hstep <;> simp_all
    · cases hstep <;> simp_all

omit [DecidableEq ι] [DecidableEq π] in
/-- With room for all of a short write, or for the next byte of a long one, there is a piece. -/
theorem exists_fits {i : ι} {data : List β} {g : γ p} (hbounded : Bounded act atomic s p)
    (hact : act p (s.procs p).state = .write i data g)
    (hdone : (s.procs p).progress ≠ data.length)
    (hroom : (s.content i).length + (if data.length ≤ atomic then data.length else 1) ≤
      capacity i) : ∃ piece, Fits capacity atomic s p i data piece := by
  obtain ⟨hle, hatomic⟩ := hbounded i data g hact
  by_cases hshort : data.length ≤ atomic
  · have hzero := (hatomic hshort).resolve_right hdone
    rw [if_pos hshort] at hroom
    refine ⟨data, ⟨fun hnil => hdone ?_, ?_, hroom, fun _ => rfl⟩⟩
    · rw [hzero, hnil]
      rfl
    · rw [hzero, List.drop_zero]
  · rw [if_neg hshort] at hroom
    have hlt : (s.procs p).progress < data.length := Nat.lt_of_le_of_ne hle hdone
    refine ⟨[data[(s.procs p).progress]], ⟨List.cons_ne_nil _ _, ?_, hroom,
      fun h => absurd h hshort⟩⟩
    rw [List.drop_eq_getElem_cons hlt]
    exact List.prefix_append [_] _

omit [DecidableEq ι] [DecidableEq π] in
/-- Nobody waits to write to an empty pipe that holds the longest write that is not cut. -/
theorem WaitsToWrite.content_ne_nil {i : ι} (h : WaitsToWrite act capacity atomic s p i)
    (hbounded : Bounded act atomic s p) (hatomic : 0 < atomic) (hcap : atomic ≤ capacity i) :
    s.content i ≠ [] := by
  obtain ⟨-, -, -, data, g, hact, hdone, hfits⟩ := h
  intro hempty
  have hroom : (s.content i).length + (if data.length ≤ atomic then data.length else 1) ≤
      capacity i := by
    rw [hempty, List.length_nil, Nat.zero_add]
    split <;> omega
  obtain ⟨piece, hpiece⟩ := exists_fits hbounded hact hdone hroom
  exact hfits piece hpiece

/-- Every step keeps the progress of every process within its data. -/
theorem Step.bounded (hstep : Step act capacity atomic p s s') {q : π}
    (h : Bounded act atomic s q) : Bounded act atomic s' q := by
  by_cases hq : q = p
  · subst hq
    have hmoved := hstep.moved
    rw [Bounded]
    generalize s'.procs q = proc at hmoved
    generalize s'.taken = taken at hmoved
    cases hmoved with
    | next ends got hnext => exact fun i data g _ => ⟨Nat.zero_le _, fun _ => Or.inl rfl⟩
    | stop hstatus => exact h
    | @push i data piece g hact hfits =>
      intro i' data' g' hact'
      obtain ⟨rfl, rfl, rfl⟩ := Action.write.inj (hact.symm.trans hact')
      have hlen := hfits.next.length_le
      rw [List.length_drop] at hlen
      obtain ⟨hle, -⟩ := h i data g hact
      refine ⟨?_, fun hshort => Or.inr ?_⟩
      · change (s.procs q).progress + piece.length ≤ data.length
        omega
      · change (s.procs q).progress + piece.length = data.length
        rw [hfits.whole hshort] at hlen ⊢
        omega
  · rw [Bounded, hstep.procs_of_ne hq]
    exact h

/-! ## Networks that end -/

/-- What the write under way has still to hand over. -/
def pending (act : ∀ p, γ p → Action ι β (γ p)) (p : π) (proc : Process ι (γ p)) : ℕ :=
  match act p proc.state with
  | .write _ data _ => data.length - proc.progress
  | _ => 0

section

variable (rank : ∀ p, γ p → (ι → List β) → Ordinal)

/-- How far a process is from its end, given what came out of the pipes. -/
noncomputable def load (act : ∀ p, γ p → Action ι β (γ p)) (s : Network ι β γ) (p : π) :
    Ordinal ×ₗ ℕ :=
  if (s.procs p).status = .running then
    toLex (rank p (s.procs p).state s.taken, pending act p (s.procs p) + 1)
  else toLex (0, 0)

omit [DecidableEq ι] [DecidableEq π] in
theorem load_lt_of_rank (hrun : (s.procs p).status = .running)
    (hrank : rank p (s'.procs p).state s'.taken < rank p (s.procs p).state s.taken) :
    load rank act s' p < load rank act s p := by
  rw [load, load, if_pos hrun]
  split
  · exact Prod.Lex.toLex_lt_toLex.mpr (Or.inl hrank)
  · exact Prod.Lex.toLex_lt_toLex.mpr (Or.inl (lt_of_le_of_lt zero_le hrank))

omit [DecidableEq ι] [DecidableEq π] in
theorem load_lt_of_end (hrun : (s.procs p).status = .running)
    (hend : (s'.procs p).status ≠ .running) : load rank act s' p < load rank act s p := by
  rw [load, load, if_pos hrun, if_neg hend, Prod.Lex.toLex_lt_toLex]
  have hzero : 0 ≤ rank p (s.procs p).state s.taken := zero_le
  rcases hzero.lt_or_eq with hlt | heq
  · exact Or.inl hlt
  · exact Or.inr ⟨heq, Nat.succ_pos _⟩

/-- Every action brings its program down in rank, and nobody else up. -/
structure Descends (act : ∀ p, γ p → Action ι β (γ p)) (capacity : ι → ℕ) (atomic : ℕ)
    (inv : Network ι β γ → Prop) : Prop where
  step : ∀ {p s s'}, Step act capacity atomic p s s' → inv s → inv s'
  next : ∀ {p s s'} {got : ι → List β}, Step act capacity atomic p s s' → inv s →
    (act p (s.procs p).state).Next got (s'.procs p).state →
    (s'.taken = fun i => s.taken i ++ got i) →
    rank p (s'.procs p).state s'.taken < rank p (s.procs p).state s.taken
  frame : ∀ {p q s s'}, Step act capacity atomic p s s' → inv s → q ≠ p →
    rank q (s.procs q).state s'.taken ≤ rank q (s.procs q).state s.taken

variable {rank} {inv : Network ι β γ → Prop}

/-- A step brings its process nearer to the end. -/
theorem Descends.load_lt (h : Descends rank act capacity atomic inv)
    (hstep : Step act capacity atomic p s s') (hs : inv s) :
    load rank act s' p < load rank act s p := by
  have hrun := hstep.running
  have hnext := @h.next p s s'
  have hmoved := hstep.moved
  generalize hproc : s'.procs p = proc at hmoved
  generalize htaken : s'.taken = taken at hmoved
  cases hmoved with
  | next ends got hgot =>
    exact load_lt_of_rank rank hrun (hnext hstep hs (by rw [hproc]; exact hgot) htaken)
  | stop hstatus =>
    refine load_lt_of_end rank hrun ?_
    rw [hproc]
    exact hstatus
  | @push i data piece g hact hfits =>
    have hlen := hfits.next.length_le
    rw [List.length_drop] at hlen
    have hpos := List.length_pos_of_ne_nil hfits.nonempty
    rw [load, load, hproc, htaken, if_pos hrun, if_pos hrun, Prod.Lex.toLex_lt_toLex]
    refine Or.inr ⟨rfl, ?_⟩
    simp only [pending, hact]
    omega

/-- No other process is further from its end behind a step. -/
theorem Descends.load_le (h : Descends rank act capacity atomic inv)
    (hstep : Step act capacity atomic p s s') (hs : inv s) {q : π} (hq : q ≠ p) :
    load rank act s' q ≤ load rank act s q := by
  rw [load, load, hstep.procs_of_ne hq]
  split
  · rw [Prod.Lex.toLex_le_toLex]
    rcases (h.frame hstep hs hq).lt_or_eq with hlt | heq
    · exact Or.inl hlt
    · exact Or.inr ⟨heq, Nat.le_refl _⟩
  · exact le_refl _

/-- Programs that all come down make a network that takes finitely many steps, whatever the
interleaving. -/
theorem Descends.acc [Finite π] (h : Descends rank act capacity atomic inv) (hs : inv s) :
    Acc (fun s' s => AnyStep act capacity atomic s s') s := by
  have hwf : WellFounded fun s' s : Network ι β γ => load rank act s' < load rank act s :=
    InvImage.wf (load rank act) wellFounded_lt
  induction s using hwf.induction with
  | _ s ih =>
    refine Acc.intro s fun s' ⟨p, hstep⟩ => ih s' (Pi.lt_def.mpr ⟨fun q => ?_, p, ?_⟩) ?_
    · by_cases hq : q = p
      · exact hq ▸ (h.load_lt hstep hs).le
      · exact h.load_le hstep hs hq
    · exact h.load_lt hstep hs
    · exact h.step hstep hs

end

end

end Pipes
