import Mathlib.Data.List.Basic
import Mathlib.Data.List.Induction
import Webserv.Control.Except

/-!
# Loops over directives

A text of tokens that is read one directive after the other.  A directive stands for the tokens
it is written with and has an effect on a state, or fails.  A loop that treats the directive at
its head in this way runs through a list of them, and every text is such a list with something
behind it that no directive begins.
-/

universe u v w

/-- `loop fuel s before after` reads `after`; `before` is what it has read, the last token
first. -/
structure DirectiveLoop (α : Type u) (δ : Type v) (σ ε ρ : Type w) where
  tokens : δ → List α
  apply : σ → δ → Except ε σ
  loop : Nat → σ → List α → List α → Except ε ρ
  tokens_ne_nil : ∀ d, tokens d ≠ []
  step : ∀ fuel s before d rest, loop (fuel + 1) s before (tokens d ++ rest) =
    apply s d >>= fun s' => loop fuel s' ((tokens d).reverse ++ before) rest

namespace DirectiveLoop

variable {α : Type u} {δ : Type v} {σ ε ρ : Type w} (l : DirectiveLoop α δ σ ε ρ)

/-- No directive begins here. -/
def Stuck (ts : List α) : Prop := ∀ d rest, ts ≠ l.tokens d ++ rest

/-- The tokens of a list of directives. -/
def text (ds : List δ) : List α := ds.flatMap l.tokens

/-- The effect of a list of directives. -/
def applyAll (s : σ) (ds : List δ) : Except ε σ := ds.foldlM l.apply s

@[simp] theorem text_nil : l.text [] = [] := rfl

theorem text_cons (d : δ) (ds : List δ) : l.text (d :: ds) = l.tokens d ++ l.text ds :=
  List.flatMap_cons

theorem applyAll_nil (s : σ) : l.applyAll s [] = .ok s := rfl

theorem applyAll_cons (s : σ) (d : δ) (ds : List δ) :
    l.applyAll s (d :: ds) = l.apply s d >>= fun s' => l.applyAll s' ds :=
  List.foldlM_cons

theorem applyAll_append (s : σ) (ds es : List δ) :
    l.applyAll s (ds ++ es) = l.applyAll s ds >>= fun s' => l.applyAll s' es :=
  List.foldlM_append

theorem text_append (ds es : List δ) : l.text (ds ++ es) = l.text ds ++ l.text es :=
  List.flatMap_append

/-- What every directive keeps holds behind a list of them. -/
theorem applyAll_induction {P : List δ → σ → Prop} {s₀ : σ} (hstart : P [] s₀)
    (hstep : ∀ ds d s s', P ds s → l.apply s d = .ok s' → P (ds ++ [d]) s') {ds : List δ} {s : σ}
    (h : l.applyAll s₀ ds = .ok s) : P ds s := by
  induction ds using List.reverseRecOn generalizing s with
  | nil =>
    obtain rfl := Except.ok.inj h
    exact hstart
  | append_singleton ds d ih =>
    rw [applyAll_append] at h
    obtain ⟨s', hds, hlast⟩ := Except.bind_eq_ok_iff.mp h
    rw [applyAll_cons] at hlast
    obtain ⟨s'', hd, hend⟩ := Except.bind_eq_ok_iff.mp hlast
    obtain rfl : s'' = s := Except.ok.inj hend
    exact hstep ds d s' s'' (ih hds) hd

/-- What every directive keeps whose tokens are good. -/
theorem applyAll_invariant {good : α → Prop} (inv : σ → Prop)
    (hstep : ∀ d s s', (∀ t ∈ l.tokens d, good t) → inv s → l.apply s d = .ok s' → inv s')
    {ds : List δ} (hds : ∀ t ∈ l.text ds, good t) {s₀ s : σ} (hstart : inv s₀)
    (h : l.applyAll s₀ ds = .ok s) : inv s := by
  refine l.applyAll_induction (P := fun ds s => (∀ t ∈ l.text ds, good t) → inv s)
    (fun _ => hstart) (fun ds d s s' ih hd hgood => ?_) h hds
  rw [text_append, List.forall_mem_append, text_cons, text_nil, List.append_nil] at hgood
  exact hstep d s s' hgood.2 (ih hgood.1) hd

/-- When every directive adds its values, a list of them adds all of these. -/
theorem applyAll_collects {β : Type*} (collect : σ → List β) {values : δ → List β}
    (hstep : ∀ s d s', l.apply s d = .ok s' → (collect s').Perm (collect s ++ values d)) {s₀ s : σ}
    {ds : List δ} (h : l.applyAll s₀ ds = .ok s) :
    (collect s).Perm (collect s₀ ++ ds.flatMap values) := by
  refine l.applyAll_induction
    (P := fun ds s => (collect s).Perm (collect s₀ ++ ds.flatMap values)) ?_ ?_ h
  · rw [List.flatMap_nil, List.append_nil]
  · intro ds d s s' ih hd
    rw [List.flatMap_append, List.flatMap_singleton, ← List.append_assoc]
    exact (hstep s d s' hd).trans (ih.append_right _)

theorem length_le_text (ds : List δ) : ds.length ≤ (l.text ds).length := by
  induction ds with
  | nil => exact Nat.zero_le _
  | cons d ds ih =>
    have hpos := List.length_pos_of_ne_nil (l.tokens_ne_nil d)
    rw [text_cons, List.length_append, List.length_cons]
    omega

/-- The loop runs through a list of directives. -/
theorem run (fuel : Nat) (s : σ) (before : List α) (ds : List δ) (rest : List α) :
    l.loop (fuel + ds.length) s before (l.text ds ++ rest) =
      l.applyAll s ds >>= fun s' => l.loop fuel s' ((l.text ds).reverse ++ before) rest := by
  induction ds generalizing s before with
  | nil => rfl
  | cons d ds ih =>
    rw [List.length_cons, ← Nat.add_assoc, text_cons, List.append_assoc, l.step, applyAll_cons]
    cases l.apply s d with
    | error e => rfl
    | ok s' =>
      rw [Except.ok_bind, Except.ok_bind, ih, List.reverse_append, List.append_assoc]

/-- With a unit of fuel for every token and one more the loop comes to the end of the list with
some fuel left. -/
theorem run_of_fuel {fuel : Nat} (ds : List δ) {rest : List α}
    (hfuel : (l.text ds ++ rest).length < fuel) (s : σ) (before : List α) :
    ∃ left, rest.length < left + 1 ∧ l.loop fuel s before (l.text ds ++ rest) =
      l.applyAll s ds >>= fun s' =>
        l.loop (left + 1) s' ((l.text ds).reverse ++ before) rest := by
  have hle := l.length_le_text ds
  rw [List.length_append] at hfuel
  obtain ⟨left, rfl⟩ : ∃ left, fuel = left + 1 + ds.length := ⟨fuel - ds.length - 1, by omega⟩
  exact ⟨left, by omega, l.run (left + 1) s before ds rest⟩

/-- Every text is a list of directives and a rest that no directive begins. -/
theorem exists_text (ts : List α) : ∃ ds rest, ts = l.text ds ++ rest ∧ l.Stuck rest := by
  induction hlen : ts.length using Nat.strongRecOn generalizing ts with
  | ind n ih =>
    by_cases hstuck : l.Stuck ts
    · exact ⟨[], ts, rfl, hstuck⟩
    · rw [Stuck] at hstuck
      push Not at hstuck
      obtain ⟨d, tail, hts⟩ := hstuck
      have hpos := List.length_pos_of_ne_nil (l.tokens_ne_nil d)
      have hlt : tail.length < n := by
        rw [← hlen, hts, List.length_append]
        omega
      obtain ⟨ds, rest, htail, hrest⟩ := ih tail.length hlt tail rfl
      exact ⟨d :: ds, rest, by rw [hts, htail, text_cons, List.append_assoc], hrest⟩

/-! ## Texts with an effect -/

/-- The text is a list of directives that lead from one state to the other. -/
def Reads (s : σ) (ts : List α) (s' : σ) : Prop :=
  ∃ ds, l.text ds = ts ∧ l.applyAll s ds = .ok s'

namespace Reads

variable {l}

theorem nil (s : σ) : l.Reads s [] s := ⟨[], rfl, rfl⟩

theorem append {s s' s'' : σ} {ts us : List α} (h : l.Reads s ts s') (h' : l.Reads s' us s'') :
    l.Reads s (ts ++ us) s'' := by
  obtain ⟨ds, rfl, hds⟩ := h
  obtain ⟨es, rfl, hes⟩ := h'
  refine ⟨ds ++ es, l.text_append ds es, ?_⟩
  rw [applyAll_append, hds, Except.ok_bind, hes]

theorem single {s s' : σ} (d : δ) (h : l.apply s d = .ok s') : l.Reads s (l.tokens d) s' := by
  refine ⟨[d], ?_, ?_⟩
  · rw [text_cons, text_nil, List.append_nil]
  · rw [applyAll_cons, h, Except.ok_bind, applyAll_nil]

/-- One directive for every element, with a state for every list of elements done. -/
theorem flatMap {ι : Type*} {xs : List ι} (state : List ι → σ) {print : ι → List α}
    (h : ∀ done x rest, xs = done ++ x :: rest → l.Reads (state done) (print x)
      (state (done ++ [x]))) : l.Reads (state []) (xs.flatMap print) (state xs) := by
  induction xs using List.reverseRecOn with
  | nil => exact nil _
  | append_singleton xs x ih =>
    rw [List.flatMap_append, List.flatMap_singleton]
    refine append (ih fun done y rest heq => h done y (rest ++ [x]) ?_) (h xs x [] rfl)
    rw [heq, List.append_assoc, List.cons_append]

end Reads

end DirectiveLoop
