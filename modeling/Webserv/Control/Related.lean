import Webserv.Control.Method
import Mathlib.Data.List.Forall2

/-!
# Two runs of a method

`Related R Q x y` says that the methods `x` and `y`, run in objects that `R` relates, end in the
same way: both return, with values that `Q` relates, or both throw the same, and `R` relates the
objects again.  There is one rule for each way to build a method.
-/

/-- Both are values that are related, or both the same error. -/
inductive Except.Related {ε α β : Type} (Q : α → β → Prop) : Except ε α → Except ε β → Prop
  | ok {a : α} {b : β} (h : Q a b) : Except.Related Q (.ok a) (.ok b)
  | error (e : ε) : Except.Related Q (.error e) (.error e)

theorem Except.Related.of_eq {ε α : Type} {x y : Except ε α} (h : x = y) :
    Except.Related (· = ·) x y := by
  rw [h]
  cases y with
  | ok a => exact .ok rfl
  | error e => exact .error e

theorem Except.Related.eq {ε α : Type} {x y : Except ε α} (h : Except.Related (· = ·) x y) :
    x = y := by
  cases h with
  | ok h => rw [h]
  | error e => rfl

namespace Method

variable {σ τ ε α β : Type}

def Related (R : σ → τ → Prop) (Q : α → β → Prop) (x : Method σ ε α) (y : Method τ ε β) : Prop :=
  ∀ s t, R s t → Except.Related Q (x.run s).1 (y.run t).1 ∧ R (x.run s).2 (y.run t).2

namespace Related

variable {R : σ → τ → Prop} {Q : α → β → Prop}

theorem pure {a : α} {b : β} (h : Q a b) :
    Related R Q (Pure.pure a : Method σ ε α) (Pure.pure b) :=
  fun _ _ hR => ⟨.ok h, hR⟩

theorem throw (e : ε) :
    Related R Q (MonadExcept.throw e : Method σ ε α) (MonadExcept.throw e) :=
  fun _ _ hR => ⟨.error e, hR⟩

theorem get : Related R R (MonadState.get : Method σ ε σ) MonadState.get :=
  fun _ _ hR => ⟨.ok hR, hR⟩

theorem modify {f : σ → σ} {g : τ → τ} (h : ∀ s t, R s t → R (f s) (g t)) :
    Related R (· = ·) (modify f : Method σ ε PUnit) (modify g) :=
  fun s t hR => ⟨.ok rfl, h s t hR⟩

theorem lift {x : Except ε α} {y : Except ε β} (h : Except.Related Q x y) :
    Related R Q (liftM x : Method σ ε α) (liftM y) :=
  fun _ _ hR => ⟨h, hR⟩

theorem bind {γ δ : Type} {P : γ → δ → Prop} {x : Method σ ε α} {y : Method τ ε β}
    {f : α → Method σ ε γ} {g : β → Method τ ε δ} (hxy : Related R Q x y)
    (hfg : ∀ a b, Q a b → Related R P (f a) (g b)) : Related R P (x >>= f) (y >>= g) := by
  intro s t hR
  obtain ⟨hend, hR'⟩ := hxy s t hR
  rcases hx : x.run s with ⟨e | a, s'⟩
  · rw [hx] at hend hR'
    rcases hy : y.run t with ⟨e' | b, t'⟩
    · rw [hy] at hend hR'
      rw [run_bind_error hx, run_bind_error hy]
      cases hend with
      | error e => exact ⟨.error e, hR'⟩
    · rw [hy] at hend
      cases hend
  · rw [hx] at hend hR'
    rcases hy : y.run t with ⟨e' | b, t'⟩
    · rw [hy] at hend
      cases hend
    · rw [hy] at hend hR'
      rw [run_bind_ok hx, run_bind_ok hy]
      cases hend with
      | ok hQ => exact hfg a b hQ s' t' hR'

/-- A sequence, when nothing is known of what the first part returns. -/
theorem seq {γ δ : Type} {P : γ → δ → Prop} {x : Method σ ε α} {y : Method τ ε β}
    {f : α → Method σ ε γ} {g : β → Method τ ε δ} (hxy : Related R Q x y)
    (hfg : ∀ a b, Related R P (f a) (g b)) : Related R P (x >>= f) (y >>= g) :=
  hxy.bind fun a b _ => hfg a b

theorem ite {c d : Prop} [Decidable c] [Decidable d] (hcd : c ↔ d) {x x' : Method σ ε α}
    {y y' : Method τ ε β} (hx : Related R Q x y) (hx' : Related R Q x' y') :
    Related R Q (if c then x else x') (if d then y else y') := by
  by_cases hc : c
  · rw [if_pos hc, if_pos (hcd.mp hc)]
    exact hx
  · rw [if_neg hc, if_neg fun hd => hc (hcd.mpr hd)]
    exact hx'

theorem zoom {σ' τ' : Type} {R' : σ' → τ' → Prop} {member : σ → σ'} {member' : τ → τ'}
    {put : σ' → σ → σ} {put' : τ' → τ → τ} {x : Method σ' ε α} {y : Method τ' ε β}
    (hmember : ∀ s t, R s t → R' (member s) (member' t))
    (hput : ∀ c d s t, R' c d → R s t → R (put c s) (put' d t)) (hxy : Related R' Q x y) :
    Related R Q (Method.zoom member put x) (Method.zoom member' put' y) := by
  intro s t hR
  obtain ⟨hend, hR'⟩ := hxy (member s) (member' t) (hmember s t hR)
  exact ⟨hend, hput _ _ s t hR' hR⟩

/-- Two loops over elements that are related one by one. -/
theorem forEach {ι κ : Type} {I : ι → κ → Prop} {x : ι → Method σ ε Unit}
    {y : κ → Method τ ε Unit} {l : List ι} {m : List κ} (hlm : List.Forall₂ I l m)
    (hxy : ∀ i k, I i k → Related R (· = ·) (x i) (y k)) :
    Related R (· = ·) (Method.forEach x l) (Method.forEach y m) := by
  induction hlm with
  | nil => exact Related.pure rfl
  | cons hik _ ih => exact (hxy _ _ hik).seq fun _ _ => ih

/-- Two loops over the same elements. -/
theorem forEach_same {ι : Type} {x : ι → Method σ ε Unit} {y : ι → Method τ ε Unit}
    (hxy : ∀ i, Related R (· = ·) (x i) (y i)) (l : List ι) :
    Related R (· = ·) (Method.forEach x l) (Method.forEach y l) := by
  have hl : List.Forall₂ (· = ·) l l := List.forall₂_refl l
  refine Related.forEach hl fun i k hik => ?_
  rw [← hik]
  exact hxy i

/-- A method is related to itself in objects that are the same. -/
theorem of_keeps {γ : Type} {view : σ → γ} {x : Method σ ε α} (h : Keeps view x) (c : γ) :
    Related (fun s t => s = t ∧ view s = c) (· = ·) x x := by
  rintro s _ ⟨rfl, hs⟩
  exact ⟨.of_eq rfl, rfl, (h s).trans hs⟩

end Related

end Method
