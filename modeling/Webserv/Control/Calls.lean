import Webserv.Control.Method

/-!
# Numbered calls

A method that asks its environment may get another answer at every call.  Here the object is
kept together with the number of calls made so far, and the environment answers by that number.
When it always gives the same answers, the numbers do not matter.
-/

namespace Method

variable {σ ε Env α β : Type}

/-- A call: `x` in the environment of this moment. -/
def call (env : Nat → Env) (x : Env → Method σ ε α) : Method (σ × Nat) ε α := do
  let s ← get
  zoom Prod.fst (fun object _ => (object, s.2 + 1)) (x (env s.2))

/-- A method that calls nothing. -/
def still (x : Method σ ε α) : Method (σ × Nat) ε α :=
  zoom Prod.fst (fun object s => (object, s.2)) x

@[simp] theorem run_call (env : Nat → Env) (x : Env → Method σ ε α) (s : σ × Nat) :
    (call env x).run s =
      (((x (env s.2)).run s.1).1, ((x (env s.2)).run s.1).2, s.2 + 1) := rfl

@[simp] theorem run_still (x : Method σ ε α) (s : σ × Nat) :
    (still x).run s = ((x.run s.1).1, (x.run s.1).2, s.2) := rfl

/-! ## The same answers every time -/

/-- The two end in the same way, whatever the number of calls. -/
def Follows (x : Method (σ × Nat) ε α) (y : Method σ ε α) : Prop :=
  ∀ s n, ∃ n', x.run (s, n) = ((y.run s).1, (y.run s).2, n')

namespace Follows

theorem call (e : Env) (x : Env → Method σ ε α) : Follows (Method.call (fun _ => e) x) (x e) :=
  fun _ n => ⟨n + 1, rfl⟩

theorem still (x : Method σ ε α) : Follows (Method.still x) x := fun _ n => ⟨n, rfl⟩

theorem pure (a : α) : Follows (Pure.pure a : Method (σ × Nat) ε α) (Pure.pure a) :=
  fun _ n => ⟨n, rfl⟩

theorem throw (e : ε) :
    Follows (MonadExcept.throw e : Method (σ × Nat) ε α) (MonadExcept.throw e) :=
  fun _ n => ⟨n, rfl⟩

theorem lift (x : Except ε α) : Follows (liftM x : Method (σ × Nat) ε α) (liftM x) :=
  fun _ n => ⟨n, rfl⟩

theorem bind {x : Method (σ × Nat) ε α} {y : Method σ ε α} {f : α → Method (σ × Nat) ε β}
    {g : α → Method σ ε β} (hx : Follows x y) (hf : ∀ a, Follows (f a) (g a)) :
    Follows (x >>= f) (y >>= g) := by
  intro s n
  obtain ⟨n', hrun⟩ := hx s n
  rcases hy : y.run s with ⟨e | a, s'⟩
  · rw [hy] at hrun
    exact ⟨n', by rw [run_bind_error hrun, run_bind_error hy]⟩
  · rw [hy] at hrun
    rw [run_bind_ok hrun, run_bind_ok hy]
    exact hf a s' n'

theorem get_bind {f : σ × Nat → Method (σ × Nat) ε β} {g : σ → Method σ ε β}
    (h : ∀ s n, Follows (f (s, n)) (g s)) : Follows (get >>= f) (get >>= g) :=
  fun s n => h s n s n

theorem ite {c : Prop} [Decidable c] {x x' : Method (σ × Nat) ε α} {y y' : Method σ ε α}
    (h : Follows x y) (h' : Follows x' y') :
    Follows (if c then x else x') (if c then y else y') := by
  split
  · exact h
  · exact h'

theorem tryCatch {x : Method (σ × Nat) ε α} {y : Method σ ε α}
    {handle : ε → Method (σ × Nat) ε α} {handle' : ε → Method σ ε α} (hx : Follows x y)
    (hhandle : ∀ e, Follows (handle e) (handle' e)) :
    Follows (MonadExcept.tryCatch x handle) (MonadExcept.tryCatch y handle') := by
  intro s n
  obtain ⟨n', hrun⟩ := hx s n
  rw [run_tryCatch, run_tryCatch, hrun]
  rcases hy : y.run s with ⟨e | a, s'⟩
  · exact hhandle e s' n'
  · exact ⟨n', rfl⟩

end Follows

end Method
