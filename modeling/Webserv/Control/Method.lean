import Mathlib.Tactic.Common

/-!
# Methods that may throw

`Method σ ε α` is a method of an object of type `σ` that returns an `α` or throws an `ε`.  The
assignments made before a throw stay in the object.  The `run` lemmas execute a method
symbolically.
-/

def Method (σ ε α : Type) : Type := σ → Except ε α × σ

namespace Method

variable {σ ε α β : Type}

def run (x : Method σ ε α) (s : σ) : Except ε α × σ := x s

instance : Monad (Method σ ε) where
  pure a := fun s => (.ok a, s)
  bind x f := fun s =>
    match x.run s with
    | (.ok a, s) => (f a).run s
    | (.error e, s) => (.error e, s)

instance : MonadStateOf σ (Method σ ε) where
  get := fun s => (.ok s, s)
  set s := fun _ => (.ok (), s)
  modifyGet f := fun s => (.ok (f s).1, (f s).2)

instance : MonadExceptOf ε (Method σ ε) where
  throw e := fun s => (.error e, s)
  tryCatch x handle := fun s =>
    match x.run s with
    | (.ok a, s) => (.ok a, s)
    | (.error e, s) => (handle e).run s

instance : MonadLift (Except ε) (Method σ ε) where
  monadLift x := fun s => (x, s)

/-- A method of a member object. -/
def zoom {τ : Type} (member : σ → τ) (put : τ → σ → σ) (x : Method τ ε α) : Method σ ε α :=
  fun s => ((x.run (member s)).1, put (x.run (member s)).2 s)

@[simp] theorem run_zoom {τ : Type} (member : σ → τ) (put : τ → σ → σ) (x : Method τ ε α) (s : σ) :
    (zoom member put x).run s = ((x.run (member s)).1, put (x.run (member s)).2 s) := rfl

@[simp] theorem run_pure (a : α) (s : σ) : (pure a : Method σ ε α).run s = (.ok a, s) := rfl

theorem run_bind (x : Method σ ε α) (f : α → Method σ ε β) (s : σ) :
    (x >>= f).run s =
      match x.run s with
      | (.ok a, s) => (f a).run s
      | (.error e, s) => (.error e, s) := rfl

theorem run_bind_ok {x : Method σ ε α} {s s' : σ} {a : α} (h : x.run s = (.ok a, s'))
    (f : α → Method σ ε β) : (x >>= f).run s = (f a).run s' := by
  rw [run_bind, h]

theorem run_bind_error {x : Method σ ε α} {s s' : σ} {e : ε} (h : x.run s = (.error e, s'))
    (f : α → Method σ ε β) : (x >>= f).run s = (.error e, s') := by
  rw [run_bind, h]

/-- A sequence returned, so both parts did. -/
theorem run_bind_eq_ok {x : Method σ ε α} {f : α → Method σ ε β} {s s' : σ} {b : β}
    (h : (x >>= f).run s = (.ok b, s')) :
    ∃ a s₁, x.run s = (.ok a, s₁) ∧ (f a).run s₁ = (.ok b, s') := by
  rcases hrun : x.run s with ⟨e | a, s₁⟩
  · rw [run_bind_error hrun] at h
    cases h
  · rw [run_bind_ok hrun] at h
    exact ⟨a, s₁, rfl, h⟩

@[simp] theorem run_get (s : σ) : (get : Method σ ε σ).run s = (.ok s, s) := rfl

@[simp] theorem run_get_bind (f : σ → Method σ ε β) (s : σ) :
    (get >>= f).run s = (f s).run s := rfl

@[simp] theorem run_modify (f : σ → σ) (s : σ) :
    (modify f : Method σ ε PUnit).run s = (.ok ⟨⟩, f s) := rfl

@[simp] theorem run_modify_bind (f : σ → σ) (g : PUnit → Method σ ε β) (s : σ) :
    ((modify f : Method σ ε PUnit) >>= g).run s = (g ⟨⟩).run (f s) := rfl

@[simp] theorem run_pure_bind (a : α) (f : α → Method σ ε β) (s : σ) :
    ((pure a : Method σ ε α) >>= f).run s = (f a).run s := rfl

@[simp] theorem run_throw (e : ε) (s : σ) : (throw e : Method σ ε α).run s = (.error e, s) := rfl

@[simp] theorem run_throw_bind (e : ε) (f : α → Method σ ε β) (s : σ) :
    ((throw e : Method σ ε α) >>= f).run s = (.error e, s) := rfl

@[simp] theorem run_lift (x : Except ε α) (s : σ) :
    (liftM x : Method σ ε α).run s = (x, s) := rfl

@[simp] theorem run_lift_bind_ok (a : α) (f : α → Method σ ε β) (s : σ) :
    ((liftM (Except.ok a : Except ε α) : Method σ ε α) >>= f).run s = (f a).run s := rfl

@[simp] theorem run_lift_bind_error (e : ε) (f : α → Method σ ε β) (s : σ) :
    ((liftM (Except.error e : Except ε α) : Method σ ε α) >>= f).run s = (.error e, s) := rfl

@[simp] theorem run_ite (c : Prop) [Decidable c] (x y : Method σ ε α) (s : σ) :
    (if c then x else y).run s = if c then x.run s else y.run s := by
  split <;> rfl

theorem run_tryCatch (x : Method σ ε α) (handle : ε → Method σ ε α) (s : σ) :
    (tryCatch x handle).run s =
      match x.run s with
      | (.ok a, s) => (.ok a, s)
      | (.error e, s) => (handle e).run s := rfl

/-- Binding is associative under `run`. -/
theorem run_bind_assoc {γ : Type} (x : Method σ ε α) (f : α → Method σ ε β)
    (g : β → Method σ ε γ) (s : σ) :
    ((x >>= f) >>= g).run s = (x >>= fun a => f a >>= g).run s := by
  rw [run_bind, run_bind, run_bind]
  rcases x.run s with ⟨_ | _, _⟩ <;> rfl

theorem bind_assoc {γ : Type} (x : Method σ ε α) (f : α → Method σ ε β)
    (g : β → Method σ ε γ) : (x >>= f) >>= g = x >>= fun a => f a >>= g :=
  funext (run_bind_assoc x f g)

/-! ## What a method leaves alone -/

/-- However the method ends, `view` sees the same object. -/
def Keeps {γ : Type} (view : σ → γ) (x : Method σ ε α) : Prop :=
  ∀ s, view (x.run s).2 = view s

namespace Keeps

variable {γ : Type} {view : σ → γ}

theorem pure (a : α) : Keeps view (Pure.pure a : Method σ ε α) := fun _ => rfl

theorem throw (e : ε) : Keeps view (MonadExcept.throw e : Method σ ε α) := fun _ => rfl

theorem get : Keeps view (MonadState.get : Method σ ε σ) := fun _ => rfl

theorem lift (x : Except ε α) : Keeps view (liftM x : Method σ ε α) := fun _ => rfl

theorem modify {f : σ → σ} (h : ∀ s, view (f s) = view s) :
    Keeps view (modify f : Method σ ε PUnit) := h

theorem bind {x : Method σ ε α} {f : α → Method σ ε β} (hx : Keeps view x)
    (hf : ∀ a, Keeps view (f a)) : Keeps view (x >>= f) := by
  intro s
  have hview := hx s
  rcases hrun : x.run s with ⟨e | a, s'⟩
  · rw [hrun] at hview
    rw [run_bind_error hrun]
    exact hview
  · rw [hrun] at hview
    rw [run_bind_ok hrun]
    exact (hf a s').trans hview

theorem ite {c : Prop} [Decidable c] {x y : Method σ ε α} (hx : Keeps view x)
    (hy : Keeps view y) : Keeps view (if c then x else y) := by
  split
  · exact hx
  · exact hy

theorem zoom {τ : Type} {member : σ → τ} {put : τ → σ → σ} (h : ∀ t s, view (put t s) = view s)
    (x : Method τ ε α) : Keeps view (Method.zoom member put x) := fun s => h _ s

end Keeps

/-! ## What a method maintains -/

/-- The invariant holds again however the method ends, and what it returns satisfies `post`. -/
def Maintains (inv : σ → Prop) (x : Method σ ε α) (post : α → Prop) : Prop :=
  ∀ s, inv s → inv (x.run s).2 ∧ ∀ a, (x.run s).1 = .ok a → post a

theorem Keeps.maintains {γ : Type} {view : σ → γ} {x : Method σ ε α} (h : Keeps view x)
    {inv : σ → Prop} (hinv : ∀ s s', view s' = view s → inv s → inv s') :
    Maintains inv x fun _ => True :=
  fun s hs => ⟨hinv s _ (h s) hs, fun _ _ => trivial⟩

namespace Maintains

variable {inv : σ → Prop} {post : α → Prop} {post' : β → Prop}

theorem pure {a : α} (h : post a) : Maintains inv (Pure.pure a : Method σ ε α) post := by
  intro s hs
  refine ⟨hs, fun b hb => ?_⟩
  obtain rfl := Except.ok.inj hb
  exact h

theorem throw (e : ε) : Maintains inv (MonadExcept.throw e : Method σ ε α) post := by
  intro s hs
  refine ⟨hs, fun b hb => ?_⟩
  cases hb

theorem get : Maintains inv (MonadState.get : Method σ ε σ) inv := by
  intro s hs
  refine ⟨hs, fun b hb => ?_⟩
  obtain rfl := Except.ok.inj hb
  exact hs

theorem modify {f : σ → σ} (h : ∀ s, inv s → inv (f s)) :
    Maintains inv (modify f : Method σ ε PUnit) fun _ => True :=
  fun s hs => ⟨h s hs, fun _ _ => trivial⟩

theorem lift {x : Except ε α} (h : ∀ a, x = .ok a → post a) :
    Maintains inv (liftM x : Method σ ε α) post :=
  fun _ hs => ⟨hs, h⟩

theorem bind {x : Method σ ε α} {f : α → Method σ ε β} (hx : Maintains inv x post)
    (hf : ∀ a, post a → Maintains inv (f a) post') : Maintains inv (x >>= f) post' := by
  intro s hs
  obtain ⟨hinv, hpost⟩ := hx s hs
  rcases hrun : x.run s with ⟨e | a, s'⟩
  · rw [hrun] at hinv
    rw [run_bind_error hrun]
    refine ⟨hinv, fun b hb => ?_⟩
    cases hb
  · rw [hrun] at hinv hpost
    rw [run_bind_ok hrun]
    exact hf a (hpost a rfl) s' hinv

theorem ite {c : Prop} [Decidable c] {x y : Method σ ε α} (hx : Maintains inv x post)
    (hy : Maintains inv y post) : Maintains inv (if c then x else y) post := by
  split
  · exact hx
  · exact hy

theorem tryCatch {x : Method σ ε α} {handle : ε → Method σ ε α} (hx : Maintains inv x post)
    (hhandle : ∀ e, Maintains inv (handle e) post) :
    Maintains inv (MonadExcept.tryCatch x handle) post := by
  intro s hs
  obtain ⟨hinv, hpost⟩ := hx s hs
  rw [run_tryCatch]
  rcases hrun : x.run s with ⟨e | a, s'⟩
  · rw [hrun] at hinv
    exact hhandle e s' hinv
  · rw [hrun] at hinv hpost
    exact ⟨hinv, hpost⟩

theorem zoom {τ : Type} {member : σ → τ} {put : τ → σ → σ} (h : ∀ t s, inv s → inv (put t s))
    (x : Method τ ε α) : Maintains inv (Method.zoom member put x) fun _ => True :=
  fun s hs => ⟨h _ s hs, fun _ _ => trivial⟩

/-- A method of a member object, when the invariant says something about that object. -/
theorem zoom_member {τ : Type} {member : σ → τ} {put : τ → σ → σ} {inv' : τ → Prop}
    {x : Method τ ε α} (hmember : ∀ s, inv s → inv' (member s))
    (hput : ∀ t s, inv s → inv' t → inv (put t s)) (hx : Maintains inv' x post) :
    Maintains inv (Method.zoom member put x) post := by
  intro s hs
  obtain ⟨hinv, hpost⟩ := hx (member s) (hmember s hs)
  exact ⟨hput _ s hs hinv, hpost⟩

/-- A sequence, when nothing is known of what the first part returns. -/
theorem seq {x : Method σ ε α} {f : α → Method σ ε β} (hx : Maintains inv x fun _ => True)
    (hf : ∀ a, Maintains inv (f a) post') : Maintains inv (x >>= f) post' :=
  hx.bind fun a _ => hf a

end Maintains

/-! ## Loops -/

/-- The loop that calls `x` on every element. -/
def forEach {ι : Type} (x : ι → Method σ ε Unit) : List ι → Method σ ε Unit
  | [] => pure ()
  | i :: rest => do
    x i
    forEach x rest

@[simp] theorem forEach_nil {ι : Type} (x : ι → Method σ ε Unit) :
    forEach x [] = pure () := rfl

theorem forEach_cons {ι : Type} (x : ι → Method σ ε Unit) (i : ι) (rest : List ι) :
    forEach x (i :: rest) = x i >>= fun _ => forEach x rest := rfl

/-- A loop that returned had returned at each of its elements. -/
theorem forEach_split {ι : Type} {x : ι → Method σ ε Unit} {done rest : List ι} {i : ι} {s s' : σ}
    (h : (forEach x (done ++ i :: rest)).run s = (.ok (), s')) :
    ∃ s₁ s₂, (forEach x done).run s = (.ok (), s₁) ∧ (x i).run s₁ = (.ok (), s₂) := by
  induction done generalizing s with
  | nil =>
    obtain ⟨_, s₂, hi, -⟩ := run_bind_eq_ok h
    exact ⟨s, s₂, rfl, hi⟩
  | cons j done ih =>
    obtain ⟨_, sj, hj, hrest⟩ := run_bind_eq_ok h
    obtain ⟨s₁, s₂, hdone, hi⟩ := ih hrest
    exact ⟨s₁, s₂, by rw [forEach_cons, run_bind_ok hj, hdone], hi⟩

/-- What a loop over distinct elements that returned has preserved. -/
theorem forEach_of_ok {ι : Type} {x : ι → Method σ ε Unit} {inv : σ → Prop}
    {ready : σ → ι → Prop}
    (hstep : ∀ s i s', inv s → ready s i → (x i).run s = (.ok (), s') → inv s' ∧
      ∀ j, j ≠ i → ready s j → ready s' j)
    {l : List ι} (hl : l.Nodup) {s s' : σ} (hinv : inv s) (hready : ∀ i ∈ l, ready s i)
    (hrun : (forEach x l).run s = (.ok (), s')) :
    inv s' ∧ ∀ j ∉ l, ready s j → ready s' j := by
  induction l generalizing s with
  | nil =>
    obtain rfl : s = s' := congrArg Prod.snd hrun
    exact ⟨hinv, fun _ _ h => h⟩
  | cons i rest ih =>
    rw [List.nodup_cons] at hl
    rw [List.forall_mem_cons] at hready
    obtain ⟨_, s₁, hi, hrun⟩ := run_bind_eq_ok hrun
    obtain ⟨hinv₁, hother⟩ := hstep s i s₁ hinv hready.1 hi
    have hrest : ∀ j ∈ rest, ready s₁ j := fun j hj =>
      hother j (fun heq => hl.1 (heq ▸ hj)) (hready.2 j hj)
    obtain ⟨hinv', hother'⟩ := ih hl.2 hinv₁ hrest hrun
    refine ⟨hinv', fun j hj hjready => ?_⟩
    rw [List.mem_cons, not_or] at hj
    exact hother' j hj.2 (hother j hj.1 hjready)

/-- A loop over distinct elements returns, if every call on an element that is ready does. -/
theorem forEach_ok {ι : Type} {x : ι → Method σ ε Unit} {inv : σ → Prop}
    {ready : σ → ι → Prop}
    (hstep : ∀ s i, inv s → ready s i → ∃ s', (x i).run s = (.ok (), s') ∧ inv s' ∧
      ∀ j, j ≠ i → ready s j → ready s' j)
    {l : List ι} (hl : l.Nodup) {s : σ} (hinv : inv s) (hready : ∀ i ∈ l, ready s i) :
    ∃ s', (forEach x l).run s = (.ok (), s') ∧ inv s' ∧ ∀ j ∉ l, ready s j → ready s' j := by
  have hreturns : ∃ s', (forEach x l).run s = (.ok (), s') := by
    induction l generalizing s with
    | nil => exact ⟨s, rfl⟩
    | cons i rest ih =>
      rw [List.nodup_cons] at hl
      rw [List.forall_mem_cons] at hready
      obtain ⟨s₁, hrun, hinv₁, hother⟩ := hstep s i hinv hready.1
      have hrest : ∀ j ∈ rest, ready s₁ j := fun j hj =>
        hother j (fun heq => hl.1 (heq ▸ hj)) (hready.2 j hj)
      obtain ⟨s₂, hrun₂⟩ := ih hl.2 hinv₁ hrest
      exact ⟨s₂, by rw [forEach_cons, run_bind_ok hrun, hrun₂]⟩
  obtain ⟨s', hrun⟩ := hreturns
  refine ⟨s', hrun, forEach_of_ok (fun s i s₁ hinv hready hi => ?_) hl hinv hready hrun⟩
  obtain ⟨s₂, hi', hrest⟩ := hstep s i hinv hready
  obtain rfl : s₁ = s₂ := congrArg Prod.snd (hi.symm.trans hi')
  exact hrest

end Method
