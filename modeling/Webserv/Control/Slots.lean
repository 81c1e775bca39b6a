import Mathlib.Data.List.Basic
import Mathlib.Logic.Function.Basic

/-!
# Machines side by side

One copy of a machine for every key, and events that name the key they are for.  However the
events of different keys are mixed, each slot ends as its own events alone leave it.
-/

namespace Slots

variable {κ ν ε : Type*} [DecidableEq κ]

/-- The events of one key, in their order. -/
def own (k : κ) (events : List (κ × ε)) : List ε :=
  events.filterMap fun event => if event.1 = k then some event.2 else none

@[simp] theorem own_nil (k : κ) : own k ([] : List (κ × ε)) = [] := rfl

theorem own_cons_self (k : κ) (e : ε) (events : List (κ × ε)) :
    own k ((k, e) :: events) = e :: own k events := by
  rw [own, List.filterMap_cons, if_pos rfl]
  rfl

theorem own_cons_of_ne {k : κ} {event : κ × ε} (h : event.1 ≠ k) (events : List (κ × ε)) :
    own k (event :: events) = own k events := by
  rw [own, List.filterMap_cons, if_neg h]
  rfl

theorem own_append (k : κ) (events events' : List (κ × ε)) :
    own k (events ++ events') = own k events ++ own k events' :=
  List.filterMap_append

theorem own_eq_nil {k : κ} {events : List (κ × ε)} (h : ∀ event ∈ events, event.1 ≠ k) :
    own k events = [] := by
  rw [own, List.filterMap_eq_nil_iff]
  exact fun event hevent => if_neg (h event hevent)

/-- One of the elements has an event for the key, and no other one does. -/
theorem own_filterMap_eq_singleton {ι : Type*} {event : ι → Option (κ × ε)} {l : List ι}
    (hnodup : l.Nodup) {i : ι} (hi : i ∈ l) {k : κ} {e : ε} (hevent : event i = some (k, e))
    (hother : ∀ j ∈ l, j ≠ i → ∀ event', event j = some event' → event'.1 ≠ k) :
    own k (l.filterMap event) = [e] := by
  obtain ⟨before, after, rfl⟩ := List.append_of_mem hi
  have hne : ∀ j, j ∈ before ∨ j ∈ after → j ≠ i := by
    rw [List.nodup_append, List.nodup_cons] at hnodup
    rintro j (hj | hj) rfl
    · exact hnodup.2.2 j hj j (List.mem_cons_self ..) rfl
    · exact hnodup.2.1.1 hj
  have hnil : ∀ l' : List ι, (∀ j ∈ l', j ∈ before ∨ j ∈ after) →
      own k (l'.filterMap event) = [] := by
    intro l' hl'
    refine own_eq_nil fun event' hmem => ?_
    obtain ⟨j, hj, heq⟩ := List.mem_filterMap.mp hmem
    refine hother j ?_ (hne j (hl' j hj)) event' heq
    rcases hl' j hj with h | h
    · exact List.mem_append_left _ h
    · exact List.mem_append_right _ (List.mem_cons_of_mem _ h)
  rw [List.filterMap_append, List.filterMap_cons, hevent, own_append,
    hnil before fun _ => Or.inl, own_cons_self, hnil after fun _ => Or.inr, List.nil_append]

section

variable (act : ε → ν → ν)

/-- What these events make of one slot. -/
def alone (events : List ε) (v : ν) : ν := events.foldl (fun v e => act e v) v

@[simp] theorem alone_nil (v : ν) : alone act [] v = v := rfl

theorem alone_cons (e : ε) (events : List ε) (v : ν) :
    alone act (e :: events) v = alone act events (act e v) := rfl

/-- One event acts on the slot of its key. -/
def step (slots : κ → ν) (event : κ × ε) : κ → ν :=
  Function.update slots event.1 (act event.2 (slots event.1))

/-- All the machines, fed with the events in this order. -/
def run (events : List (κ × ε)) (slots : κ → ν) : κ → ν := events.foldl (step act) slots

@[simp] theorem run_nil (slots : κ → ν) : run act [] slots = slots := rfl

theorem run_cons (event : κ × ε) (events : List (κ × ε)) (slots : κ → ν) :
    run act (event :: events) slots = run act events (step act slots event) := rfl

theorem run_append (events events' : List (κ × ε)) (slots : κ → ν) :
    run act (events ++ events') slots = run act events' (run act events slots) :=
  List.foldl_append

/-- Events that are found on the way are taken one after the other. -/
theorem run_filterMap {ι : Type*} (event : ι → Option (κ × ε)) (l : List ι) (slots : κ → ν) :
    run act (l.filterMap event) slots =
      l.foldl (fun slots i => (event i).elim slots (step act slots)) slots := by
  induction l generalizing slots with
  | nil => rfl
  | cons i rest ih =>
    rw [List.filterMap_cons, List.foldl_cons]
    cases event i with
    | none => exact ih slots
    | some e => exact ih (step act slots e)

/-- Each slot ends as its own events leave it. -/
theorem run_apply (events : List (κ × ε)) (slots : κ → ν) (k : κ) :
    run act events slots k = alone act (own k events) (slots k) := by
  induction events generalizing slots with
  | nil => rfl
  | cons event events ih =>
    obtain ⟨k', e⟩ := event
    rw [run_cons, ih]
    by_cases hk : k' = k
    · subst hk
      rw [own_cons_self, alone_cons, step, Function.update_self]
    · rw [own_cons_of_ne hk, step, Function.update_of_ne (Ne.symm hk)]

/-- The events of the other keys, and how they are mixed with those of `k`, do not matter. -/
theorem run_congr {events events' : List (κ × ε)} {slots slots' : κ → ν} {k : κ}
    (hown : own k events = own k events') (hslot : slots k = slots' k) :
    run act events slots k = run act events' slots' k := by
  rw [run_apply, run_apply, hown, hslot]

end

end Slots
