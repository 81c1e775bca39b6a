import Mathlib.Data.List.Sublists
import Webserv.Config.ConfigParser

/-!
# Validation

What the validators of a server and of a location let through.  Two of them see less than they
should.  The methods of a location are looked up in `VALID_METHODS` by `std::includes`, which walks
through both lists once and relies on their order, and `DELETE` comes last in that list.  And
`isDupLocation` compares the first location with the others, but no two of the others.
-/

namespace Webserv

open Text

namespace ConfigParser

/-! ## Roots and codes -/

theorem isValidRoot_iff {root : Str} : isValidRoot root = true ↔ ¬ lit "./" <:+: root := by
  rw [isValidRoot, Option.isNone_iff_eq_none, find_eq_none_iff]

theorem isValidStatus_iff {configMap : Std.ExtTreeMap Int Str} :
    isValidStatus configMap = true ↔ ∀ code : Int, code ∈ configMap → 101 ≤ code ∧ code ≤ 599 := by
  rw [isValidStatus, List.all_eq_true]
  constructor
  · intro h code hcode
    obtain ⟨path, hpath⟩ := Option.isSome_iff_exists.mp
      (Std.ExtTreeMap.mem_iff_isSome_getElem?.mp hcode)
    have hentry := h (code, path) (Std.ExtTreeMap.mem_toList_iff_getElem?_eq_some.mpr hpath)
    simp only [Bool.and_eq_true, decide_eq_true_eq] at hentry
    omega
  · intro h entry hentry
    have hmem : entry.1 ∈ configMap := by
      rw [Std.ExtTreeMap.mem_iff_isSome_getElem?,
        Std.ExtTreeMap.mem_toList_iff_getElem?_eq_some.mp hentry]
      rfl
    have hrange := h entry.1 hmem
    simp only [Bool.and_eq_true, decide_eq_true_eq]
    omega

theorem isValidErrorPagesLoop_iff {entries : List (Int × Str)} :
    isValidErrorPagesLoop entries = .ok true ↔ ∀ entry ∈ entries, entry.2.head? = some 47 := by
  induction entries with
  | nil => exact iff_of_true rfl (by simp)
  | cons entry entries ih =>
    obtain ⟨code, path⟩ := entry
    rw [List.forall_mem_cons]
    cases path with
    | nil => exact iff_of_false (fun h => by cases h) fun h => by cases h.1
    | cons c path =>
      rw [isValidErrorPagesLoop]
      by_cases hslash : c = 47
      · rw [if_neg (not_not.mpr hslash), ih, hslash]
        exact (and_iff_right rfl).symm
      · rw [if_pos hslash]
        exact iff_of_false (fun h => by cases h) fun h => hslash (Option.some.inj h.1)

theorem isValidErrorPages_iff {errorPages : Std.ExtTreeMap Int Str} :
    isValidErrorPages errorPages = .ok true ↔
      ∀ (code : Int) (path : Str), errorPages[code]? = some path → path.head? = some 47 := by
  rw [isValidErrorPages, isValidErrorPagesLoop_iff]
  constructor
  · intro h code path hpath
    exact h (code, path) (Std.ExtTreeMap.mem_toList_iff_getElem?_eq_some.mpr hpath)
  · intro h entry hentry
    exact h entry.1 entry.2 (Std.ExtTreeMap.mem_toList_iff_getElem?_eq_some.mp hentry)

/-! ## Allowed methods -/

/-- The walk finds the second list inside the first, in the same order. -/
theorem sublist_of_includes {xs ys : List Str} (h : includes xs ys = true) : ys.Sublist xs := by
  induction xs generalizing ys with
  | nil =>
    cases ys with
    | nil => exact .slnil
    | cons wanted more => cases h
  | cons first rest ih =>
    cases ys with
    | nil => exact List.nil_sublist _
    | cons wanted more =>
      rw [includes] at h
      split at h
      · cases h
      · next hless =>
        split at h
        · exact (ih h).cons first
        · next hgreater =>
          obtain rfl : wanted = first := List.le_antisymm hgreater hless
          exact (ih h).cons_cons wanted

theorem mem_of_isValidVector {methods validVec : List Str}
    (h : isValidVector methods validVec = true) : ∀ m ∈ methods, m ∈ validVec :=
  (sublist_of_includes h).subset

theorem isValidVector_iff {methods : List Str} :
    isValidVector methods VALID_METHODS = true ↔
      methods ∈ [[], [lit "GET"], [lit "POST"], [lit "GET", lit "POST"],
        [lit "POST", lit "DELETE"], [lit "GET", lit "POST", lit "DELETE"]] := by
  have hfinite : ∀ l ∈ VALID_METHODS.sublists, isValidVector l VALID_METHODS = true →
      l ∈ [[], [lit "GET"], [lit "POST"], [lit "GET", lit "POST"],
        [lit "POST", lit "DELETE"], [lit "GET", lit "POST", lit "DELETE"]] := by
    decide +kernel
  constructor
  · intro h
    exact hfinite methods (List.mem_sublists.mpr (sublist_of_includes h)) h
  · intro h
    simp only [List.mem_cons, List.not_mem_nil, or_false] at h
    rcases h with rfl | rfl | rfl | rfl | rfl | rfl <;> decide +kernel

/-- The location is not turned away for these methods. -/
def AcceptsMethods (location : LocationConfig) (methods : List Str) : Prop :=
  locationValidate { location with allowedMethods := methods } ≠
    throwRuntimeError "Error: Config: Invalid allowed_method"

theorem acceptsMethods_iff {location : LocationConfig} {methods : List Str} :
    AcceptsMethods location methods ↔ isValidVector methods VALID_METHODS = true := by
  rw [AcceptsMethods, locationValidate]
  cases isValidVector methods VALID_METHODS with
  | false => exact iff_of_false (fun h => h rfl) Bool.false_ne_true
  | true =>
    refine iff_of_true ?_ rfl
    rw [if_neg (by simp)]
    split
    · simp [throwRuntimeError]
    · split
      · simp [throwRuntimeError]
      · simp [throwRuntimeError]

/-- Exactly the lists of valid methods are accepted, in any order, and so is every part of an
accepted list. -/
def MethodsAsSet (location : LocationConfig) (methods : List Str) : Prop :=
  (AcceptsMethods location methods ↔ ∀ m ∈ methods, m ∈ VALID_METHODS) ∧
    ∀ other, AcceptsMethods location methods → other.Perm methods ∨ other.Sublist methods →
      AcceptsMethods location other

/-- Apart from lists with a method that is not valid, only three lists are treated as sets. -/
theorem methodsAsSet_iff (location : LocationConfig) (methods : List Str) :
    MethodsAsSet location methods ↔
      methods ∈ [[], [lit "GET"], [lit "POST"]] ∨ ∃ m ∈ methods, m ∉ VALID_METHODS := by
  unfold MethodsAsSet
  simp only [acceptsMethods_iff]
  constructor
  · rintro ⟨hiff, hother⟩
    by_cases hforeign : ∃ m ∈ methods, m ∉ VALID_METHODS
    · exact Or.inr hforeign
    push Not at hforeign
    have haccepted := hiff.mpr hforeign
    have hmem := isValidVector_iff.mp haccepted
    simp only [List.mem_cons, List.not_mem_nil, or_false] at hmem
    rcases hmem with rfl | rfl | rfl | rfl | rfl | rfl
    · exact Or.inl (by simp)
    · exact Or.inl (by simp)
    · exact Or.inl (by simp)
    · have hswap := hother [lit "POST", lit "GET"] haccepted (Or.inl (.swap ..))
      exact absurd hswap (by decide +kernel)
    · have hdrop := hother [lit "DELETE"] haccepted (Or.inr (by simp))
      exact absurd hdrop (by decide +kernel)
    · have hdrop := hother [lit "DELETE"] haccepted (Or.inr (by simp))
      exact absurd hdrop (by decide +kernel)
  · rintro (hmem | ⟨m, hm, hforeign⟩)
    · simp only [List.mem_cons, List.not_mem_nil, or_false] at hmem
      have haccepted : isValidVector methods VALID_METHODS = true :=
        isValidVector_iff.mpr (by rcases hmem with rfl | rfl | rfl <;> simp)
      refine ⟨iff_of_true haccepted (mem_of_isValidVector haccepted), fun other _ hother => ?_⟩
      have hpart : other = [] ∨ other = methods := by
        rcases hmem with rfl | rfl | rfl
        · simpa using hother
        · simpa [List.sublist_singleton, or_left_comm] using hother
        · simpa [List.sublist_singleton, or_left_comm] using hother
      rcases hpart with rfl | rfl
      · rfl
      · exact haccepted
    · have hrefused : ¬ isValidVector methods VALID_METHODS = true := fun h =>
        hforeign (mem_of_isValidVector h m hm)
      exact ⟨iff_of_false hrefused fun h => hforeign (h m hm), fun _ h => absurd h hrefused⟩

/-- `DELETE` alone. -/
theorem not_methodsAsSet : ¬ ∀ location methods, MethodsAsSet location methods := by
  intro h
  have hdelete := (h (newLocation false) [lit "DELETE"]).1.mpr (by decide)
  rw [acceptsMethods_iff] at hdelete
  exact absurd hdelete (by decide +kernel)

/-! ## Locations -/

theorem isDupLocationLoop_nil (ys : List LocationConfig) : isDupLocationLoop ys [] = false := by
  induction ys with
  | nil => rfl
  | cons y ys ih => rw [isDupLocationLoop, List.any_nil, if_neg (by simp), ih]

/-- The first location has the string of another one. -/
def FirstRepeated (server : ServerConfig) : Prop :=
  ∃ first ∈ server.locations.head?,
    first.location ∈ server.locations.tail.map LocationConfig.location

def DistinctLocations (server : ServerConfig) : Prop :=
  (server.locations.map LocationConfig.location).Nodup

theorem isDupLocation_iff {server : ServerConfig} :
    isDupLocation server = true ↔ FirstRepeated server := by
  rw [isDupLocation, FirstRepeated]
  cases server.locations with
  | nil => exact iff_of_false Bool.false_ne_true (by simp)
  | cons first rest =>
    rw [List.tail_cons, isDupLocationLoop, isDupLocationLoop_nil]
    simp

/-- Two equal locations are found, unless the first one differs from all others. -/
def FirstDecides (server : ServerConfig) : Prop :=
  (server.locations.tail.map LocationConfig.location).Nodup ∨ FirstRepeated server

theorem distinctLocations_iff {server : ServerConfig} :
    DistinctLocations server ↔
      (server.locations.tail.map LocationConfig.location).Nodup ∧ ¬ FirstRepeated server := by
  rw [DistinctLocations, FirstRepeated]
  cases server.locations with
  | nil => simp
  | cons first rest =>
    rw [List.map_cons, List.nodup_cons, List.tail_cons]
    simp [and_comm]

/-! ## The validators -/

theorem ite_throw_eq_ok_iff {α : Type} {c : Prop} [Decidable c] {msg : String}
    {x : Except Stop α} {a : α} :
    (if c then throwRuntimeError msg else x) = .ok a ↔ ¬ c ∧ x = .ok a := by
  by_cases hc : c
  · rw [if_pos hc]
    exact iff_of_false (fun h => by cases h) fun h => h.1 hc
  · rw [if_neg hc, and_iff_right hc]

theorem locationValidate_iff {location : LocationConfig} :
    locationValidate location = .ok () ↔
      isValidVector location.allowedMethods VALID_METHODS = true ∧
        isValidStatus location.redirect = true ∧ isValidRoot location.root = true := by
  rw [locationValidate, ite_throw_eq_ok_iff, ite_throw_eq_ok_iff, ite_throw_eq_ok_iff]
  simp

theorem serverValidate_iff {server : ServerConfig} {flag : Nat} :
    serverValidate server flag = .ok () ↔
      isSet flag BIT_FLAG_LISTEN = true ∧ isDupLocation server = false ∧
        isValidStatus server.errorPages = true ∧
        isValidErrorPages server.errorPages = .ok true ∧ isValidRoot server.root = true := by
  rw [serverValidate, ite_throw_eq_ok_iff, ite_throw_eq_ok_iff, ite_throw_eq_ok_iff,
    Except.bind_eq_ok_iff]
  simp only [ite_throw_eq_ok_iff]
  simp [pure, Except.pure]

end ConfigParser

end Webserv
