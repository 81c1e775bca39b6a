import Mathlib

/-!
# Maps filled entry by entry

The value that a key has when the entries of a list were put into a map one after another.  With
`insertIfNew` the first entry of a key stays, whatever follows it.
-/

namespace Webserv

namespace Entries

open Std

variable {ι κ ν : Type*} {cmp : κ → κ → Ordering} [TransCmp cmp] [LawfulEqCmp cmp] [DecidableEq κ]

section

variable (key : ι → κ) (value : ι → ν)

theorem getElem?_foldl_insertIfNew (entries : List ι) (map : ExtTreeMap κ ν cmp) (k : κ) :
    (entries.foldl (fun map entry => map.insertIfNew (key entry) (value entry)) map)[k]? =
      map[k]?.or ((entries.find? (key · = k)).map value) := by
  induction entries generalizing map with
  | nil => simp
  | cons entry entries ih =>
    rw [List.foldl_cons, ih, ExtTreeMap.getElem?_insertIfNew, List.find?_cons]
    simp only [LawfulEqCmp.compare_eq_iff_eq]
    by_cases hkey : key entry = k
    · subst hkey
      by_cases hmem : key entry ∈ map
      · obtain ⟨v, hv⟩ := Option.isSome_iff_exists.mp (ExtTreeMap.mem_iff_isSome_getElem?.mp hmem)
        rw [if_neg fun h => h.2 hmem, hv, Option.some_or, Option.some_or]
      · rw [if_pos ⟨rfl, hmem⟩, ExtTreeMap.getElem?_eq_none hmem]
        simp
    · rw [if_neg fun h => hkey h.1, decide_eq_false hkey]

/-- With distinct keys the order does not matter. -/
theorem getElem?_foldl_insert {entries : List ι} (hdistinct : (entries.map key).Nodup)
    (map : ExtTreeMap κ ν cmp) (k : κ) :
    (entries.foldl (fun map entry => map.insert (key entry) (value entry)) map)[k]? =
      ((entries.find? (key · = k)).map value).or map[k]? := by
  induction entries generalizing map with
  | nil => simp
  | cons entry entries ih =>
    rw [List.map_cons, List.nodup_cons] at hdistinct
    rw [List.foldl_cons, ih hdistinct.2, List.find?_cons, ExtTreeMap.getElem?_insert]
    simp only [LawfulEqCmp.compare_eq_iff_eq]
    by_cases hkey : key entry = k
    · have hnone : entries.find? (key · = k) = none := by
        refine List.find?_eq_none.mpr fun other hother hk => hdistinct.1 ?_
        rw [hkey, ← of_decide_eq_true hk]
        exact List.mem_map_of_mem hother
      rw [hnone, if_pos hkey, decide_eq_true hkey]
      simp
    · rw [if_neg hkey, decide_eq_false hkey]

end

/-- A map is what the insertions of its entries leave behind. -/
theorem foldl_insertIfNew_toList (map : ExtTreeMap κ ν cmp) :
    map.toList.foldl (fun map entry => map.insertIfNew entry.1 entry.2) ∅ = map := by
  have hcmp (k : κ) : (fun entry : κ × ν => decide (entry.1 = k)) =
      fun entry => cmp entry.1 k == .eq := by
    funext entry
    rw [Bool.eq_iff_iff, decide_eq_true_iff, beq_iff_eq, LawfulEqCmp.compare_eq_iff_eq]
  refine ExtTreeMap.ext_getElem? fun k => ?_
  rw [getElem?_foldl_insertIfNew, ExtTreeMap.getElem?_empty, Option.none_or, hcmp]
  by_cases hmem : k ∈ map
  · obtain ⟨v, hv⟩ := Option.isSome_iff_exists.mp (ExtTreeMap.mem_iff_isSome_getElem?.mp hmem)
    rw [ExtTreeMap.find?_toList_eq_some_iff_getKey?_eq_some_and_getElem?_eq_some.mpr
      ⟨ExtTreeMap.getKey?_eq_some hmem, hv⟩, Option.map_some, hv]
  · rw [ExtTreeMap.find?_toList_eq_none_iff_not_mem.mpr hmem, Option.map_none,
      ExtTreeMap.getElem?_eq_none hmem]

/-! ## A function of the values -/

section

variable {μ : Type*} (f : ν → μ) (map : ExtTreeMap κ ν cmp) (k : κ)

omit [DecidableEq κ]

theorem map_insert (v : ν) :
    (map.insert k v).map (fun _ => f) = (map.map fun _ => f).insert k (f v) := by
  refine ExtTreeMap.ext_getElem? fun a => ?_
  rw [ExtTreeMap.getElem?_map, ExtTreeMap.getElem?_insert, ExtTreeMap.getElem?_insert,
    ExtTreeMap.getElem?_map]
  split <;> rfl

theorem map_erase : (map.erase k).map (fun _ => f) = (map.map fun _ => f).erase k := by
  refine ExtTreeMap.ext_getElem? fun a => ?_
  rw [ExtTreeMap.getElem?_map, ExtTreeMap.getElem?_erase, ExtTreeMap.getElem?_erase,
    ExtTreeMap.getElem?_map]
  split <;> rfl

end

end Entries

end Webserv
