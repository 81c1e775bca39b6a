import Webserv.Response.Disk
import Webserv.Response.Path
import Webserv.Text.Split

/-!
# The parts of a request path

What the constructor of `Path` takes apart can be put together again.
-/

namespace Webserv

open Text

namespace Path

/-! ## `splitStr` -/

/-- With a separator that is not empty the loop comes to the end of the text. -/
theorem splitLoop_split {sep : Str} (hsep : sep ≠ []) (str : Str) {fuel start : Nat}
    (hle : start ≤ str.length) (hfuel : str.length - start ≤ fuel) :
    Split str sep start (splitLoop sep fuel (str.drop start)) := by
  induction fuel generalizing start with
  | zero =>
    have hnil : str.drop start = [] := List.drop_eq_nil_of_le (by omega)
    refine .last hle ?_
    rw [findFrom, if_pos hle, hnil, find, if_neg hsep, Option.map_none]
  | succ fuel ih =>
    have hfrom : findFrom str sep start = (find sep (str.drop start)).map (· + start) :=
      if_pos hle
    rw [splitLoop]
    cases hfind : find sep (str.drop start) with
    | none => exact .last hle (by rw [hfrom, hfind, Option.map_none])
    | some pos =>
      have hpos : findFrom str sep start = some (pos + start) := by
        rw [hfrom, hfind, Option.map_some]
      have hend := find_add_length_le hsep hfind
      have hsep' := List.length_pos_of_ne_nil hsep
      rw [List.length_drop] at hend
      have hrest : Split str sep (pos + start + sep.length) _ := ih (by omega) (by omega)
      have hpiece := Split.piece hpos hrest
      rw [Nat.add_sub_cancel] at hpiece
      dsimp only
      rw [List.drop_drop, show start + (pos + sep.length) = pos + start + sep.length by omega]
      exact hpiece

theorem splitStr_split {sep : Str} (hsep : sep ≠ []) (str : Str) :
    Split str sep 0 (splitStr str sep) :=
  splitLoop_split hsep str (Nat.zero_le _) (Nat.le_refl _)

/-- The pieces are joined to the text again. -/
theorem intercalate_splitStr {sep : Str} (hsep : sep ≠ []) (str : Str) :
    sep.intercalate (splitStr str sep) = str :=
  (splitStr_split hsep str).intercalate hsep

/-! ## The members of a `Path` -/

theorem parseRequestPath_ok {reqPath dir file : Str}
    (h : parseRequestPath reqPath = .ok (dir, file)) :
    IsDirText dir ∧ 47 ∉ file ∧ reqPath = dir ++ file := by
  obtain ⟨front, back, hsplit, hfile⟩ :=
    exists_eq_append_last (parseRequestPath_ok_iff.mp ⟨_, h⟩)
  have hlast : findLast (fun c => c = 47) reqPath = some front.length := by
    rw [hsplit]
    exact findLast_append rfl fun d hd => decide_eq_false fun heq => hfile (heq ▸ hd)
  have hdir : reqPath = (front ++ [47]) ++ back := by
    rw [hsplit, List.append_assoc, List.singleton_append]
  have hlen : (front ++ [47]).length = front.length + 1 :=
    List.length_append
  rw [parseRequestPath, hlast] at h
  dsimp only at h
  rw [hdir, List.take_left' hlen, List.drop_left' hlen] at h
  obtain ⟨rfl, rfl⟩ := Prod.mk.inj (Except.ok.inj h)
  exact ⟨⟨front, rfl⟩, hfile, hdir⟩

theorem ofPathquery_parts {pathquery : Str} {path : Path}
    (h : ofPathquery pathquery = .ok path) :
    IsDirText path.pathDir ∧ 47 ∉ path.pathFile ∧ path.rawPath = path.pathDir ++ path.pathFile := by
  obtain ⟨⟨dir, file⟩, hparts, h⟩ := Except.bind_eq_ok_iff.mp h
  rw [← Except.ok.inj h]
  exact parseRequestPath_ok hparts

/-- What the constructor stores. -/
theorem ofPathquery_members {pathquery : Str} {path : Path}
    (h : ofPathquery pathquery = .ok path) :
    path.rawPath = (splitPathQuery pathquery).1 ∧ path.query = (splitPathQuery pathquery).2 ∧
      path.args = createArgs path.query ∧
      path.vecPath = (splitStr path.rawPath (lit "/")).tail := by
  obtain ⟨⟨dir, file⟩, -, h⟩ := Except.bind_eq_ok_iff.mp h
  rw [← Except.ok.inj h]
  exact ⟨rfl, rfl, rfl, rfl⟩

theorem splitPathQuery_join {pathquery : Str} (h : 63 ∈ pathquery) :
    (splitPathQuery pathquery).1 ++ 63 :: (splitPathQuery pathquery).2 = pathquery := by
  unfold splitPathQuery
  cases hfind : findFirst (fun c => c = 63) pathquery (some 0) with
  | none => exact absurd (findFirst_eq_none hfind 63 h) (by simp)
  | some pos =>
    obtain ⟨a, c, b, hab, -, hc, rfl⟩ := findFirst_eq_some hfind
    obtain rfl : c = 63 := of_decide_eq_true hc
    rw [List.drop_zero] at hab
    have htake : pathquery.take (0 + a.length) = a := by
      rw [hab, Nat.zero_add]
      exact List.take_left' rfl
    have hdrop : pathquery.drop (0 + a.length + 1) = b := by
      rw [Nat.zero_add, ← List.drop_drop, hab, List.drop_left' rfl]
      rfl
    dsimp only
    rw [htake, hdrop, hab]

theorem createArgs_join {query : Str} (h : 61 ∉ query) :
    (lit "+").intercalate (createArgs query) = query := by
  rw [createArgs, if_neg (by simpa using h)]
  exact intercalate_splitStr (by decide) query

theorem splitStr_slash (rest : Str) :
    splitStr (47 :: rest) (lit "/") = [] :: splitStr rest (lit "/") := by
  have hfind : find (lit "/") (47 :: rest) = some 0 := if_pos ⟨rest, rfl⟩
  rw [splitStr, List.length_cons, splitLoop, hfind]
  rfl

/-- The split comes to an end and nothing is lost by it, so the constructor succeeds whenever
there is a slash in front of the query, and its members restore the path. -/
theorem ofPathquery_restores (str sep pathquery : Str) :
    (sep ≠ [] → Split str sep 0 (splitStr str sep) ∧
        (∀ pieces, Split str sep 0 pieces → pieces = splitStr str sep) ∧
        (∀ piece ∈ splitStr str sep, ¬ sep <:+: piece) ∧
        sep.intercalate (splitStr str sep) = str) ∧
      ((∃ path, ofPathquery pathquery = .ok path) ↔ HasSlash pathquery) ∧
      ∀ path, ofPathquery pathquery = .ok path →
        path.pathDir ++ path.pathFile = path.rawPath ∧ (∃ front, path.pathDir = front ++ [47]) ∧
          47 ∉ path.pathFile ∧
          (63 ∈ pathquery → path.rawPath ++ 63 :: path.query = pathquery) ∧
          (61 ∉ path.query → (lit "+").intercalate path.args = path.query) ∧
          (61 ∈ path.query → path.args = []) ∧
          ∀ rest, path.rawPath = 47 :: rest → (lit "/").intercalate path.vecPath = rest := by
  refine ⟨fun hsep => ?_, ⟨?_, ofPathquery_of_hasSlash⟩, fun path hpath => ?_⟩
  · have hsplit := splitStr_split hsep str
    exact ⟨hsplit, fun pieces h => h.unique hsplit, hsplit.not_infix hsep,
      intercalate_splitStr hsep str⟩
  · rintro ⟨path, hpath⟩
    by_contra hslash
    cases hpath.symm.trans (ofPathquery_of_not_hasSlash hslash)
  · obtain ⟨hdir, hfile, hparts⟩ := ofPathquery_parts hpath
    obtain ⟨hraw, hquery, hargs, hvec⟩ := ofPathquery_members hpath
    refine ⟨hparts.symm, hdir, hfile, fun h => ?_, fun h => ?_, fun h => ?_, fun rest hrest => ?_⟩
    · rw [hraw, hquery]
      exact splitPathQuery_join h
    · rw [hargs]
      exact createArgs_join h
    · rw [hargs, createArgs, if_pos (by simpa using h)]
    · rw [hvec, hrest, splitStr_slash, List.tail_cons]
      exact intercalate_splitStr (by decide) rest

end Path

end Webserv
