import Webserv.Config.Accepted
import Webserv.Config.Tokens

/-!
# Paths of a configuration

The tokens of a configuration file have no NUL, so the paths of its servers are what the system
calls see of them.
-/

namespace Webserv

open Text

namespace ConfigParser

theorem upTo_nulFree {str : Str} (h : 0 ∉ str) (sep : Str) : 0 ∉ upTo sep str := by
  unfold upTo
  split
  · exact h
  · exact fun hmem => h (List.mem_of_mem_take hmem)

/-- A location whose paths are free of NUL. -/
def LocationNulFree (location : LocationConfig) : Prop :=
  0 ∉ location.root ∧ 0 ∉ location.location

theorem LocationDirective.apply_nulFree {d : LocationDirective} {s s' : LocationConfig × Nat}
    (hd : ∀ t ∈ d.tokens, 0 ∉ t) (hs : LocationNulFree s.1) (h : apply s d = .ok s') :
    LocationNulFree s'.1 := by
  cases d with
  | root arg =>
    obtain ⟨-, h⟩ := ite_throw_eq_ok_iff.mp h
    obtain rfl := Except.ok.inj h
    exact ⟨upTo_nulFree (hd arg (by simp [tokens])) SEMICOLON, hs.2⟩
  | autoindex arg =>
    obtain ⟨-, h⟩ := ite_throw_eq_ok_iff.mp h
    obtain ⟨on, -, h⟩ := Except.bind_eq_ok_iff.mp h
    obtain rfl := Except.ok.inj h
    exact hs
  | _ =>
    obtain rfl := Except.ok.inj h
    exact hs

/-! ## Locations -/

section

variable {good : Str → Prop} {inv : LocationConfig → Prop}
  (hopened : ∀ memory server uri, good uri → inv (openedLocation memory server uri))
  (hstep : ∀ d s s', (∀ t ∈ LocationDirective.tokens d, good t) → inv s.1 →
    LocationDirective.apply s d = .ok s' → inv s'.1)

include hopened hstep

/-- What holds of a new location, and is kept by directives whose tokens are good, holds of the
locations of a server. -/
theorem ServerDirective.apply_locations {memory : Memory} {d : ServerDirective}
    {s s' : ServerConfig × Nat} (hd : ∀ t ∈ d.tokens, good t)
    (hs : ∀ location ∈ s.1.locations, inv location) (h : apply memory s d = .ok s') :
    ∀ location ∈ s'.1.locations, inv location := by
  have hadd {location : LocationConfig} (hlocation : inv location)
      (h : addLocation s location = .ok s') : ∀ location ∈ s'.1.locations, inv location := by
    obtain ⟨-, rfl⟩ := addLocation_ok h
    exact List.forall_mem_append.mpr ⟨hs, List.forall_mem_singleton.mpr hlocation⟩
  cases d with
  | location uri other hother => exact hadd (hopened memory s.1 uri (hd uri (by simp [tokens]))) h
  | locationBlock uri directives =>
    obtain ⟨t, hdirectives, h⟩ := Except.bind_eq_ok_iff.mp h
    have htext : ∀ t ∈ locationLoop.text directives, good t :=
      fun t ht => hd t (by simp [tokens, ht])
    have hlocation : inv t.1 := locationLoop.applyAll_invariant (fun s => inv s.1) hstep htext
      (hopened memory s.1 uri (hd uri (by simp [tokens]))) hdirectives
    exact hadd hlocation h
  | serverName contents =>
    obtain rfl := Except.ok.inj h
    exact hs
  | errorPage code path =>
    obtain rfl := Except.ok.inj h
    exact hs
  | _ =>
    obtain ⟨-, h⟩ := ite_throw_eq_ok_iff.mp h
    obtain rfl := Except.ok.inj h
    exact hs

theorem ServerBlock.apply_locations {memory : Nat → Memory} {block : ServerBlock}
    {servers servers' : List ServerConfig} (hblock : ∀ t ∈ tokens block, good t)
    (hservers : ∀ server ∈ servers, ∀ location ∈ server.locations, inv location)
    (h : apply memory servers block = .ok servers') :
    ∀ server ∈ servers', ∀ location ∈ server.locations, inv location := by
  obtain ⟨s, hdirectives, h⟩ := Except.bind_eq_ok_iff.mp h
  obtain ⟨_, -, h⟩ := Except.bind_eq_ok_iff.mp h
  obtain rfl := Except.ok.inj h
  have htext : ∀ t ∈ (serverLoop (memory servers.length)).text block, good t := by
    intro t ht
    exact hblock t (List.mem_cons_of_mem _ (List.mem_cons_of_mem _ (List.mem_append_left _ ht)))
  have hserver : ∀ location ∈ s.1.locations, inv location := (serverLoop _).applyAll_invariant
    (fun s => ∀ location ∈ s.1.locations, inv location)
    (fun _ _ _ => ServerDirective.apply_locations hopened hstep) htext (List.forall_mem_nil _)
    hdirectives
  exact List.forall_mem_append.mpr ⟨hservers, List.forall_mem_singleton.mpr hserver⟩

theorem parseTokens_locations {memory : Nat → Memory} {tokens : List Str}
    {servers : List ServerConfig} (htokens : ∀ t ∈ tokens, good t)
    (h : parseTokens memory tokens = .ok servers) :
    ∀ server ∈ servers, ∀ location ∈ server.locations, inv location := by
  obtain ⟨blocks, rfl⟩ := exists_blocks h
  rw [parseTokens_blocks] at h
  exact (tokensLoop memory).applyAll_invariant
    (fun servers => ∀ server ∈ servers, ∀ location ∈ server.locations, inv location)
    (fun _ _ _ => ServerBlock.apply_locations hopened hstep) htokens (List.forall_mem_nil _) h

end

theorem openedLocation_nulFree (memory : Memory) (server : ServerConfig) (uri : Str)
    (h : 0 ∉ uri) : LocationNulFree (openedLocation memory server uri) :=
  ⟨List.not_mem_nil, h⟩

/-! ## Servers -/

theorem ServerDirective.apply_root {memory : Memory} {d : ServerDirective}
    {s s' : ServerConfig × Nat} (h : apply memory s d = .ok s') :
    s'.1.root = s.1.root ∨ ∃ arg, d = .root arg ∧ s'.1.root = upTo SEMICOLON arg := by
  cases d with
  | root arg =>
    obtain ⟨-, h⟩ := ite_throw_eq_ok_iff.mp h
    obtain rfl := Except.ok.inj h
    exact Or.inr ⟨arg, rfl, rfl⟩
  | location uri other hother =>
    obtain ⟨-, rfl⟩ := addLocation_ok h
    exact Or.inl rfl
  | locationBlock uri directives =>
    obtain ⟨t, -, h⟩ := Except.bind_eq_ok_iff.mp h
    obtain ⟨-, rfl⟩ := addLocation_ok h
    exact Or.inl rfl
  | serverName contents =>
    obtain rfl := Except.ok.inj h
    exact Or.inl rfl
  | errorPage code path =>
    obtain rfl := Except.ok.inj h
    exact Or.inl rfl
  | _ =>
    obtain ⟨-, h⟩ := ite_throw_eq_ok_iff.mp h
    obtain rfl := Except.ok.inj h
    exact Or.inl rfl

theorem ServerDirective.apply_nulFree {memory : Memory} {d : ServerDirective}
    {s s' : ServerConfig × Nat} (hd : ∀ t ∈ d.tokens, 0 ∉ t)
    (hs : (ConfigConverter.toDTO s.1).NulFree) (h : apply memory s d = .ok s') :
    (ConfigConverter.toDTO s'.1).NulFree := by
  have hlocations : ∀ location ∈ s'.1.locations, LocationNulFree location :=
    ServerDirective.apply_locations openedLocation_nulFree
      (fun _ _ _ => LocationDirective.apply_nulFree) hd
      (fun l hl => ⟨hs.location_root l hl, hs.location l hl⟩) h
  have hroot : 0 ∉ s'.1.root := by
    rcases apply_root h with heq | ⟨arg, rfl, heq⟩
    · rw [heq]
      exact hs.root
    · rw [heq]
      exact upTo_nulFree (hd arg (by simp [tokens])) SEMICOLON
  exact ⟨hroot, fun l hl => (hlocations l hl).1, fun l hl => (hlocations l hl).2⟩

/-- Servers whose paths are free of NUL. -/
def ServersNulFree (servers : List ServerConfig) : Prop :=
  ∀ server ∈ servers, (ConfigConverter.toDTO server).NulFree

theorem ServerBlock.apply_nulFree {memory : Nat → Memory} {block : ServerBlock}
    {servers servers' : List ServerConfig} (hblock : ∀ t ∈ tokens block, 0 ∉ t)
    (hservers : ServersNulFree servers) (h : apply memory servers block = .ok servers') :
    ServersNulFree servers' := by
  obtain ⟨s, hdirectives, h⟩ := Except.bind_eq_ok_iff.mp h
  obtain ⟨_, -, h⟩ := Except.bind_eq_ok_iff.mp h
  obtain rfl := Except.ok.inj h
  have htext : ∀ t ∈ (serverLoop (memory servers.length)).text block, 0 ∉ t := by
    intro t ht
    exact hblock t (List.mem_cons_of_mem _ (List.mem_cons_of_mem _ (List.mem_append_left _ ht)))
  have hopened : (ConfigConverter.toDTO (opened memory servers).1).NulFree :=
    ⟨List.not_mem_nil, List.forall_mem_nil _, List.forall_mem_nil _⟩
  have hserver : (ConfigConverter.toDTO s.1).NulFree := (serverLoop _).applyAll_invariant
    (fun s => (ConfigConverter.toDTO s.1).NulFree)
    (fun _ _ _ => ServerDirective.apply_nulFree) htext hopened hdirectives
  exact List.forall_mem_append.mpr ⟨hservers, List.forall_mem_singleton.mpr hserver⟩

/-- The paths of an accepted configuration are free of NUL. -/
theorem parseTokens_nulFree {memory : Nat → Memory} {tokens : List Str}
    {servers : List ServerConfig} (htokens : ∀ t ∈ tokens, 0 ∉ t)
    (h : parseTokens memory tokens = .ok servers) : ServersNulFree servers := by
  obtain ⟨blocks, rfl⟩ := exists_blocks h
  rw [parseTokens_blocks] at h
  have hnew : ServersNulFree [] := List.forall_mem_nil _
  exact (tokensLoop memory).applyAll_invariant ServersNulFree
    (fun _ _ _ => ServerBlock.apply_nulFree) htokens hnew h

/-! ## Index names -/

def IndexesNulFree (location : LocationConfig) : Prop := ∀ index ∈ location.indexes, 0 ∉ index

theorem Contents.values_nulFree {contents : Contents} (h : ∀ t ∈ contents.tokens, 0 ∉ t) :
    ∀ value ∈ contents.values, 0 ∉ value := by
  rw [← contents.map_upTo, List.forall_mem_map]
  exact fun t ht => upTo_nulFree (h t ht) SEMICOLON

theorem LocationDirective.apply_indexesNulFree {d : LocationDirective}
    {s s' : LocationConfig × Nat} (hd : ∀ t ∈ d.tokens, 0 ∉ t) (hs : IndexesNulFree s.1)
    (h : apply s d = .ok s') : IndexesNulFree s'.1 := by
  cases d with
  | index contents =>
    obtain rfl := Except.ok.inj h
    have hcontents : ∀ t ∈ contents.tokens, 0 ∉ t := fun t ht => hd t (List.mem_cons_of_mem _ ht)
    exact List.forall_mem_append.mpr ⟨hs, Contents.values_nulFree hcontents⟩
  | root arg =>
    obtain ⟨-, h⟩ := ite_throw_eq_ok_iff.mp h
    obtain rfl := Except.ok.inj h
    exact hs
  | autoindex arg =>
    obtain ⟨-, h⟩ := ite_throw_eq_ok_iff.mp h
    obtain ⟨on, -, h⟩ := Except.bind_eq_ok_iff.mp h
    obtain rfl := Except.ok.inj h
    exact hs
  | _ =>
    obtain rfl := Except.ok.inj h
    exact hs

/-- The index names of an accepted configuration are free of NUL. -/
theorem parseTokens_indexesNulFree {memory : Nat → Memory} {tokens : List Str}
    {servers : List ServerConfig} (htokens : ∀ t ∈ tokens, 0 ∉ t)
    (h : parseTokens memory tokens = .ok servers) :
    ∀ server ∈ servers, ∀ location ∈ server.locations, IndexesNulFree location :=
  parseTokens_locations (fun _ _ _ _ => List.forall_mem_nil _)
    (fun _ _ _ => LocationDirective.apply_indexesNulFree) htokens h

end ConfigParser

end Webserv
