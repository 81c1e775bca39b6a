import Webserv.Server.Server

/-!
# The server for a host

Ports decide first.  Among the servers on the port, the first one with the name of the host
answers, and the first one of all when none has it.
-/

namespace Webserv

open Text

section

variable {α : Type} {P : α → Prop} {list : List α} {a : α}

/-- The first element with the property. -/
def IsFirst (P : α → Prop) (list : List α) (a : α) : Prop :=
  ∃ before after, list = before ++ a :: after ∧ P a ∧ ∀ b ∈ before, ¬ P b

theorem find?_eq_some_iff_isFirst [DecidablePred P] :
    list.find? (fun b => decide (P b)) = some a ↔ IsFirst P list a := by
  rw [List.find?_eq_some_iff_append, decide_eq_true_iff]
  constructor
  · rintro ⟨ha, before, after, hlist, hbefore⟩
    refine ⟨before, after, hlist, ha, fun b hb => ?_⟩
    simpa using hbefore b hb
  · rintro ⟨before, after, hlist, ha, hbefore⟩
    refine ⟨ha, before, after, hlist, fun b hb => ?_⟩
    simpa using hbefore b hb

theorem find?_eq_none_iff_forall [DecidablePred P] :
    list.find? (fun b => decide (P b)) = none ↔ ∀ b ∈ list, ¬ P b := by
  rw [List.find?_eq_none]
  exact forall₂_congr fun b _ => not_congr decide_eq_true_iff

end

/-- The server listens on the port and has the host among its names. -/
def Serves (port : Nat) (host : Str) (conf : ServerConfig) : Prop :=
  conf.port = port ∧ host ∈ conf.server

instance (port : Nat) (host : Str) : DecidablePred (Serves port host) :=
  fun _ => inferInstanceAs (Decidable (_ ∧ _))

namespace WebservConfig

variable {config : WebservConfig} {port : Nat} {host : Str}

theorem findDefaultServerConfig_ok_iff {conf : ServerConfig} :
    config.findDefaultServerConfig port = .ok conf ↔
      IsFirst (·.port = port) config.servConfs conf := by
  rw [← find?_eq_some_iff_isFirst, findDefaultServerConfig]
  cases config.servConfs.find? fun c => c.port = port with
  | none => exact iff_of_false (fun h => by cases h) fun h => by cases h
  | some first =>
    show Except.ok first = .ok conf ↔ some first = some conf
    rw [Except.ok.injEq, Option.some.injEq]

theorem find?_serves (confs : List ServerConfig) :
    (confs.find? fun c => c.port = port && c.server.contains host) =
      confs.find? fun c => Serves port host c := by
  congr 1
  funext c
  rw [List.contains_eq_mem]
  exact (Bool.decide_and ..).symm

theorem findServerConfig_ok_iff {conf : ServerConfig} :
    config.findServerConfig port host = .ok conf ↔
      IsFirst (Serves port host) config.servConfs conf ∨
        (∀ c ∈ config.servConfs, ¬ Serves port host c) ∧
          IsFirst (·.port = port) config.servConfs conf := by
  rw [findServerConfig, find?_serves, ← find?_eq_some_iff_isFirst, ← find?_eq_none_iff_forall,
    ← findDefaultServerConfig_ok_iff]
  cases hnamed : config.servConfs.find? fun c => Serves port host c with
  | none => simp
  | some named =>
    have hserves : Serves port host named := by simpa using List.find?_some hnamed
    have hport : port ∈ config.ports :=
      (config.ports_spec port).mpr ⟨named, List.mem_of_find?_eq_some hnamed, hserves.1⟩
    obtain ⟨first, hfirst⟩ := findDefaultServerConfig_isOk hport
    rw [hfirst]
    simp

/-- Servers on other ports do not matter. -/
theorem findServerConfig_filter (servConfs : List ServerConfig) :
    (ofServConfs (servConfs.filter (·.port = port))).findServerConfig port host =
      (ofServConfs servConfs).findServerConfig port host := by
  have hdefault : ((servConfs.filter (·.port = port)).find? fun c => c.port = port) =
      servConfs.find? fun c => c.port = port := by
    simp [List.find?_filter]
  have hserves : ((servConfs.filter (·.port = port)).find? fun c => Serves port host c) =
      servConfs.find? fun c => Serves port host c := by
    rw [List.find?_filter]
    congr 1
    funext c
    by_cases hport : c.port = port <;> simp [Serves, hport]
  rw [findServerConfig, findServerConfig, find?_serves, find?_serves, findDefaultServerConfig,
    findDefaultServerConfig, ofServConfs, ofServConfs]
  dsimp only
  rw [hdefault, hserves]

/-- A port without a server is the only failure.  The first server on the port that has the name
is found, and the first one on the port when none has it; so every port that is listened on has
an answer, and servers on other ports do not matter. -/
theorem findServerConfig_spec (servConfs : List ServerConfig) (port : Nat) (host : Str) :
    ((∃ e, (ofServConfs servConfs).findServerConfig port host = .error e) ↔
      port ∉ (ofServConfs servConfs).ports) ∧
      (∀ conf, (ofServConfs servConfs).findServerConfig port host = .ok conf ↔
        IsFirst (Serves port host) servConfs conf ∨
          (∀ c ∈ servConfs, ¬ Serves port host c) ∧ IsFirst (·.port = port) servConfs conf) ∧
      (∀ (socket : Nat → Int) (fd : Int) (servSock : ServerSocket),
        (Server.new (ofServConfs servConfs) socket).servSocks[fd]? = some servSock →
          ∃ conf, (ofServConfs servConfs).findServerConfig servSock.port host = .ok conf) ∧
      ∀ servConfs', servConfs'.filter (·.port = port) = servConfs.filter (·.port = port) →
        (ofServConfs servConfs').findServerConfig port host =
          (ofServConfs servConfs).findServerConfig port host := by
  refine ⟨⟨?_, fun h => findServerConfig_isError h host⟩, fun conf => findServerConfig_ok_iff,
    ?_, ?_⟩
  · rintro ⟨e, he⟩ hport
    obtain ⟨conf, hconf⟩ := findServerConfig_isOk hport host
    rw [he] at hconf
    cases hconf
  · intro socket fd servSock h
    obtain ⟨port', hport, _, rfl⟩ := Server.servSocks_new h
    exact findServerConfig_isOk hport host
  · intro servConfs' h
    rw [← findServerConfig_filter servConfs', ← findServerConfig_filter servConfs, h]

end WebservConfig

end Webserv
