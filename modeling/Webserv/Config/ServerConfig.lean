import Webserv.Control.Except
import Webserv.Exception

/-!
# Server configurations

What `ConfigParser` produces and `WebservConfig` serves.  `std::map` and `std::set` are the
ordered maps and sets of the standard library, which are equal as soon as they have the same
entries.
-/

namespace Webserv

open Text

structure LocationConfig where
  location : Str
  redirect : Std.ExtTreeMap Int Str
  root : Str
  allowedMethods : List Str
  indexes : List Str
  autoindex : Bool
  cgiExtensions : List Str
  deriving Inhabited, DecidableEq

structure ServerConfig where
  port : Nat
  host : Str
  server : List Str
  errorPages : Std.ExtTreeMap Int Str
  root : Str
  clientBodySizeLimit : Nat
  locations : List LocationConfig
  deriving Inhabited, DecidableEq

/-- `PortSet` -/
abbrev PortSet := Std.ExtTreeSet Nat

/-- The loop of the constructor. -/
def insertPorts (confs : List ServerConfig) : PortSet :=
  confs.foldl (fun ports c => ports.insert c.port) ∅

theorem mem_foldl_insertPorts {confs : List ServerConfig} {ports : PortSet} {p : Nat} :
    p ∈ confs.foldl (fun ports c => ports.insert c.port) ports ↔
      p ∈ ports ∨ ∃ c ∈ confs, c.port = p := by
  induction confs generalizing ports with
  | nil => simp
  | cons c rest ih =>
    rw [List.foldl_cons, ih, Std.ExtTreeSet.mem_insert, Std.LawfulEqCmp.compare_eq_iff_eq]
    simp only [List.mem_cons, exists_eq_or_imp]
    tauto

theorem mem_insertPorts {confs : List ServerConfig} {p : Nat} :
    p ∈ insertPorts confs ↔ ∃ c ∈ confs, c.port = p := by
  simp [insertPorts, mem_foldl_insertPorts]

/-- The configuration of the whole process.  Its port set is built once and always agrees with
the list. -/
structure WebservConfig where
  servConfs : List ServerConfig
  ports : PortSet
  ports_spec : ∀ p, p ∈ ports ↔ ∃ c ∈ servConfs, c.port = p

namespace WebservConfig

def ofServConfs (servConfs : List ServerConfig) : WebservConfig :=
  ⟨servConfs, insertPorts servConfs, fun _ => mem_insertPorts⟩

def findDefaultServerConfig (config : WebservConfig) (port : Nat) : Except Exn ServerConfig :=
  match config.servConfs.find? fun c => c.port = port with
  | some c => .ok c
  | none => .error (.runtimeError "findDefaultServerConfig: port not found")

def findServerConfig (config : WebservConfig) (port : Nat) (host : Str) :
    Except Exn ServerConfig := do
  let defaultServer ← config.findDefaultServerConfig port
  match config.servConfs.find? fun c => c.port = port && c.server.contains host with
  | some c => return c
  | none => return defaultServer

theorem findDefaultServerConfig_isOk {config : WebservConfig} {port : Nat}
    (h : port ∈ config.ports) : ∃ c, config.findDefaultServerConfig port = .ok c := by
  obtain ⟨c, hc, hport⟩ := (config.ports_spec port).mp h
  unfold findDefaultServerConfig
  split
  · exact ⟨_, rfl⟩
  · next hnone => exact absurd (List.find?_eq_none.mp hnone c hc) (by simp [hport])

/-- A configured port has a server for every host. -/
theorem findServerConfig_isOk {config : WebservConfig} {port : Nat} (h : port ∈ config.ports)
    (host : Str) : ∃ c, config.findServerConfig port host = .ok c := by
  obtain ⟨c, hc⟩ := findDefaultServerConfig_isOk h
  unfold findServerConfig
  rw [hc]
  cases config.servConfs.find? fun c => c.port = port && c.server.contains host with
  | none => exact ⟨c, rfl⟩
  | some d => exact ⟨d, rfl⟩

theorem findServerConfig_isError {config : WebservConfig} {port : Nat} (h : port ∉ config.ports)
    (host : Str) : ∃ e, config.findServerConfig port host = .error e := by
  have hnone : config.servConfs.find? (fun c => c.port = port) = none := by
    rw [List.find?_eq_none]
    intro c hc hport
    exact h ((config.ports_spec port).mpr ⟨c, hc, by simpa using hport⟩)
  exact ⟨_, by rw [findServerConfig, findDefaultServerConfig, hnone]; rfl⟩

/-- The server that is found is one of the configured ones. -/
theorem findServerConfig_mem {config : WebservConfig} {port : Nat} {host : Str}
    {conf : ServerConfig} (h : config.findServerConfig port host = .ok conf) :
    conf ∈ config.servConfs := by
  obtain ⟨first, hfirst, h⟩ := Except.bind_eq_ok_iff.mp h
  split at h
  · next hfind =>
    obtain rfl := Except.ok.inj h
    exact List.mem_of_find?_eq_some hfind
  · obtain rfl := Except.ok.inj h
    unfold findDefaultServerConfig at hfirst
    split at hfirst
    · next hfind =>
      obtain rfl := Except.ok.inj hfirst
      exact List.mem_of_find?_eq_some hfind
    · cases hfirst

/-- The ports are results of `ConfigParser::ft_stoi`, which returns an `int`. -/
def PortsParsed (config : WebservConfig) : Prop :=
  ∀ port ∈ config.ports, ∃ n, intMin ≤ n ∧ n ≤ intMax ∧ port = sizeOfInt n

end WebservConfig

/-- `ConfigDTO` -/
structure ConfigDTO where
  port : Str
  host : Str
  errorPages : Std.ExtTreeMap Int Str
  root : Str
  server : Str
  locations : List LocationConfig
  deriving Inhabited, DecidableEq

/-- `ConfigConverter::toDTO` -/
def ConfigConverter.toDTO (conf : ServerConfig) : ConfigDTO where
  server := conf.server.headD []
  errorPages := conf.errorPages
  host := conf.host
  root := conf.root
  port := decimal conf.port
  locations := conf.locations

/-- The paths are texts without NUL. -/
structure ConfigDTO.NulFree (conf : ConfigDTO) : Prop where
  root : 0 ∉ conf.root
  location_root : ∀ location ∈ conf.locations, 0 ∉ location.root
  location : ∀ location ∈ conf.locations, 0 ∉ location.location

end Webserv
