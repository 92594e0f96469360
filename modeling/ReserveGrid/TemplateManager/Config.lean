import ReserveGrid.Support.Hex
import ReserveGrid.Support.Text
import ReserveGrid.Support.Toml

/-!
# The manager's configuration

The configuration file has one `[manager]` table. The settings of a backend may
stand in it under flat keys or in a table of their own, which then takes
precedence. What is loaded is checked before it is used.
-/

namespace ReserveGrid.TemplateManager

open Support

structure BitcoindNested where
  rpcUrl : String
  rpcUser : String
  rpcPass : String
  deriving DecidableEq

structure StratumNested where
  addr : String
  auth : Option String
  deriving DecidableEq

/-- The `[manager]` table. -/
structure ManagerTable where
  backend : String
  pollIntervalSecs : Option UInt64
  verifierTcpAddr : Option String
  httpListenAddr : Option String
  rpcUrl : Option String
  rpcUser : Option String
  rpcPass : Option String
  coinbaseOutputScriptHex : Option String
  extranonceSize : Option UInt64
  stratumAddr : Option String
  stratumAuth : Option String
  bitcoind : Option BitcoindNested
  stratum : Option StratumNested
  deriving DecidableEq

structure TemplateManagerConfig where
  backend : String
  pollIntervalSecs : Option UInt64
  verifierTcpAddr : Option String
  httpListenAddr : Option String
  rpcUrl : Option String
  rpcUser : Option String
  rpcPass : Option String
  stratumAddr : Option String
  stratumAuth : Option String
  coinbaseOutputScriptHex : String
  extranonceSize : UInt64
  deriving DecidableEq

/-! ## Reading the table -/

open Toml (asString asU64 asTable required optional)

def BitcoindNested.ofToml (v : Toml) : Option BitcoindNested := do
  let entries ← asTable v
  let rpcUrl ← required asString entries "rpc_url"
  let rpcUser ← required asString entries "rpc_user"
  let rpcPass ← required asString entries "rpc_pass"
  return ⟨rpcUrl, rpcUser, rpcPass⟩

def StratumNested.ofToml (v : Toml) : Option StratumNested := do
  let entries ← asTable v
  let addr ← required asString entries "addr"
  let auth ← optional asString entries "auth"
  return ⟨addr, auth⟩

def ManagerTable.ofEntries (entries : Toml.Entries) : Option ManagerTable := do
  let backend ← required asString entries "backend"
  let pollIntervalSecs ← optional asU64 entries "poll_interval_secs"
  let verifierTcpAddr ← optional asString entries "verifier_tcp_addr"
  let httpListenAddr ← optional asString entries "http_listen_addr"
  let rpcUrl ← optional asString entries "rpc_url"
  let rpcUser ← optional asString entries "rpc_user"
  let rpcPass ← optional asString entries "rpc_pass"
  let coinbaseOutputScriptHex ←
    optional asString entries "coinbase_output_script_hex"
  let extranonceSize ← optional asU64 entries "extranonce_size"
  let stratumAddr ← optional asString entries "stratum_addr"
  let stratumAuth ← optional asString entries "stratum_auth"
  let bitcoind ← optional BitcoindNested.ofToml entries "bitcoind"
  let stratum ← optional StratumNested.ofToml entries "stratum"
  return ⟨backend, pollIntervalSecs, verifierTcpAddr, httpListenAddr, rpcUrl,
    rpcUser, rpcPass, coinbaseOutputScriptHex, extranonceSize, stratumAddr,
    stratumAuth, bitcoind, stratum⟩

def ManagerTable.ofToml (v : Toml) : Option ManagerTable :=
  (asTable v).bind ManagerTable.ofEntries

/-- The document as a wrapper around the table. -/
def rootWrapper (v : Toml) : Option ManagerTable := do
  let entries ← asTable v
  required ManagerTable.ofToml entries "manager"

/-! ## Loading -/

/-- An error with its contexts, the outermost first. -/
abbrev ErrorChain := List String

/-- What the loader takes from elsewhere: the TOML library, its text for a value
of the wrong shape, and the quoted form of a text. -/
structure ConfigLibs where
  toml : TomlLib
  shapeError : Toml → String
  debug : String → String

section

variable (libs : ConfigLibs)

def managerTableFromValue (contents : String) :
    Except ErrorChain ManagerTable :=
  match libs.toml.fromStr contents with
  | .error e => .error ["parse TOML as value", e]
  | .ok v =>
      match (asTable v).bind (Toml.get · "manager") with
      | none => .error ["missing [manager] table at top level"]
      | some mgrV =>
          match ManagerTable.ofToml mgrV with
          | none => .error ["deserialize manager table", libs.shapeError mgrV]
          | some mgr => .ok mgr

/-- First the wrapper, then the table taken out of the document. -/
def parseManager (contents : String) : Except ErrorChain ManagerTable :=
  match (libs.toml.fromStr contents).toOption.bind rootWrapper with
  | some mgr => .ok mgr
  | none => managerTableFromValue libs contents

namespace TemplateManagerConfig

/-- The flat settings, overridden by the tables of the backends. -/
def normalize (mgr : ManagerTable) : TemplateManagerConfig where
  backend := mgr.backend
  pollIntervalSecs := mgr.pollIntervalSecs
  verifierTcpAddr := mgr.verifierTcpAddr
  httpListenAddr := mgr.httpListenAddr
  rpcUrl := (mgr.bitcoind.map (·.rpcUrl)).or mgr.rpcUrl
  rpcUser := (mgr.bitcoind.map (·.rpcUser)).or mgr.rpcUser
  rpcPass := (mgr.bitcoind.map (·.rpcPass)).or mgr.rpcPass
  stratumAddr := (mgr.stratum.map (·.addr)).or mgr.stratumAddr
  stratumAuth :=
    match mgr.stratum with
    | some s => s.auth
    | none => mgr.stratumAuth
  coinbaseOutputScriptHex := mgr.coinbaseOutputScriptHex.getD "51"
  extranonceSize := mgr.extranonceSize.getD 4

/-- The check that depends on the backend. -/
def validateBackend (cfg : TemplateManagerConfig) : Except String Unit :=
  if cfg.backend = "bitcoind" then
    if cfg.pollIntervalSecs = some 0 then
      .error "poll_interval_secs must be >= 1"
    else .ok ()
  else if cfg.backend = "stratum" then
    if (trim ((cfg.stratumAddr.getD "").toList)).isEmpty then
      .error
        "backend=stratum requires manager.stratum_addr or [manager.stratum].addr"
    else .ok ()
  else
    .error ("unsupported backend " ++ libs.debug cfg.backend ++
      " (expected \"bitcoind\" or \"stratum\")")

def validate (cfg : TemplateManagerConfig) : Except String Unit :=
  match cfg.validateBackend libs with
  | .error e => .error e
  | .ok () =>
      match hexDecode cfg.coinbaseOutputScriptHex with
      | .error _ =>
          .error ("coinbase_output_script_hex is not valid hex: " ++
            libs.debug cfg.coinbaseOutputScriptHex)
      | .ok _ =>
          if cfg.extranonceSize = 0 ∨ 32 < cfg.extranonceSize then
            .error ("extranonce_size must be 1..=32, got " ++
              toString cfg.extranonceSize)
          else .ok ()

/-- The configuration in a file's contents, which are missing when the file
cannot be read. -/
def fromPath (path : String) (contents : Except String String) :
    Except ErrorChain TemplateManagerConfig :=
  match contents with
  | .error e => .error ["failed to read manager config file " ++ path, e]
  | .ok text =>
      match parseManager libs text with
      | .error chain =>
          .error (("failed to parse manager config in " ++ path) :: chain)
      | .ok mgr =>
          match (normalize mgr).validate libs with
          | .error e => .error ["invalid manager config in " ++ path, e]
          | .ok () => .ok (normalize mgr)

end TemplateManagerConfig

end

/-! ## What is loaded -/

/-- The table reads as the structure when each of its fields does. -/
theorem ManagerTable.ofEntries_eq_some {entries : Toml.Entries}
    {mgr : ManagerTable} :
    ManagerTable.ofEntries entries = some mgr ↔
      required asString entries "backend" = some mgr.backend ∧
      optional asU64 entries "poll_interval_secs" = some mgr.pollIntervalSecs ∧
      optional asString entries "verifier_tcp_addr" = some mgr.verifierTcpAddr ∧
      optional asString entries "http_listen_addr" = some mgr.httpListenAddr ∧
      optional asString entries "rpc_url" = some mgr.rpcUrl ∧
      optional asString entries "rpc_user" = some mgr.rpcUser ∧
      optional asString entries "rpc_pass" = some mgr.rpcPass ∧
      optional asString entries "coinbase_output_script_hex" =
        some mgr.coinbaseOutputScriptHex ∧
      optional asU64 entries "extranonce_size" = some mgr.extranonceSize ∧
      optional asString entries "stratum_addr" = some mgr.stratumAddr ∧
      optional asString entries "stratum_auth" = some mgr.stratumAuth ∧
      optional BitcoindNested.ofToml entries "bitcoind" = some mgr.bitcoind ∧
      optional StratumNested.ofToml entries "stratum" = some mgr.stratum := by
  unfold ManagerTable.ofEntries
  constructor
  · intro h
    obtain ⟨_, h1, h⟩ := Option.bind_eq_some_iff.mp h
    obtain ⟨_, h2, h⟩ := Option.bind_eq_some_iff.mp h
    obtain ⟨_, h3, h⟩ := Option.bind_eq_some_iff.mp h
    obtain ⟨_, h4, h⟩ := Option.bind_eq_some_iff.mp h
    obtain ⟨_, h5, h⟩ := Option.bind_eq_some_iff.mp h
    obtain ⟨_, h6, h⟩ := Option.bind_eq_some_iff.mp h
    obtain ⟨_, h7, h⟩ := Option.bind_eq_some_iff.mp h
    obtain ⟨_, h8, h⟩ := Option.bind_eq_some_iff.mp h
    obtain ⟨_, h9, h⟩ := Option.bind_eq_some_iff.mp h
    obtain ⟨_, h10, h⟩ := Option.bind_eq_some_iff.mp h
    obtain ⟨_, h11, h⟩ := Option.bind_eq_some_iff.mp h
    obtain ⟨_, h12, h⟩ := Option.bind_eq_some_iff.mp h
    obtain ⟨_, h13, h⟩ := Option.bind_eq_some_iff.mp h
    cases h
    exact ⟨h1, h2, h3, h4, h5, h6, h7, h8, h9, h10, h11, h12, h13⟩
  · rintro ⟨h1, h2, h3, h4, h5, h6, h7, h8, h9, h10, h11, h12, h13⟩
    simp only [h1, h2, h3, h4, h5, h6, h7, h8, h9, h10, h11, h12, h13]
    rfl

theorem rootWrapper_eq_some {v : Toml} {mgr : ManagerTable} :
    rootWrapper v = some mgr ↔ ∃ root entries, v = .table root ∧
      Toml.get root "manager" = some (.table entries) ∧
        ManagerTable.ofEntries entries = some mgr := by
  constructor
  · intro h
    obtain ⟨root, hroot, h⟩ := Option.bind_eq_some_iff.mp h
    obtain ⟨mgrV, hget, h⟩ := Option.bind_eq_some_iff.mp h
    obtain ⟨entries, hentries, h⟩ := Option.bind_eq_some_iff.mp h
    exact ⟨root, entries, Toml.asTable_eq_some.mp hroot,
      Toml.asTable_eq_some.mp hentries ▸ hget, h⟩
  · rintro ⟨root, entries, rfl, hget, h⟩
    change (Toml.get root "manager").bind ManagerTable.ofToml = some mgr
    rw [hget]
    exact h

/-- The second way of parsing fails wherever the first one does. -/
theorem managerTableFromValue_eq_ok {libs : ConfigLibs} {contents : String}
    {v : Toml} {mgr : ManagerTable} (hparse : libs.toml.fromStr contents = .ok v)
    (h : managerTableFromValue libs contents = .ok mgr) :
    rootWrapper v = some mgr := by
  unfold managerTableFromValue at h
  rw [hparse] at h
  dsimp only at h
  split at h
  · cases h
  · rename_i mgrV hmgrV
    split at h
    · cases h
    · rename_i mgr' hmgr'
      cases h
      obtain ⟨root, hasTable, hget⟩ := Option.bind_eq_some_iff.mp hmgrV
      change (Toml.asTable v).bind (fun entries =>
        (Toml.get entries "manager").bind ManagerTable.ofToml) = _
      rw [hasTable, Option.bind_some, hget]
      exact hmgr'

/-- Both ways of parsing read the same table. -/
theorem parseManager_eq_ok {libs : ConfigLibs} {contents : String}
    {mgr : ManagerTable} :
    parseManager libs contents = .ok mgr ↔
      ∃ root entries, libs.toml.fromStr contents = .ok (.table root) ∧
        Toml.get root "manager" = some (.table entries) ∧
        ManagerTable.ofEntries entries = some mgr := by
  unfold parseManager
  cases hparse : libs.toml.fromStr contents with
  | error e => simp [Except.toOption, managerTableFromValue, hparse]
  | ok v =>
      have hdirect : (Except.toOption (.ok v : Except String Toml)).bind
          rootWrapper = rootWrapper v := rfl
      have hsame : (∃ root entries, (Except.ok v : Except String Toml) =
            .ok (.table root) ∧ Toml.get root "manager" = some (.table entries) ∧
            ManagerTable.ofEntries entries = some mgr) ↔
          rootWrapper v = some mgr := by
        rw [rootWrapper_eq_some]
        simp only [Except.ok.injEq]
      rw [hdirect, hsame]
      cases hroot : rootWrapper v with
      | some mgr' => simp
      | none =>
          simp only [reduceCtorEq, iff_false]
          intro hsecond
          have hwrapped := managerTableFromValue_eq_ok hparse hsecond
          rw [hroot] at hwrapped
          cases hwrapped

/-- A loaded configuration is the checked reading of the table. -/
theorem TemplateManagerConfig.fromPath_eq_ok {libs : ConfigLibs} {path text : String}
    {cfg : TemplateManagerConfig} :
    fromPath libs path (.ok text) = .ok cfg ↔
      ∃ mgr, parseManager libs text = .ok mgr ∧
        (normalize mgr).validate libs = .ok () ∧ cfg = normalize mgr := by
  unfold fromPath
  cases hparse : parseManager libs text with
  | error chain => simp [hparse]
  | ok mgr =>
      cases hvalid : (normalize mgr).validate libs with
      | error e => simp [hparse, hvalid]
      | ok u => simp [hparse, hvalid, eq_comm]

end ReserveGrid.TemplateManager
