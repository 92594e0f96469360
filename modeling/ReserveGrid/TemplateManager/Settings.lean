import ReserveGrid.TemplateManager.Config

/-!
# Saving settings

The dashboard changes settings of the configuration file. The request is
checked, its fields are set as flat keys of the `[manager]` table, the document
is loaded once under another name, and only then does it replace the file.

The loader lets the table of a backend override the flat keys, and the writer
never touches those tables: a setting that such a table holds is saved and has
no effect.
-/

namespace ReserveGrid.TemplateManager

open Support

/-- The editable fields of a request. -/
structure MgrSaveSettingsReq where
  backend : Option String := none
  pollIntervalSecs : Option UInt64 := none
  coinbaseOutputScriptHex : Option String := none
  extranonceSize : Option UInt64 := none
  rpcUrl : Option String := none
  rpcUser : Option String := none
  stratumAddr : Option String := none

/-- Why a request saves nothing: it is answered with an error, or its handler
panics. -/
inductive SaveFailure where
  | refused (status : ℕ) (error : String)
  | panicked
  deriving DecidableEq, Repr

inductive ConfigIoError where
  | serialize
  | write
  | rename
  deriving DecidableEq, Repr

def ConfigIoError.message : ConfigIoError → String
  | .serialize => "failed to serialize config"
  | .write => "failed to write config file"
  | .rename => "failed to rename config file"

/-- What a save reads from its surroundings: whether too many saves came
before it, and which accesses to the disk fail. -/
structure SaveEnv where
  throttled : Bool
  validatePath : String
  readConfig : Option String
  writeTemp : Option String
  readTemp : Option String
  atomicWrite : Option ConfigIoError

/-- Everything works. -/
def SaveEnv.works (validatePath : String) : SaveEnv :=
  ⟨false, validatePath, none, none, none, none⟩

/-! ## The request -/

/-- The text up to a byte position. A cut within a character panics. -/
def cutText (n : ℕ) (s : String) : Except SaveFailure String :=
  if n < s.utf8ByteSize then
    match takeBytes s.toList n with
    | none => .error .panicked
    | some cs => .ok (String.ofList cs)
  else .ok s

namespace MgrSaveSettingsReq

def checkBackend (req : MgrSaveSettingsReq) : Except SaveFailure Unit :=
  match req.backend with
  | none => .ok ()
  | some backend =>
      (cutText 64 backend).bind fun safeBackend =>
        if backend = "bitcoind" ∨ backend = "stratum" then .ok ()
        else .error (.refused 400 ("invalid backend: " ++ safeBackend ++
          "; expected one of [\"bitcoind\", \"stratum\"]"))

def checkExtranonceSize (req : MgrSaveSettingsReq) : Except SaveFailure Unit :=
  match req.extranonceSize with
  | none => .ok ()
  | some size =>
      if size = 0 ∨ 32 < size then
        .error (.refused 400
          ("extranonce_size must be 1..=32, got " ++ toString size))
      else .ok ()

def checkScript (req : MgrSaveSettingsReq) : Except SaveFailure Unit :=
  match req.coinbaseOutputScriptHex with
  | none => .ok ()
  | some hexStr =>
      match hexDecode hexStr with
      | .ok _ => .ok ()
      | .error _ =>
          (cutText 64 hexStr).bind fun safeHex =>
            .error (.refused 400
              ("coinbase_output_script_hex is not valid hex: " ++ safeHex))

/-- Set the fields of the request as flat keys. -/
def patchEntries (req : MgrSaveSettingsReq) (entries : Toml.Entries) :
    Toml.Entries :=
  let entries := Toml.insertSome "backend" (req.backend.map .string) entries
  let entries := Toml.insertSome "poll_interval_secs"
    (req.pollIntervalSecs.map fun n => .integer n.toInt64) entries
  let entries := Toml.insertSome "coinbase_output_script_hex"
    (req.coinbaseOutputScriptHex.map .string) entries
  let entries := Toml.insertSome "extranonce_size"
    (req.extranonceSize.map fun n => .integer n.toInt64) entries
  let entries := Toml.insertSome "rpc_url" (req.rpcUrl.map .string) entries
  let entries := Toml.insertSome "rpc_user" (req.rpcUser.map .string) entries
  Toml.insertSome "stratum_addr" (req.stratumAddr.map .string) entries

/-- Patch the `[manager]` table of a document, when it has one. -/
def patchDocument (req : MgrSaveSettingsReq) : Toml → Toml
  | .table root =>
      match (Toml.get root "manager").bind Toml.asTable with
      | some mgr =>
          .table (Toml.insert "manager" (.table (req.patchEntries mgr)) root)
      | none => .table root
  | v => v

end MgrSaveSettingsReq

/-! ## The save -/

section

variable (libs : ConfigLibs)

/-- Write a document over the file; the new contents. -/
def atomicWriteToml (fault : Option ConfigIoError) (v : Toml) :
    Except ConfigIoError String :=
  match libs.toml.toStringPretty v with
  | .error _ => .error .serialize
  | .ok text =>
      match fault with
      | some e => .error e
      | none => .ok text

/-- The document to be saved, with its text. -/
def patchedText (env : SaveEnv) (req : MgrSaveSettingsReq) (contents : String) :
    Except SaveFailure (Toml × String) :=
  match env.readConfig with
  | some e => .error (.refused 500 ("failed to read config: " ++ e))
  | none =>
      match libs.toml.fromStr contents with
      | .error msg =>
          (cutText 200 msg).bind fun truncated =>
            .error (.refused 500 ("failed to parse config: " ++ truncated))
      | .ok doc =>
          match libs.toml.toStringPretty (req.patchDocument doc) with
          | .error e => .error (.refused 500 ("failed to serialize: " ++ e))
          | .ok text => .ok (req.patchDocument doc, text)

/-- Load the patched text once under another name. -/
def validateText (env : SaveEnv) (text : String) : Except SaveFailure Unit :=
  match env.writeTemp with
  | some e => .error (.refused 500 ("failed to write temp: " ++ e))
  | none =>
      let contents : Except String String :=
        match env.readTemp with
        | some e => .error e
        | none => .ok text
      match TemplateManagerConfig.fromPath libs env.validatePath contents with
      | .ok _ => .ok ()
      | .error chain =>
          (cutText 200 (chain.headD "")).bind fun truncated =>
            .error (.refused 400 ("validation failed: " ++ truncated))

/-- The new contents of the file, if the request is saved. -/
def savedText (env : SaveEnv) (req : MgrSaveSettingsReq) (contents : String) :
    Except SaveFailure String :=
  if env.throttled then
    .error (.refused 429 "write rate limit exceeded, try again later")
  else
    req.checkBackend.bind fun _ =>
      req.checkExtranonceSize.bind fun _ =>
        req.checkScript.bind fun _ =>
          (patchedText libs env req contents).bind fun patched =>
            (validateText libs env patched.2).bind fun _ =>
              match atomicWriteToml libs env.atomicWrite patched.1 with
              | .ok text => .ok text
              | .error e =>
                  .error (.refused 500 ("failed to write config: " ++ e.message))

/-- Handle a request: the answer and the file afterwards. -/
def saveSettings (env : SaveEnv) (req : MgrSaveSettingsReq) (contents : String) :
    Except SaveFailure Unit × String :=
  match savedText libs env req contents with
  | .ok text => (.ok (), text)
  | .error failure => (.error failure, contents)

end

/-! ## What a save does to the configuration -/

namespace MgrSaveSettingsReq

/-- The configuration with the requested fields in place of its own. -/
def applyTo (req : MgrSaveSettingsReq) (cfg : TemplateManagerConfig) :
    TemplateManagerConfig :=
  { cfg with
    backend := req.backend.getD cfg.backend
    pollIntervalSecs := req.pollIntervalSecs.or cfg.pollIntervalSecs
    coinbaseOutputScriptHex :=
      req.coinbaseOutputScriptHex.getD cfg.coinbaseOutputScriptHex
    extranonceSize := req.extranonceSize.getD cfg.extranonceSize
    rpcUrl := req.rpcUrl.or cfg.rpcUrl
    rpcUser := req.rpcUser.or cfg.rpcUser
    stratumAddr := req.stratumAddr.or cfg.stratumAddr }

/-- The table with the requested fields as its flat settings. -/
def applyFlat (req : MgrSaveSettingsReq) (mgr : ManagerTable) : ManagerTable :=
  { mgr with
    backend := req.backend.getD mgr.backend
    pollIntervalSecs := req.pollIntervalSecs.or mgr.pollIntervalSecs
    coinbaseOutputScriptHex :=
      req.coinbaseOutputScriptHex.or mgr.coinbaseOutputScriptHex
    extranonceSize := req.extranonceSize.or mgr.extranonceSize
    rpcUrl := req.rpcUrl.or mgr.rpcUrl
    rpcUser := req.rpcUser.or mgr.rpcUser
    stratumAddr := req.stratumAddr.or mgr.stratumAddr }

/-- No table of a backend holds another value of a requested setting. -/
def Unopposed (req : MgrSaveSettingsReq) (mgr : ManagerTable) : Prop :=
  (∀ b ∈ mgr.bitcoind,
      (∀ v ∈ req.rpcUrl, v = b.rpcUrl) ∧ ∀ v ∈ req.rpcUser, v = b.rpcUser) ∧
    ∀ s ∈ mgr.stratum, ∀ v ∈ req.stratumAddr, v = s.addr

theorem or_eq_or_iff {α : Type} (nested requested flat : Option α) :
    nested.or (requested.or flat) = requested.or (nested.or flat) ↔
      ∀ n ∈ nested, ∀ v ∈ requested, v = n := by
  cases nested <;> cases requested <;> simp [eq_comm]

/-- Flat settings take effect exactly when no table of a backend opposes
them. -/
theorem normalize_applyFlat_iff (req : MgrSaveSettingsReq) (mgr : ManagerTable) :
    TemplateManagerConfig.normalize (req.applyFlat mgr) =
        req.applyTo (TemplateManagerConfig.normalize mgr) ↔
      req.Unopposed mgr := by
  have hurl := or_eq_or_iff (mgr.bitcoind.map (·.rpcUrl)) req.rpcUrl mgr.rpcUrl
  have huser := or_eq_or_iff (mgr.bitcoind.map (·.rpcUser)) req.rpcUser mgr.rpcUser
  have haddr := or_eq_or_iff (mgr.stratum.map (·.addr)) req.stratumAddr
    mgr.stratumAddr
  have hscript : (req.coinbaseOutputScriptHex.or mgr.coinbaseOutputScriptHex).getD
        "51" =
      req.coinbaseOutputScriptHex.getD (mgr.coinbaseOutputScriptHex.getD "51") := by
    cases req.coinbaseOutputScriptHex <;> rfl
  have hsize : (req.extranonceSize.or mgr.extranonceSize).getD 4 =
      req.extranonceSize.getD (mgr.extranonceSize.getD 4) := by
    cases req.extranonceSize <;> rfl
  unfold TemplateManagerConfig.normalize applyFlat applyTo Unopposed
  simp only [TemplateManagerConfig.mk.injEq, true_and, hscript, hsize, hurl,
    huser, haddr]
  cases mgr.bitcoind <;> cases mgr.stratum <;> simp [and_assoc]

/-- A number that reads back after it was written as a signed one is the number
written. -/
theorem asU64_toInt64 {n m : UInt64}
    (h : Toml.asU64 (.integer n.toInt64) = some m) :
    m = n := by
  change (if n.toInt64 < 0 then none else some n.toInt64.toUInt64) = some m at h
  split at h
  · simp at h
  · rw [UInt64.toUInt64_toInt64] at h
    exact (Option.some.inj h).symm

theorem asString_string {s t : String} (h : Toml.asString (.string s) = some t) :
    t = s :=
  (Option.some.inj h).symm

/-- A required field after it was set on request. -/
theorem required_set {α : Type} {read : Toml → Option α} {write : α → Toml}
    (hwrite : ∀ {a b}, read (write a) = some b → b = a) {requested : Option α}
    {field : Option α} {old new : α} (hold : field = some old)
    (hnew : ((requested.map write).map read).getD field = some new) :
    new = requested.getD old := by
  cases requested with
  | none => exact Option.some.inj (hnew.symm.trans hold)
  | some a => exact hwrite hnew

/-- An optional field after it was set on request. -/
theorem optional_set {α : Type} {read : Toml → Option α} {write : α → Toml}
    (hwrite : ∀ {a b}, read (write a) = some b → b = a) {requested : Option α}
    {field : Option (Option α)} {old new : Option α} (hold : field = some old)
    (hnew : ((requested.map write).map fun v => (read v).map some).getD field =
      some new) :
    new = requested.or old := by
  cases requested with
  | none => exact Option.some.inj (hnew.symm.trans hold)
  | some a =>
      obtain ⟨b, hb, rfl⟩ := Option.map_eq_some_iff.mp hnew
      rw [hwrite hb]
      rfl

/-- The patched entries read as the table with the requested fields, if they
read at all. -/
theorem ofEntries_patchEntries {req : MgrSaveSettingsReq} {entries : Toml.Entries}
    {mgr mgr' : ManagerTable} (h : ManagerTable.ofEntries entries = some mgr)
    (h' : ManagerTable.ofEntries (req.patchEntries entries) = some mgr') :
    mgr' = req.applyFlat mgr := by
  rw [ManagerTable.ofEntries_eq_some] at h h'
  unfold patchEntries at h'
  simp only [Toml.required_insertSome_self, Toml.optional_insertSome_self,
    Toml.required_insertSome_of_ne, Toml.optional_insertSome_of_ne, ne_eq,
    String.reduceEq, not_false_eq_true] at h'
  obtain ⟨h1, h2, h3, h4, h5, h6, h7, h8, h9, h10, h11, h12, h13⟩ := h
  obtain ⟨h1', h2', h3', h4', h5', h6', h7', h8', h9', h10', h11', h12', h13'⟩ := h'
  rw [h3] at h3'
  rw [h4] at h4'
  rw [h7] at h7'
  rw [h11] at h11'
  rw [h12] at h12'
  rw [h13] at h13'
  obtain ⟨⟩ := mgr
  obtain ⟨⟩ := mgr'
  simp only [applyFlat, ManagerTable.mk.injEq]
  exact ⟨required_set asString_string h1 h1', optional_set asU64_toInt64 h2 h2',
    (Option.some.inj h3').symm, (Option.some.inj h4').symm,
    optional_set asString_string h5 h5', optional_set asString_string h6 h6',
    (Option.some.inj h7').symm, optional_set asString_string h8 h8',
    optional_set asU64_toInt64 h9 h9', optional_set asString_string h10 h10',
    (Option.some.inj h11').symm, (Option.some.inj h12').symm,
    (Option.some.inj h13').symm⟩

end MgrSaveSettingsReq

/-! ## Saved files -/

section

variable {libs : ConfigLibs} {env : SaveEnv} {req : MgrSaveSettingsReq}
variable {contents : String}

theorem patchedText_eq_ok {patched : Toml × String}
    (h : patchedText libs env req contents = .ok patched) :
    ∃ doc, libs.toml.fromStr contents = .ok doc ∧
      patched.1 = req.patchDocument doc ∧
      libs.toml.toStringPretty patched.1 = .ok patched.2 := by
  unfold patchedText at h
  split at h
  · cases h
  · split at h
    · obtain ⟨_, _, hrefused⟩ := Result.bind_eq_ok.mp h
      cases hrefused
    · rename_i doc hparse
      split at h
      · cases h
      · rename_i text htext
        cases h
        exact ⟨doc, hparse, rfl, htext⟩

theorem validateText_eq_ok {text : String} {u : Unit}
    (h : validateText libs env text = .ok u) :
    ∃ cfg, TemplateManagerConfig.fromPath libs env.validatePath (.ok text) =
      .ok cfg := by
  unfold validateText at h
  split at h
  · cases h
  · cases hread : env.readTemp with
    | some e =>
        rw [hread] at h
        obtain ⟨_, _, hrefused⟩ := Result.bind_eq_ok.mp h
        cases hrefused
    | none =>
        rw [hread] at h
        cases hload : TemplateManagerConfig.fromPath libs env.validatePath
            (.ok text) with
        | ok cfg => exact ⟨cfg, rfl⟩
        | error chain =>
            simp only [hload] at h
            obtain ⟨_, _, hrefused⟩ := Result.bind_eq_ok.mp h
            cases hrefused

theorem atomicWriteToml_eq_ok {fault : Option ConfigIoError} {v : Toml}
    {text : String} (h : atomicWriteToml libs fault v = .ok text) :
    libs.toml.toStringPretty v = .ok text := by
  unfold atomicWriteToml at h
  split at h
  · cases h
  · rename_i written hwritten
    split at h
    · cases h
    · cases h
      exact hwritten

theorem savedText_eq_ok {after : String}
    (h : savedText libs env req contents = .ok after) :
    ∃ doc cfg, libs.toml.fromStr contents = .ok doc ∧
      libs.toml.toStringPretty (req.patchDocument doc) = .ok after ∧
      TemplateManagerConfig.fromPath libs env.validatePath (.ok after) =
        .ok cfg := by
  unfold savedText at h
  split at h
  · cases h
  · obtain ⟨_, _, h⟩ := Result.bind_eq_ok.mp h
    obtain ⟨_, _, h⟩ := Result.bind_eq_ok.mp h
    obtain ⟨_, _, h⟩ := Result.bind_eq_ok.mp h
    obtain ⟨patched, hpatched, h⟩ := Result.bind_eq_ok.mp h
    obtain ⟨_, hvalid, h⟩ := Result.bind_eq_ok.mp h
    obtain ⟨doc, hparse, hdoc, htext⟩ := patchedText_eq_ok hpatched
    obtain ⟨cfg, hload⟩ := validateText_eq_ok hvalid
    split at h
    · rename_i written hwrite
      cases h
      have hwritten := atomicWriteToml_eq_ok hwrite
      have hsame : patched.2 = after :=
        Except.ok.inj (htext.symm.trans hwritten)
      exact ⟨doc, cfg, hparse, hdoc ▸ hwritten, hsame ▸ hload⟩
    · cases h

/-- What a save that is answered with success did. -/
theorem saveSettings_eq_saved {after : String}
    (h : saveSettings libs env req contents = (.ok (), after)) :
    ∃ doc cfg, libs.toml.fromStr contents = .ok doc ∧
      libs.toml.toStringPretty (req.patchDocument doc) = .ok after ∧
      TemplateManagerConfig.fromPath libs env.validatePath (.ok after) =
        .ok cfg := by
  unfold saveSettings at h
  split at h
  · rename_i text htext
    cases h
    exact savedText_eq_ok htext
  · cases h

/-- The table in the file that a save leaves. -/
theorem parseManager_saved (hlib : libs.toml.Lawful) {after : String}
    {mgr : ManagerTable} (hmgr : parseManager libs contents = .ok mgr)
    (hsaved : saveSettings libs env req contents = (.ok (), after)) :
    parseManager libs after = .ok (req.applyFlat mgr) := by
  obtain ⟨root, entries, hparse, hget, hentries⟩ := parseManager_eq_ok.mp hmgr
  obtain ⟨doc, cfg, hdoc, htext, hload⟩ := saveSettings_eq_saved hsaved
  obtain rfl : doc = .table root := Except.ok.inj (hdoc.symm.trans hparse)
  have hpatched : req.patchDocument (.table root) =
      .table (Toml.insert "manager" (.table (req.patchEntries entries)) root) := by
    simp [MgrSaveSettingsReq.patchDocument, hget, Toml.asTable]
  rw [hpatched] at htext
  have hback := hlib.fromStr_toStringPretty htext
  obtain ⟨mgr', hmgr', -, -⟩ := TemplateManagerConfig.fromPath_eq_ok.mp hload
  obtain ⟨root', entries', hparse', hget', hentries'⟩ :=
    parseManager_eq_ok.mp hmgr'
  obtain rfl := Toml.table.inj (Except.ok.inj (hback.symm.trans hparse'))
  rw [Toml.get_insert_self] at hget'
  obtain rfl := Toml.table.inj (Option.some.inj hget')
  rw [← MgrSaveSettingsReq.ofEntries_patchEntries hentries hentries']
  exact hmgr'

end

/-- A save that is answered with success leaves a file that loads with every
requested field at its requested value and every other field as it was, if and
only if no table of a backend holds another value of a requested field. -/
theorem settings_survive_iff {libs : ConfigLibs} (hlib : libs.toml.Lawful)
    {env : SaveEnv} {path : String} {req : MgrSaveSettingsReq}
    {contents after : String} {mgr : ManagerTable} {cfg : TemplateManagerConfig}
    (hmgr : parseManager libs contents = .ok mgr)
    (hcfg : TemplateManagerConfig.fromPath libs path (.ok contents) = .ok cfg)
    (hsaved : saveSettings libs env req contents = (.ok (), after)) :
    TemplateManagerConfig.fromPath libs path (.ok after) =
        .ok (req.applyTo cfg) ↔
      req.Unopposed mgr := by
  obtain ⟨mgr₀, hmgr₀, -, rfl⟩ := TemplateManagerConfig.fromPath_eq_ok.mp hcfg
  obtain rfl : mgr₀ = mgr := Except.ok.inj (hmgr₀.symm.trans hmgr)
  have hparsed := parseManager_saved hlib hmgr hsaved
  obtain ⟨-, loaded, -, -, hload⟩ := saveSettings_eq_saved hsaved
  obtain ⟨mgr', hmgr', hvalid, -⟩ :=
    TemplateManagerConfig.fromPath_eq_ok.mp hload
  obtain rfl : mgr' = req.applyFlat mgr₀ :=
    Except.ok.inj (hmgr'.symm.trans hparsed)
  rw [← req.normalize_applyFlat_iff, TemplateManagerConfig.fromPath_eq_ok]
  constructor
  · rintro ⟨mgr'', hmgr'', -, hcfg''⟩
    obtain rfl : mgr'' = req.applyFlat mgr₀ :=
      Except.ok.inj (hmgr''.symm.trans hparsed)
    exact hcfg''.symm
  · intro hsame
    exact ⟨_, hparsed, hvalid, hsame.symm⟩

/-! ## Two files -/

/-- A file with flat settings. -/
def flatText (url : String) : String :=
  "[manager]\nbackend = \"bitcoind\"\nrpc_url = \"" ++ url ++ "\"\n"

def flatDocument (url : String) : Toml :=
  .table [("manager", .table [("backend", .string "bitcoind"),
    ("rpc_url", .string url)])]

/-- The table of a backend, as it follows the flat settings. -/
def nestedText : String :=
  "\n[manager.bitcoind]\nrpc_pass = \"pass\"\nrpc_url = \"http://a\"\n" ++
    "rpc_user = \"user\"\n"

def nestedDocument (rest : Toml.Entries) : Toml :=
  .table [("manager", .table (("backend", .string "bitcoind") ::
    ("bitcoind", .table [("rpc_pass", .string "pass"),
      ("rpc_url", .string "http://a"), ("rpc_user", .string "user")]) :: rest))]

/-- The library on these files. -/
def exampleToml : TomlLib where
  fromStr text :=
    if text = flatText "http://a" then .ok (flatDocument "http://a")
    else if text = flatText "http://b" then .ok (flatDocument "http://b")
    else if text = "[manager]\nbackend = \"bitcoind\"\n" ++ nestedText then
      .ok (nestedDocument [])
    else if text = flatText "http://b" ++ nestedText then
      .ok (nestedDocument [("rpc_url", .string "http://b")])
    else .error "TOML parse error"
  toStringPretty
    | .table [("manager", .table [("backend", .string "bitcoind"),
        ("rpc_url", .string "http://b")])] => .ok (flatText "http://b")
    | .table [("manager", .table [("backend", .string "bitcoind"),
        ("bitcoind", .table [("rpc_pass", .string "pass"),
          ("rpc_url", .string "http://a"), ("rpc_user", .string "user")]),
        ("rpc_url", .string "http://b")])] =>
        .ok (flatText "http://b" ++ nestedText)
    | _ => .error "unsupported value"

theorem exampleToml_lawful : exampleToml.Lawful where
  fromStr_toStringPretty := by
    intro v text h
    simp only [exampleToml] at h
    split at h
    · cases h
      rfl
    · cases h
      rfl
    · cases h

def exampleLibs : ConfigLibs where
  toml := exampleToml
  shapeError _ := "missing field"
  debug text := "\"" ++ text ++ "\""

/-- The table with an address of the node and nothing else but its backend. -/
def flatTable (url : String) : ManagerTable :=
  ⟨"bitcoind", none, none, none, some url, none, none, none, none, none, none,
    none, none⟩

/-- The table that names the node in the table of its backend. -/
def nestedTable : ManagerTable :=
  ⟨"bitcoind", none, none, none, none, none, none, none, none, none, none,
    some ⟨"http://a", "user", "pass"⟩, none⟩

/-- A flat setting is changed. -/
theorem settings_survive_flat :
    TemplateManagerConfig.fromPath exampleLibs "manager.toml"
        (.ok (flatText "http://b")) =
      .ok (MgrSaveSettingsReq.applyTo { rpcUrl := some "http://b" }
        (.normalize (flatTable "http://a"))) := by
  have hmgr : parseManager exampleLibs (flatText "http://a") =
      .ok (flatTable "http://a") := rfl
  have hcfg : TemplateManagerConfig.fromPath exampleLibs "manager.toml"
      (.ok (flatText "http://a")) = .ok (.normalize (flatTable "http://a")) := rfl
  have hsaved : saveSettings exampleLibs (.works "manager.toml.validate")
      { rpcUrl := some "http://b" } (flatText "http://a") =
        (.ok (), flatText "http://b") := rfl
  exact (settings_survive_iff exampleToml_lawful hmgr hcfg hsaved).mpr
    (by simp [MgrSaveSettingsReq.Unopposed, flatTable])

/-- The file names the node in the table of its backend. A request for another
node is answered with success, and the file loads with the old one. -/
theorem not_settings_survive :
    ¬ ∀ (libs : ConfigLibs), libs.toml.Lawful →
      ∀ (env : SaveEnv) (path : String) (req : MgrSaveSettingsReq)
        (contents after : String) (cfg : TemplateManagerConfig),
        TemplateManagerConfig.fromPath libs path (.ok contents) = .ok cfg →
        saveSettings libs env req contents = (.ok (), after) →
        TemplateManagerConfig.fromPath libs path (.ok after) =
          .ok (req.applyTo cfg) := by
  intro h
  have hload := h exampleLibs exampleToml_lawful (.works "manager.toml.validate")
    "manager.toml" { rpcUrl := some "http://b" }
    ("[manager]\nbackend = \"bitcoind\"\n" ++ nestedText)
    (flatText "http://b" ++ nestedText) (.normalize nestedTable) rfl rfl
  have hold : TemplateManagerConfig.fromPath exampleLibs "manager.toml"
      (.ok (flatText "http://b" ++ nestedText)) = .ok (.normalize nestedTable) :=
    rfl
  rw [hold] at hload
  exact absurd (congrArg TemplateManagerConfig.rpcUrl (Except.ok.inj hload))
    (by decide)

end ReserveGrid.TemplateManager
