import SearchFilter.Proofs.Runs

/-! # Broken configuration files

A configuration file may hold any text.  Of the commands for the file, `config path` and
`config init` do not look at it, so they succeed where there is one, broken or not; `config show`
loads it like any other command and fails if it cannot be used (`exitCode_of_config_command`). -/

namespace SearchFilter

namespace Config

/-- The text of a file that can be used: a TOML document in which what stands at the keys of a
configuration is of the right kind, of no newer version than can be read. -/
def Usable (text : Text) : Prop :=
  ∃ document version baseFilter output, Toml.read text = some document ∧
    version? (document.get? "version") = some version ∧
    baseFilter? (document.get? "base_filter") = some baseFilter ∧
    preferences? (document.get? "output") = some output ∧
    version ≤ currentVersion

theorem ofDocument?_eq_some_iff {document : Toml.Entries} {config : Config} :
    ofDocument? document = some config ↔
      version? (document.get? "version") = some config.version ∧
      baseFilter? (document.get? "base_filter") = some config.baseFilter ∧
      preferences? (document.get? "output") = some config.output := by
  constructor
  · intro h
    obtain ⟨version, hversion, h⟩ := Option.bind_eq_some_iff.mp h
    obtain ⟨baseFilter, hbase, h⟩ := Option.bind_eq_some_iff.mp h
    obtain ⟨output, houtput, h⟩ := Option.bind_eq_some_iff.mp h
    cases h
    exact ⟨hversion, hbase, houtput⟩
  · rintro ⟨hversion, hbase, houtput⟩
    rw [ofDocument?, hversion, hbase, houtput]
    rfl

theorem read_eq_ok_iff {text : Text} {config : Config} :
    read text = .ok config ↔
      (Toml.read text).bind ofDocument? = some config ∧ config.version ≤ currentVersion := by
  unfold read
  cases (Toml.read text).bind ofDocument? with
  | none => simp
  | some found =>
      dsimp only
      split
      · rename_i hnew
        constructor
        · intro h
          cases h
        · rintro ⟨h, hle⟩
          cases h
          omega
      · rename_i hold
        constructor
        · intro h
          cases h
          exact ⟨rfl, by omega⟩
        · rintro ⟨h, -⟩
          cases h
          rfl

theorem usable_iff {text : Text} : Usable text ↔ ∃ config, read text = .ok config := by
  constructor
  · rintro ⟨document, version, baseFilter, output, htext, hversion, hbase, houtput, hle⟩
    refine ⟨⟨version, baseFilter, output⟩, read_eq_ok_iff.mpr ⟨?_, hle⟩⟩
    exact Option.bind_eq_some_iff.mpr
      ⟨document, htext, ofDocument?_eq_some_iff.mpr ⟨hversion, hbase, houtput⟩⟩
  · rintro ⟨config, h⟩
    obtain ⟨hread, hle⟩ := read_eq_ok_iff.mp h
    obtain ⟨document, htext, hdocument⟩ := Option.bind_eq_some_iff.mp hread
    obtain ⟨hversion, hbase, houtput⟩ := ofDocument?_eq_some_iff.mp hdocument
    exact ⟨document, _, _, _, htext, hversion, hbase, houtput, hle⟩

instance (text : Text) : Decidable (Usable text) :=
  decidable_of_iff ((read text).toOption.isSome = true) <| by
    rw [usable_iff]
    cases read text <;> simp [Except.toOption]

end Config

namespace CommandLine

/-! ### The commands for the file -/

theorem exitCode_telling (settings : Settings) (told : Text) (response : Response) :
    (Response.telling settings told response).exitCode = response.exitCode := by
  unfold Response.telling
  split <;> rfl

section file

variable {env : Environment} {disk : Disk} {content : Text}

theorem exists_configPath (h : configFile env disk = .text content) :
    ∃ path, env.configPath = .ok path := by
  unfold configFile at h
  cases hpath : env.configPath with
  | error e =>
      rw [hpath] at h
      cases h
  | ok path => exact ⟨path, rfl⟩

theorem loadConfig_text {path : Text} (hpath : env.configPath = .ok path) (content : Text) :
    loadConfig env (.text content) = Config.read content := by
  unfold loadConfig
  rw [hpath]

theorem exitCode_displayResponse {path : Text} (hpath : env.configPath = .ok path)
    (settings : Settings) (file : ConfigFile) :
    (displayResponse env settings file).exitCode =
      match loadConfig env file with
      | .ok _ => 0
      | .error _ => 5 := by
  rw [displayResponse, exitCode_telling, hpath]
  cases loadConfig env file with
  | error e => rfl
  | ok config => rfl

/-- What the commands for the file answer where there is a text at its path. -/
def answer (env : Environment) (settings : Settings) (path content : Text) :
    ConfigAction → Response
  | .display => displayResponse env settings (.text content)
  | .path => pathResponse settings path true
  | .init => initResponse settings path false

/-- Where there is a text already, nothing is created. -/
theorem run_of_config_command {path : Text} {arguments : List Text} {settings : Settings}
    {action : ConfigAction} (hread : read arguments = .ok (settings, .config action))
    (hpath : env.configPath = .ok path) (hfile : configFile env disk = .text content) :
    run env arguments disk = (answer env settings path content action, disk) := by
  have hplan : plan env (configFile env disk) arguments =
      .respond (answer env settings path content action) := by
    rw [hfile, plan, hread]
    cases action with
    | display => rfl
    | path =>
        dsimp only [configPlan]
        rw [hpath]
        rfl
    | init =>
        dsimp only [configPlan]
        rw [hpath]
        rfl
  rw [run, hplan]

theorem exitCode_answer {path : Text} (hpath : env.configPath = .ok path) (settings : Settings) :
    ∀ action : ConfigAction,
      ((answer env settings path content action).exitCode = 0 ↔
        (action = .display → Config.Usable content)) ∧
      ((answer env settings path content action).exitCode ≠ 0 →
        (answer env settings path content action).exitCode = 5)
  | .display => by
      rw [answer, exitCode_displayResponse hpath, loadConfig_text hpath, Config.usable_iff]
      cases Config.read content with
      | error e => simp
      | ok config => simp
  | .path => ⟨⟨fun _ h => (by cases h), fun _ => rfl⟩, fun h => absurd rfl h⟩
  | .init => ⟨⟨fun _ h => (by cases h), fun _ => rfl⟩, fun h => absurd rfl h⟩

/-- **A broken file stops `config show`, and no other command for the file**: where there is a text
at the path of the configuration file, `config path` and `config init` succeed whatever it is, and
`config show` succeeds exactly if it can be used.  It fails with exit code 5 otherwise. -/
theorem exitCode_of_config_command {arguments : List Text} {settings : Settings}
    {action : ConfigAction} (hread : read arguments = .ok (settings, .config action))
    (hfile : configFile env disk = .text content) :
    ((run env arguments disk).1.exitCode = 0 ↔ (action = .display → Config.Usable content)) ∧
      ((run env arguments disk).1.exitCode ≠ 0 → (run env arguments disk).1.exitCode = 5) := by
  obtain ⟨path, hpath⟩ := exists_configPath hfile
  rw [run_of_config_command hread hpath hfile]
  exact exitCode_answer hpath settings action

/-- A file with an invalid base filter: its path is told, and it is not created again.  A file
with nothing but a comment is shown. -/
theorem exitCode_of_invalid_filter :
    let env : Environment := ⟨some "c.toml", none, some "/home", none, none⟩
    let broken : Disk := ⟨[(["c.toml"], .file "base_filter = \"(&)\"\n")], []⟩
    let usable : Disk := ⟨[(["c.toml"], .file "# empty\n")], []⟩
    (run env ["--json", "config", "path"] broken).1.exitCode = 0 ∧
      (run env ["config", "-q", "init"] broken).1.exitCode = 0 ∧
      (run env ["config"] usable).1.exitCode = 0 := by
  intro env broken usable
  have hbroken : configFile env broken = .text "base_filter = \"(&)\"\n" := by decide +kernel
  have husable : configFile env usable = .text "# empty\n" := by decide +kernel
  have hpath : read ["--json", "config", "path"] =
      .ok (⟨false, false, true, false⟩, .config .path) := rfl
  have hinit : read ["config", "-q", "init"] =
      .ok (⟨false, true, false, false⟩, .config .init) := rfl
  have hdisplay : read ["config"] =
      .ok (⟨false, false, false, false⟩, .config .display) := rfl
  refine ⟨?_, ?_, ?_⟩
  · exact (exitCode_of_config_command hpath hbroken).1.mpr fun h => (by cases h)
  · exact (exitCode_of_config_command hinit hbroken).1.mpr fun h => (by cases h)
  · exact (exitCode_of_config_command hdisplay husable).1.mpr fun _ => (by decide +kernel)

/-- A file with a newer version is not shown, even where nothing would be put out. -/
theorem exitCode_of_newer_version :
    let env : Environment := ⟨some "c.toml", none, some "/home", none, none⟩
    let disk : Disk := ⟨[(["c.toml"], .file "version = 2\n")], []⟩
    let arguments : List Text := ["config", "show", "--quiet"]
    read arguments = .ok (⟨false, true, false, false⟩, .config .display) ∧
      configFile env disk = .text "version = 2\n" ∧
      (run env arguments disk).1.exitCode = 5 :=
  ⟨rfl, by decide +kernel, by decide +kernel⟩

end file

end CommandLine
end SearchFilter
