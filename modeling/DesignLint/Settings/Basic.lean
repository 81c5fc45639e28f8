import DesignLint.Data.Value

/-! The settings of a check: what is checked, the thresholds, the outside scanner and the watching of
files. Names that are not known are kept with their values. -/

namespace DesignLint

structure Settings where
  projectRoot : String := "."
  watchDirectories : List String := ["."]
  ignoredPatterns : List String :=
    ["venv", ".venv", "**/__pycache__", ".git", "node_modules", "dist", "build"]
  languages : List String :=
    ["python", "typescript", "javascript", "typescriptreact", "javascriptreact"]
  enableSrp : Bool := true
  enableOcp : Bool := true
  enableDip : Bool := true
  enableIsp : Bool := true
  cohesionThreshold : Int := 1
  opennessThreshold : Float := 4.0
  inversionThreshold : Float := 3.0
  fatInterfaceThreshold : Int := 5
  stubRatioThreshold : Float := 0.3
  scannerEnabled : Bool := true
  scannerPath : String := "semgrep"
  rulesPath : String := "semgrep_rules.yaml"
  useCache : Bool := true
  scanOnSave : Bool := true
  scanOnOpen : Bool := true
  scanOnChange : Bool := false
  /-- Milliseconds for which a changed file has to be left alone before it is checked. -/
  scanOnChangeDelay : Int := 1500
  extra : List (String × Value) := []
  deriving Repr

namespace Settings

def texts (items : List String) : Value :=
  .list (items.map .ofString)

/-- The settings by name, those that are not known at the end. -/
def fields (s : Settings) : List (String × Value) := [
  ("project_root", .str s.projectRoot),
  ("watch_directories", texts s.watchDirectories),
  ("ignored_patterns", texts s.ignoredPatterns),
  ("languages", texts s.languages),
  ("enable_srp", .bool s.enableSrp),
  ("enable_ocp", .bool s.enableOcp),
  ("enable_dip", .bool s.enableDip),
  ("enable_isp", .bool s.enableIsp),
  ("srp_lcom4_threshold", .int s.cohesionThreshold),
  ("ocp_score_threshold", .float s.opennessThreshold),
  ("dip_score_threshold", .float s.inversionThreshold),
  ("isp_fat_interface_threshold", .int s.fatInterfaceThreshold),
  ("isp_sir_threshold", .float s.stubRatioThreshold),
  ("semgrep_enabled", .bool s.scannerEnabled),
  ("semgrep_path", .str s.scannerPath),
  ("rules_path", .str s.rulesPath),
  ("use_cache", .bool s.useCache),
  ("scan_on_save", .bool s.scanOnSave),
  ("scan_on_open", .bool s.scanOnOpen),
  ("scan_on_change", .bool s.scanOnChange),
  ("scan_on_change_delay", .int s.scanOnChangeDelay)] ++ s.extra

end Settings

end DesignLint
