import DesignLint.Report.Check

/-! Results as objects with named fields, for machine-readable output. -/

namespace DesignLint

def Value.listOf {α : Type} (f : α → Value) (items : List α) : Value :=
  .list (items.map f)

def CohesionResult.toValue (r : CohesionResult) : Value := .object [
  ("class_name", .str r.className),
  ("start_line", .int r.startLine),
  ("lcom4_value", .int r.lcom4),
  ("connected_components", .listOf (.listOf .ofString) r.components),
  ("suggestion", .str r.suggestion)]

def TypeTest.toValue (t : TypeTest) : Value := .object [
  ("line", .int t.line),
  ("kind", .str t.kind.name),
  ("code", .str t.code)]

def OpennessResult.toValue (r : OpennessResult) : Value := .object [
  ("class_name", .str r.className),
  ("method_name", .str r.methodName),
  ("start_line", .int r.startLine),
  ("tcd", r.density.toValue),
  ("tfsc", .int r.fieldTests),
  ("ocp_score", r.score.toValue),
  ("violations", .listOf TypeTest.toValue r.tests),
  ("suggestion", .str r.suggestion)]

def Site.toValue (s : Site) : Value := .object [
  ("line", .int s.line),
  ("kind", .str s.kind.name),
  ("code", .str s.code),
  ("class_name", .str s.className)]

def InversionResult.toValue (r : InversionResult) : Value := .object [
  ("class_name", .str r.className),
  ("start_line", .int r.startLine),
  ("constructor_instantiations", .int r.constructorSites),
  ("method_instantiations", .int r.methodSites),
  ("injected_dependencies", .int r.injected),
  ("total_dependencies", .int r.total),
  ("dii", r.injectionIndex.toValue),
  ("dip_score", r.score.toValue),
  ("violations", .listOf Site.toValue r.sites),
  ("suggestion", .str r.suggestion)]

def Issue.toValue (i : Issue) : Value := .object [
  ("line", .int i.line),
  ("kind", .str i.kind.name),
  ("method_name", .str i.methodName),
  ("code", .str i.code)]

def SegregationResult.toValue (r : SegregationResult) : Value := .object [
  ("class_name", .str r.className),
  ("start_line", .int r.startLine),
  ("is_interface", .bool r.isInterface),
  ("abstract_method_count", .int r.abstractMethods),
  ("empty_implementations", .int r.emptyMethods),
  ("not_implemented_errors", .int r.notImplemented),
  ("ifs", .int r.size),
  ("sir", r.stubRatio.toValue),
  ("isp_score", r.score.toValue),
  ("violations", .listOf Issue.toValue r.issues),
  ("suggestion", .str r.suggestion)]

def Diagnostic.toValue (d : Diagnostic) : Value := .object [
  ("start_line", .int d.startLine),
  ("start_col", .int d.startCol),
  ("end_line", .int d.endLine),
  ("end_col", .int d.endCol),
  ("message", d.message),
  ("severity", .str d.severity.name),
  ("source", .str d.source),
  ("code", d.code)]

def Value.ofText? : Option String → Value
  | some s => .str s
  | none => .null

def CheckReport.violationFields (r : CheckReport) : List (RawText × Value) := [
  ("srp", .listOf CohesionResult.toValue r.srpViolations),
  ("ocp", .listOf OpennessResult.toValue r.ocpViolations),
  ("dip", .listOf InversionResult.toValue r.dipViolations),
  ("isp", .listOf SegregationResult.toValue r.ispViolations)]

def CheckReport.toValue (r : CheckReport) : Value := .object (
  ("path", .str r.path) ::
  ("language_id", .ofText? r.languageName) ::
  ("skipped", .bool r.skipped) ::
  r.violationFields.concat
    ("diagnostics", .listOf Diagnostic.toValue (r.diagnostics.flatMap (·.2))))

end DesignLint
