import DesignLint.Analysis.Cohesion
import DesignLint.Analysis.Inversion
import DesignLint.Analysis.Openness
import DesignLint.Analysis.Segregation
import DesignLint.Data.Assoc

/-! Results as Markdown: one document for each principle, with what was found and how to mend it. -/

namespace DesignLint.Markdown

def unlines (lines : List String) : String :=
  String.join (lines.map (· ++ "\n"))

def commaList (names : List String) : String :=
  ", ".intercalate names

/-- At most `shown` of the items, each as a line, and how many more there are. -/
def limited {α : Type} (shown : Nat) (indent : String) (line : α → String) (items : List α) :
    List String :=
  (items.take shown).map (fun a => indent ++ "- " ++ line a)
    ++ if shown < items.length then
        [indent ++ "- ... and " ++ toString (items.length - shown) ++ " more"]
      else []

/-- Lines are shown counting from one. -/
def lineNumber (n : Int) : String :=
  toString (n + 1)

def percent (places : Nat) (a : Amount) : String :=
  a.hundredfold.fixed places ++ "%"

def header (title file intro : String) : List String :=
  ["# " ++ title ++ " Violation Analysis", "", "**File:** " ++ Path.label file, "", intro, ""]

def cohesionSection (r : CohesionResult) : List String :=
  let total := r.components.length
  ["## Class: " ++ r.className,
    "- **LCOM4 Score:** " ++ toString r.lcom4 ++ " (ideal is 1)",
    "- **Connected Components:** " ++ toString r.lcom4,
    "",
    "### Method Groups (disconnected responsibilities):"]
  ++ r.components.zipIdx.map (fun (group, i) =>
      toString (i + 1) ++ ". **Responsibility " ++ toString (i + 1) ++ ":** " ++ commaList group)
  ++ ["",
    "### Recommended Refactoring:",
    "This class has " ++ toString r.lcom4
      ++ " disconnected groups of methods that don't share state or call each other. "
      ++ "Consider extracting each group into its own class:",
    ""]
  ++ r.components.zipIdx.map (fun (group, i) =>
      "- Create `" ++ r.className ++ Cohesion.suffix i total ++ "` with methods: "
        ++ commaList group)
  ++ [""]

def cohesion (results : List CohesionResult) (file : String) : String :=
  unlines (header "Single Responsibility Principle" file
      "The following class(es) may violate the Single Responsibility Principle based on LCOM4 analysis:"
    ++ results.flatMap cohesionSection
    ++ ["---",
      "**Action Required:** Please refactor the above class(es) to follow the Single Responsibility "
        ++ "Principle. Each new class should have one clear responsibility and all its methods should "
        ++ "be cohesive (working on the same data/state)."])

def testLabel : TypeTestKind → String
  | .instanceOf => "isinstance/instanceof checks"
  | .typeEquality => "type() equality checks"
  | .typeOf => "typeof checks"
  | _ => "type-field conditionals"

def testGroup (tests : List TypeTest) : List String :=
  match tests with
  | [] => []
  | first :: _ =>
    ("- **" ++ testLabel first.kind ++ ":** " ++ toString tests.length)
      :: limited 3 "  " (fun t => "Line " ++ lineNumber t.line ++ ": `" ++ t.code ++ "`") tests

def opennessSection (r : OpennessResult) : List String :=
  ["## Class: " ++ r.className ++ ", Method: " ++ r.methodName,
    "- **OCP Score:** " ++ r.score.fixed 1 ++ " (threshold exceeded)",
    "- **Type-Check Density (TCD):** " ++ percent 1 r.density,
    "- **Type-Field Switch Count (TFSC):** " ++ toString r.fieldTests,
    "",
    "### Detected Violations:"]
  ++ (Assoc.groupBy (·.kind.name) r.tests).flatMap (fun group => testGroup group.2)
  ++ ["",
    "### Recommended Refactoring:",
    r.suggestion,
    "",
    "**Patterns to consider:**",
    "1. **Strategy Pattern:** Extract each type-specific behavior into separate strategy classes",
    "2. **Polymorphism:** Move behavior into subclasses and use method overriding",
    "3. **Visitor Pattern:** If operations vary independently from object structure",
    "4. **Factory + Registry:** Register handlers for each type dynamically",
    ""]

def openness (results : List OpennessResult) (file : String) : String :=
  unlines (header "Open/Closed Principle" file
      "The following method(s) may violate the Open/Closed Principle:"
    ++ results.flatMap opennessSection
    ++ ["---",
      "**Action Required:** Refactor to eliminate type-checking conditionals. "
        ++ "New types should be addable without modifying existing code."])

def siteGroup (title : String) (sites : List Site) : List String :=
  if sites.isEmpty then []
  else
    ["", "**" ++ title ++ ":**"]
      ++ limited 5 "" (fun s =>
          "Line " ++ lineNumber s.line ++ ": `" ++ s.className ++ "` - `" ++ s.code ++ "`") sites

def siteSections (sites : List Site) : List String :=
  if sites.isEmpty then []
  else
    ["### Direct Instantiations Found:"]
      ++ siteGroup "In Constructor" (sites.filter (·.kind == .inConstructor))
      ++ siteGroup "In Methods" (sites.filter (·.kind == .inMethod))

def inversionSection (r : InversionResult) : List String :=
  ["## Class: " ++ r.className,
    "- **DIP Score:** " ++ r.score.fixed 1 ++ " (threshold exceeded)",
    "- **Dependency Injection Index (DII):** " ++ percent 0 r.injectionIndex
      ++ " (100% = all injected)",
    "- **Constructor Instantiations:** " ++ toString r.constructorSites,
    "- **Method Instantiations:** " ++ toString r.methodSites,
    "- **Injected Dependencies:** " ++ toString r.injected,
    ""]
  ++ siteSections r.sites
  ++ ["",
    "### Recommended Refactoring:",
    r.suggestion,
    "",
    "**Steps to fix:**",
    "1. Create abstractions (interfaces/protocols) for each concrete dependency",
    "2. Add constructor parameters to receive dependencies",
    "3. Have concrete classes implement the abstractions",
    "4. Inject dependencies from calling code or use a DI container",
    ""]

def inversion (results : List InversionResult) (file : String) : String :=
  unlines (header "Dependency Inversion Principle" file
      "The following class(es) may violate the Dependency Inversion Principle:"
    ++ results.flatMap inversionSection
    ++ ["---",
      "**Action Required:** Refactor to inject dependencies instead of creating them internally. "
        ++ "High-level modules should depend on abstractions, not concrete implementations."])

def issueLabel : IssueKind → String
  | .fatInterface => "Fat Interface"
  | .emptyMethod => "Empty Method"
  | _ => "NotImplementedError"

def issueLine (i : Issue) : String :=
  "**" ++ issueLabel i.kind ++ ":** "
    ++ if i.methodName == "" then i.code
      else "`" ++ i.methodName ++ "` at line " ++ lineNumber i.line

def segregationHead (r : SegregationResult) : List String :=
  if r.isInterface then
    ["## Interface: " ++ r.className ++ " (Fat Interface)",
      "- **Abstract Method Count (IFS):** " ++ toString r.abstractMethods,
      "- **Recommended:** Split into smaller interfaces with 3-5 methods each",
      ""]
  else
    ["## Class: " ++ r.className ++ " (Forced Implementation)",
      "- **Stub Implementation Ratio (SIR):** " ++ percent 0 r.stubRatio,
      "- **Empty Implementations:** " ++ toString r.emptyMethods,
      "- **NotImplementedError Methods:** " ++ toString r.notImplemented,
      ""]

def segregationSection (r : SegregationResult) : List String :=
  segregationHead r
  ++ (if r.issues.isEmpty then []
      else "### Detected Issues:" :: limited 10 "" issueLine r.issues)
  ++ ["", "### Recommended Refactoring:", r.suggestion, ""]

def segregation (results : List SegregationResult) (file : String) : String :=
  unlines (header "Interface Segregation Principle" file
      "The following class(es)/interface(s) may violate the Interface Segregation Principle:"
    ++ results.flatMap segregationSection
    ++ ["---",
      "**Action Required:** Split large interfaces into smaller, role-specific interfaces. "
        ++ "Classes should only implement interfaces whose methods they actually use."])

def combined (file : String) (srp : List CohesionResult) (ocp : List OpennessResult)
    (dip : List InversionResult) (isp : List SegregationResult) : String :=
  let sections :=
    (if srp.isEmpty then [] else [cohesion srp file])
    ++ (if ocp.isEmpty then [] else [openness ocp file])
    ++ (if dip.isEmpty then [] else [inversion dip file])
    ++ (if isp.isEmpty then [] else [segregation isp file])
  "\n".intercalate sections

/-- The document of results all of which can be shown. -/
def openness? (results : List OpennessResult) (file : String) : Option String :=
  if results.all (·.isShowable) then some (openness results file) else none

def inversion? (results : List InversionResult) (file : String) : Option String :=
  if results.all (·.isShowable) then some (inversion results file) else none

def segregation? (results : List SegregationResult) (file : String) : Option String :=
  if results.all (·.isShowable) then some (segregation results file) else none

def combined? (file : String) (srp : List CohesionResult) (ocp : List OpennessResult)
    (dip : List InversionResult) (isp : List SegregationResult) : Option String :=
  if ocp.all (·.isShowable) && dip.all (·.isShowable) && isp.all (·.isShowable) then
    some (combined file srp ocp dip isp)
  else none

end DesignLint.Markdown
