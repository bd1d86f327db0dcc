-- The program: what each command reads, prints and writes, and with which code
-- it ends. It runs in any surroundings.
import DiagramPress.Compile
import DiagramPress.Console.Arguments
import DiagramPress.Console.Files
import DiagramPress.Data.Writer
import DiagramPress.Description.Outline
import DiagramPress.Layout.Report
import DiagramPress.Settings.Reader

namespace DiagramPress.Console

open Data (Document)

/-! ## Failures -/

/-- Why a command cannot do its work. -/
inductive Failure where
  | settingsFile (cause : FileError)
  | settings (cause : SettingsError)
  | inputFile (path : String) (cause : FileError)
  | input (cause : FileError)
  | description (cause : DescriptionError)
  | layout (cause : LayoutError)
  | output (cause : FileError)
  | extract (cause : Image.ExtractError)

namespace Failure

/-- The failure without what led to it. -/
def message : Failure → String
  | settingsFile cause => cause.message
  | settings cause => cause.message
  | inputFile path _ => "failed to read " ++ path
  | input cause => cause.message
  | description cause => cause.message
  | layout cause => cause.message
  | output cause => cause.message
  | extract cause => cause.message

/-- The failure with the chain of causes behind it. -/
def fullMessage : Failure → String
  | inputFile path cause => (inputFile path cause).message ++ ": " ++ cause.message
  | description (.decoding cause) =>
    (DescriptionError.decoding cause).message ++ ": " ++ cause.message
  | f => f.message

/-- A failure as a document: problems of a description one by one. -/
def document : Failure → Document
  | description (.invalid problems) =>
    .object [("error", .boolean true),
      ("errors", .array (problems.map fun p => .string p.message))]
  | f => .object [("error", .boolean true), ("message", .string f.fullMessage)]

end Failure

/-- Codes with which the program ends. -/
abbrev ExitCode := Nat

namespace ExitCode

def success : ExitCode := 0

def failure : ExitCode := 1

/-- The arguments are not understood, or the program finds a fault of its own. -/
def misuse : ExitCode := 2

end ExitCode

/-! ## Texts -/

def programName : String := "drawr"

def versionText : String := programName ++ " 0.1.0"

def usageText : String :=
  "usage: drawr [-v] generate [input] [-o output] [--stdout] [-f drawio|drawio-svg] [--json]\n" ++
    "                      [-c config] [--dump-layout path]\n" ++
    "       drawr [-v] validate input [--json]\n" ++
    "       drawr [-v] shapes [category] [--json]\n" ++
    "       drawr [-v] themes [--json]\n" ++
    "       drawr [-v] schema"

def strings (l : List String) : Document := .array (l.map .string)

def bulleted (l : List String) : List String := l.map fun t => "  - " ++ t

variable {m : Type → Type} [Monad m]

/-- One step of a command, which may fail. -/
abbrev Step (m : Type → Type) := ExceptT Failure m

def Surroundings.sayLine (s : Surroundings m) (text : String) : m Unit := s.print (text ++ "\n")

def Surroundings.complainLine (s : Surroundings m) (text : String) : m Unit :=
  s.complain (text ++ "\n")

/-- Does something with files and names the failure if it does not work. -/
def attempt {β : Type} (action : m (Except FileError β)) (failure : FileError → Failure) :
    Step m β := do
  match ← (action : m _) with
  | .ok b => return b
  | .error e => throw (failure e)

def orFail {β ε : Type} (failure : ε → Failure) (result : Except ε β) : Step m β :=
  match result with
  | .ok b => return b
  | .error e => throw (failure e)

/-! ## Generating -/

def loadSettings (s : Surroundings m) (path : Option String) : Step m (Settings Float32) := do
  match path with
  | none => return Settings.default
  | some p => orFail .settings (Settings.parse (← attempt (s.read p) .settingsFile))

/-- The text of the description: from a file, or from the input for a single dash. -/
def loadSource (s : Surroundings m) (path : Option String) : Step m String :=
  match path with
  | none => attempt s.input .input
  | some p => if p = "-" then attempt s.input .input else attempt (s.read p) (.inputFile p)

/-- What is printed after a file has been written. -/
def summary (o : GenerateOptions) (path : String) (format : OutputFormat)
    (d : Description Float32) (diagnostics : List Diagnostic) : String :=
  if o.json then
    (Document.object [("edges", .count d.edges.length), ("format", .string format.extension),
      ("nodes", .count d.nodes.length), ("output", .string path), ("success", .boolean true),
      ("warnings", strings (diagnostics.map (·.text)))]).compact
  else
    "Written to " ++ path ++ " (" ++ toString d.nodes.length ++ " nodes, " ++
      toString d.edges.length ++ " edges)"

/-- Writes what was compiled where the options say. -/
def deliver (s : Surroundings m) (o : GenerateOptions) (d : Description Float32)
    (c : Compiled Float32) : Step m ExitCode := do
  match o.dumpLayout with
  | some p => attempt (s.write p (LayoutReport.ofModel c.model d.layout).text) .output
  | none => pure ()
  let format := OutputFormat.select o.output o.format
  match if o.stdout then none else o.output with
  | none => s.print (c.output format)
  | some p =>
    attempt (s.write p (c.output format)) .output
    s.sayLine (summary o p format d c.diagnostics)
  return ExitCode.success

/-- Generates a diagram; `now` is the time for its document. -/
def generateDiagram (s : Surroundings m) (now : String) (o : GenerateOptions) :
    Step m ExitCode := do
  let settings ← loadSettings s o.config
  let source ← loadSource s o.input
  let d ← orFail .description (Description.parse source)
  let c ← orFail .layout ((Workshop.bundled settings now).compile d)
  c.diagnostics.forM fun g => s.complainLine ("warning: " ++ g.text)
  if c.report.valid then deliver s o d c
  else
    s.complainLine "Generated XML has validation errors (this is a bug):"
    (bulleted (c.report.errors.map (·.message))).forM fun line => s.complainLine line
    return ExitCode.misuse

/-- Runs a step and tells of its failure. -/
def conclude (step : Step m ExitCode) (tell : Failure → m Unit) : m ExitCode := do
  match ← step.run with
  | .ok code => return code
  | .error f =>
    tell f
    return ExitCode.failure

def complainOf (s : Surroundings m) (f : Failure) : m Unit :=
  s.complainLine ("error: " ++ f.message)

def generate (s : Surroundings m) (now : String) (o : GenerateOptions) : m ExitCode :=
  conclude (generateDiagram s now o) fun f =>
    if o.json then s.sayLine f.document.compact else complainOf s f

/-! ## Validating -/

/-- The document in a file: the file itself, or what is embedded in an image. -/
def documentIn (text : String) : Except Image.ExtractError String :=
  if "<mxfile".toList.isPrefixOf (text.toList.dropWhile Text.isBlank) then .ok text
  else if Markup.occurs "<svg".toList text.toList then
    Image.extract Codec.Packing.compressed text
  else .ok text

def reportDocument (r : Markup.CheckReport) : Document :=
  .object [("valid", .boolean r.valid), ("errors", strings (r.errors.map (·.message))),
    ("warnings", strings (r.warnings.map (·.message)))]

def printReport (s : Surroundings m) (r : Markup.CheckReport) : m Unit := do
  if r.valid then s.sayLine "Valid draw.io XML"
  else
    s.complainLine "Validation errors:"
    (bulleted (r.errors.map (·.message))).forM fun line => s.complainLine line
  if !r.warnings.isEmpty then
    s.complainLine "Warnings:"
    (bulleted (r.warnings.map (·.message))).forM fun line => s.complainLine line

def validateFile (s : Surroundings m) (path : String) (json : Bool) : Step m ExitCode := do
  let text ← attempt (s.read path) (.inputFile path)
  let r := Markup.check (← orFail .extract (documentIn text))
  let tell : m Unit :=
    if json then s.sayLine (reportDocument r).compact else printReport s r
  tell
  return if r.valid then ExitCode.success else ExitCode.failure

/-! ## Listing -/

def listCategories (s : Surroundings m) (shapes : ShapeCatalog) (json : Bool) : m Unit :=
  if json then
    s.sayLine (Document.object [("categories", strings shapes.categories)]).compact
  else do
    s.sayLine "Available shape categories:"
    shapes.categories.forM fun c =>
      s.sayLine ("  " ++ c ++ " (" ++ toString (shapes.inCategory c).length ++ " shapes)")

def listShapes (s : Surroundings m) (shapes : ShapeCatalog) (category : String) (json : Bool) :
    m ExitCode := do
  let found := shapes.inCategory category
  if found.isEmpty then
    s.complainLine ("Unknown category \"" ++ category ++ "\". Available: " ++
      String.intercalate ", " shapes.categories)
    return ExitCode.failure
  if json then
    s.sayLine (Document.object [("category", .string category),
      ("shapes", .object (found.map fun (name, style) => (name, .string style)))]).compact
  else
    s.sayLine ("Shapes in \"" ++ category ++ "\":")
    found.forM fun (name, _) => s.sayLine ("  " ++ name)
  return ExitCode.success

def listThemes (s : Surroundings m) (themes : ThemeSet Float32) (json : Bool) : m Unit :=
  if json then
    let entry (t : Theme Float32) : Document :=
      .object [("background", .string t.background), ("name", .string t.name.word),
        ("palette", strings t.palette)]
    s.sayLine (Document.object [("themes", .array (themes.themes.map entry))]).compact
  else do
    s.sayLine "Available themes:"
    themes.themes.forM fun t =>
      s.sayLine ("  " ++ t.name.word ++ " (background: " ++ t.background ++ ", accents: " ++
        String.intercalate " " t.palette ++ ")")

/-! ## The whole program -/

def runCommand (s : Surroundings m) (now : String) : Command → m ExitCode
  | .generate o => generate s now o
  | .validate path json => conclude (validateFile s path json) (complainOf s)
  | .shapes none json => do
    listCategories s ShapeCatalog.builtin json
    return ExitCode.success
  | .shapes (some category) json => listShapes s ShapeCatalog.builtin category json
  | .themes json => do
    listThemes s ThemeSet.builtin json
    return ExitCode.success
  | .schema => do
    s.sayLine Description.outline.pretty
    return ExitCode.success

/-- Runs the program on its arguments. -/
def run (s : Surroundings m) (now : String) (args : List String) : m ExitCode := do
  match Request.parse? args with
  | some (.command c) => runCommand s now c
  | some .version =>
    s.sayLine versionText
    return ExitCode.success
  | some .help =>
    s.sayLine usageText
    return ExitCode.success
  | none =>
    s.complainLine usageText
    return ExitCode.misuse

end DiagramPress.Console
