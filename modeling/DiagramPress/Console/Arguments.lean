-- Reading the arguments of the program: options in long and short form, the
-- command and what it is given.
import DiagramPress.OutputFormat

namespace DiagramPress.Console

/-! ## Commands -/

structure GenerateOptions where
  input : Option String
  output : Option String
  stdout : Bool
  format : Option OutputFormat
  json : Bool
  config : Option String
  dumpLayout : Option String
deriving DecidableEq, Repr

inductive Command where
  | generate (options : GenerateOptions)
  | validate (input : String) (json : Bool)
  | shapes (category : Option String) (json : Bool)
  | themes (json : Bool)
  | schema
deriving DecidableEq, Repr

/-- What the arguments ask for. -/
inductive Request where
  | command (c : Command)
  | version
  | help
deriving DecidableEq, Repr

/-! ## Options -/

/-- An option of a command, with the letter of its short form. -/
structure OptionSpec where
  name : String
  letter : Option Char
  takesValue : Bool
deriving DecidableEq, Repr

/-- One thing found among the arguments. -/
inductive Item where
  | option (name value : String)
  | plain (text : String)
deriving DecidableEq, Repr

def verboseName : String := "verbose"

def helpName : String := "help"

/-- The options that every command has. -/
def commonSpecs : List OptionSpec :=
  [⟨verboseName, some 'v', false⟩, ⟨helpName, some 'h', false⟩]

/-- The argument has the look of an option; a single dash has not. -/
def looksLikeOption (arg : List Char) : Bool :=
  match arg with
  | '-' :: _ :: _ => true
  | _ => false

/-- Reads the letters after a single dash. An option with a value takes all
letters that follow, or else the next argument: then its name is returned. -/
def readLetters (specs : List OptionSpec) : List Char → Option (List Item × Option String)
  | [] => some ([], none)
  | c :: rest =>
    match specs.find? fun s => s.letter = some c with
    | none => none
    | some s =>
      if s.takesValue then
        match rest with
        | [] => some ([], some s.name)
        | '=' :: value => some ([.option s.name (String.ofList value)], none)
        | value => some ([.option s.name (String.ofList value)], none)
      else (readLetters specs rest).map fun (items, waiting) => (.option s.name "" :: items, waiting)

/-- Reads what follows two dashes: a name, with or without a value. -/
def readLong (specs : List OptionSpec) (text : List Char) : Option (List Item × Option String) :=
  let name := text.takeWhile (· ≠ '=')
  match specs.find? fun s => s.name.toList = name, text.drop name.length with
  | none, _ => none
  | some s, [] => some (if s.takesValue then ([], some s.name) else ([.option s.name ""], none))
  | some s, _ :: value =>
    if s.takesValue then some ([.option s.name (String.ofList value)], none) else none

/-- Reads arguments from left to right. `waiting` is the option whose value comes
next. A question for help makes the rest unimportant. -/
def readItems (specs : List OptionSpec) : Option String → List String → Option (List Item)
  | some _, [] => none
  | none, [] => some []
  | some name, arg :: rest =>
    if looksLikeOption arg.toList then none
    else (readItems specs none rest).map (.option name arg :: ·)
  | none, arg :: rest =>
    let continued (read : Option (List Item × Option String)) : Option (List Item) :=
      read.bind fun (items, waiting) =>
        if items.contains (.option helpName "") then some items
        else (readItems specs waiting rest).map (items ++ ·)
    match arg.toList with
    | ['-', '-'] => some (rest.map .plain)
    | '-' :: '-' :: text => continued (readLong specs text)
    | '-' :: c :: letters => continued (readLetters specs (c :: letters))
    | _ => (readItems specs none rest).map (.plain arg :: ·)

/-! ## Checking what was found -/

/-- The values given for an option. -/
def valuesOf (items : List Item) (name : String) : List String :=
  items.filterMap fun
    | .option n value => if n = name then some value else none
    | .plain _ => none

def plainTexts (items : List Item) : List String :=
  items.filterMap fun
    | .plain text => some text
    | .option _ _ => none

/-- No option but the one for verbosity may stand twice. -/
def eachOnce (specs : List OptionSpec) (items : List Item) : Bool :=
  specs.all fun s => s.name = verboseName || (valuesOf items s.name).length ≤ 1

def isGiven (items : List Item) (name : String) : Bool := !(valuesOf items name).isEmpty

/-- A path, which may be left out but not be empty. -/
def path? (given : List String) : Option (Option String) :=
  match given with
  | [] => some none
  | p :: _ => if p.isEmpty then none else some (some p)

/-- A format by its word. -/
def format? (given : List String) : Option (Option OutputFormat) :=
  match given with
  | [] => some none
  | w :: _ => (OutputFormat.all.find? fun f => f.word = w).map some

/-! ## The commands -/

def jsonSpec : OptionSpec := ⟨"json", none, false⟩

def generateSpecs : List OptionSpec :=
  [⟨"output", some 'o', true⟩, ⟨"stdout", none, false⟩, ⟨"format", some 'f', true⟩, jsonSpec,
    ⟨"config", some 'c', true⟩, ⟨"dump-layout", none, true⟩]

def generateOf (items : List Item) : Option Command := do
  if 1 < (plainTexts items).length then none
  let input ← path? (plainTexts items)
  let output ← path? (valuesOf items "output")
  let format ← format? (valuesOf items "format")
  let config ← path? (valuesOf items "config")
  let dumpLayout ← path? (valuesOf items "dump-layout")
  return .generate ⟨input, output, isGiven items "stdout", format, isGiven items "json", config,
    dumpLayout⟩

def validateOf (items : List Item) : Option Command :=
  match plainTexts items with
  | [p] => if p.isEmpty then none else some (.validate p (isGiven items "json"))
  | _ => none

def shapesOf (items : List Item) : Option Command :=
  match plainTexts items with
  | [] => some (.shapes none (isGiven items "json"))
  | [c] => some (.shapes (some c) (isGiven items "json"))
  | _ => none

def themesOf (items : List Item) : Option Command :=
  if (plainTexts items).isEmpty then some (.themes (isGiven items "json")) else none

def schemaOf (items : List Item) : Option Command :=
  if (plainTexts items).isEmpty then some .schema else none

/-- A command with its options and the way to make it from what is found. -/
def commandSpec? (word : String) : Option (List OptionSpec × (List Item → Option Command)) :=
  if word = "generate" then some (generateSpecs, generateOf)
  else if word = "validate" then some ([jsonSpec], validateOf)
  else if word = "shapes" then some ([jsonSpec], shapesOf)
  else if word = "themes" then some ([jsonSpec], themesOf)
  else if word = "schema" then some ([], schemaOf)
  else none

def readCommand (word : String) (args : List String) : Option Request := do
  let (own, make) ← commandSpec? word
  let specs := own ++ commonSpecs
  let items ← readItems specs none args
  if isGiven items helpName then return .help
  if eachOnce specs items then return .command (← make items) else none

/-! ## All arguments -/

/-- The letters before the command: the first of them that is no verbosity decides. -/
def readFrontLetters : List Char → Option (Option Request)
  | [] => some none
  | c :: rest =>
    if c = 'v' then readFrontLetters rest
    else if c = 'V' then some (some .version)
    else if c = 'h' then some (some .help)
    else none

/-- Reads all arguments; `none` if they make no sense. -/
def Request.parse? : List String → Option Request
  | [] => none
  | arg :: rest =>
    if arg = "--verbose" then parse? rest
    else if arg = "--version" then some .version
    else if arg = "--help" ∨ arg = helpName then some .help
    else
      match arg.toList with
      | '-' :: '-' :: _ => none
      | '-' :: c :: letters =>
        match readFrontLetters (c :: letters) with
        | none => none
        | some none => parse? rest
        | some (some request) => some request
      | _ => readCommand arg rest

end DiagramPress.Console
