import ListingFilter.Report
import ListingFilter.Settings.File
import ListingFilter.Text.Typed

namespace ListingFilter.CommandLine

inductive OptionName
  | config
  | dialect
  | filter
  deriving DecidableEq, Repr

def OptionName.flag : OptionName → Text
  | config => .ofString "--config"
  | dialect => .ofString "--dialect"
  | filter => .ofString "--filter"

def OptionName.all : List OptionName := [config, dialect, filter]

structure Options where
  config? : Option Text
  dialect? : Option Dialect
  filter? : Option Text
  deriving DecidableEq, Repr

inductive Request
  | run (options : Options)
  | version
  | help
  | misuse
  deriving DecidableEq, Repr

def readDialect? (t : Text) : Option Dialect :=
  let lower := t.map Char.toLower
  if lower = Text.ofString "postgresql" then some .postgres
  else Dialect.all.find? fun d ↦ d.name = lower

def Options.set? (o : Options) (name : OptionName) (value : Text) : Option Options :=
  match name with
  | .config => if o.config?.isSome ∨ value.isEmpty then none else some { o with config? := some value }
  | .dialect =>
    if o.dialect?.isSome then none
    else (readDialect? value).map fun d ↦ { o with dialect? := some d }
  | .filter => if o.filter?.isSome then none else some { o with filter? := some value }

def isValue (arg : Text) : Bool := arg.head? ≠ some '-' ∨ arg = ['-']

def attached? (arg : Text) : Option (OptionName × Text) :=
  OptionName.all.findSome? fun name ↦
    (Text.after? (name.flag ++ ['=']) arg).map fun value ↦ (name, value)

def detached? (arg : Text) : Option OptionName := OptionName.all.find? fun name ↦ name.flag = arg

def readOther (arg : Text) : Request :=
  if arg = .ofString "--version" ∨ ['-', 'V'].isPrefixOf arg then .version
  else if arg = .ofString "--help" ∨ ['-', 'h'].isPrefixOf arg then .help
  else .misuse

def readArgs (o : Options) : List Text → Request
  | [] => .run o
  | arg :: rest =>
    match attached? arg, detached? arg, rest with
    | some (name, value), _, rest =>
      match o.set? name value with
      | some o => readArgs o rest
      | none => .misuse
    | none, some _, [] => .misuse
    | none, some name, value :: rest =>
      match isValue value, o.set? name value with
      | true, some o => readArgs o rest
      | _, _ => .misuse
    | none, none, [] => if arg = ['-', '-'] then .run o else readOther arg
    | none, none, _ :: _ => readOther arg

def request (args : List Text) : Request := readArgs ⟨none, none, none⟩ args

structure Outcome where
  exitCode : Nat
  output : Text
  deriving DecidableEq, Repr

def defaultFile : Text := .ofString "job_filter.json"

/-- The settings that options ask for. A named file must hold settings; the default file need not. -/
def settings? (o : Options) (file : Text → FileContent) : Option Settings := do
  let settings ← match o.config? with
    | some path => (Settings.loadFile path (file path)).toOption
    | none => some ((Settings.loadFile defaultFile (file defaultFile)).toOption.getD .default)
  return { settings with dialect := o.dialect?.getD settings.dialect }

def banner : Text :=
  Report.line (.ofString "--- job-filter: filter expression → SQL ---") ++
    Report.line (.ofString "示例: job_type = full-time AND languages HAS_ANY (PHP, Go)") ++
    Report.line (.ofString "Ctrl-D 退出")

def lineOutput (report : Text → Bool × Text) (line : Text) : Text :=
  let filter := line.trim
  if filter.isEmpty then [] else (report filter).2

/-- Reports on lines. The run breaks off at a line that cannot be read, with exit code 101. -/
def runLines (report : Text → Bool × Text) : List Text → Outcome
  | [] => ⟨0, []⟩
  | line :: rest =>
    match line.typed? with
    | none => ⟨101, []⟩
    | some line =>
      let later := runLines report rest
      { later with output := lineOutput report line ++ later.output }

/-- Runs on the filter among the arguments, or else on each line of the input that is not blank. -/
def runWith (settings : Settings) (filter? : Option Text) (input : Text) : Outcome :=
  let report := Report.ofFilter settings.target settings.catalog.resolver
  match filter? with
  | some filter =>
    let (accepted, output) := report filter
    ⟨if accepted then 0 else 1, output⟩
  | none =>
    let lines := runLines report (Text.pieces '\n' input)
    { lines with output := banner ++ lines.output }

def versionText : Text := Report.line (.ofString "job-filter 0.1.0")

def helpText : Text :=
  Report.line (.ofString "Compile job listing filter expressions to SQL") ++
    Report.line [] ++
    Report.line (.ofString "Usage: job-filter [OPTIONS]") ++
    Report.line [] ++
    Report.line (.ofString "Options:") ++
    Report.line
      (.ofString "      --config <CONFIG>    JSON config with schema mapping and attribute catalog") ++
    Report.line (.ofString "      --dialect <DIALECT>  postgres, mysql or sqlite") ++
    Report.line
      (.ofString
        "      --filter <FILTER>    Compile one filter and exit instead of starting the REPL") ++
    Report.line (.ofString "  -h, --help               Print help") ++
    Report.line (.ofString "  -V, --version            Print version")

def run (args : List Text) (file : Text → FileContent) (input : Text) : Outcome :=
  match request args with
  | .misuse => ⟨2, []⟩
  | .version => ⟨0, versionText⟩
  | .help => ⟨0, helpText⟩
  | .run options =>
    match settings? options file with
    | none => ⟨1, []⟩
    | some settings => runWith settings options.filter? input

end ListingFilter.CommandLine
