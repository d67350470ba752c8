import CodeAtlas.Audit.Markdown
import CodeAtlas.Command.Arguments
import CodeAtlas.Config
import CodeAtlas.Graph.Compact
import CodeAtlas.Graph.Dot
import CodeAtlas.Inventory.Document

/-!
# Running a command

A command reads its configuration, does its work, and either prints its document or writes it to one
file and then prints a few figures, line by line. What it prints is gone as soon as it is printed,
so that a failing command prints nothing depends on the order of these steps.
-/
namespace CodeAtlas

class Console (m : Type → Type) where
  /-- prints a text, or tells why it cannot -/
  write : String → m (Except FileError Unit)
  /-- prints a line; without a console that takes it the program ends -/
  printLine : String → m Unit

/-- A console that takes everything, and all that it has taken. -/
instance : Console (StateM String) where
  write text := modifyGet fun printed => (.ok (), printed ++ text)
  printLine line := modify fun printed => printed ++ line ++ "\n"

instance {m : Type → Type} [Monad m] [Console m] : Console (StateT FileTree m) where
  write text := StateT.lift (Console.write text)
  printLine line := StateT.lift (Console.printLine line)

namespace Command

inductive Failure
  | config (e : ConfigError)
  | scan (e : ScanError)
  | write (e : WriteError)
  | print (cause : FileError)

namespace Failure

def parts : Failure → String × Option String
  | .config e@(.read _ cause) => (e.message, some cause.message)
  | .config e@(.pattern _) => (e.message, some patternTooBig)
  | .config e => (e.message, none)
  | .scan e => (e.message, none)
  | .write e => (e.heading, some e.cause.message)
  | .print cause => ("failed to write graph to stdout", some cause.message)

def report (f : Failure) : String :=
  match f, f.parts with
  | .config (.parse _ _), (message, _) => "Error: " ++ message
  | _, (message, none) => "Error: " ++ message ++ "\n"
  | _, (message, some cause) => "Error: " ++ message ++ "\n\nCaused by:\n    " ++ cause ++ "\n"

end Failure

structure Outcome where
  exit : Nat
  stderr : String := ""
deriving DecidableEq, Repr

def versionText : String := "depmap 0.1.0"

def usageText : String :=
  "Usage: depmap [-c FILE] [-r DIR] [-v] <graph|inventory|audit> [OPTIONS]"

def defaultConfig : Path := .ofText "depmap.toml"

def render (format : Format) (g : Graph) : String :=
  match format with
  | .dot => g.dot
  | .jsonCompact => g.compactJson true

def inventoryFigures (inventory : Inventory) (output : Path) : List String :=
  ["Total functions extracted: " ++ toString inventory.values.flatten.length,
    "Files processed: " ++ toString inventory.size,
    "Output written to: " ++ output.text]

def auditFigures (summary : AuditSummary) (output : Path) : List String :=
  ["Audit report generated: " ++ output.text,
    "Total functions: " ++ toString summary.totalFunctions,
    "Orphaned: " ++ toString summary.orphaned,
    "Flagged: " ++ toString summary.flagged]

section

variable {m : Type → Type} [Monad m] [FileStore m]

/-- The configuration that is named, or else the default one if it is there. -/
def loadConfig (named : Option Path) : m (Except ConfigError Config) := do
  match named with
  | some path => Config.ofFile path
  | none =>
    if ← FileStore.isFile defaultConfig then Config.ofFile defaultConfig
    else return .ok {}

variable [Console m]

/-- Writes a document, and then prints figures. -/
def writeThen (path : Path) (document : String) (figures : List String) :
    m (Except Failure Unit) := do
  match ← writeDocument path document with
  | .error e => return .error (.write e)
  | .ok () =>
    figures.forM Console.printLine
    return .ok ()

def perform [PatternLimit] (config : Config) : Action → m (Except Failure Unit)
  | .graph _ output format => do
    match ← config.analyze with
    | .error e => return .error (.config e)
    | .ok analysis =>
      let document := render format analysis.graph
      match output with
      | some path => writeThen path document []
      | none =>
        match ← Console.write document with
        | .error cause => return .error (.print cause)
        | .ok () => return .ok ()
  | .inventory output => do
    match ← AuditCorpus.load config.audit config.root config.auditRoot with
    | .error e => return .error (.scan e)
    | .ok corpus =>
      writeThen output corpus.inventory.json (inventoryFigures corpus.inventory output)
  | .audit output => do
    match ← AuditCorpus.load config.audit config.root config.auditRoot with
    | .error e => return .error (.scan e)
    | .ok corpus =>
      let report := Audit.report config.audit config.root corpus
      writeThen output report.markdown (auditFigures report.summary output)

/-- The files that a command adds to those of its configuration. -/
def Action.files : Action → List Path
  | .graph files _ _ => files
  | _ => []

def invoke [PatternLimit] (invocation : Invocation) : m (Except Failure Unit) := do
  match ← loadConfig invocation.config with
  | .error e => return .error (.config e)
  | .ok config =>
    perform (config.override invocation.root invocation.action.files) invocation.action

def run [PatternLimit] (args : List String) : m Outcome := do
  match readArguments args with
  | .error .usage => return { exit := 2, stderr := usageText ++ "\n" }
  | .error .version => do
    Console.printLine versionText
    return { exit := 0 }
  | .error .help => do
    Console.printLine usageText
    return { exit := 0 }
  | .ok invocation =>
    match ← invoke invocation with
    | .ok () => return { exit := 0 }
    | .error failure => return { exit := 1, stderr := failure.report }

end

end Command

end CodeAtlas
