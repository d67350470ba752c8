import CodeAtlas.Analysis
import CodeAtlas.Config.Decode

/-!
# Configurations

What a run works on: a root, the files to analyse in order, the words of the patterns, and the
settings of the audit. A configuration is read from a TOML text, every part of it optional. In a
file, a relative root is seen from the directory of that file.
-/
namespace CodeAtlas

structure Config where
  root : Path := .ofText "."
  files : List Path := []
  patterns : PatternConfig := {}
  audit : AuditConfig := {}
deriving DecidableEq, Repr

inductive ParseError
  | malformed
  | decode (e : DecodeError)

inductive ConfigReadError
  | file (cause : FileError)
  | notText
deriving DecidableEq, Repr

def ConfigReadError.message : ConfigReadError → String
  | .file cause => cause.message
  | .notText => "stream did not contain valid UTF-8"

inductive ConfigError
  | read (path : Path) (cause : ConfigReadError)
  | parse (path : Path) (cause : ParseError)
  | noFiles
  | pattern (cause : PatternError)

/-- The message; of a text that is no configuration it only says which one. -/
def ConfigError.message : ConfigError → String
  | .read path cause => "failed to read config " ++ path.text ++ ": " ++ cause.message
  | .parse path _ => "invalid config " ++ path.text
  | .noFiles => "no input files configured; pass --file or list `files` in the config"
  | .pattern cause => "invalid pattern for `" ++ cause.field ++ "`: " ++ patternTooBig

namespace PatternConfig

def fields : List (Field PatternConfig) := [
  ⟨"service_lookup", fun v c => return { c with serviceLookup := ← Decode.string v }⟩,
  ⟨"service_enum", fun v c => return { c with serviceEnum := ← Decode.string v }⟩]

end PatternConfig

namespace AuditConfig

def fields : List (Field AuditConfig) := [
  ⟨"source_dir", fun v c => return { c with sourceDir := ← Decode.path v }⟩,
  ⟨"extension", fun v c => return { c with extension := ← Decode.string v }⟩,
  ⟨"large_function_lines", fun v c => return { c with largeFunctionLines := ← Decode.count v }⟩,
  ⟨"skip_dirs", fun v c => return { c with skipDirs := ← Decode.list Decode.string v }⟩]

end AuditConfig

namespace Config

def fields : List (Field Config) := [
  ⟨"root", fun v c => return { c with root := ← Decode.path v }⟩,
  ⟨"files", fun v c => return { c with files := ← Decode.list Decode.path v }⟩,
  ⟨"patterns", fun v c =>
    return { c with patterns := ← Decode.record "PatternConfig" PatternConfig.fields {} v }⟩,
  ⟨"audit", fun v c =>
    return { c with audit := ← Decode.record "AuditConfig" AuditConfig.fields {} v }⟩]

def decode (entries : Toml.Entries) : Except DecodeError Config :=
  Decode.entries fields {} entries

def ofToml (text : String) : Except ParseError Config :=
  match Toml.parse? text with
  | none => .error .malformed
  | some entries => (decode entries).mapError .decode

/-- The configuration of a file, with its root seen from the directory of the file. -/
def seenFrom (path : Path) (config : Config) : Config :=
  if config.root.isAbsolute then config
  else match path.parent? with
    | some dir => { config with root := dir.join config.root }
    | none => config

def ofBytes (path : Path) (bytes : ByteArray) : Except ConfigError Config :=
  match Text.decode bytes with
  | .error _ => .error (.read path .notText)
  | .ok text =>
    match ofToml text with
    | .error e => .error (.parse path e)
    | .ok config => .ok (config.seenFrom path)

def ofFile {m : Type → Type} [Monad m] [FileStore m] (path : Path) :
    m (Except ConfigError Config) := do
  match ← FileStore.read path with
  | .error cause => return .error (.read path (.file cause))
  | .ok bytes => return ofBytes path bytes

/-- Another root if one is given, and more files behind those that are there. -/
def override (config : Config) (root : Option Path) (files : List Path) : Config :=
  { config with root := root.getD config.root, files := config.files ++ files }

/-- Drops every path that is the same as an earlier one. -/
def distinct (paths : List Path) : List Path :=
  (paths.foldl
    (fun kept path => if kept.any fun k => k.same path then kept else path :: kept) []).reverse

/-- The files to analyse, each once, in the order and the spelling in which they first come. -/
def orderedFiles (config : Config) : Except ConfigError (List Path) :=
  if config.files.isEmpty then .error .noFiles else .ok (distinct config.files)

def auditRoot (config : Config) : Path :=
  config.root.join config.audit.sourceDir

def analyze [PatternLimit] {m : Type → Type} [Monad m] [FileStore m] (config : Config) :
    m (Except ConfigError Analysis) := do
  match PatternSet.ofConfig config.patterns with
  | .error e => return .error (.pattern e)
  | .ok patterns =>
    match config.orderedFiles with
    | .error e => return .error e
    | .ok files => return .ok (Analysis.ofCorpus patterns (← Corpus.load config.root files))

end Config

end CodeAtlas
