import CodeAtlas.Path

/-!
# Arguments of the command line

Arguments are read from left to right: options for the whole program, the name of a command, and the
options of that command, among which those for the whole program may stand again. An option takes
its value from the argument after it, or from its own argument, behind an equals sign or, for an
option of one letter, right behind the letter. Letters can be put together behind one dash, the last
of them with a value. Two dashes end the options, and nothing may follow them.

Reading stops at the first argument that is wrong, or that asks for the version or for help.
-/
namespace CodeAtlas.Command

inductive Format
  | dot
  | jsonCompact
deriving DecidableEq, Repr

def Format.ofName? : String → Option Format
  | "dot" => some .dot
  | "json-compact" => some .jsonCompact
  | _ => none

inductive Name
  | graph
  | inventory
  | audit
deriving DecidableEq, Repr

def Name.ofText? : String → Option Name
  | "graph" => some .graph
  | "inventory" => some .inventory
  | "audit" => some .audit
  | _ => none

inductive Opt
  | config
  | root
  | verbose
  | file
  | output
  | format
  | version
  | help
deriving DecidableEq, Repr

namespace Opt

def all : List Opt :=
  [config, root, verbose, file, output, format, version, help]

def long : Opt → String
  | config => "config"
  | root => "root"
  | verbose => "verbose"
  | file => "file"
  | output => "output"
  | format => "format"
  | version => "version"
  | help => "help"

def short? : Opt → Option Char
  | config => some 'c'
  | root => some 'r'
  | verbose => some 'v'
  | file => none
  | output => some 'o'
  | format => some 'f'
  | version => some 'V'
  | help => some 'h'

def takesValue : Opt → Bool
  | config | root | file | output | format => true
  | verbose | version | help => false

/-- Whether an option may stand before the name of a command, or behind the one that is given. -/
def allowed : Option Name → Opt → Bool
  | none, .config | none, .root | none, .verbose | none, .version | none, .help => true
  | none, _ => false
  | some _, .config | some _, .root | some _, .verbose | some _, .output | some _, .help => true
  | some .graph, .file | some .graph, .format => true
  | some _, _ => false

def ofLong? (place : Option Name) (name : String) : Option Opt :=
  all.find? fun o => o.long == name && allowed place o

def ofShort? (place : Option Name) (c : Char) : Option Opt :=
  all.find? fun o => o.short? == some c && allowed place o

end Opt

inductive Stop
  | usage
  | version
  | help
deriving DecidableEq, Repr

/-- The values given at one place, before or behind the name of the command. -/
structure Given where
  config : Option Path := none
  root : Option Path := none
  output : Option Path := none
  format : Option Format := none
  files : List Path := []
deriving DecidableEq, Repr

def onePath (old : Option Path) (value : String) : Except Stop (Option Path) :=
  if old.isSome || value.isEmpty then .error .usage else .ok (some (.ofText value))

def Given.set (given : Given) (opt : Opt) (value : String) : Except Stop Given :=
  match opt with
  | .config => return { given with config := ← onePath given.config value }
  | .root => return { given with root := ← onePath given.root value }
  | .output => return { given with output := ← onePath given.output value }
  | .format =>
    match given.format, Format.ofName? value with
    | none, some format => .ok { given with format := some format }
    | _, _ => .error .usage
  | .file => if value.isEmpty then .error .usage
    else .ok { given with files := given.files ++ [.ofText value] }
  | .verbose | .version | .help => .error .usage

def flag (given : Given) : Opt → Except Stop Given
  | .verbose => .ok given
  | .version => .error .version
  | .help => .error .help
  | _ => .error .usage

/-- What reading the options of one argument leaves: the values, and an option that waits for its
value. -/
abbrev Waiting := Given × Option Opt

/-- Reads an option with a long name, the dashes left out. -/
def readLong (place : Option Name) (given : Given) (cs : List Char) : Except Stop Waiting :=
  let name := cs.takeWhile (· ≠ '=')
  match Opt.ofLong? place (String.ofList name), cs.drop name.length with
  | none, _ => .error .usage
  | some opt, [] => if opt.takesValue then .ok (given, some opt)
    else return (← flag given opt, none)
  | some opt, _ :: value =>
    if opt.takesValue then return (← given.set opt (String.ofList value), none) else .error .usage

/-- Reads options of one letter, the dash left out. -/
def readShort (place : Option Name) (given : Given) : List Char → Except Stop Waiting
  | [] => .ok (given, none)
  | c :: cs =>
    match Opt.ofShort? place c with
    | none => .error .usage
    | some opt =>
      if opt.takesValue then
        match cs with
        | [] => .ok (given, some opt)
        | '=' :: value => return (← given.set opt (String.ofList value), none)
        | value => return (← given.set opt (String.ofList value), none)
      else do readShort place (← flag given opt) cs

/-- Whether an argument is read as an option and not as a value; a dash alone is a value. -/
def isOption (arg : String) : Bool :=
  match arg.toList with
  | '-' :: _ :: _ => true
  | _ => false

def readOption (place : Option Name) (given : Given) (arg : String) : Except Stop Waiting :=
  match arg.toList with
  | '-' :: '-' :: cs => readLong place given cs
  | '-' :: cs => readShort place given cs
  | _ => .error .usage

def readBehind (name : Name) : Waiting → List String → Except Stop Given
  | (given, none), [] => .ok given
  | (_, some _), [] => .error .usage
  | (given, some opt), arg :: args =>
    if isOption arg then .error .usage
    else do readBehind name (← given.set opt arg, none) args
  | (given, none), arg :: args =>
    if arg = "--" then (if args.isEmpty then .ok given else .error .usage)
    else if isOption arg then do readBehind name (← readOption (some name) given arg) args
    else .error .usage

def readAll : Waiting → List String → Except Stop (Given × Name × Given)
  | _, [] => .error .usage
  | (given, some opt), arg :: args =>
    if isOption arg then .error .usage
    else do readAll (← given.set opt arg, none) args
  | (given, none), arg :: args =>
    if arg = "--" then .error .usage
    else if isOption arg then do readAll (← readOption none given arg) args
    else
      match Name.ofText? arg with
      | some name => do return (given, name, ← readBehind name ({}, none) args)
      | none => .error (if arg = "help" ∧ args.all fun a => (Name.ofText? a).isSome then .help
        else .usage)

inductive Action
  | graph (files : List Path) (output : Option Path) (format : Format)
  | inventory (output : Path)
  | audit (output : Path)
deriving DecidableEq, Repr

structure Invocation where
  config : Option Path
  root : Option Path
  action : Action
deriving DecidableEq, Repr

def actionOf (given : Given) : Name → Action
  | .graph => .graph given.files given.output (given.format.getD .dot)
  | .inventory => .inventory (given.output.getD (.ofText "function_inventory.json"))
  | .audit => .audit (given.output.getD (.ofText "AUDIT_APPENDIX.md"))

/-- Reads a command line. A value behind the name of the command goes before one in front of it. -/
def readArguments (args : List String) : Except Stop Invocation := do
  let (before, name, behind) ← readAll ({}, none) args
  return ⟨behind.config <|> before.config, behind.root <|> before.root, actionOf behind name⟩

end CodeAtlas.Command
