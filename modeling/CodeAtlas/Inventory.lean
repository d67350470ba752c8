import CodeAtlas.NameMap
import CodeAtlas.Path
import CodeAtlas.Shape
import CodeAtlas.Text.Line
import CodeAtlas.Text.Search

/-!
# Inventories of functions

A source text is read line by line, and every line gives at most one record: a class, a constructor,
a static method, a method, or a function, by the first of five rules that applies. The only thing
carried from line to line is the name of the class read last. Members are named after that class;
there is no attempt to find where a class ends.

An inventory holds the records of files by key, the path of a file as seen from a root.
-/
namespace CodeAtlas

inductive RecordKind
  | classDecl
  | constructor
  | staticMethod
  | method
  | function
deriving DecidableEq, Repr

def RecordKind.label : RecordKind → String
  | .classDecl => "class"
  | .constructor => "constructor"
  | .staticMethod => "static_method"
  | .method => "method"
  | .function => "function"

/-- One line that declares something; lines count from 1, and the signature is the line trimmed. -/
structure Record where
  kind : RecordKind
  name : String
  line : Nat
  signature : String
deriving DecidableEq, Repr

/-- The part of a name after its last dot. -/
def Record.simpleName (r : Record) : String :=
  String.ofList (r.name.toList.reverse.takeWhile (· ≠ '.')).reverse

namespace Record

def classShape : Shape := ⟨[.literal "class".toList, .gap], .word, []⟩

def staticShape : Shape := ⟨[.literal "  static".toList, .gap], .word, [.spaces, .literal ['(']]⟩

def methodShape : Shape :=
  ⟨[.literal "  ".toList], .word,
    [.spaces, .literal ['('], .arguments, .literal [')'], .spaces, .literal ['{']]⟩

def functionShape : Shape := ⟨[.literal "function".toList, .gap], .word, [.spaces, .literal ['(']]⟩

def qualify : Option String → String → String
  | some owner, member => owner ++ "." ++ member
  | none, member => member

/-- The kind and the name of what a line declares, `current` being the class read last. -/
def ofLine? (current : Option String) (line : String) : Option (RecordKind × String) :=
  if let some name := classShape.nameAtStart? line then some (.classDecl, name)
  else if Text.holds line "  constructor(" then some (.constructor, qualify current "constructor")
  else if let some name := staticShape.nameAtStart? line then
    some (.staticMethod, qualify current name)
  else if let some name := current.bind fun _ => methodShape.nameAtStart? line then
    some (.method, qualify current name)
  else (functionShape.nameAtStart? line).map fun name => (.function, name)

end Record

namespace Inventory

/-- Where reading has come to: the class read last, the number of lines read, and the records found,
the last one first. -/
structure Reading where
  current : Option String := none
  lines : Nat := 0
  found : List Record := []
deriving DecidableEq, Repr

def Reading.next (r : Reading) (line : String) : Reading :=
  match Record.ofLine? r.current line with
  | none => { r with lines := r.lines + 1 }
  | some (kind, name) =>
    { current := if kind = .classDecl then some name else r.current
      lines := r.lines + 1
      found := ⟨kind, name, r.lines + 1, Text.trim line⟩ :: r.found }

def extract (text : String) : List Record :=
  ((Text.lines text).foldl Reading.next {}).found.reverse

/-- The key of a file: its path as seen from the root, made a text. -/
def key (root path : Path) : String :=
  (path.relativeTo root).text

end Inventory

abbrev Inventory := NameMap (List Record)

end CodeAtlas
