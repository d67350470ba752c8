import CodeAtlas.Shape

/-!
# The shapes that name a class

Six shapes are looked for in a source text. A declaration is `class` and a name. The other five are
references: `new` and a name, a name in front of a dot, the quoted key of a lookup call, the key of
an enumeration, and the name after `extends`. The words of the lookup and of the enumeration are
configured, and read literally.

A pattern with a configured word in it may be too large to be compiled. How large that is depends on
the engine that compiles it, so `PatternLimit` is open here, and what is said of the program holds
for every limit.
-/
namespace CodeAtlas

/-- What the engine can compile. -/
class PatternLimit where
  fits : List Piece → Bool

/-- A limit by the literal texts alone: thirty-two bytes of ten mebibytes for each of theirs. -/
abbrev PatternLimit.ofLiterals : PatternLimit where
  fits pieces := 32 * pieces.foldl (fun n piece => n + piece.literalSize) 0 ≤ 10485760

def patternTooBig : String :=
  "Compiled regex exceeds size limit of 10485760 bytes."

structure PatternConfig where
  serviceLookup : String := "getService"
  serviceEnum : String := "SERVICES"
deriving DecidableEq, Repr

inductive ReferenceKind
  | instantiation
  | memberAccess
  | serviceLookup
  | serviceEnum
  | inheritance
deriving DecidableEq, Repr

namespace ReferenceKind

def all : List ReferenceKind :=
  [.instantiation, .memberAccess, .serviceLookup, .serviceEnum, .inheritance]

def label : ReferenceKind → String
  | .instantiation => "instantiation"
  | .memberAccess => "member-access"
  | .serviceLookup => "service-lookup"
  | .serviceEnum => "service-enum"
  | .inheritance => "inheritance"

def ofLabel? (s : String) : Option ReferenceKind :=
  all.find? fun k => k.label == s

end ReferenceKind

/-- A configured word that is too long, by the name of its field. -/
inductive PatternError
  | serviceLookup
  | serviceEnum
deriving DecidableEq, Repr

def PatternError.field : PatternError → String
  | .serviceLookup => "patterns.service_lookup"
  | .serviceEnum => "patterns.service_enum"

structure PatternSet where
  declaration : Shape
  reference : ReferenceKind → Shape

namespace PatternSet

def declarationShape : Shape :=
  ⟨[.boundary, .literal "class".toList, .gap], .name, []⟩

def referenceShape (config : PatternConfig) : ReferenceKind → Shape
  | .instantiation => ⟨[.boundary, .literal "new".toList, .gap], .name, []⟩
  | .memberAccess => ⟨[.boundary], .name, [.spaces, .literal ['.']]⟩
  | .serviceLookup =>
    ⟨[.boundary, .literal config.serviceLookup.toList, .literal ['('], .spaces, .quote], .key,
      [.quote]⟩
  | .serviceEnum => ⟨[.literal config.serviceEnum.toList, .literal ['.']], .key, []⟩
  | .inheritance =>
    ⟨[.boundary, .literal "class".toList, .gap, .name, .gap, .literal "extends".toList, .gap],
      .name, []⟩

/-- The shapes for a configuration, if those with its words can be compiled; the lookup comes
first. -/
def ofConfig [PatternLimit] (config : PatternConfig) : Except PatternError PatternSet :=
  if !PatternLimit.fits (referenceShape config .serviceLookup).pieces then .error .serviceLookup
  else if !PatternLimit.fits (referenceShape config .serviceEnum).pieces then .error .serviceEnum
  else .ok ⟨declarationShape, referenceShape config⟩

def declarations (patterns : PatternSet) (text : String) : List String :=
  patterns.declaration.names text

def references (patterns : PatternSet) (kind : ReferenceKind) (text : String) : List String :=
  (patterns.reference kind).names text

end PatternSet

end CodeAtlas
