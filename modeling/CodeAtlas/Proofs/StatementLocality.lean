import CodeAtlas.Proofs.Occurrences
import CodeAtlas.Proofs.SymbolTableContent

/-!
# Statements are searched one by one

No piece of a shape takes a semicolon, unless a configured word holds one. In front of a semicolon a
piece is then read as at the end of a text, and behind one as at the beginning: a semicolon is no
word character, so that it makes the same boundaries as the ends of a text do. What a shape finds in
two statements is what it finds in the first, and then what it finds in the second.
-/
namespace CodeAtlas

/-! ## Pieces in front of a semicolon -/

namespace Piece

/-- A piece that cannot take a semicolon. -/
def AvoidsSemicolon : Piece → Prop
  | .literal text => ';' ∉ text
  | .arguments => False
  | _ => True

/-- What was taken stays, and the rest is longer. -/
def followedBy (more : List Char) (r : List Char × List Char) : List Char × List Char :=
  (r.1, r.2 ++ more)

variable {p : Char → Bool} {before before' : Option Char}

theorem run_semicolon (stops : p ';' = false) (cs rest : List Char) :
    run p (cs ++ ';' :: rest) = followedBy (';' :: rest) (run p cs) := by
  induction cs with
  | nil => simp [run, followedBy, stops]
  | cons c cs ih =>
    simp only [run, followedBy, Prod.mk.injEq] at ih ⊢
    cases inside : p c with
    | true => simpa [inside] using ih
    | false => simp [inside]

theorem run?_semicolon (stops : p ';' = false) (cs rest : List Char) :
    run? p (cs ++ ';' :: rest) = (run? p cs).map (followedBy (';' :: rest)) := by
  have same := run_semicolon stops cs rest
  have taken : (cs ++ ';' :: rest).takeWhile p = cs.takeWhile p := congrArg Prod.fst same
  unfold run?
  rw [taken, same]
  split <;> rfl

theorem isPrefixOf_semicolon {text : List Char} (avoids : ';' ∉ text) (cs rest : List Char) :
    text.isPrefixOf (cs ++ ';' :: rest) = text.isPrefixOf cs := by
  induction text generalizing cs with
  | nil => simp
  | cons c text ih =>
    rw [List.mem_cons, not_or] at avoids
    cases cs with
    | nil =>
      have other : (c == ';') = false := beq_false_of_ne (Ne.symm avoids.1)
      simp [List.isPrefixOf, other]
    | cons d cs => simp [List.isPrefixOf, ih avoids.2]

theorem read?_semicolon {piece : Piece} (avoids : piece.AvoidsSemicolon) (before : Option Char)
    (cs rest : List Char) :
    piece.read? before (cs ++ ';' :: rest) = (piece.read? before cs).map
      (followedBy (';' :: rest)) := by
  cases piece with
  | boundary =>
    have same : Text.isBoundary before (cs ++ ';' :: rest).head? =
        Text.isBoundary before cs.head? := by
      cases cs <;> rfl
    simp only [read?, same]
    split <;> rfl
  | literal text =>
    simp only [read?, isPrefixOf_semicolon avoids]
    split
    next here =>
      have short : text.length ≤ cs.length := (List.isPrefixOf_iff_prefix.mp here).length_le
      simp [followedBy, List.drop_append_of_le_length short]
    next => rfl
  | spaces => exact congrArg some (run_semicolon (by decide) cs rest)
  | gap => exact run?_semicolon (by decide) cs rest
  | quote =>
    cases cs with
    | nil => rfl
    | cons c cs =>
      simp only [read?, List.cons_append]
      split <;> rfl
  | name =>
    cases cs with
    | nil => rfl
    | cons c cs =>
      have same := run_semicolon (p := Text.isIdentifier) (by decide) (c :: cs) rest
      simp only [read?, List.cons_append] at same ⊢
      split
      · exact congrArg some same
      · rfl
  | key => exact run?_semicolon (by decide) cs rest
  | word => exact run?_semicolon (by decide) cs rest
  | arguments => cases avoids

theorem readAll?_semicolon {pieces : List Piece} (avoid : ∀ piece ∈ pieces, piece.AvoidsSemicolon)
    (before : Option Char) (cs rest : List Char) :
    readAll? pieces before (cs ++ ';' :: rest) = (readAll? pieces before cs).map
      (followedBy (';' :: rest)) := by
  induction pieces generalizing before cs with
  | nil => rfl
  | cons piece pieces ih =>
    have first := read?_semicolon (avoid piece List.mem_cons_self) before cs rest
    have later := ih fun p hp => avoid p (List.mem_cons_of_mem piece hp)
    simp only [readAll?, first]
    cases piece.read? before cs with
    | none => rfl
    | some r =>
      simp only [Option.map_some, followedBy, Option.bind_eq_bind, Option.bind_some, later]
      cases readAll? pieces (r.1.getLast?.or before) r.2 <;> rfl

/-! ## Pieces behind a semicolon -/

theorem read?_congr (same : before.any Text.isWord = before'.any Text.isWord)
    (piece : Piece) (cs : List Char) :
    piece.read? before cs = piece.read? before' cs := by
  cases piece <;> simp [read?, Text.isBoundary, same]

theorem any_or_congr (same : before.any Text.isWord = before'.any Text.isWord)
    (last : Option Char) :
    (last.or before).any Text.isWord = (last.or before').any Text.isWord := by
  cases last
  · simpa using same
  · rfl

theorem readAll?_congr (same : before.any Text.isWord = before'.any Text.isWord)
    (pieces : List Piece) (cs : List Char) :
    readAll? pieces before cs = readAll? pieces before' cs := by
  induction pieces generalizing before before' cs with
  | nil => rfl
  | cons piece pieces ih =>
    simp only [readAll?, read?_congr same piece cs]
    congr 1
    funext r
    rw [ih (any_or_congr same r.1.getLast?) r.2]

end Piece

/-! ## Shapes and their names -/

namespace Shape

variable {s : Shape} {before before' : Option Char}

/-- A shape that cannot take a semicolon, and is not read where there is nothing to read. -/
structure Statement (s : Shape) : Prop where
  lead : ∀ piece ∈ s.lead, piece.AvoidsSemicolon
  name : s.name.AvoidsSemicolon
  trail : ∀ piece ∈ s.trail, piece.AvoidsSemicolon
  filled : ∀ before, s.read? before [] = none

/-- A name or a key has a character at least. -/
theorem read?_nil_of_name (named : s.name = .name ∨ s.name = .key) (before : Option Char) :
    s.read? before [] = none := by
  apply Option.eq_none_iff_forall_ne_some.mpr
  intro r read
  obtain ⟨lead, trail, rest, parts, -, -, takes, -⟩ := read?_eq_some_iff.mp read
  have empty : r.1 = [] := (List.append_eq_nil_iff.mp (List.append_eq_nil_iff.mp parts.symm).2).1
  rw [empty] at takes
  rcases named with h | h
  · rw [h] at takes
    cases takes.1.1
  · rw [h] at takes
    exact takes.1.1 rfl

theorem Statement.read?_semicolon (h : s.Statement) (before : Option Char) (cs rest : List Char) :
    s.read? before (cs ++ ';' :: rest) = s.read? before cs := by
  simp only [read?, Piece.readAll?_semicolon h.lead, Option.bind_eq_bind]
  cases Piece.readAll? s.lead before cs with
  | none => rfl
  | some lead =>
    simp only [Option.map_some, Option.bind_some, Piece.followedBy, Piece.read?_semicolon h.name]
    cases s.name.read? (lead.1.getLast?.or before) lead.2 with
    | none => rfl
    | some name =>
      simp only [Option.map_some, Option.bind_some, Piece.followedBy,
        Piece.readAll?_semicolon h.trail]
      cases Piece.readAll? s.trail (name.1.getLast?.or (lead.1.getLast?.or before)) name.2 <;> rfl

theorem read?_congr (same : before.any Text.isWord = before'.any Text.isWord) (cs : List Char) :
    s.read? before cs = s.read? before' cs := by
  simp only [read?, Piece.readAll?_congr same s.lead]
  congr 1
  funext lead
  have inside := Piece.any_or_congr same lead.1.getLast?
  simp only [Piece.read?_congr inside]
  congr 1
  funext name
  rw [Piece.readAll?_congr (Piece.any_or_congr inside name.1.getLast?)]

theorem namesFrom_congr (same : before.any Text.isWord = before'.any Text.isWord)
    (found : List String) (skip : Nat) (cs : List Char) :
    s.namesFrom found skip before cs = s.namesFrom found skip before' cs := by
  cases cs with
  | nil => cases skip <;> rfl
  | cons c cs =>
    cases skip with
    | zero => simp only [namesFrom, read?_congr same]
    | succ skip => rfl

/-- What was found before stands in front of what is found from here on. -/
theorem namesFrom_eq_append (s : Shape) (found : List String) (skip : Nat)
    (before : Option Char) (cs : List Char) :
    s.namesFrom found skip before cs = found.reverse ++ s.namesFrom [] skip before cs := by
  induction cs generalizing found skip before with
  | nil => cases skip <;> simp [namesFrom]
  | cons c cs ih =>
    cases skip with
    | succ skip => exact ih found skip (some c)
    | zero =>
      simp only [namesFrom]
      cases s.read? before (c :: cs) with
      | none => exact ih found 0 (some c)
      | some r =>
        dsimp only
        rw [ih (String.ofList r.1 :: found), ih [String.ofList r.1]]
        simp

/-- An occurrence is no longer than the text. -/
theorem le_length_of_read? {cs name : List Char} {n : Nat}
    (h : s.read? before cs = some (name, n)) :
    n ≤ cs.length := by
  obtain ⟨lead, trail, rest, rfl, rfl, -⟩ := read?_eq_some_iff.mp h
  simp only [List.length_append]
  omega

/-- A search that has passed no more than the first statement begins anew behind the semicolon. -/
theorem Statement.namesFrom_semicolon (h : s.Statement) (cs rest : List Char)
    (found : List String) (skip : Nat) (before : Option Char) (short : skip ≤ cs.length) :
    s.namesFrom found skip before (cs ++ ';' :: rest) =
      s.namesFrom found skip before cs ++ s.namesFrom [] 0 none rest := by
  induction cs generalizing found skip before with
  | nil =>
    obtain rfl : skip = 0 := by simpa using short
    have none_here : s.read? before (';' :: rest) = none :=
      (h.read?_semicolon before [] rest).trans (h.filled before)
    have ends : (some ';').any Text.isWord = (none : Option Char).any Text.isWord := by decide
    simp only [List.nil_append, namesFrom, none_here]
    rw [namesFrom_eq_append, namesFrom_congr ends]
  | cons c cs ih =>
    rw [List.cons_append]
    cases skip with
    | succ skip => exact ih found skip (some c) (by simpa using short)
    | zero =>
      have same : s.read? before (c :: (cs ++ ';' :: rest)) = s.read? before (c :: cs) :=
        h.read?_semicolon before (c :: cs) rest
      simp only [namesFrom, same]
      cases read : s.read? before (c :: cs) with
      | none => exact ih found 0 (some c) (Nat.zero_le _)
      | some r =>
        have length := le_length_of_read? read
        rw [List.length_cons] at length
        exact ih (String.ofList r.1 :: found) (r.2 - 1) (some c) (by omega)

theorem Statement.names_semicolon (h : s.Statement) (a b : String) :
    s.names (a ++ ";" ++ b) = s.names a ++ s.names b := by
  unfold names
  rw [← h.namesFrom_semicolon a.toList b.toList [] 0 none (Nat.zero_le _)]
  simp [String.toList_append]

end Shape

/-! ## Kinds of references -/

namespace ReferenceSet

variable {set : ReferenceSet} {name other : String} {kind k : ReferenceKind}

/-- The kinds of references to a name, none if there is no reference to it. -/
def kindsOf (set : ReferenceSet) (name : String) : List ReferenceKind :=
  (set.kinds? name).getD []

theorem mem_addKind {kinds : List ReferenceKind} : k ∈ addKind kind kinds ↔
    k = kind ∨ k ∈ kinds := by
  simp [addKind, ReferenceKind.mem_all]

theorem mem_kindsOf_insert :
    k ∈ (set.insert name kind).kindsOf other ↔ (k = kind ∧ other = name) ∨
    k ∈ set.kindsOf other := by
  unfold kindsOf kinds? insert
  rw [NameMap.get?_alter]
  by_cases same : other = name
  · simp [same, mem_addKind]
  · simp [same]

theorem mem_kindsOf_foldl_insert (kind : ReferenceKind) (names : List String) (set : ReferenceSet) :
    k ∈ (names.foldl (fun set name => set.insert name kind) set).kindsOf other ↔
      (k = kind ∧ other ∈ names) ∨ k ∈ set.kindsOf other := by
  induction names generalizing set with
  | nil => simp
  | cons name names ih =>
    rw [List.foldl_cons, ih, mem_kindsOf_insert, List.mem_cons, ← or_assoc, ← and_or_left,
      or_comm (a := other ∈ names)]

theorem mem_kindsOf_foldl_kinds (found : ReferenceKind → List String) (kinds : List ReferenceKind)
    (set : ReferenceSet) :
    k ∈ (kinds.foldl (fun set kind => (found kind).foldl (fun set name => set.insert name kind) set)
        set).kindsOf other ↔
      (k ∈ kinds ∧ other ∈ found k) ∨ k ∈ set.kindsOf other := by
  induction kinds generalizing set with
  | nil => simp
  | cons kind kinds ih =>
    rw [List.foldl_cons, ih, mem_kindsOf_foldl_insert, List.mem_cons]
    by_cases same : k = kind
    · subst same
      by_cases listed : k ∈ kinds <;> simp [listed]
    · simp [same]

/-- A unit refers to a name in the ways in which its text does, unless it declares the name. -/
theorem mem_kindsOf_collect {patterns : PatternSet} {table : SymbolTable} {unit : SourceUnit} :
    k ∈ (collect patterns table unit).kindsOf name ↔
      name ∈ patterns.references k unit.text ∧ table.isDeclaredIn name unit.path = false := by
  rw [collect, mem_kindsOf_foldl_kinds]
  simp [ReferenceKind.mem_all, kindsOf, kinds?, NameMap.get?, NameMap.empty]

end ReferenceSet

namespace NameSet

theorem eq_of_mem_iff {s t : NameSet} (h : ∀ name, name ∈ s.toList ↔ name ∈ t.toList) : s = t := by
  apply NameMap.eq_of_get?
  intro name
  have same := h name
  simp only [toList, NameMap.mem_keys_iff] at same
  cases hs : s.get? name with
  | none =>
    cases ht : t.get? name with
    | none => rfl
    | some u => simp [hs, ht] at same
  | some u =>
    cases ht : t.get? name with
    | none => simp [hs, ht] at same
    | some v => rfl

theorem ofNames_append (names more : List String) :
    ofNames (names ++ more) = (ofNames names).union (ofNames more) := by
  apply eq_of_mem_iff
  intro name
  simp only [mem_toList_union, mem_toList_ofNames, List.mem_append]

end NameSet

/-! ## Two statements -/

namespace PatternSet

theorem statement_declarationShape : declarationShape.Statement where
  lead := by simp [declarationShape, Piece.AvoidsSemicolon]
  name := trivial
  trail := by simp [declarationShape]
  filled := Shape.read?_nil_of_name (.inl rfl)

theorem statement_referenceShape {config : PatternConfig}
    (lookup : ';' ∉ config.serviceLookup.toList) (enumeration : ';' ∉ config.serviceEnum.toList)
    (kind : ReferenceKind) :
    (referenceShape config kind).Statement where
  lead := by cases kind <;> simp [referenceShape, Piece.AvoidsSemicolon, lookup, enumeration]
  name := by cases kind <;> trivial
  trail := by cases kind <;> simp [referenceShape, Piece.AvoidsSemicolon]
  filled := Shape.read?_nil_of_name (by cases kind <;> simp [referenceShape])

/-- Two texts with a semicolon between them hold the names that the one holds and then those that
the other does, for declarations and for each kind of reference. So the names that are declared, and
the kinds of references to a name, are those of both. -/
theorem names_of_statements [PatternLimit] {config : PatternConfig} {patterns : PatternSet}
    (accepted : ofConfig config = .ok patterns) (lookup : ';' ∉ config.serviceLookup.toList)
    (enumeration : ';' ∉ config.serviceEnum.toList) (a b : String) :
    patterns.declarations (a ++ ";" ++ b) = patterns.declarations a ++ patterns.declarations b ∧
    (∀ kind, patterns.references kind (a ++ ";" ++ b) = patterns.references kind a ++
      patterns.references kind b) ∧
    NameSet.ofNames (patterns.declarations (a ++ ";" ++ b)) =
      (NameSet.ofNames (patterns.declarations a)).union
        (NameSet.ofNames (patterns.declarations b)) ∧
    ∀ path name kind,
      kind ∈ (ReferenceSet.collect patterns {} ⟨path, a ++ ";" ++ b⟩).kindsOf name ↔
        kind ∈ (ReferenceSet.collect patterns {} ⟨path, a⟩).kindsOf name ∨
        kind ∈ (ReferenceSet.collect patterns {} ⟨path, b⟩).kindsOf name := by
  have equal := eq_of_ofConfig accepted
  have declared : patterns.declarations (a ++ ";" ++ b) = patterns.declarations a ++
      patterns.declarations b := by
    rw [equal]
    exact statement_declarationShape.names_semicolon a b
  have referred : ∀ kind,
      patterns.references kind (a ++ ";" ++ b) = patterns.references kind a ++
        patterns.references kind b := by
    intro kind
    rw [equal]
    exact (statement_referenceShape lookup enumeration kind).names_semicolon a b
  refine ⟨declared, referred, ?_, ?_⟩
  · rw [declared, NameSet.ofNames_append]
  · intro path name kind
    simp only [ReferenceSet.mem_kindsOf_collect, referred, List.mem_append, or_and_right]

/-- Two texts that hold semicolons themselves, with a lookup by no word at all and an enumeration
whose word ends in a dot. -/
theorem names_of_statements_of_punctuation :
    let _ : PatternLimit := .ofLiterals
    let config : PatternConfig := { serviceLookup := "", serviceEnum := "S." }
    let patterns : PatternSet := ⟨declarationShape, referenceShape config⟩
    let a := "class A; get( 'B')"
    let b := ".x; new B; S..B"
    ofConfig config = .ok patterns ∧ ';' ∉ config.serviceLookup.toList ∧
      ';' ∉ config.serviceEnum.toList ∧
      patterns.references .serviceLookup a = ["B"] ∧ patterns.references .serviceEnum b = ["B"] ∧
      (∀ kind, patterns.references kind (a ++ ";" ++ b) =
        patterns.references kind a ++ patterns.references kind b) ∧
      .serviceEnum ∈ (ReferenceSet.collect patterns {} ⟨.ofText "a.gs", a ++ ";" ++ b⟩).kindsOf
        "B" := by
  intro limit config patterns a b
  have accepted : ofConfig config = .ok patterns := ofConfig_of_fits (by decide) (by decide)
  have lookup : ';' ∉ config.serviceLookup.toList := by decide
  have enumeration : ';' ∉ config.serviceEnum.toList := by decide
  have h := names_of_statements accepted lookup enumeration a b
  refine ⟨accepted, lookup, enumeration, by decide +kernel, by decide +kernel, h.2.1, ?_⟩
  rw [h.2.2.2]
  exact .inr (by decide +kernel)

end PatternSet

end CodeAtlas
