import CodeAtlas.Inventory
import CodeAtlas.Proofs.LineSearch
import CodeAtlas.Proofs.Occurrences

/-!
# What a line declares

There are five rules, one for each kind of record, and they are tried in order. `Record.Applies`
says on the text of a line when a rule applies to it and which name it finds; `Record.Declares` says
that it is the first one. Reading a line finds just that (`Record.ofLine?_eq_some_iff`). A name
found by any rule is a word, so it has no dot, and what stands behind the last dot of a qualified
name is the name that was found.
-/
namespace CodeAtlas

namespace Record

open Phrase

/-! ## The rules -/

/-- Word characters, at least one. -/
def IsWord (cs : List Char) : Prop :=
  cs ≠ [] ∧ ∀ c ∈ cs, Text.isWord c = true

/-- Perhaps white space, then the character, then the rest. -/
def Spaced (c : Char) (cs rest : List Char) : Prop :=
  ∃ spaces, cs = spaces ++ c :: rest ∧ ∀ d ∈ spaces, Text.isSpace d = true

/-- A line that begins with a keyword, white space and a name. -/
def BeginsWith (keyword line name rest : List Char) : Prop :=
  ∃ gap, line = keyword ++ (gap ++ (name ++ rest)) ∧ IsGap gap ∧ IsWord name

/-- The rule for each kind: what a line looks like that declares a name, below a class or not. -/
def Applies (owner : Option String) (line name : List Char) : RecordKind → Prop
  | .classDecl =>
    ∃ rest, BeginsWith "class".toList line name rest ∧ rest.head?.any Text.isWord = false
  | .constructor => "  constructor(".toList <:+: line ∧ name = "constructor".toList
  | .staticMethod =>
    ∃ rest, BeginsWith "  static".toList line name rest ∧ ∃ more, Spaced '(' rest more
  | .method => owner ≠ none ∧ ∃ rest, line = "  ".toList ++ (name ++ rest) ∧ IsWord name ∧
    ∃ arguments after more,
      Spaced '(' rest (arguments ++ ')' :: after) ∧ ')' ∉ arguments ∧ Spaced '{' after more
  | .function => ∃ rest, BeginsWith "function".toList line name rest ∧ ∃ more, Spaced '(' rest more

/-- The order in which the rules are tried. -/
def rules : List RecordKind :=
  [.classDecl, .constructor, .staticMethod, .method, .function]

/-- The rule of this kind is the first that applies to a line, and finds this name. -/
def Declares (owner : Option String) (line : String) (kind : RecordKind) (name : String) : Prop :=
  Applies owner line.toList name.toList kind ∧
    ∃ before after, rules = before ++ kind :: after ∧
      ∀ other ∈ before, ∀ otherName : List Char, ¬ Applies owner line.toList otherName other

/-! ## Reading by the rules -/

variable {owner : Option String} {line name : String}

theorem inTurn_spaced {c : Char} {before : Option Char} {taken rest : List Char}
    {pieces : List Piece} :
    Piece.InTurn Piece.Fits rest (.spaces :: .literal [c] :: pieces) before taken ↔
      ∃ more, Spaced c taken more ∧ Piece.InTurn Piece.Fits rest pieces (some c) more := by
  constructor
  · intro h
    obtain ⟨spaces, _, rfl, inside, h⟩ := h
    obtain ⟨more, rfl, reading⟩ := Piece.inTurn_literal.mp h
    exact ⟨more, ⟨spaces, rfl, inside⟩, reading⟩
  · intro h
    obtain ⟨more, ⟨spaces, rfl, inside⟩, reading⟩ := h
    exact ⟨spaces, c :: more, rfl, inside, Piece.inTurn_literal.mpr ⟨more, rfl, reading⟩⟩

theorem Spaced.append {c : Char} {cs more : List Char} (h : Spaced c cs more) (rest : List Char) :
    Spaced c (cs ++ rest) (more ++ rest) := by
  obtain ⟨spaces, rfl, inside⟩ := h
  exact ⟨spaces, by rw [List.append_assoc]; rfl, inside⟩

/-- The shape of a class at the start of a line. -/
theorem classShape_iff : classShape.nameAtStart? line = some name ↔
    Applies owner line.toList name.toList .classDecl := by
  have apart : Piece.Apart classShape.pieces := by
    simp +contextual [classShape, Shape.pieces, Text.isSpace_of_isWord]
  rw [Shape.nameAtStart?_iff_of_apart apart]
  simp only [classShape, Piece.inTurn_literal, Piece.inTurn_single]
  constructor
  · intro h
    obtain ⟨_, trail, rest, split, ⟨gap, rfl, isGap⟩, word, rfl, stopped⟩ := h
    rw [List.append_assoc] at split
    exact ⟨rest, ⟨gap, split, isGap, word⟩, (Piece.stopped_iff rfl).mp stopped⟩
  · intro h
    obtain ⟨rest, ⟨gap, split, isGap, word⟩, stops⟩ := h
    rw [← List.append_assoc] at split
    exact ⟨_, [], rest, split, ⟨gap, rfl, isGap⟩, word, rfl, (Piece.stopped_iff rfl).mpr stops⟩

/-- A keyword, white space, a name, and an opening parenthesis. -/
theorem callShape_iff {keyword : List Char} :
    Shape.nameAtStart? ⟨[.literal keyword, .gap], .word, [.spaces, .literal ['(']]⟩ line =
      some name ↔
      ∃ rest, BeginsWith keyword line.toList name.toList rest ∧ ∃ more, Spaced '(' rest more := by
  have open_space : Text.isSpace '(' = false := by decide
  have open_word : Text.isWord '(' = false := by decide
  rw [Shape.nameAtStart?_iff_of_apart (by
    simp +contextual [Shape.pieces, Text.isSpace_of_isWord, Text.isWord_of_isSpace, open_space,
      open_word])]
  simp only [Piece.inTurn_literal, Piece.inTurn_single, inTurn_spaced]
  constructor
  · intro h
    obtain ⟨_, trail, rest, split, ⟨gap, rfl, isGap⟩, word, ⟨more, spaced, -⟩, -⟩ := h
    rw [List.append_assoc] at split
    exact ⟨trail ++ rest, ⟨gap, split, isGap, word⟩, more ++ rest, spaced.append rest⟩
  · intro h
    obtain ⟨_, ⟨gap, split, isGap, word⟩, more, spaces, rfl, inside⟩ := h
    rw [← List.append_assoc] at split
    refine ⟨_, spaces ++ ['('], more, ?_, ⟨gap, rfl, isGap⟩, word, ⟨[], ⟨spaces, rfl, inside⟩, rfl⟩,
      Piece.stopped_of_none rfl⟩
    simpa using split

theorem methodShape_iff : methodShape.nameAtStart? line = some name ↔
    ∃ rest, line.toList = "  ".toList ++ (name.toList ++ rest) ∧ IsWord name.toList ∧
    ∃ arguments after more,
      Spaced '(' rest (arguments ++ ')' :: after) ∧ ')' ∉ arguments ∧ Spaced '{' after more := by
  have open_space : Text.isSpace '(' = false := by decide
  have open_word : Text.isWord '(' = false := by decide
  have brace_space : Text.isSpace '{' = false := by decide
  have apart : Piece.Apart methodShape.pieces := by
    simp +contextual [methodShape, Shape.pieces, Text.isWord_of_isSpace, open_space, open_word,
      brace_space]
  rw [Shape.nameAtStart?_iff_of_apart apart]
  simp only [methodShape, Piece.inTurn_single, inTurn_spaced]
  constructor
  · intro h
    obtain ⟨_, trail, rest, split, rfl, word, ⟨_, spaced, arguments, _, rfl, plain, closed⟩, -⟩ := h
    obtain ⟨after, rfl, opened⟩ := Piece.inTurn_literal.mp closed
    obtain ⟨more, braced, -⟩ := inTurn_spaced.mp opened
    refine ⟨trail ++ rest, split, word, arguments, after ++ rest, more ++ rest, ?_, ?_,
      braced.append rest⟩
    · simpa using spaced.append rest
    · exact fun mem => plain ')' mem rfl
  · intro h
    obtain ⟨_, split, word, arguments, _, more, ⟨spaces, rfl, inside⟩, plain,
      ⟨spaces', rfl, inside'⟩⟩ := h
    have opened : Spaced '{' (spaces' ++ ['{']) [] := ⟨spaces', rfl, inside'⟩
    have closed : Piece.InTurn Piece.Fits more [.literal [')'], .spaces, .literal ['{']]
        (arguments.getLast?.or (some '(')) (')' :: (spaces' ++ ['{'])) :=
      Piece.inTurn_literal.mpr ⟨_, rfl, inTurn_spaced.mpr ⟨[], opened, rfl⟩⟩
    refine ⟨_, spaces ++ '(' :: (arguments ++ ')' :: (spaces' ++ ['{'])), more,
      by simpa using split, rfl, word, ⟨_, ⟨spaces, rfl, inside⟩, arguments, _, rfl, ?_, closed⟩,
      Piece.stopped_of_none rfl⟩
    intro c mem same
    exact plain (same ▸ mem)

/-- What the rule of a kind finds in a line. -/
def readAs (owner : Option String) (line : String) : RecordKind → Option String
  | .classDecl => classShape.nameAtStart? line
  | .constructor => if Text.holds line "  constructor(" then some "constructor" else none
  | .staticMethod => staticShape.nameAtStart? line
  | .method => owner.bind fun _ => methodShape.nameAtStart? line
  | .function => functionShape.nameAtStart? line

theorem readAs_eq_some_iff {kind : RecordKind} :
    readAs owner line kind = some name ↔ Applies owner line.toList name.toList kind := by
  cases kind with
  | classDecl => exact classShape_iff
  | constructor =>
    rw [readAs, Option.ite_none_right_eq_some, Text.holds_eq_true_iff, Option.some_inj, eq_comm,
      ← String.toList_inj]
    rfl
  | staticMethod => exact callShape_iff
  | method =>
    rw [readAs, Option.bind_eq_some_iff, Applies, ← methodShape_iff, Option.ne_none_iff_exists']
    simp only [exists_and_right]
  | function => exact callShape_iff

theorem readAs_eq_none_iff {kind : RecordKind} :
    readAs owner line kind = none ↔ ∀ name : List Char, ¬ Applies owner line.toList name kind := by
  rw [Option.eq_none_iff_forall_ne_some]
  constructor
  · intro h name applies
    rw [← String.toList_ofList (l := name)] at applies
    exact h (String.ofList name) (readAs_eq_some_iff.mpr applies)
  · intro h name read
    exact h name.toList (readAs_eq_some_iff.mp read)

/-- The name of a record: that of its class in front of the name found, for members of a class. -/
def fullName (owner : Option String) : RecordKind → String → String
  | .classDecl, name | .function, name => name
  | .constructor, name | .staticMethod, name | .method, name => qualify owner name

/-- The first rule that finds a name is the one that counts. -/
theorem ofLine?_eq_findSome? : ofLine? owner line =
    rules.findSome? fun kind => (readAs owner line kind).map fun name =>
      (kind, fullName owner kind name) := by
  simp only [rules, List.findSome?_cons, List.findSome?_nil, readAs, ofLine?, fullName]
  cases classShape.nameAtStart? line with
  | some name => rfl
  | none =>
    cases Text.holds line "  constructor(" with
    | true => rfl
    | false =>
      cases staticShape.nameAtStart? line with
      | some name => rfl
      | none =>
        cases owner.bind fun _ => methodShape.nameAtStart? line with
        | some name => rfl
        | none => cases functionShape.nameAtStart? line <;> rfl

/-- A line gives the record of the first rule that applies to it. -/
theorem ofLine?_eq_some_iff {kind : RecordKind} {full : String} :
    ofLine? owner line = some (kind, full) ↔
    ∃ name, Declares owner line kind name ∧ full = fullName owner kind name := by
  simp only [ofLine?_eq_findSome?, List.findSome?_eq_some_iff, Option.map_eq_some_iff,
    Option.map_eq_none_iff, readAs_eq_some_iff, readAs_eq_none_iff]
  constructor
  · intro h
    obtain ⟨before, _, after, order, ⟨name, applies, same⟩, earlier⟩ := h
    cases same
    exact ⟨name, ⟨applies, before, after, order, earlier⟩, rfl⟩
  · intro h
    obtain ⟨name, ⟨applies, before, after, order, earlier⟩, rfl⟩ := h
    exact ⟨before, kind, after, order, ⟨name, applies, rfl⟩, earlier⟩

/-- A line gives a record whenever any of the rules applies to it. -/
theorem isSome_ofLine?_iff : (ofLine? owner line).isSome = true ↔
    ∃ kind, ∃ name : List Char, Applies owner line.toList name kind := by
  have all (kind : RecordKind) : kind ∈ rules := by cases kind <;> decide
  simp only [ofLine?_eq_findSome?, List.findSome?_isSome_iff, Option.isSome_map, all, true_and]
  apply exists_congr
  intro kind
  rw [Option.isSome_iff_ne_none, ne_eq, readAs_eq_none_iff, Classical.not_forall_not]

/-! ## Names -/

theorem Applies.isWord {kind : RecordKind} {line name : List Char}
    (h : Applies owner line name kind) : IsWord name := by
  cases kind with
  | classDecl =>
    obtain ⟨_, ⟨_, _, _, word⟩, _⟩ := h
    exact word
  | constructor =>
    rw [h.2]
    exact ⟨by decide, List.all_eq_true.mp (by decide)⟩
  | staticMethod =>
    obtain ⟨_, ⟨_, _, _, word⟩, _⟩ := h
    exact word
  | method =>
    obtain ⟨_, _, _, word, _⟩ := h
    exact word
  | function =>
    obtain ⟨_, ⟨_, _, _, word⟩, _⟩ := h
    exact word

theorem IsWord.plain {name : List Char} (h : IsWord name) : '.' ∉ name := by
  intro dot
  exact absurd (h.2 '.' dot) (by decide)

theorem takeWhile_not_dot {member rest : List Char} (h : '.' ∉ member)
    (stop : ∀ c, rest.head? = some c → c = '.') :
    (member ++ rest).takeWhile (fun c => decide (c ≠ '.')) = member := by
  have inside : ∀ c ∈ member, decide (c ≠ '.') = true := by
    intro c hc
    rw [decide_eq_true_eq]
    intro heq
    exact h (heq ▸ hc)
  have outside : rest.takeWhile (fun c => decide (c ≠ '.')) = [] := by
    cases rest with
    | nil => rfl
    | cons c rest => simp [stop c rfl]
  rw [List.takeWhile_append_of_pos inside, outside, List.append_nil]

/-- The simple name of a member is the name that it has in its class. -/
theorem simpleName_qualify {record : Record} {owner : Option String} {member : String}
    (hname : record.name = qualify owner member) (h : '.' ∉ member.toList) :
    record.simpleName = member := by
  obtain ⟨rest, parts, stop⟩ : ∃ rest,
      (qualify owner member).toList.reverse = member.toList.reverse ++ rest ∧
        ∀ c, rest.head? = some c → c = '.' := by
    cases owner with
    | none => exact ⟨[], by simp [qualify], by simp⟩
    | some owner =>
      exact ⟨'.' :: owner.toList.reverse, by simp [qualify, String.toList_append], by simp⟩
  have h' : '.' ∉ member.toList.reverse := by simpa using h
  rw [simpleName, hname, parts, takeWhile_not_dot h' stop, List.reverse_reverse,
    String.ofList_toList]

/-- What stands behind the last dot of a full name is the name that a rule found. -/
theorem simpleName_fullName {record : Record}
    (hname : record.name = fullName owner record.kind name) (h : '.' ∉ name.toList) :
    record.simpleName = name := by
  cases kind : record.kind with
  | classDecl | function => exact @simpleName_qualify record none name (by rw [hname, kind]; rfl) h
  | constructor | staticMethod | method => exact simpleName_qualify (by rw [hname, kind]; rfl) h

end Record

end CodeAtlas
