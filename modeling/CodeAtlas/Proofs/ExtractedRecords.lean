import CodeAtlas.Proofs.RecordRules
import Mathlib.Data.List.Induction

/-!
# The records of a text

A text is read line by line, and all that is carried along is the name of the class read last.
`Reading.Consistent` is what every line keeps: that name is the name of the last class found, and
the records found have the numbers of lines already read, each larger than the one before. A record
of line `i` is found in the lines up to `i` and in no shorter beginning of the text, so the class
above a line can be looked for among the records of the whole text.
-/
namespace CodeAtlas

/-- Whether a record is that of a class. -/
def Record.isClass (record : Record) : Bool :=
  record.kind = .classDecl

namespace Inventory

namespace Reading

/-! ## One line -/

variable {reading : Reading} {record : Record}

/-- What a line does: nothing but count, or it adds one record and, if that is a class, enters
it. -/
theorem next_cases (reading : Reading) (line : String) :
    (Record.ofLine? reading.current line = none ∧
      reading.next line = { reading with lines := reading.lines + 1 }) ∨
    ∃ kind name, Record.ofLine? reading.current line = some (kind, name) ∧
      reading.next line =
        { current := if kind = .classDecl then some name else reading.current
          lines := reading.lines + 1
          found := ⟨kind, name, reading.lines + 1, Text.trim line⟩ :: reading.found } := by
  unfold next
  cases Record.ofLine? reading.current line with
  | none => exact .inl ⟨rfl, rfl⟩
  | some declared =>
    obtain ⟨kind, name⟩ := declared
    exact .inr ⟨kind, name, rfl, rfl⟩

theorem lines_next (reading : Reading) (line : String) :
    (reading.next line).lines = reading.lines + 1 := by
  rcases next_cases reading line with ⟨-, next⟩ | ⟨kind, name, -, next⟩ <;> rw [next]

theorem mem_found_next_iff (line : String) : record ∈ (reading.next line).found ↔
    record ∈ reading.found ∨ record.line = reading.lines + 1 ∧ record.signature = Text.trim line ∧
      Record.ofLine? reading.current line = some (record.kind, record.name) := by
  rcases next_cases reading line with ⟨nothing, next⟩ | ⟨kind, name, declared, next⟩
  · simp [next, nothing]
  · rw [next, List.mem_cons, declared, or_comm]
    apply or_congr_right
    obtain ⟨recordKind, recordName, recordLine, signature⟩ := record
    simp only [Record.mk.injEq, Option.some_inj, Prod.mk.injEq]
    grind

/-- The class read last is the last one found, and the records found are numbered by lines already
read, upwards. -/
structure Consistent (reading : Reading) : Prop where
  current_eq : reading.current = (reading.found.find? Record.isClass).map Record.name
  numbered : reading.found.Pairwise fun later earlier => earlier.line < later.line
  within : ∀ record ∈ reading.found, 1 ≤ record.line ∧ record.line ≤ reading.lines

theorem Consistent.next (h : reading.Consistent) (line : String) :
    (reading.next line).Consistent := by
  rcases next_cases reading line with ⟨-, next⟩ | ⟨kind, name, -, next⟩
  · rw [next]
    refine ⟨h.current_eq, h.numbered, ?_⟩
    intro record found
    exact ⟨(h.within record found).1, Nat.le_succ_of_le (h.within record found).2⟩
  · rw [next]
    refine ⟨?_, List.pairwise_cons.mpr ⟨?_, h.numbered⟩, ?_⟩
    · by_cases isClass : kind = .classDecl <;> simp [Record.isClass, isClass, h.current_eq]
    · intro earlier found
      exact Nat.lt_succ_of_le (h.within earlier found).2
    · intro record found
      rcases List.mem_cons.mp found with rfl | found
      · exact ⟨Nat.le_add_left 1 _, Nat.le_refl _⟩
      · exact ⟨(h.within record found).1, Nat.le_succ_of_le (h.within record found).2⟩

/-! ## All lines -/

/-- Where reading has come to after these lines. -/
def after (lines : List String) : Reading :=
  lines.foldl next {}

theorem after_concat (lines : List String) (line : String) :
    after (lines ++ [line]) = (after lines).next line :=
  List.foldl_append

theorem consistent_after (lines : List String) : (after lines).Consistent := by
  induction lines using List.reverseRecOn with
  | nil => exact ⟨rfl, .nil, fun _ found => nomatch found⟩
  | append_singleton lines line ih =>
    rw [after_concat]
    exact ih.next line

theorem lines_after (lines : List String) : (after lines).lines = lines.length := by
  induction lines using List.reverseRecOn with
  | nil => rfl
  | append_singleton lines line ih =>
    rw [after_concat, lines_next, ih, List.length_append, List.length_singleton]

/-- The records are what the lines declare, each below the class read last before it. -/
theorem mem_found_after_iff {lines : List String} : record ∈ (after lines).found ↔
    ∃ i line, lines[i]? = some line ∧ record.line = i + 1 ∧ record.signature = Text.trim line ∧
      Record.ofLine? (after (lines.take i)).current line = some (record.kind, record.name) := by
  -- from the end, as the class above a line depends on the lines in front of it only
  induction lines using List.reverseRecOn with
  | nil => simp [after]
  | append_singleton lines last ih =>
    rw [after_concat, mem_found_next_iff, ih, lines_after]
    constructor
    · intro h
      rcases h with ⟨i, line, at_i, declared⟩ | declared
      · have bound := (List.getElem?_eq_some_iff.mp at_i).1
        refine ⟨i, line, by rw [List.getElem?_append_left bound, at_i], ?_⟩
        rwa [List.take_append_of_le_length (Nat.le_of_lt bound)]
      · exact ⟨lines.length, last, by simp, by simpa using declared⟩
    · intro h
      obtain ⟨i, line, at_i, declared⟩ := h
      by_cases bound : i < lines.length
      · rw [List.getElem?_append_left bound] at at_i
        rw [List.take_append_of_le_length (Nat.le_of_lt bound)] at declared
        exact .inl ⟨i, line, at_i, declared⟩
      · have place : i = lines.length := by
          have := (List.getElem?_eq_some_iff.mp at_i).1
          rw [List.length_append, List.length_singleton] at this
          omega
        subst place
        simp only [List.getElem?_concat_length, Option.some_inj] at at_i
        subst at_i
        exact .inr (by simpa using declared)

/-- A beginning of the text has the records of its own lines. -/
theorem mem_found_take_iff {lines : List String} {n : Nat} :
    record ∈ (after (lines.take n)).found ↔ record ∈ (after lines).found ∧ record.line ≤ n := by
  rw [mem_found_after_iff, mem_found_after_iff]
  constructor
  · intro h
    obtain ⟨i, line, at_i, number, declared⟩ := h
    rw [List.getElem?_take, Option.ite_none_right_eq_some] at at_i
    rw [List.take_take, Nat.min_eq_left (Nat.le_of_lt at_i.1)] at declared
    exact ⟨⟨i, line, at_i.2, number, declared⟩, by omega⟩
  · intro h
    obtain ⟨⟨i, line, at_i, number, declared⟩, le⟩ := h
    refine ⟨i, line, by rw [List.getElem?_take_of_lt (by omega), at_i], number, ?_⟩
    rwa [List.take_take, Nat.min_eq_left (by omega)]

end Reading

theorem extract_eq (text : String) :
    extract text = (Reading.after (Text.lines text)).found.reverse :=
  rfl

theorem mem_extract_iff {text : String} {record : Record} :
    record ∈ extract text ↔ record ∈ (Reading.after (Text.lines text)).found := by
  rw [extract_eq, List.mem_reverse]

theorem extract_increasing (text : String) :
    (extract text).Pairwise fun earlier later => earlier.line < later.line := by
  rw [extract_eq, List.pairwise_reverse]
  exact (Reading.consistent_after (Text.lines text)).numbered

/-! ## The class above a line -/

/-- Of the classes above a line, the one with the greatest line, if there is any. -/
def IsClassAbove (records : List Record) (line : Nat) : Option Record → Prop
  | some owner => owner ∈ records ∧ owner.kind = .classDecl ∧ owner.line < line ∧
      ∀ other ∈ records, other.kind = .classDecl → other.line < line → other.line ≤ owner.line
  | none => ∀ other ∈ records, other.kind = .classDecl → line ≤ other.line

theorem Reading.Consistent.line_le {reading : Reading} {owner other : Record}
    (h : reading.Consistent) (last : reading.found.find? Record.isClass = some owner)
    (found : other ∈ reading.found) (isClass : other.isClass = true) : other.line ≤ owner.line := by
  obtain ⟨-, later, earlier, parts, noClass⟩ := List.find?_eq_some_iff_append.mp last
  have numbered := h.numbered
  rw [parts] at found numbered
  -- what was found later is no class, and what was found earlier is from a smaller line
  rcases List.mem_append.mp found with isLater | isRest
  · have no := noClass other isLater
    rw [isClass] at no
    cases no
  · rcases List.mem_cons.mp isRest with rfl | isEarlier
    · exact Nat.le_refl _
    · exact Nat.le_of_lt
        ((List.pairwise_cons.mp (List.pairwise_append.mp numbered).2.1).1 other isEarlier)

theorem isClassAbove_extract (text : String) (i : Nat) : IsClassAbove (extract text) (i + 1)
    ((Reading.after ((Text.lines text).take i)).found.find? Record.isClass) := by
  have within {record : Record} : record ∈ extract text ∧ record.line < i + 1 ↔
      record ∈ (Reading.after ((Text.lines text).take i)).found := by
    rw [mem_extract_iff, Reading.mem_found_take_iff, Nat.lt_succ_iff]
  cases last : (Reading.after ((Text.lines text).take i)).found.find? Record.isClass with
  | some owner =>
    obtain ⟨mem, above⟩ := within.mpr (List.mem_of_find?_eq_some last)
    have ownerClass : owner.isClass = true := List.find?_some last
    refine ⟨mem, of_decide_eq_true ownerClass, above, ?_⟩
    intro other otherMem isClass otherAbove
    exact (Reading.consistent_after _).line_le last (within.mp ⟨otherMem, otherAbove⟩)
      (decide_eq_true isClass)
  | none =>
    intro other mem isClass
    by_contra above
    have found := within.mp ⟨mem, Nat.lt_of_not_le above⟩
    exact List.find?_eq_none.mp last other found (decide_eq_true isClass)

/-! ## What a record says -/

/-- What a record says: the line it is from, the class above that line, and the name that a rule
found there. -/
structure Describes (text : String) (record : Record) (owner : Option Record) (line name : String) :
    Prop where
  one_le : 1 ≤ record.line
  le_length : record.line ≤ (Text.lines text).length
  line_eq : (Text.lines text)[record.line - 1]? = some line
  signature_eq : record.signature = Text.trim line
  owner_above : IsClassAbove (extract text) record.line owner
  declares : Record.Declares (owner.map Record.name) line record.kind name
  isWord : Record.IsWord name.toList
  plain : '.' ∉ name.toList
  simpleName_eq : record.simpleName = name
  name_eq : record.name = if record.kind = .classDecl ∨ record.kind = .function then name
    else owner.elim name fun c => c.name ++ "." ++ name
  method_owned : record.kind = .method → owner ≠ none

theorem fullName_map_name (owner : Option Record) (kind : RecordKind) (name : String) :
    Record.fullName (owner.map Record.name) kind name =
      if kind = .classDecl ∨ kind = .function then name else owner.elim name fun c =>
        c.name ++ "." ++ name := by
  cases kind <;> cases owner <;> rfl

theorem exists_describes {text : String} {record : Record} (h : record ∈ extract text) :
    ∃ owner line name, Describes text record owner line name := by
  obtain ⟨i, line, at_i, number, signature, declared⟩ :=
    Reading.mem_found_after_iff.mp (mem_extract_iff.mp h)
  have bound := (List.getElem?_eq_some_iff.mp at_i).1
  have above := isClassAbove_extract text i
  rw [(Reading.consistent_after _).current_eq, Record.ofLine?_eq_some_iff] at declared
  obtain ⟨name, declares, full⟩ := declared
  have word := declares.1.isWord
  refine ⟨_, line, name, by omega, by omega, by rwa [number], signature, by rwa [number],
    declares, word, word.plain, Record.simpleName_fullName full word.plain,
    by rw [full, fullName_map_name], ?_⟩
  intro method
  have applies := declares.1
  rw [method] at applies
  intro none
  exact applies.1 (by rw [none]; rfl)

theorem exists_record_iff {text line : String} {i : Nat}
    (at_i : (Text.lines text)[i]? = some line) :
    (∃ record ∈ extract text, record.line = i + 1) ↔
      (Record.ofLine? (Reading.after ((Text.lines text).take i)).current line).isSome = true := by
  constructor
  · intro h
    obtain ⟨record, mem, number⟩ := h
    obtain ⟨j, other, at_j, number', -, declared⟩ :=
      Reading.mem_found_after_iff.mp (mem_extract_iff.mp mem)
    obtain rfl : j = i := by omega
    cases at_j.symm.trans at_i
    rw [declared]
    rfl
  · intro h
    obtain ⟨⟨kind, name⟩, declared⟩ := Option.isSome_iff_exists.mp h
    exact ⟨⟨kind, name, i + 1, Text.trim line⟩,
      mem_extract_iff.mpr (Reading.mem_found_after_iff.mpr ⟨i, line, at_i, rfl, rfl, declared⟩),
      rfl⟩

/-- The records of a text have increasing line numbers, and each one is described by its line: the
signature is the line trimmed, the first rule that applies to the line below the class above it
finds a word, and that word is the simple name of the record, and the part of its name behind the
class. A line has a record exactly when one of the rules applies to it. -/
theorem extract_describes_lines (text : String) :
    (extract text).Pairwise (fun earlier later => earlier.line < later.line) ∧
    (∀ record ∈ extract text, ∃ owner line name, Describes text record owner line name) ∧
    ∀ i line, (Text.lines text)[i]? = some line → ∃ owner,
    IsClassAbove (extract text) (i + 1) owner ∧
      ((∃ record ∈ extract text, record.line = i + 1) ↔
        ∃ kind, ∃ name : List Char, Record.Applies (owner.map Record.name) line.toList
          name kind) := by
  refine ⟨extract_increasing text, fun record h => exists_describes h, ?_⟩
  intro i line at_i
  refine ⟨_, isClassAbove_extract text i, ?_⟩
  rw [exists_record_iff at_i, (Reading.consistent_after _).current_eq, Record.isSome_ofLine?_iff]

/-- A static method above every class, a class named with an umlaut, and a method of it. -/
theorem extract_describes_lines_of_members :
    let text := "  static a()\nclass Tür\n\n  zu(x) \x7b"
    let tür : Record := ⟨.classDecl, "Tür", 2, "class Tür"⟩
    let zu : Record := ⟨.method, "Tür.zu", 4, "zu(x) \x7b"⟩
    extract text = [⟨.staticMethod, "a", 1, "static a()"⟩, tür, zu] ∧
      (∃ owner line name, Describes text zu owner line name) ∧
      ∃ owner, IsClassAbove (extract text) 4 owner ∧ ∃ kind, ∃ name : List Char,
        Record.Applies (owner.map Record.name) "  zu(x) \x7b".toList name kind := by
  intro text tür zu
  have records : extract text = [⟨.staticMethod, "a", 1, "static a()"⟩, tür, zu] := by
    decide +kernel
  have zu_mem : zu ∈ extract text := by simp [records]
  obtain ⟨-, described, applied⟩ := extract_describes_lines text
  obtain ⟨owner, above, applies⟩ := applied 3 "  zu(x) \x7b" (by decide +kernel)
  exact ⟨records, described zu zu_mem, owner, above, applies.mp ⟨zu, zu_mem, rfl⟩⟩

end Inventory

end CodeAtlas
