import CodeAtlas.Proofs.ExtractedRecords

/-!
# Texts one after the other

A text that ends with a newline can be read on its own, and what follows it is read as if it stood
alone, further down and below the last class. Nothing else is carried from line to line, so a line
that declares the class again stands for all the lines above.
-/
namespace CodeAtlas

/-! ## Lines of two texts -/

namespace Text

theorem segments_cons (c : Char) (cs : List Char) :
    segments (c :: cs) = if c = '\n' then ([], (segments cs).1 :: (segments cs).2)
      else (c :: (segments cs).1, (segments cs).2) :=
  rfl

theorem segments_append_newline (front cs : List Char) :
    segments (front ++ '\n' :: cs) =
      ((segments front).1, (segments front).2 ++ (segments cs).1 :: (segments cs).2) := by
  induction front with
  | nil => rfl
  | cons c front ih =>
    rw [List.cons_append, segments_cons, segments_cons, ih]
    split <;> rfl

theorem segments_of_not_mem {cs : List Char} (h : '\n' ∉ cs) : segments cs = (cs, []) := by
  induction cs with
  | nil => rfl
  | cons c cs ih =>
    rw [List.mem_cons, not_or] at h
    rw [segments_cons, ih h.2, if_neg (Ne.symm h.1)]

theorem lineChars_append_newline (front cs : List Char) :
    lineChars (front ++ '\n' :: cs) = ((segments front).1 :: (segments front).2).map dropReturn ++
      lineChars cs := by
  simp only [lineChars, segments_append_newline]
  rw [← List.cons_append, List.dropLast_append_of_ne_nil (List.cons_ne_nil _ _),
    List.map_append, List.append_assoc, List.getLast?_append, List.getLast?_cons, Option.some_or]

theorem toList_newline (text : String) : (text ++ "\n").toList = text.toList ++ ['\n'] :=
  String.toList_append

/-- Nothing, or whole lines. -/
def IsWhole (text : String) : Prop :=
  text = "" ∨ ∃ front, text = front ++ "\n"

theorem lines_append {whole : String} (h : IsWhole whole) (text : String) :
    lines (whole ++ text) = lines whole ++ lines text := by
  rcases h with rfl | ⟨front, rfl⟩
  · rw [String.empty_append]
    rfl
  · simp only [lines, String.toList_append (s := front ++ "\n"), toList_newline]
    rw [List.append_assoc, List.singleton_append, lineChars_append_newline,
      lineChars_append_newline]
    simp only [List.map_append, List.append_assoc]
    rfl

/-- One line is read back from its text and a newline. -/
theorem lines_newline {line : String} (inside : '\n' ∉ line.toList)
    (last : line.toList.getLast? ≠ some '\r') :
    lines (line ++ "\n") = [line] := by
  rw [lines, toList_newline, lineChars_append_newline, segments_of_not_mem inside]
  have kept : dropReturn line.toList = line.toList := if_neg last
  rw [List.map_singleton, kept]
  exact congrArg (fun text => [text]) String.ofList_toList

end Text

/-! ## Reading further down -/

/-- The record of the same line, `n` lines further down. -/
def Record.moved (n : Nat) (record : Record) : Record :=
  { record with line := record.line + n }

theorem Record.moved_moved (m n : Nat) (record : Record) :
    (record.moved m).moved n = record.moved (m + n) := by
  rw [moved, moved, moved, Nat.add_assoc]

namespace Inventory

namespace Reading

/-- The reading of the same lines, behind `n` lines in which there were records. -/
def behind (n : Nat) (records : List Record) (reading : Reading) : Reading :=
  ⟨reading.current, reading.lines + n, reading.found.map (Record.moved n) ++ records⟩

variable {n : Nat} {records : List Record}

theorem next_behind (reading : Reading) (line : String) :
    (reading.behind n records).next line = (reading.next line).behind n records := by
  have number : reading.lines + n + 1 = reading.lines + 1 + n := Nat.add_right_comm ..
  have current : (reading.behind n records).current = reading.current := rfl
  rcases next_cases reading line with ⟨nothing, next⟩ | ⟨kind, name, declared, next⟩
  · rw [next, Reading.next, current, nothing]
    simp only [behind, number]
  · rw [next, Reading.next, current, declared]
    simp only [behind, number, List.map_cons, List.cons_append, Record.moved]

theorem foldl_behind (lines : List String) (reading : Reading) :
    lines.foldl next (reading.behind n records) = (lines.foldl next reading).behind n records := by
  induction lines generalizing reading with
  | nil => rfl
  | cons line lines ih => rw [List.foldl_cons, List.foldl_cons, next_behind, ih]

/-- Lines read below a class, or below none. -/
def below (owner : Option String) (lines : List String) : Reading :=
  lines.foldl next { current := owner }

/-- What lines above leave behind is their records and the class read last. -/
theorem after_append (above lines : List String) :
    after (above ++ lines) = (below (after above).current lines).behind above.length
      (after above).found := by
  -- reading stands where it would stand after no lines, with the same class above
  have start : after above =
      ({ current := (after above).current } : Reading).behind above.length (after above).found := by
    rw [behind, Nat.zero_add, ← lines_after above]
    rfl
  rw [after, List.foldl_append]
  change lines.foldl next (after above) = _
  rw [below, ← foldl_behind, ← start]

end Reading

/-! ## Records of two texts -/

theorem extract_append {whole : String} (h : Text.IsWhole whole) (text : String) :
    extract (whole ++ text) = extract whole ++
      (Reading.below (Reading.after (Text.lines whole)).current (Text.lines text)).found.reverse.map
        (Record.moved (Text.lines whole).length) := by
  rw [extract_eq, extract_eq, Text.lines_append h, Reading.after_append,
    Reading.behind, List.reverse_append, List.map_reverse]

/-- The class read last is the last one among the records. -/
theorem current_after_lines (text : String) : (Reading.after (Text.lines text)).current =
    ((extract text).filter Record.isClass).getLast?.map Record.name := by
  rw [(Reading.consistent_after _).current_eq, ← List.head?_filter, ← List.getLast?_reverse,
    ← List.filter_reverse, extract_eq]

theorem isWord_of_isClass {text : String} {record : Record} (h : record ∈ extract text)
    (isClass : record.isClass = true) : Record.IsWord record.name.toList := by
  obtain ⟨owner, line, name, describes⟩ := exists_describes h
  rw [describes.name_eq, if_pos (.inl (of_decide_eq_true isClass))]
  exact describes.isWord

section classLine

variable {name : String}

/-- The line that declares a class and nothing else. -/
def classLine (name : String) : String :=
  "class " ++ name

theorem toList_classLine : (classLine name).toList = "class".toList ++
    ([' '] ++ (name.toList ++ [])) := by
  rw [classLine, String.toList_append, List.append_nil]
  rfl

theorem lines_classLine (word : Record.IsWord name.toList) : Text.lines (classLine name ++ "\n") =
    [classLine name] := by
  have plain {c : Char} (notWord : Text.isWord c = false) (notLead : c ∉ "class ".toList) :
      c ∉ (classLine name).toList := by
    rw [classLine, String.toList_append, List.mem_append]
    rintro (lead | inside)
    · exact notLead lead
    · exact absurd ((word.2 c inside).symm.trans notWord) (by decide)
  apply Text.lines_newline (plain (by decide +kernel) (by decide))
  intro last
  exact plain (by decide +kernel) (by decide) (List.mem_of_getLast? last)

theorem after_classLine (word : Record.IsWord name.toList) : Reading.after [classLine name] =
    ⟨some name, 1, [⟨.classDecl, name, 1, Text.trim (classLine name)⟩]⟩ := by
  have applies : Record.Applies none (classLine name).toList name.toList .classDecl :=
    ⟨[], ⟨[' '], toList_classLine, ⟨by decide, List.forall_mem_singleton.mpr (by decide)⟩, word⟩,
      rfl⟩
  have declared : Record.ofLine? none (classLine name) = some (.classDecl, name) := by
    rw [Record.ofLine?_eq_some_iff]
    exact ⟨name, ⟨applies, [], _, rfl, by simp⟩, rfl⟩
  rw [Reading.after, List.foldl_cons, List.foldl_nil, Reading.next, declared]
  rfl

/-- A class declared in front takes the place of all that was read before it. -/
theorem extract_classLine (word : Record.IsWord name.toList) (text : String) :
    extract (classLine name ++ "\n" ++ text) = ⟨.classDecl, name, 1, Text.trim (classLine name)⟩ ::
      (Reading.below (some name) (Text.lines text)).found.reverse.map (Record.moved 1) := by
  rw [extract_append (.inr ⟨_, rfl⟩), extract_eq (classLine name ++ "\n"), lines_classLine word,
    after_classLine word]
  rfl

end classLine

/-- Whole lines in front of a text add their own records and move those of the text down. They
change nothing else when there is no class among them; otherwise the text is read as below a line
that declares the last of their classes. -/
theorem extract_append_below_last_class (whole text : String) (h : Text.IsWhole whole) :
    let n := (Text.lines whole).length
    ((∀ record ∈ extract whole, record.kind ≠ .classDecl) →
      extract (whole ++ text) = extract whole ++ (extract text).map (Record.moved n)) ∧
    ∀ last, ((extract whole).filter Record.isClass).getLast? = some last →
      ∃ first rest, extract ("class " ++ last.name ++ "\n" ++ text) = first :: rest ∧
        first.kind = .classDecl ∧ first.name = last.name ∧ first.line = 1 ∧ 1 ≤ n ∧
        extract (whole ++ text) = extract whole ++ rest.map (Record.moved (n - 1)) := by
  intro n
  rw [extract_append h, current_after_lines]
  constructor
  · intro noClass
    have none : (extract whole).filter Record.isClass = [] := by
      rw [List.filter_eq_nil_iff]
      intro record mem isClass
      exact noClass record mem (of_decide_eq_true isClass)
    rw [none]
    rfl
  · intro last isLast
    obtain ⟨mem, isClass⟩ := List.mem_filter.mp (List.mem_of_getLast? isLast)
    obtain ⟨_, _, _, describes⟩ := exists_describes mem
    have filled : 1 ≤ n := Nat.le_trans describes.one_le describes.le_length
    refine ⟨_, _, extract_classLine (isWord_of_isClass mem isClass) text, rfl, rfl, rfl, filled, ?_⟩
    -- the line that declares the class again has already moved the text by one
    have moved : Record.moved (n - 1) ∘ Record.moved 1 = Record.moved n := by
      funext record
      rw [Function.comp, Record.moved_moved, Nat.add_sub_cancel' filled]
    rw [List.map_map, moved, isLast]
    rfl

/-- Two classes in front of a method, on lines that end with carriage returns, and a static method
in front of a class. -/
theorem extract_append_below_last_class_of_two :
    let whole := "class A\r\n\nclass Ü\r\n"
    let text := "  go() \x7b\nfunction f()"
    (∃ first rest, extract ("class " ++ "Ü" ++ "\n" ++ text) = first :: rest ∧
      extract (whole ++ text) = extract whole ++ rest.map (Record.moved 2)) ∧
    extract ("  static m()\n" ++ whole) = extract "  static m()\n" ++
      (extract whole).map (Record.moved 1) := by
  intro whole text
  constructor
  · have isWhole : Text.IsWhole whole := .inr ⟨"class A\r\n\nclass Ü\r", by decide +kernel⟩
    obtain ⟨first, rest, found, -, -, -, -, appended⟩ :=
      (extract_append_below_last_class whole text isWhole).2
      ⟨.classDecl, "Ü", 3, "class Ü"⟩ (by decide +kernel)
    have count : (Text.lines whole).length = 3 := by decide +kernel
    rw [count] at appended
    exact ⟨first, rest, found, appended⟩
  · have isWhole : Text.IsWhole "  static m()\n" := .inr ⟨"  static m()", by decide +kernel⟩
    have appended := (extract_append_below_last_class "  static m()\n" whole isWhole).1
      (by decide +kernel)
    have count : (Text.lines "  static m()\n").length = 1 := by decide +kernel
    rw [count] at appended
    exact appended

end Inventory

end CodeAtlas
