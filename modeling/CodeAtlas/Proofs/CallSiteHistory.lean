import CodeAtlas.Proofs.CallSiteCount
import CodeAtlas.Proofs.Places

/-!
# Counting call sites without a history

A line calls a name when the name stands in it behind a word boundary and in front of an opening
parenthesis; `CallSiteIndex.IsCall` says so on the text alone, for any name, of letters or not. A
count is the number of lines of this kind in all files. It does not depend on the order of the
files, counts of two lists of files add up, and an index that has been asked for other names before,
or for names too long to be looked for, gives it all the same.
-/
namespace CodeAtlas

/-- Pieces occur in a text where they can be read behind some beginning of it. -/
theorem Piece.occur_eq_true_iff {pieces : List Piece} {before : Option Char} {cs : List Char} :
    occur pieces before cs = true ↔
      ∃ lead rest, cs = lead ++ rest ∧
        (readAll? pieces (lead.getLast?.or before) rest).isSome = true := by
  constructor
  · intro h
    induction cs generalizing before with
    | nil => exact ⟨[], [], rfl, h⟩
    | cons c cs ih =>
      rw [occur, Bool.or_eq_true] at h
      rcases h with here | later
      · exact ⟨[], c :: cs, rfl, here⟩
      · obtain ⟨lead, rest, rfl, read⟩ := ih later
        refine ⟨c :: lead, rest, rfl, ?_⟩
        rwa [Shape.getLast?_cons_or]
  · intro h
    obtain ⟨lead, rest, rfl, read⟩ := h
    exact occur_of_append read

namespace CallSiteIndex

/-! ## Calls -/

/-- Somewhere in the line there is a word boundary, and behind it the name, perhaps white space, and
an opening parenthesis. -/
def IsCall (name line : String) : Prop :=
  ∃ front spaces rest, line.toList = front ++ (name.toList ++ (spaces ++ '(' :: rest)) ∧
    Text.isBoundary front.getLast? (name.toList ++ (spaces ++ '(' :: rest)).head? = true ∧
    ∀ c ∈ spaces, Text.isSpace c = true

theorem apart_callPieces (name : String) : Piece.Apart (callPieces name) := by
  simp +decide [callPieces]

theorem isSome_readAll?_callPieces {name : String} {before : Option Char} {cs : List Char} :
    (Piece.readAll? (callPieces name) before cs).isSome = true ↔
        Text.isBoundary before cs.head? = true ∧
      ∃ spaces rest, cs = name.toList ++ (spaces ++ '(' :: rest) ∧ ∀ c ∈ spaces,
      Text.isSpace c = true := by
  rw [Piece.isSome_readAll?_iff_of_apart (apart_callPieces name)]
  simp only [callPieces, Piece.inTurn_boundary, Piece.inTurn_literal]
  constructor
  · intro h
    obtain ⟨_, rest, rfl, boundary, _, rfl, spaces, _, rfl, inside, behind⟩ := h
    obtain ⟨_, rfl, rfl⟩ := Piece.inTurn_literal.mp behind
    exact ⟨boundary, spaces, rest, by simp, inside⟩
  · intro h
    obtain ⟨boundary, spaces, rest, rfl, inside⟩ := h
    refine ⟨name.toList ++ (spaces ++ ['(']), rest, by simp, by simpa using boundary, _, rfl,
      spaces, ['('], rfl, inside, Piece.inTurn_literal.mpr ⟨[], rfl, rfl⟩⟩

theorem calls_eq_true_iff {name line : String} : calls name line = true ↔ IsCall name line := by
  simp only [calls, Piece.occur_eq_true_iff, isSome_readAll?_callPieces, Option.or_none]
  constructor
  · intro h
    obtain ⟨front, _, split, boundary, spaces, rest, rfl, inside⟩ := h
    exact ⟨front, spaces, rest, split, boundary, inside⟩
  · intro h
    obtain ⟨front, spaces, rest, split, boundary, inside⟩ := h
    exact ⟨front, _, split, boundary, spaces, rest, rfl, inside⟩

instance (name line : String) : Decidable (IsCall name line) :=
  decidable_of_iff _ calls_eq_true_iff

/-! ## Counts -/

/-- The lines of all files, each with its file. -/
def sites (files : List SourceUnit) : List (SourceUnit × String) :=
  files.flatMap fun file => (Text.lines file.text).map fun line => (file, line)

/-- The number of lines that call a name. -/
def callCount (files : List SourceUnit) (name : String) : Nat :=
  (sites files).countP fun site => IsCall name site.2

theorem callCount_append (files more : List SourceUnit) (name : String) :
    callCount (files ++ more) name = callCount files name + callCount more name := by
  rw [callCount, sites, List.flatMap_append, List.countP_append]
  rfl

theorem callCount_perm {files other : List SourceUnit} (h : files.Perm other) (name : String) :
    callCount files name = callCount other name :=
  (h.flatMap_right _).countP_eq _

theorem callCount_singleton (file : SourceUnit) (name : String) :
    callCount [file] name = countLines (callPieces name) file.text := by
  rw [callCount, sites, List.flatMap_singleton, List.countP_map, countLines]
  apply List.countP_congr
  intro line _
  exact decide_eq_true_iff.trans calls_eq_true_iff.symm

theorem foldl_countLines (files : List SourceUnit) (name : String) (n : Nat) :
    files.foldl (fun n file => n + countLines (callPieces name) file.text) n =
      n + callCount files name := by
  induction files generalizing n with
  | nil => rfl
  | cons file files ih =>
    rw [List.foldl_cons, ih, ← callCount_singleton, Nat.add_assoc, ← callCount_append,
      List.singleton_append]

theorem total_eq (files : List SourceUnit) (name : String) :
    total files name = callCount files name :=
  (foldl_countLines files name 0).trans (Nat.zero_add _)

/-- One line that calls a name is enough for a count. -/
theorem one_le_total {files : List SourceUnit} {file : SourceUnit} {name line : String}
    (hfile : file ∈ files) (hline : line ∈ Text.lines file.text) (call : IsCall name line) :
    1 ≤ total files name := by
  rw [total_eq]
  apply List.countP_pos_iff.mpr
  exact ⟨(file, line), List.mem_flatMap.mpr ⟨file, hfile, List.mem_map.mpr ⟨line, hline, rfl⟩⟩,
    decide_eq_true call⟩

theorem answer_perm [PatternLimit] {files other : List SourceUnit}
    (h : files.Perm other) (name : String) :
    answer files name = answer other name := by
  rw [answer, answer, total_eq, total_eq, callCount_perm h]

theorem answer_append [PatternLimit] (files more : List SourceUnit) (name : String) :
    answer (files ++ more) name = do return (← answer files name) + (← answer more name) := by
  rw [answer, answer, answer, total_eq, total_eq, total_eq, callCount_append]
  split <;> rfl

/-! ## Histories -/

/-- The index after some names have been counted, one after the other. -/
def countAll [PatternLimit] (index : CallSiteIndex) (names : List String) : CallSiteIndex :=
  names.foldl (fun index name => (index.count name).2) index

variable {index : CallSiteIndex} {files : List SourceUnit}

theorem Serves.countAll [PatternLimit] (h : index.Serves files) (names : List String) :
    (index.countAll names).Serves files := by
  induction names generalizing index with
  | nil => exact h
  | cons name names ih => exact ih (h.count name)

/-- Nothing is remembered of a name too long to be looked for. -/
theorem count_of_not_fits [PatternLimit] (index : CallSiteIndex) {name : String}
    (long : nameFits name = false) :
    (index.count name).2 = index := by
  unfold count
  split
  next => rfl
  next => rw [if_neg (by simp [long])]

/-- Whatever names an index has counted before, its answer to a name is that of a fresh index: an
error exactly for a name too long to be looked for, and the index stays as it is, otherwise the
number of lines that call the name. The answer is the same for the files in any order, and for two
lists of files put together it is the sum of the two. -/
theorem count_after_any_history [PatternLimit] (files : List SourceUnit)
    (earlier : List String) (name : String) :
    let index := countAll { files } earlier
    (index.count name).1 = (count { files } name).1 ∧
    ((∃ e, (index.count name).1 = .error e) ↔ nameFits name = false) ∧
    (nameFits name = false → (index.count name).2 = index) ∧
    (nameFits name = true →
      (index.count name).1 = .ok ((sites files).countP fun site => IsCall name site.2)) ∧
    (∀ other earlier', files.Perm other → ((countAll { files := other } earlier').count name).1 =
      (index.count name).1) ∧
    ∀ more earlier' earlier'', ((countAll { files := files ++ more } earlier').count name).1 =
      do return (← (index.count name).1) +
        (← ((countAll { files := more } earlier'').count name).1) := by
  intro index
  have answers (files : List SourceUnit) (earlier : List String) :
      ((countAll { files } earlier).count name).1 = answer files name :=
    ((serves_fresh files).countAll earlier).count_eq name
  have here : (index.count name).1 = answer files name := answers files earlier
  refine ⟨?_, ?_, ?_, ?_, ?_, ?_⟩
  · rw [here, (serves_fresh files).count_eq]
  · rw [here, answer]
    split
    next fits => exact iff_of_false (by simp) (by simp [fits])
    next long => exact iff_of_true ⟨_, rfl⟩ (Bool.not_eq_true _ ▸ long)
  · exact count_of_not_fits index
  · intro fits
    rw [here, answer, if_pos fits, total_eq, callCount]
  · intro other earlier' perm
    rw [answers, here, answer_perm perm]
  · intro more earlier' earlier''
    rw [answers, here, answers, answer_append]

theorem utf8ByteSize_join_replicate (n : Nat) (s : String) :
    (String.join (List.replicate n s)).utf8ByteSize = n * s.utf8ByteSize := by
  induction n with
  | zero => simp
  | succ n ih =>
    rw [List.replicate_succ, String.join_cons, String.utf8ByteSize_append, ih,
      Nat.succ_mul, Nat.add_comm]

theorem nameFits_ofLiterals (name : String) :
    @nameFits .ofLiterals name = decide (32 * (name.utf8ByteSize + 1) ≤ 10485760) := by
  have parenthesis : "(".utf8ByteSize = 1 := rfl
  simp [nameFits, callPieces, PatternLimit.fits, Piece.literalSize, parenthesis]

/-- A dollar sign is called only right behind a word; a name too long to be looked for leaves no
trace. -/
theorem count_after_any_history_of_long_name :
    let _ : PatternLimit := .ofLiterals
    let long := String.join (List.replicate 400000 "f")
    let files : List SourceUnit :=
      [⟨.ofText "a.gs", "f$ ()\n$(f$(), f$())\n"⟩, ⟨.ofText "b.gs", "$()"⟩]
    nameFits "$" = true ∧ nameFits long = false ∧
      ((countAll { files } [long, "$", "f"]).count "$").1 = .ok 2 ∧
      ((countAll { files } ["$", "f"]).count long).2 = countAll { files } ["$", "f"] ∧
      ((countAll { files := files.reverse } []).count "$").1 =
        ((countAll { files } ["f"]).count "$").1 := by
  intro limit long files
  have fits : nameFits "$" = true := by decide
  have unfit : nameFits long = false := by
    rw [nameFits_ofLiterals, utf8ByteSize_join_replicate]
    decide
  have two : ((sites files).countP fun site => IsCall "$" site.2) = 2 := by decide +kernel
  have counted := (count_after_any_history files [long, "$", "f"] "$").2.2.2.1 fits
  rw [two] at counted
  exact ⟨fits, unfit, counted, (count_after_any_history files ["$", "f"] long).2.2.1 unfit,
    (count_after_any_history files ["f"] "$").2.2.2.2.1 files.reverse [] files.reverse_perm.symm⟩

end CallSiteIndex

end CodeAtlas
