import CodeAtlas.Proofs.PieceMeaning

/-!
# Readings by any split

Without runs, pieces stand for a text that can be shared out among them in some way, each with a
part that fits it. A reader by runs that never goes back misses nothing of this as long as no piece
repeats a character with which the pieces behind it may begin: `Piece.Apart`. Then every reading by
some split is found, up to the run that the last piece takes (`Piece.exists_readAll?_of_fits`), and
a shape is read just where the text can be shared out and the last run is whole
(`Shape.read?_iff_of_apart`).
-/
namespace CodeAtlas

namespace Piece

variable {p : Char → Bool} {piece : Piece} {pieces after : List Piece} {before : Option Char}
  {cs taken rest : List Char}

/-! ## Pieces that do not compete -/

/-- The characters with which a piece may begin. -/
@[simp]
def Begins (piece : Piece) (c : Char) : Prop :=
  match piece with
  | .boundary => False
  | .literal text => text.head? = some c
  | .spaces | .gap => Text.isSpace c = true
  | .quote => c = '\'' ∨ c = '"'
  | .name => c.isUpper = true
  | .key => Text.isIdentifier c = true
  | .word => Text.isWord c = true
  | .arguments => c ≠ ')'

/-- Whether a piece may stand for nothing. -/
@[simp]
def mayBeEmpty : Piece → Bool
  | .boundary | .spaces | .arguments => true
  | .literal text => text.isEmpty
  | .gap | .quote | .name | .key | .word => false

/-- What the pieces stand for begins with a character, and never with one of this kind. -/
@[simp]
def Bars (p : Char → Bool) : List Piece → Prop
  | [] => False
  | piece :: pieces =>
    (∀ c, piece.Begins c → p c = false) ∧ (piece.mayBeEmpty = true → Bars p pieces)

/-- No piece repeats a character with which the pieces behind it may begin. -/
@[simp]
def Apart : List Piece → Prop
  | [] => True
  | piece :: pieces => (pieces ≠ [] → ∀ p ∈ piece.repeated?, Bars p pieces) ∧ Apart pieces

theorem Apart.of_append (h : Apart (pieces ++ after)) : Apart after := by
  induction pieces with
  | nil => exact h
  | cons piece pieces ih => exact ih h.2

theorem Fits.begins {c : Char} {cs : List Char} (h : piece.Fits before (c :: cs) rest) :
    piece.Begins c := by
  cases piece with
  | boundary => cases h.1
  | literal text => exact (congrArg List.head? h).symm
  | spaces | arguments => exact h c List.mem_cons_self
  | gap | key | word => exact h.2 c List.mem_cons_self
  | quote => exact h.imp (fun same => (List.cons.inj same).1) fun same => (List.cons.inj same).1
  | name => exact h.1

theorem Fits.mayBeEmpty (h : piece.Fits before [] rest) : piece.mayBeEmpty = true := by
  cases piece with
  | boundary | spaces | arguments => rfl
  | literal text => exact List.isEmpty_iff.mpr h.symm
  | gap | key | word => exact absurd rfl h.1
  | quote => rcases h with h | h <;> cases h
  | name => cases h.1

theorem Bars.exists_cons (h : Bars p pieces) (reading : InTurn Fits rest pieces before taken) :
    ∃ c more, taken = c :: more ∧ p c = false := by
  induction pieces generalizing before taken with
  | nil => exact h.elim
  | cons piece pieces ih =>
    obtain ⟨first, more, rfl, fits, reading⟩ := reading
    cases first with
    | nil => exact ih (h.2 fits.mayBeEmpty) reading
    | cons c first => exact ⟨c, first ++ more, rfl, h.1 c fits.begins⟩

/-! ## Readings by any split -/

/-- No run of the last piece goes on in the text. -/
def Stopped (pieces : List Piece) (rest : List Char) : Prop :=
  ∀ p ∈ pieces.getLast?.bind repeated?, rest.head?.any p = false

theorem stopped_iff (last : pieces.getLast?.bind repeated? = some p) :
    Stopped pieces rest ↔ rest.head?.any p = false := by
  simp [Stopped, last]

theorem stopped_of_none (last : pieces.getLast?.bind repeated? = none) : Stopped pieces rest := by
  simp [Stopped, last]

theorem Stopped.tail (h : Stopped (piece :: pieces) rest) : Stopped pieces rest := by
  cases pieces with
  | nil => exact stopped_of_none rfl
  | cons next pieces => exact h

theorem Stopped.of_append (h : Stopped (pieces ++ after) rest) : Stopped after rest := by
  induction pieces with
  | nil => exact h
  | cons piece pieces ih => exact ih h.tail

/-- Pieces that share out a text in front of others take their parts as runs, if they are all apart
and the last run is whole. -/
theorem inTurn_takes {more : List Char} (apart : Apart (pieces ++ after))
    (stopped : Stopped (pieces ++ after) rest)
    (reading : InTurn Fits (more ++ rest) pieces before taken)
    (behind : InTurn Fits rest after (taken.getLast?.or before) more) :
    InTurn Takes (more ++ rest) pieces before taken := by
  induction pieces generalizing before taken with
  | nil => exact reading
  | cons piece pieces ih =>
    obtain ⟨first, others, rfl, fits, reading⟩ := reading
    rw [List.getLast?_append, Option.or_assoc] at behind
    refine ⟨first, others, rfl, ⟨fits, ?_⟩, ih apart.2 stopped.tail reading behind⟩
    intro p repeated
    -- a run stops at what the pieces behind it begin with, and the last one where the text says
    by_cases last : pieces ++ after = []
    · obtain ⟨rfl, rfl⟩ := List.append_eq_nil_iff.mp last
      cases reading
      cases behind
      exact stopped p repeated
    · have remaining := inTurn_append.mpr ⟨others, more, rfl, reading, behind⟩
      obtain ⟨c, tail, parts, other⟩ := (apart.1 last p repeated).exists_cons remaining
      rw [← List.append_assoc, parts]
      exact other

theorem InTurn.takes (apart : Apart pieces) (stopped : Stopped pieces rest)
    (reading : InTurn Fits rest pieces before taken) : InTurn Takes rest pieces before taken := by
  rw [← List.append_nil pieces] at apart stopped
  have behind : InTurn Fits rest [] (taken.getLast?.or before) [] := rfl
  change InTurn Takes ([] ++ rest) pieces before taken
  exact inTurn_takes apart stopped reading behind

theorem Fits.append {more : List Char} (h : piece.Fits before taken rest)
    (repeats : piece.repeated? = some p) (inside : ∀ c ∈ more, p c = true) (after : List Char) :
    piece.Fits before (taken ++ more) after := by
  have all {q : Char → Bool} (first : ∀ c ∈ taken, q c = true) (same : q = p) :
      ∀ c ∈ taken ++ more, q c = true := by
    intro c hc
    rcases List.mem_append.mp hc with hc | hc
    · exact first c hc
    · exact same ▸ inside c hc
  have filled (first : taken ≠ []) : taken ++ more ≠ [] :=
    List.append_ne_nil_of_left_ne_nil first more
  cases piece with
  | boundary | literal | quote => cases repeats
  | spaces => exact all h (Option.some_inj.mp repeats)
  | gap | key | word => exact ⟨filled h.1, all h.2 (Option.some_inj.mp repeats)⟩
  | name =>
    refine ⟨?_, all h.2 (Option.some_inj.mp repeats)⟩
    cases taken with
    | nil => cases h.1
    | cons c taken => exact h.1
  | arguments =>
    intro c hc
    exact of_decide_eq_true
      (all (fun c hc => decide_eq_true (h c hc)) (Option.some_inj.mp repeats) c hc)

/-- What fits a piece can be made longer, up to the end of the run. -/
theorem Fits.exists_takes (h : piece.Fits before taken rest) :
    ∃ more after, rest = more ++ after ∧ piece.Takes before (taken ++ more) after := by
  cases repeats : piece.repeated? with
  | none =>
    refine ⟨[], rest, rfl, by rwa [List.append_nil], ?_⟩
    intro p repeated
    rw [repeats] at repeated
    cases repeated
  | some p =>
    have isRun := isRun_run p rest
    refine ⟨(run p rest).1, (run p rest).2, (run_append p rest).symm,
      h.append repeats isRun.inside _, ?_⟩
    intro q repeated
    rw [repeats] at repeated
    cases repeated
    exact isRun.stops

theorem exists_stopped (reading : InTurn Fits rest pieces before taken) :
    ∃ more after, rest = more ++ after ∧ InTurn Fits after pieces before (taken ++ more) ∧
    Stopped pieces after := by
  induction pieces generalizing before taken with
  | nil =>
    cases reading
    exact ⟨[], rest, rfl, rfl, stopped_of_none rfl⟩
  | cons piece pieces ih =>
    cases pieces with
    | nil =>
      obtain ⟨more, after, rfl, takes⟩ := (inTurn_single.mp reading).exists_takes
      exact ⟨more, after, rfl, inTurn_single.mpr takes.1, takes.2⟩
    | cons next pieces =>
      -- only the last part grows, so that the first has the same text behind it
      obtain ⟨first, others, rfl, fits, reading⟩ := reading
      obtain ⟨more, after, rfl, reading, stopped⟩ := ih reading
      refine ⟨more, after, rfl, ⟨first, others ++ more, List.append_assoc .., ?_, reading⟩, stopped⟩
      rwa [List.append_assoc]

/-- Reading by runs finds every reading by some split, up to the run that the last piece takes. -/
theorem exists_readAll?_of_fits (apart : Apart pieces)
    (reading : InTurn Fits rest pieces before taken) :
    ∃ more after, rest = more ++ after ∧ readAll? pieces before (taken ++ rest) =
      some (taken ++ more, after) := by
  obtain ⟨more, after, rfl, reading, stopped⟩ := exists_stopped reading
  exact ⟨more, after, rfl,
    readAll?_eq_some_iff.mpr ⟨(List.append_assoc ..).symm, reading.takes apart stopped⟩⟩

theorem InTurn.fits (h : InTurn Takes rest pieces before taken) :
    InTurn Fits rest pieces before taken := by
  induction pieces generalizing before taken with
  | nil => exact h
  | cons piece pieces ih =>
    obtain ⟨first, more, rfl, takes, h⟩ := h
    exact ⟨first, more, rfl, takes.1, ih h⟩

theorem InTurn.stopped (h : InTurn Takes rest pieces before taken) : Stopped pieces rest := by
  induction pieces generalizing before taken with
  | nil => exact stopped_of_none rfl
  | cons piece pieces ih =>
    obtain ⟨first, more, rfl, takes, h⟩ := h
    cases pieces with
    | nil =>
      cases h
      exact takes.2
    | cons next pieces => exact ih h

/-- Pieces that are apart can be read where the text can be shared out among them in any way. -/
theorem isSome_readAll?_iff_of_apart (apart : Apart pieces) :
    (readAll? pieces before cs).isSome = true ↔
    ∃ taken rest, cs = taken ++ rest ∧ InTurn Fits rest pieces before taken := by
  constructor
  · intro h
    obtain ⟨⟨taken, rest⟩, read⟩ := Option.isSome_iff_exists.mp h
    obtain ⟨parts, takes⟩ := readAll?_eq_some_iff.mp read
    exact ⟨taken, rest, parts, takes.fits⟩
  · intro h
    obtain ⟨taken, rest, rfl, reading⟩ := h
    obtain ⟨more, after, -, read⟩ := exists_readAll?_of_fits apart reading
    rw [read]
    rfl

end Piece

namespace Shape

open Piece (Apart Fits InTurn Stopped Takes)

variable {s : Shape} {before : Option Char} {cs name : List Char} {n : Nat}

/-- A shape whose pieces are apart is read where the text can be shared out among them, with the
last run whole. -/
theorem read?_iff_of_apart (apart : Apart s.pieces) : s.read? before cs = some (name, n) ↔
    ∃ lead trail rest, cs = lead ++ (name ++ (trail ++ rest)) ∧
    n = lead.length + name.length + trail.length ∧
      InTurn Fits (name ++ (trail ++ rest)) s.lead before lead ∧
      s.name.Fits (lead.getLast?.or before) name (trail ++ rest) ∧
      InTurn Fits rest s.trail (name.getLast?.or (lead.getLast?.or before)) trail ∧
      Stopped s.pieces rest := by
  rw [read?_eq_some_iff]
  constructor
  · intro h
    obtain ⟨lead, trail, rest, rfl, rfl, takesLead, takesName, takesTrail⟩ := h
    have whole : InTurn Takes rest s.pieces before (lead ++ (name ++ trail)) := by
      refine Piece.inTurn_append.mpr ⟨lead, name ++ trail, rfl, ?_, name, trail, rfl,
        takesName, takesTrail⟩
      rwa [List.append_assoc]
    exact ⟨lead, trail, rest, rfl, rfl, takesLead.fits, takesName.1, takesTrail.fits, whole.stopped⟩
  · intro h
    obtain ⟨lead, trail, rest, rfl, rfl, hlead, hname, htrail, stopped⟩ := h
    have behindLead : Apart (s.name :: s.trail) := apart.of_append
    have stoppedBehind : Stopped (s.name :: s.trail) rest := stopped.of_append
    refine ⟨lead, trail, rest, rfl, rfl, ?_, ?_, ?_⟩
    · rw [← List.append_assoc] at hlead ⊢
      exact Piece.inTurn_takes apart stopped hlead ⟨name, trail, rfl, hname, htrail⟩
    · have first : InTurn Fits (trail ++ rest) [s.name] (lead.getLast?.or before) name :=
        Piece.inTurn_single.mpr hname
      exact Piece.inTurn_single.mp (Piece.inTurn_takes behindLead stoppedBehind first htrail)
    · exact htrail.takes behindLead.2 stoppedBehind.tail

/-- Such a shape is read wherever the text can be shared out among its pieces, whole runs or not. -/
theorem isSome_read?_iff_of_apart (apart : Apart s.pieces) : (s.read? before cs).isSome = true ↔
    ∃ taken rest, cs = taken ++ rest ∧ InTurn Fits rest s.pieces before taken := by
  constructor
  · intro h
    obtain ⟨⟨name, n⟩, read⟩ := Option.isSome_iff_exists.mp h
    obtain ⟨lead, trail, rest, rfl, -, hlead, hname, htrail, -⟩ :=
      (read?_iff_of_apart apart).mp read
    refine ⟨lead ++ (name ++ trail), rest, by simp, Piece.inTurn_append.mpr ?_⟩
    exact ⟨lead, name ++ trail, rfl, by rwa [List.append_assoc], name, trail, rfl, hname, htrail⟩
  · intro h
    obtain ⟨taken, rest, rfl, reading⟩ := h
    obtain ⟨more, after, rfl, reading, stopped⟩ := Piece.exists_stopped reading
    obtain ⟨lead, _, split, hlead, name, trail, rfl, hname, htrail⟩ :=
      Piece.inTurn_append.mp reading
    have parts : taken ++ (more ++ after) = lead ++ (name ++ (trail ++ after)) := by
      rw [← List.append_assoc, split]
      simp
    rw [List.append_assoc] at hlead
    have read :=
      (read?_iff_of_apart apart).mpr ⟨lead, trail, after, parts, rfl, hlead, hname, htrail, stopped⟩
    rw [read]
    rfl

/-- What such a shape names at the start of a line. -/
theorem nameAtStart?_iff_of_apart (apart : Apart s.pieces) {line name : String} :
    s.nameAtStart? line = some name ↔
      ∃ lead trail rest, line.toList = lead ++ (name.toList ++ (trail ++ rest)) ∧
        InTurn Fits (name.toList ++ (trail ++ rest)) s.lead none lead ∧
        s.name.Fits (lead.getLast?.or none) name.toList (trail ++ rest) ∧
        InTurn Fits rest s.trail (name.toList.getLast?.or (lead.getLast?.or none)) trail ∧
        Stopped s.pieces rest := by
  rw [nameAtStart?, Option.map_eq_some_iff]
  constructor
  · intro h
    obtain ⟨⟨chars, n⟩, read, rfl⟩ := h
    obtain ⟨lead, trail, rest, split, -, reading⟩ := (read?_iff_of_apart apart).mp read
    rw [String.toList_ofList]
    exact ⟨lead, trail, rest, split, reading⟩
  · intro h
    obtain ⟨lead, trail, rest, split, reading⟩ := h
    exact ⟨(name.toList, _),
      (read?_iff_of_apart apart).mpr ⟨lead, trail, rest, split, rfl, reading⟩, String.ofList_toList⟩

end Shape

end CodeAtlas
