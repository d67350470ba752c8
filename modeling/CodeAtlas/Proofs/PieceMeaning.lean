import CodeAtlas.Proofs.ShapeReading

/-!
# What the pieces of a shape mean

Reading is a function of the text, and this module says which relation it computes. Whether a piece
may stand for a part of the text is a property of this part, of the rest, and of the character in
front: `Piece.Fits`. What it takes is a part that fits and that no run goes on behind,
`Piece.Takes`, which is why there is never more than one answer. `Piece.InTurn` puts pieces
together, and `Shape.read?_eq_some_iff` says when a shape is read.
-/
namespace CodeAtlas

/-! ## Characters -/

namespace Text

theorem toNat_lt_of_isIdentifier {c : Char} (h : isIdentifier c = true) : c.toNat < 128 := by
  have kinds : (((c.isUpper || c.isLower) || c.isDigit) || c == '_') = true := h
  simp only [Bool.or_eq_true, beq_iff_eq] at kinds
  rcases kinds with ((upper | lower) | digit) | rfl
  · have bounds : 'A'.val ≤ c.val ∧ c.val ≤ 'Z'.val := of_decide_eq_true upper
    exact Nat.lt_of_le_of_lt bounds.2 (by decide)
  · have bound : c.val ≤ 'z'.val := of_decide_eq_true (Bool.and_eq_true_iff.mp lower).2
    exact Nat.lt_of_le_of_lt bound (by decide)
  · have bound : c.val ≤ '9'.val := of_decide_eq_true (Bool.and_eq_true_iff.mp digit).2
    exact Nat.lt_of_le_of_lt bound (by decide)
  · decide

theorem isWord_of_isIdentifier {c : Char} (h : isIdentifier c = true) : isWord c = true := by
  rw [isWord, if_pos (toNat_lt_of_isIdentifier h), h]

theorem isIdentifier_of_isUpper {c : Char} (h : c.isUpper = true) : isIdentifier c = true := by
  change (((c.isUpper || c.isLower) || c.isDigit) || c == '_') = true
  rw [h]
  rfl

theorem isSpace_of_isWord {c : Char} (h : isWord c = true) : isSpace c = false := by
  cases space : isSpace c with
  | false => rfl
  | true =>
    rw [isWord_of_isSpace space] at h
    cases h

theorem isSpace_of_isUpper {c : Char} (h : c.isUpper = true) : isSpace c = false :=
  isSpace_of_isWord (isWord_of_isIdentifier (isIdentifier_of_isUpper h))

theorem isIdentifier_of_isSpace {c : Char} (h : isSpace c = true) : isIdentifier c = false := by
  cases identifier : isIdentifier c with
  | false => rfl
  | true =>
    rw [isSpace_of_isWord (isWord_of_isIdentifier identifier)] at h
    cases h

theorem isUpper_of_isSpace {c : Char} (h : isSpace c = true) : c.isUpper = false := by
  cases upper : c.isUpper with
  | false => rfl
  | true =>
    rw [isSpace_of_isUpper upper] at h
    cases h

theorem isBoundary_before_word {before : Option Char} {c : Char} (word : isWord c = true) :
    isBoundary before (some c) = true ↔ before.any isWord = false := by
  simp [isBoundary, word]

end Text

namespace Piece

/-! ## Runs -/

/-- All of `taken` has a property, and `rest` does not go on with a character that has it. -/
structure IsRun (p : Char → Bool) (taken rest : List Char) : Prop where
  inside : ∀ c ∈ taken, p c = true
  stops : rest.head?.any p = false

variable {p : Char → Bool} {before : Option Char} {cs taken rest : List Char}

theorem isRun_iff : IsRun p taken rest ↔ (∀ c ∈ taken, p c = true) ∧ rest.head?.any p = false :=
  ⟨fun h => ⟨h.inside, h.stops⟩, fun h => ⟨h.1, h.2⟩⟩

theorem isRun_run (p : Char → Bool) (cs : List Char) : IsRun p (run p cs).1 (run p cs).2 := by
  refine ⟨fun c hc => List.all_eq_true.mp List.all_takeWhile c hc, ?_⟩
  have stop := List.head?_dropWhile_not p cs
  unfold run
  cases next : (cs.dropWhile p).head? with
  | none => rfl
  | some c => simpa [next] using stop

theorem IsRun.run_append (h : IsRun p taken rest) : run p (taken ++ rest) = (taken, rest) := by
  unfold run
  rw [List.takeWhile_append_of_pos h.inside, List.dropWhile_append_of_pos h.inside]
  cases rest with
  | nil => simp
  | cons c rest =>
    have stop : p c = false := h.stops
    simp [stop]

theorem IsRun.takeWhile_eq (h : IsRun p taken rest) (parts : cs = taken ++ rest) :
    cs.takeWhile p = taken := by
  rw [parts]
  exact congrArg Prod.fst h.run_append

theorem run_eq_iff : run p cs = (taken, rest) ↔ cs = taken ++ rest ∧ IsRun p taken rest := by
  constructor
  · intro h
    have parts := run_append p cs
    have isRun := isRun_run p cs
    rw [h] at parts isRun
    exact ⟨parts.symm, isRun⟩
  · intro h
    rw [h.1, h.2.run_append]

theorem run?_eq_some_iff :
    run? p cs = some (taken, rest) ↔ cs = taken ++ rest ∧ taken ≠ [] ∧ IsRun p taken rest := by
  unfold run?
  by_cases empty : cs.takeWhile p = []
  · rw [if_pos (by simpa using empty)]
    refine iff_of_false (by simp) ?_
    intro h
    obtain ⟨parts, filled, isRun⟩ := h
    exact filled ((isRun.takeWhile_eq parts).symm.trans empty)
  · rw [if_neg (by simpa using empty), Option.some_inj, run_eq_iff]
    constructor
    · intro h
      refine ⟨h.1, ?_, h.2⟩
      rwa [← h.2.takeWhile_eq h.1]
    · intro h
      exact ⟨h.1, h.2.2⟩

/-! ## Pieces -/

/-- The characters that a piece repeats. -/
@[simp]
def repeated? : Piece → Option (Char → Bool)
  | .spaces | .gap => some Text.isSpace
  | .name | .key => some Text.isIdentifier
  | .word => some Text.isWord
  | .arguments => some (· ≠ ')')
  | .boundary | .literal _ | .quote => none

/-- What a piece may stand for in front of `rest`, whether or not a run goes on there. -/
def Fits (piece : Piece) (before : Option Char) (taken rest : List Char) : Prop :=
  match piece with
  | .boundary => taken = [] ∧ Text.isBoundary before rest.head? = true
  | .literal text => taken = text
  | .spaces => ∀ c ∈ taken, Text.isSpace c = true
  | .gap => taken ≠ [] ∧ ∀ c ∈ taken, Text.isSpace c = true
  | .quote => taken = ['\''] ∨ taken = ['"']
  | .name => taken.head?.any Char.isUpper = true ∧ ∀ c ∈ taken, Text.isIdentifier c = true
  | .key => taken ≠ [] ∧ ∀ c ∈ taken, Text.isIdentifier c = true
  | .word => taken ≠ [] ∧ ∀ c ∈ taken, Text.isWord c = true
  | .arguments => ∀ c ∈ taken, c ≠ ')'

/-- No run of the piece goes on in the text. -/
def Stops (piece : Piece) (rest : List Char) : Prop :=
  ∀ p ∈ piece.repeated?, rest.head?.any p = false

/-- What a piece takes in front of `rest`: something that fits it, and all of a run. -/
def Takes (piece : Piece) (before : Option Char) (taken rest : List Char) : Prop :=
  piece.Fits before taken rest ∧ piece.Stops rest

theorem read?_quote_eq_some_iff : Piece.quote.read? before cs = some (taken, rest) ↔
    cs = taken ++ rest ∧ (taken = ['\''] ∨ taken = ['"']) := by
  cases cs with
  | nil => grind [read?]
  | cons c cs =>
    simp only [read?]
    split
    next mark => grind
    next mark => grind

theorem read?_name_eq_some_iff : Piece.name.read? before cs = some (taken, rest) ↔
    cs = taken ++ rest ∧ taken.head?.any Char.isUpper = true ∧
    IsRun Text.isIdentifier taken rest := by
  -- the capital is the first character of the run, so that it is the same to ask for it in the text
  have first (parts : cs = taken ++ rest) (h : IsRun Text.isIdentifier taken rest) :
      cs.head?.any Char.isUpper = taken.head?.any Char.isUpper := by
    subst parts
    cases taken with
    | nil =>
      cases rest with
      | nil => rfl
      | cons c rest =>
        cases upper : c.isUpper with
        | false => simp [upper]
        | true =>
          have stop : Text.isIdentifier c = false := h.stops
          rw [Text.isIdentifier_of_isUpper upper] at stop
          cases stop
    | cons c taken => rfl
  have capital : Piece.name.read? before cs =
      if cs.head?.any Char.isUpper then some (run Text.isIdentifier cs) else none := by
    cases cs <;> rfl
  rw [capital]
  constructor
  · intro h
    split at h
    next upper =>
      obtain ⟨parts, isRun⟩ := run_eq_iff.mp (Option.some_inj.mp h)
      exact ⟨parts, first parts isRun ▸ upper, isRun⟩
    · cases h
  · intro h
    obtain ⟨parts, upper, isRun⟩ := h
    rw [if_pos (first parts isRun ▸ upper), run_eq_iff.mpr ⟨parts, isRun⟩]

theorem read?_eq_some_iff {piece : Piece} : piece.read? before cs = some (taken, rest) ↔
    cs = taken ++ rest ∧ piece.Takes before taken rest := by
  cases piece with
  | boundary =>
    simp only [read?, Takes, Fits, Stops, repeated?]
    split
    next boundary => grind
    next boundary => grind
  | literal text =>
    simp only [read?, Takes, Fits, Stops, repeated?]
    split
    next here =>
      obtain ⟨after, rfl⟩ := List.isPrefixOf_iff_prefix.mp here
      grind
    next here => grind [List.isPrefixOf_iff_prefix]
  | quote =>
    rw [read?_quote_eq_some_iff]
    simp [Takes, Fits, Stops, repeated?]
  | name =>
    rw [read?_name_eq_some_iff]
    simp [Takes, Fits, Stops, repeated?, isRun_iff, and_assoc]
  | spaces | arguments => simp [read?, run_eq_iff, Takes, Fits, Stops, repeated?, isRun_iff]
  | gap | key | word =>
    simp [read?, run?_eq_some_iff, Takes, Fits, Stops, repeated?, isRun_iff, and_assoc]

/-! ## Pieces in turn -/

/-- The pieces share `taken` out among themselves, and each has a part that `has` allows. -/
def InTurn (has : Piece → Option Char → List Char → List Char → Prop) (rest : List Char) :
    List Piece → Option Char → List Char → Prop
  | [], _, taken => taken = []
  | piece :: pieces, before, taken => ∃ first more, taken = first ++ more ∧
      has piece before first (more ++ rest) ∧ InTurn has rest pieces (first.getLast?.or before) more

theorem readAll?_eq_some_iff {pieces : List Piece} :
    readAll? pieces before cs = some (taken, rest) ↔
    cs = taken ++ rest ∧ InTurn Takes rest pieces before taken := by
  induction pieces generalizing before cs taken with
  | nil => grind [readAll?, InTurn]
  | cons piece pieces ih =>
    constructor
    · intro h
      obtain ⟨first, middle, more, hfirst, hmore, rfl⟩ := readAll?_cons h
      obtain ⟨parts, takes⟩ := read?_eq_some_iff.mp hfirst
      obtain ⟨rfl, all⟩ := ih.mp hmore
      exact ⟨by rw [parts, List.append_assoc], first, more, rfl, takes, all⟩
    · intro h
      obtain ⟨parts, first, more, split, takes, all⟩ := h
      have hfirst : piece.read? before cs = some (first, more ++ rest) :=
        read?_eq_some_iff.mpr ⟨by rw [parts, split, List.append_assoc], takes⟩
      have hmore := ih.mpr ⟨rfl, all⟩
      simp [readAll?, hfirst, hmore, split]

theorem inTurn_boundary {pieces : List Piece} :
    InTurn Fits rest (.boundary :: pieces) before taken ↔
    Text.isBoundary before (taken ++ rest).head? = true ∧ InTurn Fits rest pieces before taken := by
  constructor
  · intro h
    obtain ⟨first, more, rfl, ⟨rfl, boundary⟩, all⟩ := h
    exact ⟨boundary, all⟩
  · intro h
    exact ⟨[], taken, rfl, ⟨rfl, h.1⟩, h.2⟩

theorem inTurn_literal {text : List Char} {pieces : List Piece} :
    InTurn Fits rest (.literal text :: pieces) before taken ↔
      ∃ more, taken = text ++ more ∧ InTurn Fits rest pieces (text.getLast?.or before) more := by
  constructor
  · intro h
    obtain ⟨first, more, rfl, rfl, all⟩ := h
    exact ⟨more, rfl, all⟩
  · intro h
    obtain ⟨more, rfl, all⟩ := h
    exact ⟨text, more, rfl, rfl, all⟩

theorem inTurn_single {has : Piece → Option Char → List Char → List Char → Prop} {piece : Piece} :
    InTurn has rest [piece] before taken ↔ has piece before taken rest := by
  constructor
  · intro h
    obtain ⟨first, _, rfl, part, rfl⟩ := h
    rwa [List.append_nil]
  · intro h
    exact ⟨taken, [], (List.append_nil taken).symm, h, rfl⟩

theorem inTurn_append {has : Piece → Option Char → List Char → List Char → Prop}
    {pieces after : List Piece} :
    InTurn has rest (pieces ++ after) before taken ↔ ∃ first more, taken = first ++ more ∧
      InTurn has (more ++ rest) pieces before first ∧
      InTurn has rest after (first.getLast?.or before) more := by
  induction pieces generalizing before taken with
  | nil =>
    constructor
    · intro h
      exact ⟨[], taken, rfl, rfl, h⟩
    · intro h
      obtain ⟨_, more, rfl, rfl, h⟩ := h
      exact h
  | cons piece pieces ih =>
    constructor
    · intro h
      obtain ⟨first, _, rfl, part, h⟩ := h
      obtain ⟨middle, more, rfl, within, behind⟩ := ih.mp h
      refine ⟨first ++ middle, more, (List.append_assoc ..).symm, ⟨first, middle, rfl, ?_, within⟩,
        ?_⟩
      · rwa [List.append_assoc] at part
      · rwa [List.getLast?_append, Option.or_assoc]
    · intro h
      obtain ⟨_, more, rfl, ⟨first, middle, rfl, part, within⟩, behind⟩ := h
      rw [List.getLast?_append, Option.or_assoc] at behind
      refine ⟨first, middle ++ more, List.append_assoc .., ?_,
        ih.mpr ⟨middle, more, rfl, within, behind⟩⟩
      rwa [List.append_assoc]

end Piece

namespace Shape

variable {s : Shape} {before : Option Char} {cs name : List Char} {n : Nat}

theorem read?_eq_some_iff : s.read? before cs = some (name, n) ↔
    ∃ lead trail rest, cs = lead ++ (name ++ (trail ++ rest)) ∧
    n = lead.length + name.length + trail.length ∧
      Piece.InTurn Piece.Takes (name ++ (trail ++ rest)) s.lead before lead ∧
      s.name.Takes (lead.getLast?.or before) name (trail ++ rest) ∧
      Piece.InTurn Piece.Takes rest s.trail (name.getLast?.or (lead.getLast?.or before)) trail := by
  constructor
  · intro h
    simp only [read?, Option.bind_eq_bind] at h
    obtain ⟨⟨lead, afterLead⟩, hlead, h⟩ := Option.bind_eq_some_iff.mp h
    obtain ⟨⟨named, afterName⟩, hname, h⟩ := Option.bind_eq_some_iff.mp h
    obtain ⟨⟨trail, rest⟩, htrail, h⟩ := Option.bind_eq_some_iff.mp h
    cases h
    obtain ⟨rfl, takesLead⟩ := Piece.readAll?_eq_some_iff.mp hlead
    obtain ⟨rfl, takesName⟩ := Piece.read?_eq_some_iff.mp hname
    obtain ⟨rfl, takesTrail⟩ := Piece.readAll?_eq_some_iff.mp htrail
    exact ⟨lead, trail, rest, rfl, rfl, takesLead, takesName, takesTrail⟩
  · intro h
    obtain ⟨lead, trail, rest, parts, length, takesLead, takesName, takesTrail⟩ := h
    have hlead := Piece.readAll?_eq_some_iff.mpr ⟨parts, takesLead⟩
    have hname := Piece.read?_eq_some_iff.mpr ⟨rfl, takesName⟩
    have htrail := Piece.readAll?_eq_some_iff.mpr ⟨rfl, takesTrail⟩
    simp [read?, hlead, hname, htrail, length]

end Shape

end CodeAtlas
