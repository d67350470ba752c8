import CodeAtlas.Proofs.PieceReadings

/-!
# Places in a text

Occurrences of a shape are looked for from left to right, and each search goes on behind the last
occurrence, so one that began inside another would be passed over. `Shape.namesFrom_eq` says that
the search finds every place where the shape can be read, if no occurrence begins inside another.

A phrase says the same on the text alone, without reading: which characters stand at a place, and
what follows them. `Phrase.ListedIn` says that names are those of all places where a phrase stands,
in order, and `Shape.Finds` is what it takes for a shape to find them.

Inside an occurrence, a shape that opens with a word can begin only where a word does, which leaves
few places to look at.
-/
namespace CodeAtlas

/-! ## Places where a shape can be read -/

namespace Shape

/-- All places where the shape can be read, with the names there; the first place has the number
`start`. -/
def placesFrom (s : Shape) (start : Nat) (before : Option Char) : List Char → List (Nat × String)
  | [] => []
  | c :: cs =>
    ((s.read? before (c :: cs)).map fun r => (start, String.ofList r.1)).toList ++
      s.placesFrom (start + 1) (some c) cs

/-- The shape can be read nowhere in `taken`, with `rest` behind it. -/
def Barren (s : Shape) (rest : List Char) : Option Char → List Char → Prop
  | _, [] => True
  | before, c :: taken =>
    s.read? before (c :: (taken ++ rest)) = none ∧ s.Barren rest (some c) taken

/-- No occurrence begins inside another. -/
def Separate (s : Shape) : Prop :=
  ∀ before cs name n, s.read? before cs = some (name, n) →
    ∃ c inner rest, cs = c :: (inner ++ rest) ∧ n = inner.length + 1 ∧ s.Barren rest (some c) inner

variable {s : Shape}

theorem getLast?_cons_or (c : Char) (cs : List Char) (before : Option Char) :
    (c :: cs).getLast?.or before = cs.getLast?.or (some c) := by
  rw [List.getLast?_cons]
  cases cs.getLast? <;> rfl

theorem barren_append (before : Option Char) (first more rest : List Char) :
    s.Barren rest before (first ++ more) ↔
      s.Barren (more ++ rest) before first ∧ s.Barren rest (first.getLast?.or before) more := by
  induction first generalizing before with
  | nil => simp [Barren]
  | cons c first ih =>
    rw [List.cons_append, Barren, Barren, ih, List.append_assoc, and_assoc, getLast?_cons_or]

/-- What the search finds: behind the text it passes over, everything that can be read. -/
theorem namesFrom_eq (separate : s.Separate) (cs : List Char) (start : Nat) (before : Option Char)
    (found : List String) (passed rest : List Char) (split : cs = passed ++ rest)
    (barren : s.Barren rest before passed) :
    s.namesFrom found passed.length before cs =
      found.reverse ++ (s.placesFrom start before cs).map Prod.snd := by
  induction cs generalizing start before found passed rest with
  | nil => cases passed <;> simp [namesFrom, placesFrom]
  | cons c cs ih =>
    cases passed with
    | cons d passed =>
      rw [List.cons_append] at split
      obtain ⟨rfl, rfl⟩ := List.cons.inj split
      rw [List.length_cons, namesFrom, ih (start + 1) (some c) found passed rest rfl barren.2,
        placesFrom, barren.1]
      rfl
    | nil =>
      rw [List.length_nil, namesFrom, placesFrom]
      cases read : s.read? before (c :: cs) with
      | none => simpa using ih (start + 1) (some c) found [] cs rfl trivial
      | some r =>
        obtain ⟨name, n⟩ := r
        obtain ⟨_, inner, after, parts, length, bare⟩ := separate before (c :: cs) name n read
        obtain ⟨rfl, rfl⟩ := List.cons.inj parts
        have later := ih (start + 1) (some c) (String.ofList name :: found) inner after rfl bare
        simpa [length] using later

theorem mem_placesFrom {start p : Nat} {before : Option Char} {cs : List Char} {name : String} :
    (p, name) ∈ s.placesFrom start before cs ↔
      ∃ front rest n, cs = front ++ rest ∧ rest ≠ [] ∧ p = start + front.length ∧
        s.read? (front.getLast?.or before) rest = some (name.toList, n) := by
  induction cs generalizing start before with
  | nil =>
    refine iff_of_false List.not_mem_nil ?_
    intro h
    obtain ⟨front, rest, n, split, filled, _⟩ := h
    exact filled (List.append_eq_nil_iff.mp split.symm).2
  | cons c cs ih =>
    rw [placesFrom, List.mem_append, Option.mem_toList, Option.map_eq_some_iff, ih]
    constructor
    · intro h
      rcases h with here | later
      · obtain ⟨⟨chars, n⟩, read, same⟩ := here
        cases same
        exact ⟨[], c :: cs, n, rfl, List.cons_ne_nil c cs, rfl, by simpa using read⟩
      · obtain ⟨front, rest, n, rfl, filled, rfl, read⟩ := later
        refine ⟨c :: front, rest, n, rfl, filled, by rw [List.length_cons]; omega, ?_⟩
        rwa [getLast?_cons_or]
    · intro h
      obtain ⟨front, rest, n, split, filled, rfl, read⟩ := h
      cases front with
      | nil =>
        cases split
        exact .inl ⟨(name.toList, n), read, by simp⟩
      | cons d front =>
        cases split
        refine .inr ⟨front, rest, n, rfl, filled, by rw [List.length_cons]; omega, ?_⟩
        rwa [getLast?_cons_or] at read

theorem placesFrom_increasing (s : Shape) (start : Nat) (before : Option Char) (cs : List Char) :
    (s.placesFrom start before cs).Pairwise fun a b => a.1 < b.1 := by
  induction cs generalizing start before with
  | nil => exact .nil
  | cons c cs ih =>
    rw [placesFrom, List.pairwise_append]
    refine ⟨?_, ih (start + 1) (some c), ?_⟩
    · cases s.read? before (c :: cs) <;> simp
    · intro a ha b hb
      obtain ⟨p, name⟩ := b
      obtain ⟨front, _, _, _, _, rfl, _⟩ := mem_placesFrom.mp hb
      rw [Option.mem_toList, Option.map_eq_some_iff] at ha
      obtain ⟨_, _, rfl⟩ := ha
      dsimp only
      omega

end Shape

/-! ## Phrases -/

/-- What may stand at a place: a name, the characters that it stands in, and what follows them. -/
abbrev Phrase := List Char → List Char → List Char → Prop

namespace Phrase

/-- The phrase stands at place `p` of a text, behind no word character. -/
def StandsAt (phrase : Phrase) (text : String) (p : Nat) (name : String) : Prop :=
  ∃ front taken rest, text.toList = front ++ (taken ++ rest) ∧ front.length = p ∧
    front.getLast?.any Text.isWord = false ∧ phrase name.toList taken rest

/-- These are the names at all places of a text where the phrase stands, from left to right. -/
def ListedIn (phrase : Phrase) (text : String) (names : List String) : Prop :=
  ∃ found : List (Nat × String), found.Pairwise (fun a b => a.1 < b.1) ∧
    (∀ p name, (p, name) ∈ found ↔ phrase.StandsAt text p name) ∧ names = found.map Prod.snd

theorem ListedIn.mem {phrase : Phrase} {text name : String} {names : List String} {p : Nat}
    (h : phrase.ListedIn text names) (stands : phrase.StandsAt text p name) : name ∈ names := by
  obtain ⟨found, -, all, rfl⟩ := h
  exact List.mem_map_of_mem ((all p name).mpr stands)

end Phrase

namespace Shape

variable {s : Shape} {p : Char → Bool} {phrase : Phrase}

/-- Reading the shape is finding the phrase, and the phrase is found nowhere inside itself. -/
structure Finds (s : Shape) (phrase : Phrase) : Prop where
  reads : ∀ before cs name n, s.read? before cs = some (name, n) ↔
    before.any Text.isWord = false ∧ ∃ taken rest, cs = taken ++ rest ∧ taken.length = n ∧
    phrase name taken rest
  apart : ∀ name taken rest, phrase name taken rest →
    ∃ c inner, taken = c :: inner ∧ s.Barren rest (some c) inner

theorem Finds.separate (h : s.Finds phrase) : s.Separate := by
  intro before cs name n read
  obtain ⟨-, taken, rest, rfl, rfl, stands⟩ := (h.reads before cs name n).mp read
  obtain ⟨c, inner, rfl, barren⟩ := h.apart name taken rest stands
  exact ⟨c, inner, rest, rfl, rfl, barren⟩

/-- All places of the phrase are found. -/
theorem Finds.listedIn_names (h : s.Finds phrase) (text : String) :
    phrase.ListedIn text (s.names text) := by
  refine ⟨s.placesFrom 0 none text.toList, placesFrom_increasing s 0 none text.toList, ?_, ?_⟩
  · intro p name
    rw [mem_placesFrom]
    constructor
    · intro found
      obtain ⟨front, rest, n, split, _, place, read⟩ := found
      obtain ⟨apart, taken, after, rfl, _, stands⟩ := (h.reads _ _ _ _).mp read
      rw [Option.or_none] at apart
      exact ⟨front, taken, after, split, by omega, apart, stands⟩
    · intro stands
      obtain ⟨front, taken, rest, split, place, apart, stands⟩ := stands
      obtain ⟨c, inner, filled, _⟩ := h.apart name.toList taken rest stands
      refine ⟨front, taken ++ rest, taken.length, split, by simp [filled], by omega, ?_⟩
      rw [Option.or_none]
      exact (h.reads _ _ _ _).mpr ⟨apart, taken, rest, rfl, rfl, stands⟩
  · rw [names, show 0 = ([] : List Char).length from rfl]
    exact namesFrom_eq h.separate text.toList 0 none [] [] text.toList rfl trivial

/-! ## Text without a beginning of an occurrence -/

/-- The shape begins with a character of this kind, behind no word character. -/
def OpensWith (s : Shape) (p : Char → Bool) : Prop :=
  ∀ before cs r, s.read? before cs = some r → before.any Text.isWord = false ∧ cs.head?.any p = true

theorem OpensWith.read?_eq_none (h : s.OpensWith p) {before : Option Char}
    {c : Char} {cs : List Char} (no : before.any Text.isWord = true ∨ p c = false) :
    s.read? before (c :: cs) = none := by
  cases read : s.read? before (c :: cs) with
  | none => rfl
  | some r =>
    have starts := h before (c :: cs) r read
    rcases no with word | other
    · rw [starts.1] at word
      cases word
    · have first : p c = true := starts.2
      rw [first] at other
      cases other

theorem OpensWith.barren_of_not (h : s.OpensWith p) {taken : List Char}
    (no : ∀ c ∈ taken, p c = false) (before : Option Char) (rest : List Char) :
    s.Barren rest before taken := by
  induction taken generalizing before with
  | nil => trivial
  | cons c taken ih =>
    exact ⟨h.read?_eq_none (.inr (no c List.mem_cons_self)),
      ih (fun d hd => no d (List.mem_cons_of_mem c hd)) (some c)⟩

theorem OpensWith.barren_inside (h : s.OpensWith p) {taken : List Char}
    (words : ∀ c ∈ taken, Text.isWord c = true) {c : Char} (word : Text.isWord c = true)
    (rest : List Char) :
    s.Barren rest (some c) taken := by
  induction taken generalizing c with
  | nil => trivial
  | cons d taken ih =>
    exact ⟨h.read?_eq_none (.inl word),
      ih (fun e he => words e (List.mem_cons_of_mem d he)) (words d List.mem_cons_self)⟩

/-- In a word, only its beginning counts. -/
theorem OpensWith.barren_word (h : s.OpensWith p) {taken : List Char}
    (words : ∀ c ∈ taken, Text.isWord c = true) (no : taken.head?.any p = false)
    (before : Option Char) (rest : List Char) : s.Barren rest before taken := by
  cases taken with
  | nil => trivial
  | cons c taken =>
    exact ⟨h.read?_eq_none (.inr no),
      h.barren_inside (fun d hd => words d (List.mem_cons_of_mem c hd)) (words c List.mem_cons_self)
        rest⟩

end Shape

end CodeAtlas
