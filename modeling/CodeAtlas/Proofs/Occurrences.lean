import CodeAtlas.Pattern
import CodeAtlas.Proofs.Places

/-!
# Every occurrence is found

For each shape that names a class there is a phrase that says what the shape looks like: a keyword
and a name, a name in front of a dot, a class that extends another, a key that is looked up. Reading
the shape is finding the phrase, and no occurrence begins inside another. Inside an occurrence a
word begins only where a name, a key or `extends` does. A name begins with a capital letter, where
no keyword does, and a key is followed by a quotation mark, where the word of a lookup is followed
by a parenthesis.
-/
namespace CodeAtlas

/-! ## The phrases -/

namespace Phrase

/-- White space, at least one character of it. -/
def IsGap (cs : List Char) : Prop :=
  cs ≠ [] ∧ ∀ c ∈ cs, Text.isSpace c = true

/-- A capital letter of ASCII and the letters, digits and underscores behind it, as many as there
are. -/
structure IsName (name rest : List Char) : Prop where
  capital : name.head?.any Char.isUpper = true
  identifier : ∀ c ∈ name, Text.isIdentifier c = true
  whole : rest.head?.any Text.isIdentifier = false

def IsQuote (c : Char) : Prop :=
  c = '\'' ∨ c = '"'

/-- A keyword, white space and the name. -/
def afterKeyword (keyword : List Char) : Phrase := fun name taken rest =>
  ∃ gap, taken = keyword ++ (gap ++ name) ∧ IsGap gap ∧ IsName name rest

/-- The name, perhaps white space, and a dot. -/
def beforeDot : Phrase := fun name taken rest =>
  ∃ spaces, taken = name ++ (spaces ++ ['.']) ∧ IsName name (spaces ++ '.' :: rest) ∧
    ∀ c ∈ spaces, Text.isSpace c = true

/-- `class`, one class, `extends`, and the name of the other. -/
def extendedBy (heir : List Char) : Phrase := fun name taken rest =>
  ∃ gap₁ gap₂ gap₃, taken = "class".toList ++
    (gap₁ ++ (heir ++ (gap₂ ++ ("extends".toList ++ (gap₃ ++ name))))) ∧
    IsGap gap₁ ∧ IsName heir gap₂ ∧ IsGap gap₂ ∧ IsGap gap₃ ∧ IsName name rest

/-- The same, whatever class it is that extends the other. -/
def extended : Phrase := fun name taken rest => ∃ heir, extendedBy heir name taken rest

/-- The word of a lookup, an opening parenthesis, perhaps white space, and the key between quotation
marks. -/
def lookedUp (word : List Char) : Phrase := fun key taken _ =>
  ∃ spaces q q', taken = word ++ '(' :: (spaces ++ q :: (key ++ [q'])) ∧
    (∀ c ∈ spaces, Text.isSpace c = true) ∧
    IsQuote q ∧ key ≠ [] ∧ (∀ c ∈ key, Text.isIdentifier c = true) ∧ IsQuote q'

end Phrase

namespace Phrase

variable {name rest : List Char}

theorem beq_eq_false_of {c d : Char} (q : Char → Bool) (hc : q c = true) (hd : q d = false) :
    (c == d) = false := by
  rw [beq_eq_false_iff_ne]
  intro same
  rw [same, hd] at hc
  cases hc

/-- What is known of the first character of a text is known of it in front of more text. -/
theorem head?_append_any {p q : Char → Bool} {cs : List Char} (h : cs.head?.any p = true)
    (other : ∀ c, p c = true → q c = false) (rest : List Char) :
    (cs ++ rest).head?.any q = false := by
  cases cs with
  | nil => cases h
  | cons c cs => exact other c h

/-- White space and a character of no such kind do not begin with one of this kind. -/
theorem head?_spaces_append {q : Char → Bool} {spaces : List Char} {c : Char}
    (inside : ∀ d ∈ spaces, Text.isSpace d = true)
    (other : ∀ d, Text.isSpace d = true → q d = false) (stops : q c = false) (rest : List Char) :
    (spaces ++ c :: rest).head?.any q = false := by
  cases spaces with
  | nil => exact stops
  | cons d spaces => exact other d (inside d List.mem_cons_self)

theorem IsGap.head?_any {gap : List Char} (h : IsGap gap) : gap.head?.any Text.isSpace = true := by
  cases gap with
  | nil => exact absurd rfl h.1
  | cons c gap => exact h.2 c List.mem_cons_self

theorem IsName.head?_any {q : Char → Bool} (h : IsName name rest)
    (other : ∀ c, c.isUpper = true → q c = false) :
    name.head?.any q = false := by
  have first := head?_append_any h.capital other []
  rwa [List.append_nil] at first

theorem IsGap.head?_identifier {gap : List Char} (h : IsGap gap) :
    gap.head?.any Text.isIdentifier = false := by
  have first := head?_append_any h.head?_any (fun _ => Text.isIdentifier_of_isSpace) []
  rwa [List.append_nil] at first

theorem fits_quote_iff {before : Option Char} {taken : List Char} :
    Piece.quote.Fits before taken rest ↔ ∃ q, taken = [q] ∧ IsQuote q := by
  simp [Piece.Fits, IsQuote, and_or_left, exists_or]

theorem IsQuote.isWord {q : Char} (h : IsQuote q) : Text.isWord q = false := by
  rcases h with rfl | rfl <;> decide

/-- A word in front of a quotation mark is not one in front of a parenthesis. -/
theorem quoted_ne_called {key word rest after : List Char} {q : Char}
    (hkey : ∀ c ∈ key, Text.isWord c = true) (hword : ∀ c ∈ word, Text.isWord c = true)
    (hq : IsQuote q) : key ++ q :: rest ≠ word ++ '(' :: after := by
  intro same
  have keyRun : Piece.IsRun Text.isWord key (q :: rest) := ⟨hkey, hq.isWord⟩
  have wordRun : Piece.IsRun Text.isWord word ('(' :: after) := ⟨hword, rfl⟩
  have equal : key = word := (keyRun.takeWhile_eq rfl).symm.trans (wordRun.takeWhile_eq same)
  rw [equal] at same
  obtain ⟨rfl, -⟩ := List.cons.inj (List.append_cancel_left same)
  rcases hq with h | h <;> cases h

theorem IsName.word (h : IsName name rest) : ∀ c ∈ name, Text.isWord c = true :=
  fun c hc => Text.isWord_of_isIdentifier (h.identifier c hc)

theorem IsName.exists_cons (h : IsName name rest) : ∃ c more, name = c :: more ∧
    c.isUpper = true := by
  have capital := h.capital
  cases name with
  | nil => cases capital
  | cons c more => exact ⟨c, more, rfl, capital⟩

/-- A name begins a word exactly where no word character stands in front of it. -/
theorem IsName.isBoundary_iff (h : IsName name rest) (before : Option Char) (after : List Char) :
    Text.isBoundary before (name ++ after).head? = true ↔ before.any Text.isWord = false := by
  obtain ⟨c, more, rfl, upper⟩ := h.exists_cons
  exact Text.isBoundary_before_word (h.word c List.mem_cons_self)

end Phrase

namespace Shape

open Phrase PatternSet

/-! ### Pieces that do not compete -/

/-- A keyword, white space and a name. -/
def ofKeyword (keyword : List Char) : Shape :=
  ⟨[.boundary, .literal keyword, .gap], .name, []⟩

/-- The word of a lookup and its key. -/
def ofLookup (word : List Char) : Shape :=
  ⟨[.boundary, .literal word, .literal ['('], .spaces, .quote], .key, [.quote]⟩

theorem apart_ofKeyword (keyword : List Char) : Piece.Apart (ofKeyword keyword).pieces := by
  simp +contextual [ofKeyword, pieces, Text.isSpace_of_isUpper]

theorem apart_ofLookup (word : List Char) : Piece.Apart (ofLookup word).pieces := by
  simp +decide [ofLookup, pieces]

/-- No two neighbouring pieces of a reference compete for a character, whatever the configured words
are. -/
theorem apart_referenceShape (config : PatternConfig) (kind : ReferenceKind) :
    Piece.Apart (referenceShape config kind).pieces := by
  cases kind with
  | instantiation => exact apart_ofKeyword _
  | serviceLookup => exact apart_ofLookup _
  | serviceEnum => simp [referenceShape, pieces]
  | memberAccess =>
    have dotSpace : Text.isSpace '.' = false := by decide
    have dotIdentifier : Text.isIdentifier '.' = false := by decide
    simp +contextual [referenceShape, pieces, Text.isIdentifier_of_isSpace, dotSpace, dotIdentifier]
  | inheritance =>
    have letterSpace : Text.isSpace 'e' = false := by decide
    simp +contextual [referenceShape, pieces, Text.isSpace_of_isUpper, Text.isIdentifier_of_isSpace,
      letterSpace]

/-! ### A keyword and a name -/

theorem read?_keyword {w : Char} {ws : List Char} (word : Text.isWord w = true)
    (before : Option Char) (cs name : List Char) (n : Nat) :
    (ofKeyword (w :: ws)).read? before cs = some (name, n) ↔
      before.any Text.isWord = false ∧
        ∃ taken rest, cs = taken ++ rest ∧ taken.length = n ∧
        afterKeyword (w :: ws) name taken rest := by
  rw [read?_iff_of_apart (apart_ofKeyword _)]
  simp only [ofKeyword, Piece.inTurn_boundary, Piece.inTurn_literal, Piece.inTurn_single]
  constructor
  · intro h
    obtain ⟨lead, trail, rest, rfl, rfl, ⟨boundary, gap, rfl, hgap⟩, hname, rfl, stopped⟩ := h
    refine ⟨(Text.isBoundary_before_word word).mp boundary, w :: ws ++ (gap ++ name), rest,
      by simp, ?_, gap, rfl, hgap, ⟨hname.1, hname.2, (Piece.stopped_iff rfl).mp stopped⟩⟩
    simp only [List.length_append, List.length_nil]
    omega
  · intro h
    obtain ⟨apart, taken, rest, rfl, rfl, gap, rfl, hgap, hname⟩ := h
    refine ⟨w :: ws ++ gap, [], rest, by simp, ?_,
      ⟨(Text.isBoundary_before_word word).mpr apart, gap, rfl, hgap⟩,
      ⟨hname.capital, hname.identifier⟩, rfl, (Piece.stopped_iff rfl).mpr hname.whole⟩
    simp only [List.length_append, List.length_nil]
    omega

theorem finds_keyword {w : Char} {ws : List Char} (words : ∀ c ∈ w :: ws, Text.isWord c = true)
    (lower : w.isUpper = false) : (ofKeyword (w :: ws)).Finds (afterKeyword (w :: ws)) := by
  have word : Text.isWord w = true := words w List.mem_cons_self
  have opens : (ofKeyword (w :: ws)).OpensWith (· == w) := by
    intro before cs r read
    obtain ⟨apart, taken, rest, rfl, -, gap, rfl, -⟩ :=
      (read?_keyword word before cs r.1 r.2).mp read
    exact ⟨apart, beq_self_eq_true w⟩
  refine ⟨read?_keyword word, ?_⟩
  intro name taken rest stands
  obtain ⟨gap, rfl, hgap, hname⟩ := stands
  refine ⟨w, ws ++ (gap ++ name), rfl, ?_⟩
  rw [barren_append, barren_append]
  refine ⟨?_, ?_, ?_⟩
  · exact opens.barren_inside (fun c hc => words c (List.mem_cons_of_mem w hc)) word _
  · exact opens.barren_of_not
      (fun c hc => beq_eq_false_of Text.isSpace (hgap.2 c hc) (Text.isSpace_of_isWord word)) _ _
  · exact opens.barren_word hname.word (hname.head?_any fun c upper =>
      beq_eq_false_of Char.isUpper upper lower) _ _

/-! ### A name in front of a dot -/

theorem read?_beforeDot (config : PatternConfig) (before : Option Char)
    (cs name : List Char) (n : Nat) :
    (referenceShape config .memberAccess).read? before cs = some (name, n) ↔
      before.any Text.isWord = false ∧
        ∃ taken rest, cs = taken ++ rest ∧ taken.length = n ∧ beforeDot name taken rest := by
  rw [read?_iff_of_apart (apart_referenceShape config .memberAccess)]
  simp only [referenceShape, Piece.inTurn_single]
  constructor
  · intro h
    obtain ⟨lead, trail, rest, rfl, rfl, ⟨rfl, boundary⟩, hname, ⟨spaces, dot, rfl, hspaces, hdot⟩,
      -⟩ := h
    obtain ⟨_, rfl, rfl⟩ := Piece.inTurn_literal.mp hdot
    have named : IsName name (spaces ++ '.' :: rest) :=
      ⟨hname.1, hname.2, head?_spaces_append hspaces (fun _ => Text.isIdentifier_of_isSpace) rfl
        rest⟩
    refine ⟨?_, name ++ (spaces ++ ['.']), rest, by simp, by simp, spaces, rfl, named, hspaces⟩
    exact (named.isBoundary_iff before _).mp boundary
  · intro h
    obtain ⟨apart, taken, rest, rfl, rfl, spaces, rfl, hname, hspaces⟩ := h
    exact ⟨[], spaces ++ ['.'], rest, by simp, by simp,
      ⟨rfl, (hname.isBoundary_iff before _).mpr apart⟩, ⟨hname.capital, hname.identifier⟩,
      ⟨spaces, ['.'], rfl, hspaces, Piece.inTurn_literal.mpr ⟨[], rfl, rfl⟩⟩,
      Piece.stopped_of_none rfl⟩

theorem finds_beforeDot (config : PatternConfig) :
    (referenceShape config .memberAccess).Finds beforeDot := by
  have opens : (referenceShape config .memberAccess).OpensWith Char.isUpper := by
    intro before cs r read
    obtain ⟨apart, taken, rest, rfl, -, spaces, rfl, hname, -⟩ :=
      (read?_beforeDot config before cs r.1 r.2).mp read
    obtain ⟨c, name, heq, upper⟩ := hname.exists_cons
    rw [heq]
    exact ⟨apart, upper⟩
  refine ⟨read?_beforeDot config, ?_⟩
  intro name taken rest stands
  obtain ⟨spaces, rfl, hname, hspaces⟩ := stands
  obtain ⟨c, name, rfl, upper⟩ := hname.exists_cons
  refine ⟨c, name ++ (spaces ++ ['.']), rfl, ?_⟩
  rw [barren_append, barren_append]
  refine ⟨?_, ?_, ?_⟩
  · exact opens.barren_inside (fun d hd => hname.word d (List.mem_cons_of_mem c hd))
      (hname.word c List.mem_cons_self) _
  · exact opens.barren_of_not (fun d hd => Text.isUpper_of_isSpace (hspaces d hd)) _ _
  · exact opens.barren_of_not (List.forall_mem_singleton.mpr (by decide)) _ _

/-! ### A class that extends another -/

theorem read?_extended (config : PatternConfig) (before : Option Char)
    (cs name : List Char) (n : Nat) :
    (referenceShape config .inheritance).read? before cs = some (name, n) ↔
      before.any Text.isWord = false ∧
        ∃ taken rest, cs = taken ++ rest ∧ taken.length = n ∧ extended name taken rest := by
  have word : Text.isWord 'c' = true := by decide
  rw [read?_iff_of_apart (apart_referenceShape config .inheritance)]
  simp only [referenceShape, Piece.inTurn_boundary, Piece.inTurn_literal]
  constructor
  · intro h
    obtain ⟨lead, trail, rest, rfl, rfl,
        ⟨boundary, more, rfl, gap₁, _, rfl, hgap₁, heir, _, rfl, hheir, gap₂, _, rfl,
      hgap₂, last⟩, hname, rfl, stopped⟩ := h
    obtain ⟨gap₃, rfl, hgap₃⟩ := Piece.inTurn_literal.mp last
    rw [Piece.inTurn_single] at hgap₃
    have isGap₂ : IsGap gap₂ := hgap₂
    refine ⟨(Text.isBoundary_before_word word).mp boundary,
      "class".toList ++ (gap₁ ++ (heir ++ (gap₂ ++ ("extends".toList ++ (gap₃ ++ name))))), rest,
      by simp, ?_, heir, gap₁, gap₂, gap₃, rfl, hgap₁, ⟨hheir.1, hheir.2, isGap₂.head?_identifier⟩,
      hgap₂, hgap₃, ⟨hname.1, hname.2, (Piece.stopped_iff rfl).mp stopped⟩⟩
    simp only [List.length_append, List.length_nil]
    omega
  · intro h
    obtain ⟨apart, taken, rest, rfl, rfl, heir, gap₁, gap₂, gap₃, rfl, hgap₁, hheir,
      hgap₂, hgap₃, hname⟩ := h
    refine ⟨"class".toList ++ (gap₁ ++ (heir ++ (gap₂ ++ ("extends".toList ++ gap₃)))),
      [], rest, by simp, ?_,
      ⟨(Text.isBoundary_before_word word).mpr apart, _, rfl, gap₁, _, rfl, hgap₁, heir, _, rfl,
        ⟨hheir.capital, hheir.identifier⟩, gap₂, _, rfl, hgap₂,
        Piece.inTurn_literal.mpr ⟨gap₃, rfl, Piece.inTurn_single.mpr hgap₃⟩⟩,
      ⟨hname.capital, hname.identifier⟩, rfl, (Piece.stopped_iff rfl).mpr hname.whole⟩
    simp only [List.length_append, List.length_nil]
    omega

theorem finds_extended (config : PatternConfig) :
    (referenceShape config .inheritance).Finds extended := by
  have opens : (referenceShape config .inheritance).OpensWith (· == 'c') := by
    intro before cs r read
    obtain ⟨apart, taken, rest, rfl, -, heir, gap₁, gap₂, gap₃, rfl, -⟩ :=
      (read?_extended config before cs r.1 r.2).mp read
    exact ⟨apart, rfl⟩
  have space : ∀ c, Text.isSpace c = true → (c == 'c') = false :=
    fun c space => beq_eq_false_of Text.isSpace space (by decide)
  have capital : ∀ c, c.isUpper = true → (c == 'c') = false :=
    fun c upper => beq_eq_false_of Char.isUpper upper (by decide)
  refine ⟨read?_extended config, ?_⟩
  intro name taken rest stands
  obtain ⟨heir, gap₁, gap₂, gap₃, rfl, hgap₁, hheir, hgap₂, hgap₃, hname⟩ := stands
  refine ⟨'c', "lass".toList ++ (gap₁ ++ (heir ++ (gap₂ ++ ("extends".toList ++ (gap₃ ++ name))))),
    rfl, ?_⟩
  simp only [barren_append]
  refine ⟨?_, ?_, ?_, ?_, ?_, ?_, ?_⟩
  · exact opens.barren_inside (List.all_eq_true.mp (by decide)) (by decide) _
  · exact opens.barren_of_not (fun c hc => space c (hgap₁.2 c hc)) _ _
  · exact opens.barren_word hheir.word (hheir.head?_any capital) _ _
  · exact opens.barren_of_not (fun c hc => space c (hgap₂.2 c hc)) _ _
  · exact opens.barren_word (List.all_eq_true.mp (by decide)) rfl _ _
  · exact opens.barren_of_not (fun c hc => space c (hgap₃.2 c hc)) _ _
  · exact opens.barren_word hname.word (hname.head?_any capital) _ _

/-! ### The key of a lookup -/

theorem read?_lookedUp {w : Char} {ws : List Char} (word : Text.isWord w = true)
    (before : Option Char) (cs key : List Char) (n : Nat) :
    (ofLookup (w :: ws)).read? before cs = some (key, n) ↔
      before.any Text.isWord = false ∧
        ∃ taken rest, cs = taken ++ rest ∧ taken.length = n ∧
        lookedUp (w :: ws) key taken rest := by
  rw [read?_iff_of_apart (apart_ofLookup _)]
  simp only [ofLookup, Piece.inTurn_boundary, Piece.inTurn_literal, Piece.inTurn_single]
  constructor
  · intro h
    obtain ⟨lead, trail, rest, rfl, rfl, ⟨boundary, _, rfl, _, rfl, spaces, _, rfl, hspaces, hopen⟩,
      hkey, hclose, -⟩ := h
    obtain ⟨q, rfl, hq⟩ := fits_quote_iff.mp (Piece.inTurn_single.mp hopen)
    obtain ⟨q', rfl, hq'⟩ := fits_quote_iff.mp hclose
    refine ⟨(Text.isBoundary_before_word word).mp boundary,
      w :: ws ++ '(' :: (spaces ++ q :: (key ++ [q'])), rest, by simp, ?_, spaces, q, q', rfl,
      hspaces, hq, hkey.1, hkey.2, hq'⟩
    simp only [List.length_append, List.length_cons, List.length_nil]
    omega
  · intro h
    obtain ⟨apart, taken, rest, rfl, rfl, spaces, q, q', rfl, hspaces, hq, filled, hkey, hq'⟩ := h
    refine ⟨w :: ws ++ (['('] ++ (spaces ++ [q])), [q'], rest, by simp, ?_,
      ⟨(Text.isBoundary_before_word word).mpr apart, _, rfl, _, rfl, spaces, [q], rfl, hspaces, ?_⟩,
      ⟨filled, hkey⟩, fits_quote_iff.mpr ⟨q', rfl, hq'⟩, Piece.stopped_of_none rfl⟩
    · simp only [List.length_append, List.length_cons, List.length_nil]
      omega
    · exact Piece.inTurn_single.mpr (fits_quote_iff.mpr ⟨q, rfl, hq⟩)

theorem finds_lookedUp {w : Char} {ws : List Char} (words : ∀ c ∈ w :: ws, Text.isWord c = true) :
    (ofLookup (w :: ws)).Finds (lookedUp (w :: ws)) := by
  have word : Text.isWord w = true := words w List.mem_cons_self
  have opens : (ofLookup (w :: ws)).OpensWith Text.isWord := by
    intro before cs r read
    obtain ⟨apart, taken, rest, rfl, -, spaces, q, q', rfl, -⟩ :=
      (read?_lookedUp word before cs r.1 r.2).mp read
    exact ⟨apart, word⟩
  refine ⟨read?_lookedUp word, ?_⟩
  intro key taken rest stands
  obtain ⟨spaces, q, q', rfl, hspaces, hq, filled, hkey, hq'⟩ := stands
  obtain ⟨k, ks, rfl⟩ := List.exists_cons_of_ne_nil filled
  have keyWord : ∀ c ∈ k :: ks, Text.isWord c = true :=
    fun c hc => Text.isWord_of_isIdentifier (hkey c hc)
  refine ⟨w, ws ++ (['('] ++ (spaces ++ ([q] ++ (k :: ks ++ [q'])))), rfl, ?_⟩
  simp only [barren_append]
  refine ⟨?_, ?_, ?_, ?_, ⟨?_, ?_⟩, ?_⟩
  · exact opens.barren_inside (fun c hc => words c (List.mem_cons_of_mem w hc)) word _
  · exact opens.barren_of_not (List.forall_mem_singleton.mpr (by decide)) _ _
  · exact opens.barren_of_not (fun c hc => Text.isWord_of_isSpace (hspaces c hc)) _ _
  · exact opens.barren_of_not (List.forall_mem_singleton.mpr hq.isWord) _ _
  · -- the key begins a word as well, but one that a quotation mark ends
    apply Option.eq_none_iff_forall_ne_some.mpr
    intro r read
    obtain ⟨-, taken, after, parts, -, _, _, _, rfl, -⟩ := (read?_lookedUp word _ _ r.1 r.2).mp read
    rw [List.append_assoc] at parts
    exact quoted_ne_called keyWord words hq' parts
  · exact opens.barren_inside (fun c hc => keyWord c (List.mem_cons_of_mem k hc))
      (keyWord k List.mem_cons_self) _
  · exact opens.barren_of_not (List.forall_mem_singleton.mpr hq'.isWord) _ _

end Shape

/-! ## The names of a text -/

/-- The class that extends another stands there as one that is declared. -/
theorem Phrase.standsAt_heir {heir base text : String} {p : Nat}
    (h : (Phrase.extendedBy heir.toList).StandsAt text p base) :
    (Phrase.afterKeyword "class".toList).StandsAt text p heir := by
  obtain ⟨front, taken, rest, split, place, apart, gap₁, gap₂, gap₃, rfl, hgap₁, hheir, hgap₂, -⟩ :=
    h
  refine ⟨front, "class".toList ++ (gap₁ ++ heir.toList),
    gap₂ ++ ("extends".toList ++ (gap₃ ++ (base.toList ++ rest))), ?_, place,
    apart, gap₁, rfl, hgap₁, hheir.capital, hheir.identifier, ?_⟩
  · simpa using split
  · exact Phrase.head?_append_any hgap₂.head?_any (fun _ => Text.isIdentifier_of_isSpace) _

namespace PatternSet

theorem eq_of_ofConfig [PatternLimit] {config : PatternConfig} {patterns : PatternSet}
    (accepted : ofConfig config = .ok patterns) :
    patterns = ⟨declarationShape, referenceShape config⟩ := by
  unfold ofConfig at accepted
  split at accepted
  · cases accepted
  · split at accepted
    · cases accepted
    · cases accepted
      rfl

theorem ofConfig_of_fits [PatternLimit] {config : PatternConfig}
    (lookup : PatternLimit.fits (referenceShape config .serviceLookup).pieces = true)
    (enumeration : PatternLimit.fits (referenceShape config .serviceEnum).pieces = true) :
    ofConfig config = .ok ⟨declarationShape, referenceShape config⟩ := by
  rw [ofConfig, lookup, enumeration]
  rfl

/-- The names that a search finds are those of all places where the phrase stands: of declarations,
of instantiations, of names in front of a dot, of extended classes, and of lookups if their word is
one. So a class that extends another is among the declared ones. -/
theorem names_of_all_places [PatternLimit] {config : PatternConfig} {patterns : PatternSet}
    (accepted : ofConfig config = .ok patterns) (text : String) :
    (Phrase.afterKeyword "class".toList).ListedIn text (patterns.declarations text) ∧
    (Phrase.afterKeyword "new".toList).ListedIn text (patterns.references .instantiation text) ∧
    Phrase.beforeDot.ListedIn text (patterns.references .memberAccess text) ∧
    Phrase.extended.ListedIn text (patterns.references .inheritance text) ∧
    (config.serviceLookup ≠ "" → (∀ c ∈ config.serviceLookup.toList, Text.isWord c = true) →
      (Phrase.lookedUp config.serviceLookup.toList).ListedIn text
        (patterns.references .serviceLookup text)) ∧
    ∀ p heir base, (Phrase.extendedBy heir.toList).StandsAt text p base →
    heir ∈ patterns.declarations text := by
  rw [eq_of_ofConfig accepted]
  have declared :
      (Phrase.afterKeyword "class".toList).ListedIn text (declarationShape.names text) :=
    (Shape.finds_keyword (List.all_eq_true.mp (by decide)) (by decide)).listedIn_names text
  refine ⟨declared, ?_, (Shape.finds_beforeDot config).listedIn_names text,
    (Shape.finds_extended config).listedIn_names text, ?_, ?_⟩
  · exact (Shape.finds_keyword (List.all_eq_true.mp (by decide)) (by decide)).listedIn_names text
  · intro filled words
    cases chars : config.serviceLookup.toList with
    | nil => exact absurd (String.toList_eq_nil_iff.mp chars) filled
    | cons w ws =>
      rw [chars] at words
      have finds := (Shape.finds_lookedUp words).listedIn_names text
      rw [← chars] at finds ⊢
      exact finds
  · intro p heir base stands
    exact declared.mem (Phrase.standsAt_heir stands)

/-- A text with an occurrence of each kind, one of them right behind a letter that is not of
ASCII. -/
theorem names_of_all_places_of_each_kind :
    let _ : PatternLimit := .ofLiterals
    let patterns : PatternSet := ⟨declarationShape, referenceShape {}⟩
    let text := "class A extends B; new\tC; éD.x; E .y; getService( 'F\")"
    ofConfig {} = .ok patterns ∧
      patterns.declarations text = ["A"] ∧ patterns.references .instantiation text = ["C"] ∧
      Phrase.beforeDot.ListedIn text ["E"] ∧ Phrase.extended.ListedIn text ["B"] ∧
      (Phrase.lookedUp "getService".toList).ListedIn text ["F"] ∧
      (Phrase.extendedBy "A".toList).StandsAt text 0 "B" ∧ "A" ∈ patterns.declarations text := by
  intro limit patterns text
  have accepted : ofConfig {} = .ok patterns := ofConfig_of_fits (by decide) (by decide)
  obtain ⟨-, -, members, extended, lookups, heirs⟩ := names_of_all_places accepted text
  have dots : patterns.references .memberAccess text = ["E"] := by decide +kernel
  have bases : patterns.references .inheritance text = ["B"] := by decide +kernel
  have keys : patterns.references .serviceLookup text = ["F"] := by decide +kernel
  have gap : Phrase.IsGap [' '] := ⟨by decide, List.forall_mem_singleton.mpr (by decide)⟩
  have heir : Phrase.IsName "A".toList [' '] :=
    ⟨by decide, List.all_eq_true.mp (by decide), by decide⟩
  have base : Phrase.IsName "B".toList (text.toList.drop 17) :=
    ⟨by decide, List.all_eq_true.mp (by decide), by decide⟩
  have stands : (Phrase.extendedBy "A".toList).StandsAt text 0 "B" :=
    ⟨[], "class A extends B".toList, text.toList.drop 17, by decide +kernel, rfl, rfl,
      [' '], [' '], [' '], rfl, gap, heir, gap, gap, base⟩
  rw [dots] at members
  rw [bases] at extended
  have found := lookups (by decide) (List.all_eq_true.mp (by decide))
  rw [keys] at found
  exact ⟨accepted, by decide +kernel, by decide +kernel, members, extended, found, stands,
    heirs 0 "A" "B" stands⟩

end PatternSet

end CodeAtlas
