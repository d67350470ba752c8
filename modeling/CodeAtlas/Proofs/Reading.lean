/-!
# Reading written text back

A reader takes a value off the front of a text and leaves the rest, or refuses the text. `Reads r s
a` says that `r` takes exactly the text `s`, whatever follows it, and gives `a`. Two texts in a row
are then read by two readers in a row, so what is known of the parts of a document carries over to
the document.

A quoted text ends at the first quotation mark that no backslash escapes. `Seals escape` says that
writing characters by `escape` leaves no such mark and no backslash that could swallow the one at
the end; nothing is said about what a reader does with texts that were not written.
-/
namespace CodeAtlas

/-- Takes a value off the front of a text. -/
abbrev Reader := StateT (List Char) Option

namespace Reader

variable {α β γ : Type}

/-- Takes a text that must stand there. -/
def expect (s : String) : Reader Unit := fun cs =>
  if s.toList.isPrefixOf cs then some ((), cs.drop s.toList.length) else none

/-- The values that can be taken one after another, and the rest. -/
def manyFrom (r : Reader α) (cs : List Char) : List α × List Char :=
  match r.run cs with
  | none => ([], cs)
  | some (a, rest) =>
    if rest.length < cs.length then (a :: (manyFrom r rest).1, (manyFrom r rest).2) else ([], cs)
termination_by cs.length

def many (r : Reader α) : Reader (List α) := fun cs =>
  some (manyFrom r cs)

/-- Takes values up to a text that ends them, and that text. -/
def manyUntil (r : Reader α) (mark : String) : Reader (List α) := do
  let values ← many r
  expect mark
  return values

/-- Takes values with a text between any two of them, up to a text that ends them. -/
def separatedUntil (r : Reader α) (separator mark : String) : Reader (List α) := fun cs =>
  match r.run cs with
  | none => (expect mark >>= fun _ => pure []).run cs
  | some (first, rest) =>
    (manyUntil (expect separator >>= fun _ => r) mark >>= fun others => pure (first :: others)).run
      rest

/-- What stands before the first quotation mark that is not escaped, as it is written, and the rest
after the mark. -/
def enclosedFrom : List Char → Option (List Char × List Char)
  | [] => none
  | '"' :: rest => some ([], rest)
  | '\\' :: c :: rest => (enclosedFrom rest).map fun r => ('\\' :: c :: r.1, r.2)
  | c :: rest => (enclosedFrom rest).map fun r => (c :: r.1, r.2)

def enclosed : Reader (List Char) := enclosedFrom

/-- Takes a text between quotation marks. -/
def quoted (unescape : List Char → Option (List Char)) : Reader String := do
  expect "\""
  let inside ← enclosed
  let cs ← liftM (unescape inside)
  return String.ofList cs

/-- The value of a text that a reader takes whole. -/
def whole? (r : Reader α) (s : String) : Option α :=
  match r.run s.toList with
  | some (a, []) => some a
  | _ => none

/-- The reader takes this text, whatever follows, and gives this value. -/
def Reads (r : Reader α) (s : String) (a : α) : Prop :=
  ∀ rest, r.run (s.toList ++ rest) = some (a, rest)

theorem reads_pure (a : α) : Reads (pure a) "" a := by
  intro rest
  simp

theorem reads_expect (s : String) : Reads (expect s) s () := by
  intro rest
  simp [expect, StateT.run]

theorem Reads.bind {r : Reader α} {f : α → Reader β} {s t : String} {a : α}
    {b : β} (hr : Reads r s a) (hf : Reads (f a) t b) : Reads (r >>= f) (s ++ t) b := by
  intro rest
  rw [String.toList_append, List.append_assoc, StateT.run_bind, hr]
  exact hf rest

/-- What a reader gives can be changed at the end. -/
theorem Reads.map {r : Reader α} {s : String} {a : α} (hr : Reads r s a) (f : α → β) :
    Reads (r >>= fun a => pure (f a)) s (f a) := by
  have h := hr.bind (f := fun a => pure (f a)) (reads_pure (f a))
  rwa [String.append_empty] at h

theorem run_bind_of_refused {r : Reader α} {cs : List Char}
    (h : r.run cs = none) (f : α → Reader β) :
    (r >>= f).run cs = none := by
  rw [StateT.run_bind, h]
  rfl

theorem expect_refuses {s : String} {cs : List Char} (h : ¬ s.toList.isPrefixOf cs) :
    (expect s).run cs = none :=
  if_neg h

theorem Reads.whole {r : Reader α} {s : String} {a : α} (hr : Reads r s a) :
    r.whole? s = some a := by
  have h := hr []
  rw [List.append_nil] at h
  simp [whole?, h]

/-! ## Texts in a row -/

theorem manyFrom_of_refused {r : Reader α} {cs : List Char} (h : r.run cs = none) :
    manyFrom r cs = ([], cs) := by
  rw [manyFrom, h]

theorem manyFrom_of_taken {r : Reader α} {cs rest : List Char} {a : α}
    (h : r.run cs = some (a, rest)) (shorter : rest.length < cs.length) :
    manyFrom r cs = (a :: (manyFrom r rest).1, (manyFrom r rest).2) := by
  rw [manyFrom, h]
  exact if_pos shorter

theorem fits_join {fits : List Char → Prop} {text : β → String} {bs : List β} {rest : List Char}
    (follows : ∀ b ∈ bs, ∀ rest, fits rest → fits ((text b).toList ++ rest))
    (end_fits : fits rest) :
    fits ((String.join (bs.map text)).toList ++ rest) := by
  induction bs with
  | nil => exact end_fits
  | cons b bs ih =>
    have later := ih fun b hb => follows b (List.mem_cons_of_mem _ hb)
    have here := follows b List.mem_cons_self _ later
    rwa [List.map_cons, String.join_cons, String.toList_append, List.append_assoc]

/-- Texts that a reader takes are all taken, up to where it refuses; `fits` says what may follow
each. -/
theorem manyFrom_append {r : Reader α} {fits : List Char → Prop} {text : β → String} {value : β → α}
    {bs : List β} {rest : List Char}
    (each : ∀ b ∈ bs, ∀ rest, fits rest → r.run ((text b).toList ++ rest) = some (value b, rest))
    (follows : ∀ b ∈ bs, ∀ rest, fits rest → fits ((text b).toList ++ rest))
    (filled : ∀ b ∈ bs, text b ≠ "") (end_fits : fits rest) (refused : r.run rest = none) :
    manyFrom r ((String.join (bs.map text)).toList ++ rest) = (bs.map value, rest) := by
  induction bs with
  | nil => exact manyFrom_of_refused refused
  | cons b bs ih =>
    have follows' := fun b hb => follows b (List.mem_cons_of_mem _ hb)
    have later := ih (fun b hb => each b (List.mem_cons_of_mem _ hb)) follows'
      (fun b hb => filled b (List.mem_cons_of_mem _ hb))
    have taken := each b List.mem_cons_self _ (fits_join follows' end_fits)
    have here : 0 < (text b).toList.length := by
      refine List.length_pos_iff.mpr fun h => ?_
      exact filled b List.mem_cons_self (String.toList_eq_nil_iff.mp h)
    rw [List.map_cons, String.join_cons, String.toList_append, List.append_assoc,
      manyFrom_of_taken taken, later, List.map_cons]
    simp only [List.length_append]
    omega

theorem reads_manyUntil {r : Reader α} {mark : String} {text : β → String}
    {value : β → α} {bs : List β} (each : ∀ b ∈ bs, Reads r (text b) (value b))
    (filled : ∀ b ∈ bs, text b ≠ "") (refused : ∀ rest, r.run (mark.toList ++ rest) = none) :
    Reads (manyUntil r mark) (String.join (bs.map text) ++ mark) (bs.map value) := by
  intro rest
  have all : (many r).run ((String.join (bs.map text)).toList ++ (mark.toList ++ rest)) =
      some (bs.map value, mark.toList ++ rest) :=
    congrArg some
      (manyFrom_append (fun b hb rest (_ : True) => each b hb rest) (fun _ _ _ _ => trivial) filled
      trivial (refused rest))
  rw [manyUntil, String.toList_append, List.append_assoc, StateT.run_bind, all]
  exact (reads_expect mark).map (fun _ => bs.map value) rest

theorem intercalate_cons_eq_join (separator s : String) (texts : List String) :
    separator.intercalate (s :: texts) = s ++ String.join (texts.map fun t => separator ++ t) := by
  induction texts generalizing s with
  | nil => simp
  | cons t texts ih =>
    rw [String.intercalate_cons_cons, ih, List.map_cons, String.join_cons, String.append_assoc,
      String.append_assoc]

theorem run_separatedUntil_of_refused {r : Reader α} {separator mark : String} {cs : List Char}
    (h : r.run cs = none) :
    (separatedUntil r separator mark).run cs = (expect mark >>= fun _ => pure []).run cs := by
  rw [StateT.run, separatedUntil, h]

theorem run_separatedUntil_of_taken {r : Reader α} {separator mark : String}
    {cs rest : List Char} {a : α} (h : r.run cs = some (a, rest)) :
    (separatedUntil r separator mark).run cs =
      (manyUntil (expect separator >>= fun _ => r) mark >>= fun others => pure (a :: others)).run
        rest := by
  rw [StateT.run, separatedUntil, h]

theorem reads_separatedUntil {r : Reader α} {separator mark : String}
    {text : β → String} {value : β → α} {bs : List β} (each : ∀ b ∈ bs, Reads r (text b) (value b))
    (separates : separator ≠ "") (refused : ∀ rest, r.run (mark.toList ++ rest) = none)
    (ended : ∀ rest, ¬ separator.toList.isPrefixOf (mark.toList ++ rest)) :
    Reads (separatedUntil r separator mark) (separator.intercalate (bs.map text) ++ mark)
      (bs.map value) := by
  intro rest
  cases bs with
  | nil =>
    have empty : (separator.intercalate ([].map text) ++ mark).toList ++ rest =
        mark.toList ++ rest := by
      simp
    rw [empty, run_separatedUntil_of_refused (refused rest)]
    exact (reads_expect mark).map (fun _ => []) rest
  | cons b bs =>
    have others : Reads (manyUntil (expect separator >>= fun _ => r) mark)
        (String.join (bs.map fun b => separator ++ text b) ++ mark) (bs.map value) := by
      apply reads_manyUntil
      · intro b hb
        exact (reads_expect separator).bind (each b (List.mem_cons_of_mem _ hb))
      · intro b _ h
        exact separates (String.append_eq_empty_iff.mp h).1
      · intro rest
        exact run_bind_of_refused (expect_refuses (ended rest)) _
    have first := each b List.mem_cons_self
    rw [List.map_cons, intercalate_cons_eq_join, List.map_map, String.append_assoc,
      String.toList_append, List.append_assoc, run_separatedUntil_of_taken (first _)]
    exact others.map (fun others => value b :: others) rest

/-! ## Quoted texts -/

/-- Characters written by `escape` hold no quotation mark that ends a quoted text, and take nothing
of what follows them. -/
def Seals (escape : Char → List Char) : Prop :=
  ∀ c rest, enclosedFrom (escape c ++ rest) = (enclosedFrom rest).map fun r =>
    (escape c ++ r.1, r.2)

theorem enclosedFrom_plain {c : Char} (notQuote : c ≠ '"') (notBackslash : c ≠ '\\')
    (rest : List Char) :
    enclosedFrom (c :: rest) = (enclosedFrom rest).map fun r => (c :: r.1, r.2) := by
  rw [enclosedFrom.eq_def]
  split <;> simp_all

theorem Seals.enclosedFrom_flatMap {escape : Char → List Char} (h : Seals escape)
    (cs rest : List Char) :
    enclosedFrom (cs.flatMap escape ++ '"' :: rest) = some (cs.flatMap escape, rest) := by
  induction cs with
  | nil => rfl
  | cons c cs ih =>
    rw [List.flatMap_cons, List.append_assoc, h, ih]
    rfl

theorem Seals.reads_enclosed {escape : Char → List Char} (h : Seals escape) (cs : List Char) :
    Reads enclosed (String.ofList (cs.flatMap escape ++ ['"'])) (cs.flatMap escape) := by
  intro rest
  rw [String.toList_ofList, List.append_assoc]
  exact h.enclosedFrom_flatMap cs rest

/-- A text that was written character by character between quotation marks is read back. -/
theorem Seals.reads_quoted {escape : Char → List Char} {unescape : List Char → Option (List Char)}
    (h : Seals escape) (inverse : ∀ cs : List Char, unescape (cs.flatMap escape) = some cs)
    (s : String) :
    Reads (quoted unescape) (String.ofList ('"' :: s.toList.flatMap escape ++ ['"'])) s := by
  have marks : String.ofList ('"' :: s.toList.flatMap escape ++ ['"']) =
      "\"" ++ String.ofList (s.toList.flatMap escape ++ ['"']) := by
    apply String.toList_injective
    simp
  have unescaped :
      Reads (liftM (unescape (s.toList.flatMap escape)) : Reader (List Char)) "" s.toList := by
    rw [inverse]
    exact reads_pure s.toList
  have inside := (h.reads_enclosed s.toList).bind
    (f := fun inside => liftM (unescape inside) >>= fun cs => pure (String.ofList cs))
    (unescaped.map String.ofList)
  rw [String.append_empty, String.ofList_toList] at inside
  rw [marks]
  exact (reads_expect "\"").bind inside

end Reader

end CodeAtlas
