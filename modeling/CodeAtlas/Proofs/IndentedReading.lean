import CodeAtlas.Proofs.JsonReading

/-!
# Indented JSON read back

Readers that pass over white space in front of every mark, text and number, and so take arrays and
objects in whatever layout. An object is read as the list of its members, in the order in which they
are written.

`Takes r s a` says that `r` takes the text `s` behind any white space and gives `a`, unless a digit
follows. The last condition is for numbers, which have no mark at their end. What `indentedArray`
and `indentedObject` write is taken at every level, empty or not, if the values in it are.
-/
namespace CodeAtlas.Json

open Reader

variable {α β : Type}

/-- White space between the parts of a document. -/
def isBlank (c : Char) : Bool :=
  c = ' ' || c = '\n' || c = '\r' || c = '\t'

def blanks : Reader Unit := fun cs =>
  some ((), cs.dropWhile isBlank)

def token (mark : String) : Reader Unit := do
  blanks
  expect mark

def textToken : Reader String := do
  blanks
  quotedText

def numberToken : Reader Nat := do
  blanks
  digits

/-- Takes values with commas between them, up to the mark that ends them. -/
def valuesUntil (value : Reader α) (close : String) : Reader (List α) := fun cs =>
  match value.run cs with
  | none => (token close >>= fun _ => pure []).run cs
  | some (first, rest) =>
    (many (token "," >>= fun _ => value) >>= fun others =>
      token close >>= fun _ => pure (first :: others)).run rest

def listOf (value : Reader α) : Reader (List α) := do
  token "["
  valuesUntil value "]"

/-- Takes a name and the value that belongs to it. -/
def member (value : Reader α) : Reader (String × α) := do
  let name ← textToken
  token ":"
  let v ← value
  return (name, v)

def objectOf (value : Reader α) : Reader (List (String × α)) := do
  token "\x7b"
  valuesUntil (member value) "\x7d"

/-! ## Behind white space -/

def Ends (rest : List Char) : Prop :=
  ∀ c ∈ rest.head?, c.isDigit = false

/-- The reader takes this text behind any white space, unless a digit follows, and gives this
value. -/
def Takes (r : Reader α) (s : String) (a : α) : Prop :=
  ∀ pad rest : List Char, pad.all isBlank = true → Ends rest →
    r.run (pad ++ (s.toList ++ rest)) = some (a, rest)

/-- A text whose first character is neither white space nor a digit. -/
def IsMarked (s : String) : Prop :=
  ∃ c cs, s.toList = c :: cs ∧ isBlank c = false ∧ c.isDigit = false

theorem IsMarked.ends {s : String} (h : IsMarked s) (rest : List Char) :
    Ends (s.toList ++ rest) := by
  obtain ⟨c, cs, hs, -, digit⟩ := h
  rw [hs]
  intro first hfirst
  cases hfirst
  exact digit

theorem IsMarked.append {s : String} (h : IsMarked s) (t : String) : IsMarked (s ++ t) := by
  obtain ⟨c, cs, hs, plain⟩ := h
  exact ⟨c, cs ++ t.toList, by rw [String.toList_append, hs]; rfl, plain⟩

theorem IsMarked.ne_empty {s : String} (h : IsMarked s) : s ≠ "" := by
  obtain ⟨c, cs, hs, -⟩ := h
  intro empty
  rw [empty] at hs
  cases hs

theorem isMarked_text (s : String) : IsMarked (text s) :=
  ⟨'"', _, String.toList_ofList, rfl, rfl⟩

theorem isMarked_comma : IsMarked "," :=
  ⟨',', [], rfl, rfl, rfl⟩

/-- White space that can stand between two parts, and is there. -/
structure IsGap (gap : String) : Prop where
  blank : gap.toList.all isBlank = true
  filled : gap ≠ ""

theorem isDigit_of_isBlank {c : Char} (h : isBlank c = true) : c.isDigit = false := by
  simp only [isBlank, Bool.or_eq_true, decide_eq_true_eq] at h
  rcases h with ((rfl | rfl) | rfl) | rfl <;> rfl

theorem IsGap.ends {gap : String} (h : IsGap gap) (s : String) (rest : List Char) :
    Ends ((gap ++ s).toList ++ rest) := by
  obtain ⟨blank, filled⟩ := h
  rw [String.toList_append]
  cases hg : gap.toList with
  | nil => exact absurd (String.toList_eq_nil_iff.mp hg) filled
  | cons c cs =>
    rw [hg, List.all_cons, Bool.and_eq_true] at blank
    intro first hfirst
    cases hfirst
    exact isDigit_of_isBlank blank.1

/-- White space in front of a text makes no difference to a reader that passes over it. -/
theorem run_blanks_bind (r : Reader α) {pad : List Char} (blank : pad.all isBlank = true)
    {s : String} {c : Char} {cs : List Char} (hs : s.toList = c :: cs) (plain : isBlank c = false)
    (rest : List Char) :
    (blanks >>= fun _ => r).run (pad ++ (s.toList ++ rest)) = r.run (s.toList ++ rest) := by
  have skipped : (pad ++ (s.toList ++ rest)).dropWhile isBlank = s.toList ++ rest := by
    rw [List.dropWhile_append_of_pos (List.all_eq_true.mp blank), hs]
    simp [plain]
  have passed : blanks.run (pad ++ (s.toList ++ rest)) = some ((), s.toList ++ rest) :=
    congrArg (fun cs => some ((), cs)) skipped
  rw [StateT.run_bind, passed]
  rfl

theorem takes_of_reads {r : Reader α} {s : String} {a : α} (h : IsMarked s) (reads : Reads r s a) :
    Takes (blanks >>= fun _ => r) s a := by
  obtain ⟨c, cs, hs, plain, -⟩ := h
  intro pad rest blank _
  rw [run_blanks_bind r blank hs plain]
  exact reads rest

theorem takes_token {mark : String} (h : IsMarked mark) : Takes (token mark) mark () :=
  takes_of_reads h (reads_expect mark)

theorem takes_text (s : String) : Takes textToken (text s) s :=
  takes_of_reads (isMarked_text s) (reads_text s)

theorem token_refuses {mark s : String} {pad : List Char} (blank : pad.all isBlank = true)
    (h : IsMarked s) {rest : List Char} (other : ¬ mark.toList.isPrefixOf (s.toList ++ rest)) :
    (token mark).run (pad ++ (s.toList ++ rest)) = none := by
  obtain ⟨c, cs, hs, plain, -⟩ := h
  rw [token, run_blanks_bind _ blank hs plain]
  exact expect_refuses other

theorem exists_digit_of_number (n : Nat) :
    ∃ c cs, (number n).toList = c :: cs ∧ c.isDigit = true ∧ isBlank c = false := by
  cases h : Nat.toDigits 10 n with
  | nil => exact absurd h Nat.toDigits_ne_nil
  | cons c cs =>
    have digit : c.isDigit = true := by
      apply Nat.isDigit_of_mem_toDigits (b := 10) (n := n) (by decide) (by decide)
      rw [h]
      exact List.mem_cons_self
    refine ⟨c, cs, by rw [number, String.toList_ofList, h], digit, ?_⟩
    cases blank : isBlank c with
    | false => rfl
    | true =>
      rw [isDigit_of_isBlank blank] at digit
      cases digit

theorem takes_number (n : Nat) : Takes numberToken (number n) n := by
  obtain ⟨c, cs, hn, -, plain⟩ := exists_digit_of_number n
  intro pad rest blank ends
  rw [numberToken, run_blanks_bind digits blank hn plain, number, String.toList_ofList]
  exact run_digits n ends

theorem textToken_refuses_number (n : Nat) {pad : List Char} (blank : pad.all isBlank = true)
    (rest : List Char) : textToken.run (pad ++ ((number n).toList ++ rest)) = none := by
  obtain ⟨c, cs, hn, digit, plain⟩ := exists_digit_of_number n
  rw [textToken, run_blanks_bind quotedText blank hn plain, hn]
  apply run_bind_of_refused
  apply expect_refuses
  have other : '"' ≠ c := by
    intro same
    rw [← same] at digit
    cases digit
  simp [other]

theorem Takes.padded {r : Reader α} {s gap : String} {a : α} (h : Takes r s a)
    (blank : gap.toList.all isBlank = true) : Takes r (gap ++ s) a := by
  intro pad rest blank' ends
  have both : (pad ++ gap.toList).all isBlank = true := by
    rw [List.all_append, blank', blank]
    rfl
  have taken := h (pad ++ gap.toList) rest both ends
  rwa [List.append_assoc, ← List.append_assoc gap.toList, ← String.toList_append] at taken

theorem Takes.bind {r : Reader α} {f : α → Reader β} {s t : String} {a : α}
    {b : β} (hr : Takes r s a) (hf : Takes (f a) t b) (ends : ∀ rest, Ends rest →
      Ends (t.toList ++ rest)) :
    Takes (r >>= f) (s ++ t) b := by
  intro pad rest blank hrest
  rw [String.toList_append, List.append_assoc, StateT.run_bind, hr pad _ blank (ends rest hrest)]
  exact hf [] rest rfl hrest

theorem Takes.map {r : Reader α} {s : String} {a : α} (h : Takes r s a) (f : α → β) :
    Takes (r >>= fun a => pure (f a)) s (f a) := by
  intro pad rest blank ends
  rw [StateT.run_bind, h pad rest blank ends]
  rfl

theorem Takes.whole {r : Reader α} {s : String} {a : α} (h : Takes r s a) :
    r.whole? s = some a := by
  have taken := h [] [] rfl (by simp [Ends])
  rw [List.nil_append, List.append_nil] at taken
  simp [whole?, taken]

/-! ## Arrays and objects -/

theorem run_valuesUntil_of_refused {value : Reader α} {close : String} {cs : List Char}
    (h : value.run cs = none) :
    (valuesUntil value close).run cs = (token close >>= fun _ => pure []).run cs := by
  rw [StateT.run, valuesUntil, h]

theorem run_valuesUntil_of_taken {value : Reader α} {close : String}
    {cs rest : List Char} {first : α} (h : value.run cs = some (first, rest)) :
    (valuesUntil value close).run cs =
      (many (token "," >>= fun _ => value) >>= fun others =>
        token close >>= fun _ => pure (first :: others)).run rest := by
  rw [StateT.run, valuesUntil, h]

/-- A mark that can end the values: no value begins with it, and it is not the comma between
them. -/
structure Closes (close : String) (value : Reader α) : Prop where
  marked : IsMarked close
  not_comma : ∀ rest, ¬ ",".toList.isPrefixOf (close.toList ++ rest)
  refused : ∀ pad rest : List Char, pad.all isBlank = true →
    value.run (pad ++ (close.toList ++ rest)) = none

section

variable {value : Reader α} {close : String} {write : β → String} {result : β → α}

theorem takes_no_values (h : Closes close value) : Takes (valuesUntil value close) close [] := by
  intro pad rest blank ends
  rw [run_valuesUntil_of_refused (h.refused pad rest blank)]
  exact (takes_token h.marked).map (fun _ => []) pad rest blank ends

/-- Values are taken with a comma in front of every one but the first, and with white space around
them. -/
theorem takes_values (h : Closes close value) {gap last : String}
    (hgap : IsGap gap) (hlast : IsGap last) {b : β} {bs : List β}
    (each : ∀ c ∈ b :: bs, Takes value (write c) (result c)) :
    Takes (valuesUntil value close)
      (gap ++ write b ++ (String.join (bs.map fun c => "," ++ (gap ++ write c)) ++ (last ++ close)))
      (result b :: bs.map result) := by
  have others :
      ∀ c ∈ bs, Takes (token "," >>= fun _ => value) ("," ++ (gap ++ write c)) (result c) := by
    intro c hc
    have padded := (each c (List.mem_cons_of_mem _ hc)).padded hgap.blank
    exact (takes_token isMarked_comma).bind padded fun rest _ => hgap.ends _ rest
  intro pad rest blank _
  have ended : (token "," >>= fun _ => value).run ((last ++ close).toList ++ rest) = none := by
    rw [String.toList_append, List.append_assoc]
    exact run_bind_of_refused (token_refuses hlast.blank h.marked (h.not_comma rest)) _
  have all : manyFrom (token "," >>= fun _ => value)
      ((String.join (bs.map fun c => "," ++ (gap ++ write c))).toList ++
        ((last ++ close).toList ++ rest)) =
      (bs.map result, (last ++ close).toList ++ rest) := by
    refine manyFrom_append (fun c hc rest ends => others c hc [] rest rfl ends) ?_ ?_
      (hlast.ends close rest) ended
    · intro c _ rest _
      exact (isMarked_comma.append _).ends rest
    · intro c _
      exact (isMarked_comma.append _).ne_empty
  have first := (each b List.mem_cons_self).padded hgap.blank
  have follows : Ends ((String.join (bs.map fun c => "," ++ (gap ++ write c))).toList ++
      ((last ++ close).toList ++ rest)) :=
    fits_join (fun c _ rest _ => (isMarked_comma.append _).ends rest) (hlast.ends close rest)
  have closed := ((takes_token h.marked).padded hlast.blank).map fun _ => result b :: bs.map result
  rw [String.toList_append, List.append_assoc, String.toList_append (s := String.join _),
    List.append_assoc, run_valuesUntil_of_taken (first pad _ blank follows), StateT.run_bind]
  rw [show (many (token "," >>= fun _ => value)).run _ = some _ from congrArg some all]
  exact closed [] rest rfl ‹_›

theorem isGap_line (level : Nat) : IsGap ("\n" ++ indent level) where
  blank := by simp [indent, isBlank]
  filled := by simp

theorem indentedItems_cons (left : String) (level : Nat) (b : β) (bs : List β) :
    indentedItems left close level ((b :: bs).map write) =
      left ++ ("\n" ++ indent (level + 1) ++ write b ++
        (String.join (bs.map fun c => "," ++ ("\n" ++ indent (level + 1) ++ write c)) ++
          ("\n" ++ indent level ++ close))) := by
  have comma : ",\n" = "," ++ "\n" := rfl
  simp only [indentedItems, List.map_cons, List.isEmpty_cons, intercalate_cons_eq_join,
    List.map_map, Function.comp_def, comma, String.append_assoc]
  rfl

theorem takes_indentedItems (h : Closes close value) {left : String}
    (hleft : IsMarked left) (level : Nat) {bs : List β}
    (each : ∀ b ∈ bs, Takes value (write b) (result b)) :
    Takes (token left >>= fun _ => valuesUntil value close)
      (indentedItems left close level (bs.map write)) (bs.map result) := by
  cases bs with
  | nil => exact (takes_token hleft).bind (takes_no_values h) fun rest _ => h.marked.ends rest
  | cons b bs =>
    have inside := takes_values h (isGap_line (level + 1)) (isGap_line level) each
    rw [indentedItems_cons]
    refine (takes_token hleft).bind inside fun rest _ => ?_
    rw [String.append_assoc]
    exact (isGap_line (level + 1)).ends _ rest

end

theorem takes_indentedArray {value : Reader α} (write : β → String) (result : β → α) (level : Nat)
    {bs : List β} (each : ∀ b ∈ bs, Takes value (write b) (result b)) (h : Closes "]" value) :
    Takes (listOf value) (indentedArray level (bs.map write)) (bs.map result) :=
  takes_indentedItems h ⟨'[', [], rfl, rfl, rfl⟩ level each

theorem takes_member {value : Reader α} {s : String} {a : α} (name : String) (h : Takes value s a) :
    Takes (member value) (text name ++ ": " ++ s) (name, a) := by
  have gap : IsGap " " := ⟨rfl, by decide⟩
  have colon : IsMarked ":" := ⟨':', [], rfl, rfl, rfl⟩
  have spaced : text name ++ ": " ++ s = text name ++ (":" ++ (" " ++ s)) := by
    have both : ": " = ":" ++ " " := rfl
    rw [both, String.append_assoc, String.append_assoc]
  rw [spaced]
  unfold member
  refine (takes_text name).bind
    ((takes_token colon).bind ((h.padded gap.blank).map fun a => (name, a)) ?_) ?_
  · intro rest _
    exact gap.ends s rest
  · intro rest _
    exact (colon.append _).ends rest

theorem member_closes (value : Reader α) : Closes "\x7d" (member value) where
  marked := ⟨'\x7d', [], rfl, rfl, rfl⟩
  not_comma := by simp
  refused := by
    intro pad rest blank
    apply run_bind_of_refused
    rw [textToken, run_blanks_bind quotedText blank rfl rfl]
    apply run_bind_of_refused
    apply expect_refuses
    simp

/-- An object gives back its members, each with the value that was written. -/
theorem takes_indentedObject {value : Reader α} (write : β → String) (result : β → α) (level : Nat)
    {fields : List (String × β)} (each : ∀ f ∈ fields, Takes value (write f.2) (result f.2)) :
    Takes (objectOf value) (indentedObject level (fields.map fun f => (f.1, write f.2)))
      (fields.map fun f => (f.1, result f.2)) := by
  have brace : IsMarked "\x7b" := ⟨'\x7b', [], rfl, rfl, rfl⟩
  have members : ∀ f ∈ fields, Takes (member value) (text f.1 ++ ": " ++ write f.2)
      (f.1, result f.2) :=
    fun f hf => takes_member f.1 (each f hf)
  rw [indentedObject, List.map_map]
  exact takes_indentedItems (member_closes value) brace level members

theorem objectOf_closes (value : Reader α) : Closes "]" (objectOf value) where
  marked := ⟨']', [], rfl, rfl, rfl⟩
  not_comma := by simp
  refused := by
    intro pad rest blank
    apply run_bind_of_refused
    apply token_refuses blank ⟨']', [], rfl, rfl, rfl⟩
    simp

end CodeAtlas.Json
