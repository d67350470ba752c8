import CodeAtlas.Proofs.NameMapLookup
import CodeAtlas.Toml.Document

/-!
# No key twice

A table of a document has every key once, however it was written: under headers, with dotted keys,
in braces, or by all of these in turn. Whatever changes a table looks the key up first, so it is
enough that this is so for every step of the reading, for the table being written as for the ones
that are finished.

With no key twice, a document is settled by which entries its tables have; `Reordered` is the
relation between two documents that differ in the order of these alone.
-/
namespace CodeAtlas.Toml

/-- No table in the value has a key twice. -/
inductive Value.Distinct : Value → Prop
  | string (text : String) : Distinct (.string text)
  | integer (n : Int) : Distinct (.integer n)
  | float (x : Float) : Distinct (.float x)
  | boolean (b : Bool) : Distinct (.boolean b)
  | datetime : Distinct .datetime
  | array (isOpen : Bool) {items : List Value} (items_distinct : ∀ v ∈ items, Distinct v) :
      Distinct (.array isOpen items)
  | table (origin : Origin) {entries : List (String × Value)}
    (keys : entries.Pairwise fun a b => a.1 ≠ b.1)
      (values : ∀ e ∈ entries, Distinct e.2) : Distinct (.table origin entries)

/-- No key stands twice in the entries, nor in a table among their values. -/
structure Entries.Distinct (entries : Entries) : Prop where
  keys : entries.Pairwise fun a b => a.1 ≠ b.1
  values : ∀ e ∈ entries, e.2.Distinct

namespace Value

theorem Distinct.items {isOpen : Bool} {items : List Value} (h : Distinct (.array isOpen items)) :
    ∀ v ∈ items, v.Distinct := by
  cases h with
  | array _ items_distinct => exact items_distinct

theorem Distinct.entries {origin : Origin} {entries : Entries}
    (h : Distinct (.table origin entries)) :
    entries.Distinct := by
  cases h with
  | table _ keys values => exact ⟨keys, values⟩

end Value

namespace Entries

variable {entries entries' : Entries} {key : String} {v : Value}

theorem Distinct.toValue (h : entries.Distinct) (origin : Origin) :
    Value.Distinct (.table origin entries) :=
  .table origin h.keys h.values

theorem distinct_nil : Distinct [] :=
  ⟨.nil, List.forall_mem_nil _⟩

theorem Distinct.of_lookup (h : entries.Distinct) (there : entries.lookup key = some v) :
    v.Distinct :=
  h.values _ (mem_of_lookup there)

theorem Distinct.append (h : entries.Distinct) (free : entries.lookup key = none)
    (value : v.Distinct) :
    Distinct (entries ++ [(key, v)]) := by
  constructor
  · rw [List.pairwise_append]
    refine ⟨h.keys, List.pairwise_singleton _ _, ?_⟩
    intro e mem new mem_new
    rw [List.mem_singleton.mp mem_new]
    exact (bne_iff_ne.mp (List.lookup_eq_none_iff.mp free e mem)).symm
  · intro e mem
    rcases List.mem_append.mp mem with old | new
    · exact h.values e old
    · rw [List.mem_singleton.mp new]
      exact value

theorem Distinct.addNew? (h : entries.Distinct) (value : v.Distinct)
    (added : entries.addNew? key v = some entries') :
    entries'.Distinct := by
  unfold Entries.addNew? at added
  split at added
  · cases added
  next free =>
    cases added
    exact h.append (Option.not_isSome_iff_eq_none.mp free) value

theorem Distinct.replace (h : entries.Distinct) (value : v.Distinct) :
    (entries.replace key v).Distinct := by
  have name : ∀ e : String × Value, (if e.1 = key then (key, v) else e).1 = e.1 := by
    intro e
    split
    next same => exact same.symm
    next => rfl
  constructor
  · rw [Entries.replace, List.pairwise_map]
    simpa only [name] using h.keys
  · intro e mem
    obtain ⟨old, there, rfl⟩ := List.mem_map.mp mem
    split
    · exact value
    · exact h.values old there

theorem Distinct.remove (h : entries.Distinct) (key : String) : (entries.remove key).Distinct where
  keys := h.keys.filter _
  values e mem := h.values e (List.mem_filter.mp mem).1

/-- A change of the table that keys lead to keeps keys distinct if it does so for the table it is
made in. -/
theorem Distinct.change {α : Type} {made : Origin} {closed : Origin → Bool}
    {f : Origin → Entries → Option (Entries × α)} {P : α → Prop}
    (inner : ∀ {origin entries entries' a}, Distinct entries →
        f origin entries = some (entries', a) →
      Distinct entries' ∧ P a)
    {path : List String} {origin : Origin} {a : α} (h : entries.Distinct)
    (changed : entries.change made closed f path origin = some (entries', a)) :
    entries'.Distinct ∧ P a := by
  induction path generalizing origin entries entries' with
  | nil => exact inner h changed
  | cons key path ih =>
    rw [Entries.change] at changed
    split at changed
    next free =>
      obtain ⟨⟨made, b⟩, below, same⟩ := Option.bind_eq_some_iff.mp changed
      cases same
      obtain ⟨distinct, kept⟩ := ih distinct_nil below
      exact ⟨h.append free (distinct.toValue _), kept⟩
    next there =>
      split at changed
      · cases changed
      · obtain ⟨⟨made, b⟩, below, same⟩ := Option.bind_eq_some_iff.mp changed
        cases same
        obtain ⟨distinct, kept⟩ := ih (h.of_lookup there).entries below
        exact ⟨h.replace (distinct.toValue _), kept⟩
    next items there =>
      split at changed
      next last =>
        obtain ⟨⟨made, b⟩, below, same⟩ := Option.bind_eq_some_iff.mp changed
        cases same
        have others := (h.of_lookup there).items
        obtain ⟨distinct, kept⟩ := ih (others _ (List.mem_of_getLast? last)).entries below
        refine ⟨h.replace (.array true ?_), kept⟩
        intro v mem
        rcases List.mem_append.mp mem with old | new
        · exact others v ((List.dropLast_sublist items).subset old)
        · rw [List.mem_singleton.mp new]
          exact distinct.toValue _
      · cases changed
    next => cases changed

theorem Distinct.addDotted? {path : List String} (h : entries.Distinct) (value : v.Distinct)
    (added : entries.addDotted? path key v = some entries') : entries'.Distinct := by
  obtain ⟨⟨changed, a⟩, change, same⟩ := Option.bind_eq_some_iff.mp added
  cases same
  refine (h.change (P := fun _ => True) ?_ change).1
  intro origin inner inner' a distinct made
  split at made
  · cases made
  · obtain ⟨grown, new, same⟩ := Option.map_eq_some_iff.mp made
    cases same
    exact ⟨distinct.addNew? value new, trivial⟩

end Entries

/-! ## Values -/

/-- No key stands twice in what was read, if anything was. -/
def Sound (read : Option (Value × List Char)) : Prop :=
  ∀ v rest, read = some (v, rest) → v.Distinct

theorem sound_none : Sound none := by
  intro v rest h
  cases h

theorem sound_some {v : Value} {rest : List Char} (h : v.Distinct) : Sound (some (v, rest)) := by
  intro v' rest' same
  cases same
  exact h

theorem sound_bind {α : Type} {o : Option α} {f : α → Option (Value × List Char)}
    (h : ∀ a, o = some a → Sound (f a)) :
    Sound (o.bind f) := by
  intro v rest read
  obtain ⟨a, there, read⟩ := Option.bind_eq_some_iff.mp read
  exact h a there v rest read

theorem sound_map {α : Type} {o : Option α} {f : α → Value × List Char}
    (h : ∀ a, (f a).1.Distinct) :
    Sound (o.map f) := by
  rw [Option.map_eq_bind]
  exact sound_bind fun a _ => sound_some (h a)

theorem sound_orElse {read read' : Option (Value × List Char)} (h : Sound read) (h' : Sound read') :
    Sound (read <|> read') := by
  cases read with
  | none => exact h'
  | some r => exact h

theorem sound_integer (n : Int) (rest : List Char) :
    Sound (if inRange n then some (.integer n, rest) else none) := by
  split
  · exact sound_some (.integer n)
  · exact sound_none

theorem sound_basedInteger? (base : Nat) (cs : List Char) : Sound (basedInteger? base cs) :=
  sound_bind fun _ _ => sound_integer _ _

theorem sound_integer? (cs : List Char) : Sound (integer? cs) := by
  unfold integer?
  split
  · exact sound_basedInteger? 16 _
  · exact sound_basedInteger? 8 _
  · exact sound_basedInteger? 2 _
  · exact sound_bind fun _ _ => sound_integer _ _

theorem sound_float (x : Float) (rest : List Char) :
    Sound (if x = .infinite false then none else some (.float x, rest)) := by
  split
  · exact sound_none
  · exact sound_some (.float x)

theorem sound_decimalFloat? (cs : List Char) : Sound (decimalFloat? cs) := by
  refine sound_bind fun r _ => ?_
  obtain ⟨whole, rest⟩ := r
  dsimp only
  split
  · split
    · exact sound_bind fun _ _ => sound_float _ _
    · exact sound_bind fun _ _ => sound_float _ _
  · exact sound_bind fun _ _ => sound_float _ _

theorem sound_namedFloat? (cs : List Char) : Sound (namedFloat? cs) := by
  unfold namedFloat?
  dsimp only
  split
  · exact sound_some (.float _)
  · exact sound_some (.float _)
  · exact sound_none

theorem sound_datetime? (cs : List Char) : Sound (datetime? cs) := by
  unfold datetime?
  split
  · split
    · split
      · split
        · exact sound_some .datetime
        · exact sound_some .datetime
      · exact sound_some .datetime
    · exact sound_some .datetime
  · exact sound_map fun _ => .datetime

theorem sound_scalar? (cs : List Char) : Sound (scalar? cs) := by
  unfold scalar?
  split
  · exact sound_map fun r => .string r.1
  · exact sound_map fun r => .string r.1
  · exact sound_some (.boolean true)
  · exact sound_some (.boolean false)
  · exact sound_orElse (sound_datetime? _)
      (sound_orElse (sound_decimalFloat? _) (sound_orElse (sound_namedFloat? _) (sound_integer? _)))

variable {value : Nat → Reader Value}

theorem sound_arrayRest (h : ∀ fuel cs, Sound (value fuel cs)) {read : List Value}
    (items : ∀ v ∈ read, v.Distinct) (fuel : Nat) (cs : List Char) :
    Sound (arrayRest value read fuel cs) := by
  induction fuel generalizing read cs with
  | zero => exact sound_none
  | succ fuel ih =>
    rw [arrayRest]
    refine sound_bind fun rest _ => ?_
    dsimp only
    split
    · refine sound_some (.array false fun v mem => items v (List.mem_reverse.mp mem))
    · refine sound_bind fun r item => ?_
      obtain ⟨v, rest⟩ := r
      have more : ∀ w ∈ v :: read, w.Distinct := List.forall_mem_cons.mpr ⟨h _ _ _ _ item, items⟩
      refine sound_bind fun rest _ => ?_
      split
      · exact ih more _
      · exact sound_some (.array false fun v mem => more v (List.mem_reverse.mp mem))
      · exact sound_none

theorem distinct_of_keyValue? {value : Reader Value} (h : ∀ cs, Sound (value cs))
    {cs rest : List Char} {key : List String × String} {v : Value}
    (pair : keyValue? value cs = some (key, v, rest)) : v.Distinct := by
  obtain ⟨⟨key, afterKey⟩, -, pair⟩ := Option.bind_eq_some_iff.mp pair
  obtain ⟨afterSign, -, pair⟩ := Option.bind_eq_some_iff.mp pair
  obtain ⟨⟨v, rest⟩, read, same⟩ := Option.bind_eq_some_iff.mp pair
  cases same
  exact h _ _ _ read

theorem sound_inlineRest (h : ∀ fuel cs, Sound (value fuel cs)) {entries : Entries}
    (distinct : entries.Distinct) (fuel : Nat) (cs : List Char) :
    Sound (inlineRest value entries fuel cs) := by
  induction fuel generalizing entries cs with
  | zero => exact sound_none
  | succ fuel ih =>
    rw [inlineRest]
    refine sound_bind fun r pair => ?_
    obtain ⟨⟨path, key⟩, v, rest⟩ := r
    refine sound_bind fun grown added => ?_
    have distinct := distinct.addDotted? (distinct_of_keyValue? (h fuel) pair) added
    split
    · exact ih distinct _
    · exact sound_some (distinct.toValue .inline)
    · exact sound_none

theorem sound_value? (depth fuel : Nat) (cs : List Char) : Sound (value? depth fuel cs) := by
  induction depth generalizing fuel cs with
  | zero => exact sound_scalar? cs
  | succ depth ih =>
    unfold value?
    split
    · exact sound_arrayRest ih (List.forall_mem_nil _) _ _
    · unfold inlineTable?
      split
      · exact sound_some (Entries.distinct_nil.toValue .inline)
      · exact sound_inlineRest ih Entries.distinct_nil _ _
    · exact sound_scalar? _

/-! ## Documents -/

/-- No key stands twice, neither in what is finished nor in the table being written. -/
structure Draft.Distinct (d : Draft) : Prop where
  finished : d.finished.Distinct
  current : d.current.Distinct

namespace Draft

variable {d d' : Draft} {finished entries : Entries} {path : List String} {key : String}

theorem distinct_of_changeParent {α : Type} {f : Entries → Option (Entries × α)} {P : α → Prop}
    (inner : ∀ {parent parent' a}, Entries.Distinct parent → f parent = some (parent', a) →
      parent'.Distinct ∧ P a)
    {a : α} (h : finished.Distinct) (changed : changeParent finished path f = some (entries, a)) :
    entries.Distinct ∧ P a :=
  h.change inner changed

theorem Distinct.finish (h : d.Distinct) (done : d.finish = some entries) : entries.Distinct := by
  unfold Draft.finish at done
  split at done
  · cases done
    exact h.current
  · obtain ⟨⟨changed, a⟩, change, same⟩ := Option.map_eq_some_iff.mp done
    cases same
    refine (distinct_of_changeParent (P := fun _ => True) ?_ h.finished change).1
    intro parent parent' a distinct put
    have table := h.current.toValue .header
    split at put
    · split at put
      next free =>
        cases put
        exact ⟨distinct.append free (.array true (List.forall_mem_singleton.mpr table)), trivial⟩
      next items there =>
        cases put
        refine ⟨distinct.replace (.array true ?_), trivial⟩
        intro v mem
        rcases List.mem_append.mp mem with old | new
        · exact (distinct.of_lookup there).items v old
        · rw [List.mem_singleton.mp new]
          exact table
      next => cases put
    · obtain ⟨grown, added, same⟩ := Option.map_eq_some_iff.mp put
      cases same
      exact ⟨distinct.addNew? table added, trivial⟩

theorem distinct_of_startTable (h : finished.Distinct)
    (started : startTable finished path key = some d) :
    d.Distinct := by
  obtain ⟨⟨changed, current⟩, change, same⟩ := Option.bind_eq_some_iff.mp started
  cases same
  have both := distinct_of_changeParent (P := Entries.Distinct) ?_ h change
  · exact ⟨both.1, both.2⟩
  intro parent parent' current distinct taken
  split at taken
  · cases taken
    exact ⟨distinct, Entries.distinct_nil⟩
  next inner there =>
    cases taken
    exact ⟨distinct.remove key, (distinct.of_lookup there).entries⟩
  · cases taken

theorem distinct_of_startRepeated (h : finished.Distinct)
    (started : startRepeated finished path key = some d) :
    d.Distinct := by
  obtain ⟨⟨changed, a⟩, change, same⟩ := Option.bind_eq_some_iff.mp started
  cases same
  have grown := distinct_of_changeParent (P := fun _ => True) ?_ h change
  · exact ⟨grown.1, Entries.distinct_nil⟩
  intro parent parent' a distinct put
  split at put
  next free =>
    cases put
    exact ⟨distinct.append free (.array true (List.forall_mem_nil _)), trivial⟩
  · cases put
    exact ⟨distinct, trivial⟩
  · cases put

theorem Distinct.readHeader (h : d.Distinct) {cs rest : List Char}
    (read : d.readHeader cs = some (d', rest)) :
    d'.Distinct := by
  obtain ⟨finished, done, read⟩ := Option.bind_eq_some_iff.mp read
  have distinct := h.finish done
  split at read
  · obtain ⟨⟨⟨path, key⟩, afterKey⟩, -, read⟩ := Option.bind_eq_some_iff.mp read
    obtain ⟨afterLine, -, read⟩ := Option.bind_eq_some_iff.mp read
    obtain ⟨started, start, same⟩ := Option.bind_eq_some_iff.mp read
    cases same
    exact distinct_of_startRepeated distinct start
  · obtain ⟨⟨⟨path, key⟩, afterKey⟩, -, read⟩ := Option.bind_eq_some_iff.mp read
    obtain ⟨afterLine, -, read⟩ := Option.bind_eq_some_iff.mp read
    obtain ⟨started, start, same⟩ := Option.bind_eq_some_iff.mp read
    cases same
    exact distinct_of_startTable distinct start

theorem Distinct.readLines (h : d.Distinct) {fuel : Nat} {cs : List Char}
    (read : d.readLines fuel cs = some entries) : entries.Distinct := by
  induction fuel generalizing d cs with
  | zero => cases read
  | succ fuel ih =>
    rw [Draft.readLines] at read
    split at read
    · exact h.finish read
    · obtain ⟨rest, -, read⟩ := Option.bind_eq_some_iff.mp read
      exact ih h read
    · exact ih h read
    · obtain ⟨rest, -, read⟩ := Option.bind_eq_some_iff.mp read
      exact ih h read
    · split at read
      next header => exact ih (h.readHeader header) read
      · cases read
    · split at read
      next pair =>
        split at read
        next grown rest added _ =>
          have value := distinct_of_keyValue? (sound_value? _ fuel) pair
          have next : Draft.Distinct { d with current := grown } :=
            ⟨h.finished, h.current.addDotted? value added⟩
          exact ih next read
        · cases read
      · cases read

end Draft

/-- No key stands twice in any table of a document. -/
theorem distinct_of_parse? {text : String} {entries : Entries} (h : parse? text = some entries) :
    entries.Distinct :=
  Draft.Distinct.readLines ⟨Entries.distinct_nil, Entries.distinct_nil⟩ h

/-! ## The order of keys -/

namespace Entries

/-- The same entries, with the keys of any of the tables in another order. -/
inductive Reordered : Entries → Entries → Prop
  | perm {entries entries' : Entries} (order : entries.Perm entries') : Reordered entries entries'
  | within (before after : Entries) (key : String) (origin origin' : Origin)
    {entries entries' : Entries}
      (inner : Reordered entries entries') :
      Reordered (before ++ (key, .table origin entries) :: after)
        (before ++ (key, .table origin' entries') :: after)
  | trans {entries entries' entries'' : Entries} (first : Reordered entries entries')
      (second : Reordered entries' entries'') : Reordered entries entries''

theorem distinct_iff {entries : Entries} :
    entries.Distinct ↔ (entries.map Prod.fst).Nodup ∧ ∀ e ∈ entries, e.2.Distinct := by
  rw [List.Nodup, List.pairwise_map]
  exact ⟨fun h => ⟨h.keys, h.values⟩, fun h => ⟨h.1, h.2⟩⟩

theorem Distinct.reordered {entries entries' : Entries} (h : entries.Distinct)
    (order : Reordered entries entries') :
    entries'.Distinct := by
  induction order with
  | perm order =>
    exact ⟨(order.pairwise_iff fun apart => apart.symm).mp h.keys, fun e mem =>
      h.values e (order.mem_iff.mpr mem)⟩
  | within before after key origin origin' _ ih =>
    rw [distinct_iff] at h ⊢
    simp only [List.map_append, List.map_cons, List.forall_mem_append, List.forall_mem_cons] at h ⊢
    obtain ⟨keys, outside, table, behind⟩ := h
    exact ⟨keys, outside, (ih table.entries).toValue origin', behind⟩
  | trans _ _ ih ih' => exact ih' (ih h)

end Entries

end CodeAtlas.Toml
