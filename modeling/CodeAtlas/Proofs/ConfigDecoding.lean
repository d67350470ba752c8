import CodeAtlas.Config
import CodeAtlas.Proofs.RecordDecoding

/-!
# Which documents are configurations

A value is read as a setting if it has the setting's type: a text, an array of texts, or a whole
number that is not negative. A section is read if it is a table of its own settings, or an array of
them in order, and a document if it has only parts that there are. `FitsEntry` says this without
reading anything, and `Described` which configuration a document gives: in every place what is
written there, or the default.

Both only ask which entries there are. So the order of the keys has no part in what is read, neither
in the document nor in its sections; only the error that comes of a document that does not fit
depends on it.
-/
namespace CodeAtlas

open Toml

/-! ## Settings -/

namespace Decode

/-- The value is a text. -/
def IsText (v : Value) (text : String) : Prop :=
  v = .string text

/-- The value is an array of texts. -/
def IsTexts (v : Value) (texts : List String) : Prop :=
  ∃ isOpen, v = .array isOpen (texts.map .string)

/-- The value is a text that spells a path. -/
def IsPath (v : Value) (path : Path) : Prop :=
  ∃ text, IsText v text ∧ .ofText text = path

/-- The value is an array of texts that spell paths. -/
def IsPaths (v : Value) (paths : List Path) : Prop :=
  ∃ texts, IsTexts v texts ∧ texts.map .ofText = paths

/-- The value is a whole number that is not negative. -/
def IsCount (v : Value) (n : Nat) : Prop :=
  v = .integer n

/-- The types of settings. -/
inductive Kind
  | text
  | texts
  | count
deriving DecidableEq

/-- The value has the type of a setting. -/
def Kind.Holds : Kind → Value → Prop
  | .text, v => ∃ text, IsText v text
  | .texts, v => ∃ texts, IsTexts v texts
  | .count, v => ∃ n, IsCount v n

section

variable {v : Value}

theorem IsText.unique {text text' : String} (h : IsText v text) (h' : IsText v text') :
    text = text' :=
  Value.string.inj (h.symm.trans h')

theorem IsTexts.unique {texts texts' : List String} (h : IsTexts v texts) (h' : IsTexts v texts') :
    texts = texts' := by
  obtain ⟨isOpen, rfl⟩ := h
  obtain ⟨isOpen', same⟩ := h'
  exact List.map_injective_iff.mpr (fun _ _ => Value.string.inj) (Value.array.inj same).2

theorem IsPath.unique {path path' : Path} (h : IsPath v path) (h' : IsPath v path') :
    path = path' := by
  obtain ⟨text, is, rfl⟩ := h
  obtain ⟨text', is', rfl⟩ := h'
  rw [is.unique is']

theorem IsPaths.unique {paths paths' : List Path} (h : IsPaths v paths) (h' : IsPaths v paths') :
    paths = paths' := by
  obtain ⟨texts, is, rfl⟩ := h
  obtain ⟨texts', is', rfl⟩ := h'
  rw [is.unique is']

theorem IsCount.unique {n n' : Nat} (h : IsCount v n) (h' : IsCount v n') : n = n' :=
  Int.ofNat.inj (Value.integer.inj (h.symm.trans h'))

end

theorem string_eq_ok_iff {v : Value} {text : String} : string v = .ok text ↔ IsText v text := by
  cases v <;> simp [string, IsText]

theorem path_eq_ok_iff {v : Value} {path : Path} :
    Decode.path v = .ok path ↔ IsPath v path := by
  cases v <;> simp [Decode.path, IsPath, IsText]

theorem count_eq_ok_iff {v : Value} {n : Nat} : count v = .ok n ↔ IsCount v n := by
  cases v with
  | integer i =>
    simp only [count, IsCount, Value.integer.injEq]
    split
    · rw [Except.ok.injEq]
      omega
    · simp only [reduceCtorEq, false_iff]
      omega
  | _ => simp [count, IsCount]

theorem mapM_eq_ok_iff {α : Type} {item : Value → Except DecodeError α} {wrap : String → α}
    (h : ∀ v x, item v = .ok x ↔ ∃ text, IsText v text ∧ wrap text = x)
    {vs : List Value} {xs : List α} :
    vs.mapM item = .ok xs ↔ ∃ texts : List String, vs = texts.map .string ∧
    texts.map wrap = xs := by
  induction vs generalizing xs with
  | nil => simp [pure, Except.pure, eq_comm]
  | cons v vs ih =>
    simp only [List.mapM_cons, bind_eq_ok_iff, h, ih]
    constructor
    · intro read
      obtain ⟨x, ⟨text, is, rfl⟩, xs, ⟨texts, rfl, rfl⟩, same⟩ := read
      cases same
      cases is
      exact ⟨text :: texts, rfl, rfl⟩
    · intro given
      obtain ⟨texts, all, rfl⟩ := given
      obtain ⟨text, texts, rfl, rfl, rfl⟩ := List.map_eq_cons_iff.mp all.symm
      exact ⟨_, ⟨text, rfl, rfl⟩, _, ⟨texts, rfl, rfl⟩, rfl⟩

theorem list_eq_ok_iff {α : Type} {item : Value → Except DecodeError α} {wrap : String → α}
    (h : ∀ v x, item v = .ok x ↔ ∃ text, IsText v text ∧ wrap text = x) {v : Value} {xs : List α} :
    Decode.list item v = .ok xs ↔ ∃ texts, IsTexts v texts ∧ texts.map wrap = xs := by
  cases v with
  | array isOpen vs => simp [Decode.list, IsTexts, mapM_eq_ok_iff h]
  | _ => simp [Decode.list, IsTexts]

theorem strings_eq_ok_iff {v : Value} {texts : List String} : Decode.list string v = .ok texts ↔
    IsTexts v texts := by
  have item : ∀ v x, string v = .ok x ↔ ∃ text, IsText v text ∧ id text = x := by
    simp [string_eq_ok_iff]
  simp [list_eq_ok_iff item]

theorem paths_eq_ok_iff {v : Value} {paths : List Path} :
    Decode.list Decode.path v = .ok paths ↔ IsPaths v paths :=
  list_eq_ok_iff fun _ _ => path_eq_ok_iff

end Decode

open Decode

/-! ## Sections -/

/-- An entry for a setting, with a value of its type. -/
def Typed (kinds : List (String × Kind)) (e : String × Value) : Prop :=
  ∃ kind, (e.1, kind) ∈ kinds ∧ kind.Holds e.2

/-- A section gives its settings by name or in order, only its own, and each with a value of its
type. -/
def FitsSection (kinds : List (String × Kind)) (v : Value) : Prop :=
  ∃ es, members? (kinds.map Prod.fst) v = some es ∧ ∀ e ∈ es, Typed kinds e

theorem FitsSection.mem_names {kinds : List (String × Kind)} {origin : Origin} {es : Entries}
    {key : String} {v : Value} (h : FitsSection kinds (.table origin es)) (mem : (key, v) ∈ es) :
    key ∈ kinds.map Prod.fst := by
  obtain ⟨members, same, typed⟩ := h
  cases same
  obtain ⟨kind, known, -⟩ := typed _ mem
  exact List.mem_map_of_mem known

/-- A section gives its settings by name or in order, and they describe `c`. -/
def SectionIs {σ : Type} (kinds : List (String × Kind)) (Described : Entries → σ → Prop)
    (v : Value) (c : σ) : Prop :=
  ∃ es, members? (kinds.map Prod.fst) v = some es ∧ Described es c

theorem not_typed_table {kinds : List (String × Kind)} (name : String)
    (origin : Origin) (es : Entries) :
    ¬ Typed kinds (name, .table origin es) := by
  intro h
  obtain ⟨kind, -, holds⟩ := h
  cases kind <;> simp [Kind.Holds, IsText, IsTexts, IsCount] at holds

/-- What is known of the fields of a section: which entries they accept, and that what is read is
what the entries describe, which is one thing in whatever order they come. -/
structure IsSection {σ : Type} (fields : List (Field σ)) (defaults : σ)
    (kinds : List (String × Kind)) (Described : Entries → σ → Prop) : Prop where
  distinct : (fields.map (·.name)).Nodup
  names : fields.map (·.name) = kinds.map Prod.fst
  accepts : Accepts fields (Typed kinds)
  described : ∀ es c, (es.Pairwise fun a b => a.1 ≠ b.1) → entries fields defaults es = .ok c →
    Described es c
  unique : ∀ es es' c c', (es.Pairwise fun a b => a.1 ≠ b.1) → es.Perm es' →
      Described es c → Described es' c' →
    c = c'

namespace IsSection

variable {σ : Type} {fields : List (Field σ)} {defaults : σ} {kinds : List (String × Kind)}
  {Described : Entries → σ → Prop} {title : String} {c c' : σ} {v : Value} {es es' : Entries}

theorem exists_record_iff (sec : IsSection fields defaults kinds Described) :
    (∃ c, Decode.record title fields defaults v = .ok c) ↔ FitsSection kinds v := by
  simp only [record_eq_ok_iff sec.distinct, FitsSection, ← sec.names,
    ← sec.accepts.exists_entries_eq_ok_iff defaults]
  constructor
  · intro h
    obtain ⟨c, es, members, read⟩ := h
    exact ⟨es, members, c, read⟩
  · intro h
    obtain ⟨es, members, c, read⟩ := h
    exact ⟨c, es, members, read⟩

theorem sectionIs_of_record (sec : IsSection fields defaults kinds Described) (h : v.Distinct)
    (read : Decode.record title fields defaults v = .ok c) : SectionIs kinds Described v c := by
  obtain ⟨es, members, read⟩ := (record_eq_ok_iff sec.distinct).mp read
  have keys := members?_distinct sec.distinct h members
  rw [sec.names] at members
  exact ⟨es, members, sec.described es c keys read⟩

theorem eq_of_sectionIs (sec : IsSection fields defaults kinds Described) (h : v.Distinct)
    (is : SectionIs kinds Described v c) (is' : SectionIs kinds Described v c') : c = c' := by
  obtain ⟨es, members, described⟩ := is
  obtain ⟨es', members', described'⟩ := is'
  cases members.symm.trans members'
  rw [← sec.names] at members
  exact sec.unique es es c c' (members?_distinct sec.distinct h members)
    (.refl es) described described'

theorem entries_eq_ok_iff_of_reordered (sec : IsSection fields defaults kinds Described)
    (distinct : es.Distinct) (order : es.Reordered es') : entries fields defaults es = .ok c ↔
      entries fields defaults es' = .ok c := by
  -- no setting is a table, so only the order in the section itself could have a part
  have refused : ∀ a name origin es b, entry fields a (name, .table origin es) ≠ .ok b := by
    intro a name origin es b read
    exact not_typed_table name origin es ((sec.accepts _ a).mp ⟨b, read⟩)
  refine Decode.entries_eq_ok_iff_of_reordered ?_ ?_ distinct order c
  · intro es es' distinct order c
    refine sec.accepts.entries_eq_ok_iff_of_perm order fun c c' h h' => ?_
    have keys' := (distinct.reordered (.perm order)).keys
    have described := sec.described es c distinct.keys h
    exact sec.unique es es' c c' distinct.keys order described (sec.described es' c' keys' h')
  · intro es es' _ _ name origin origin' a b
    exact iff_of_false (refused a name origin es b) (refused a name origin' es' b)

end IsSection

namespace PatternConfig

/-- The settings in order, with their types. -/
def kinds : List (String × Kind) :=
  [("service_lookup", .text), ("service_enum", .text)]

/-- Each setting is what the entries give for it, or its default. -/
structure Described (es : Entries) (c : PatternConfig) : Prop where
  serviceLookup : Given es "service_lookup" IsText "getService" c.serviceLookup
  serviceEnum : Given es "service_enum" IsText "SERVICES" c.serviceEnum

variable {e : String × Value} {a a' c c' : PatternConfig} {es es' : Entries}

theorem names_nodup : (fields.map (·.name)).Nodup := by decide

/-- What reading an entry does. -/
theorem entry_eq_ok_iff : entry fields a e = .ok a' ↔
    (e.1 = "service_lookup" ∧ ∃ text, IsText e.2 text ∧ { a with serviceLookup := text } = a') ∨
      e.1 = "service_enum" ∧ ∃ text, IsText e.2 text ∧ { a with serviceEnum := text } = a' := by
  rw [Decode.entry_eq_ok_iff names_nodup]
  simp [fields, bind_eq_ok_iff, string_eq_ok_iff, pure, Except.pure]

theorem accepts : Accepts fields (Typed kinds) := by
  intro e a
  simp [entry_eq_ok_iff, Typed, kinds, Kind.Holds, or_and_right, exists_or]

theorem described_of_entries (keys : es.Pairwise fun a b => a.1 ≠ b.1)
    (h : entries fields {} es = .ok c) :
    Described es c := by
  -- the entry of a setting's name sets it, and an entry of another name leaves it as it is
  have tracks : Tracks fields "service_lookup" IsText serviceLookup ∧
      Tracks fields "service_enum" IsText serviceEnum := by
    refine ⟨?_, ?_⟩
    all_goals
      intro e a a' h
      rcases entry_eq_ok_iff.mp h with ⟨key, text, is, rfl⟩ | ⟨key, text, is, rfl⟩ <;>
        simp [key, is]
  exact ⟨tracks.1.given keys h, tracks.2.given keys h⟩

theorem Described.unique (keys : es.Pairwise fun a b => a.1 ≠ b.1)
    (order : es.Perm es') (h : Described es c) (h' : Described es' c') : c = c' := by
  have lookup := h.serviceLookup.unique keys order (fun _ _ => IsText.unique) h'.serviceLookup
  have enum := h.serviceEnum.unique keys order (fun _ _ => IsText.unique) h'.serviceEnum
  obtain ⟨_, _⟩ := c
  obtain ⟨_, _⟩ := c'
  cases lookup
  cases enum
  rfl

theorem isSection : IsSection fields {} kinds Described where
  distinct := names_nodup
  names := rfl
  accepts := accepts
  described _ _ := described_of_entries
  unique _ _ _ _ := Described.unique

end PatternConfig

namespace AuditConfig

/-- The settings in order, with their types. -/
def kinds : List (String × Kind) :=
  [("source_dir", .text), ("extension", .text), ("large_function_lines", .count),
    ("skip_dirs", .texts)]

/-- Each setting is what the entries give for it, or its default. -/
structure Described (es : Entries) (c : AuditConfig) : Prop where
  sourceDir : Given es "source_dir" IsPath (.ofText "src") c.sourceDir
  extension : Given es "extension" IsText "gs" c.extension
  largeFunctionLines : Given es "large_function_lines" IsCount 100 c.largeFunctionLines
  skipDirs : Given es "skip_dirs" IsTexts [] c.skipDirs

variable {e : String × Value} {a a' c c' : AuditConfig} {es es' : Entries}

theorem names_nodup : (fields.map (·.name)).Nodup := by decide

/-- What reading an entry does. -/
theorem entry_eq_ok_iff : entry fields a e = .ok a' ↔
    (e.1 = "source_dir" ∧ ∃ path, IsPath e.2 path ∧ { a with sourceDir := path } = a') ∨
      (e.1 = "extension" ∧ ∃ text, IsText e.2 text ∧ { a with extension := text } = a') ∨
      (e.1 = "large_function_lines" ∧ ∃ n, IsCount e.2 n ∧
        { a with largeFunctionLines := n } = a') ∨
      e.1 = "skip_dirs" ∧ ∃ texts, IsTexts e.2 texts ∧ { a with skipDirs := texts } = a' := by
  rw [Decode.entry_eq_ok_iff names_nodup]
  simp [fields, bind_eq_ok_iff, path_eq_ok_iff, string_eq_ok_iff, count_eq_ok_iff,
    strings_eq_ok_iff, pure, Except.pure]

theorem accepts : Accepts fields (Typed kinds) := by
  intro e a
  simp [entry_eq_ok_iff, Typed, kinds, Kind.Holds, IsPath, or_and_right, exists_or]

theorem described_of_entries (keys : es.Pairwise fun a b => a.1 ≠ b.1)
    (h : entries fields {} es = .ok c) :
    Described es c := by
  have tracks : Tracks fields "source_dir" IsPath sourceDir ∧
      Tracks fields "extension" IsText extension ∧
      Tracks fields "large_function_lines" IsCount largeFunctionLines ∧
      Tracks fields "skip_dirs" IsTexts skipDirs := by
    refine ⟨?_, ?_, ?_, ?_⟩
    all_goals
      intro e a a' h
      rcases entry_eq_ok_iff.mp h with
        ⟨key, x, is, rfl⟩ | ⟨key, x, is, rfl⟩ | ⟨key, x, is, rfl⟩ | ⟨key, x, is, rfl⟩ <;>
          simp [key, is]
  obtain ⟨sourceDir, extension, largeFunctionLines, skipDirs⟩ := tracks
  exact ⟨sourceDir.given keys h, extension.given keys h, largeFunctionLines.given keys h,
    skipDirs.given keys h⟩

theorem Described.unique (keys : es.Pairwise fun a b => a.1 ≠ b.1)
    (order : es.Perm es') (h : Described es c) (h' : Described es' c') : c = c' := by
  have sourceDir := h.sourceDir.unique keys order (fun _ _ => IsPath.unique) h'.sourceDir
  have extension := h.extension.unique keys order (fun _ _ => IsText.unique) h'.extension
  have lines := h.largeFunctionLines.unique keys order (fun _ _ => IsCount.unique)
    h'.largeFunctionLines
  have skipDirs := h.skipDirs.unique keys order (fun _ _ => IsTexts.unique) h'.skipDirs
  cases c
  cases c'
  cases sourceDir
  cases extension
  cases lines
  cases skipDirs
  rfl

theorem isSection : IsSection fields {} kinds Described where
  distinct := names_nodup
  names := rfl
  accepts := accepts
  described _ _ := described_of_entries
  unique _ _ _ _ := Described.unique

end AuditConfig

/-! ## Configurations -/

namespace Config

/-- An entry for a part of a configuration, with a value of its type. -/
def FitsEntry (e : String × Value) : Prop :=
  e.1 = "root" ∧ Kind.text.Holds e.2 ∨ e.1 = "files" ∧ Kind.texts.Holds e.2 ∨
    e.1 = "patterns" ∧ FitsSection PatternConfig.kinds e.2 ∨ e.1 = "audit" ∧
    FitsSection AuditConfig.kinds e.2

/-- Each part is what the entries give for it, or its default. -/
structure Described (es : Entries) (c : Config) : Prop where
  root : Given es "root" IsPath (.ofText ".") c.root
  files : Given es "files" IsPaths [] c.files
  patterns : Given es "patterns" (SectionIs PatternConfig.kinds PatternConfig.Described) {}
    c.patterns
  audit : Given es "audit" (SectionIs AuditConfig.kinds AuditConfig.Described) {} c.audit

variable {e : String × Value} {a a' c c' : Config} {es es' : Entries}

theorem names_nodup : (fields.map (·.name)).Nodup := by decide

/-- What reading an entry does. -/
theorem entry_eq_ok_iff : entry fields a e = .ok a' ↔
    (e.1 = "root" ∧ ∃ path, IsPath e.2 path ∧ { a with root := path } = a') ∨
      (e.1 = "files" ∧ ∃ paths, IsPaths e.2 paths ∧ { a with files := paths } = a') ∨
      (e.1 = "patterns" ∧ ∃ p, Decode.record "PatternConfig" PatternConfig.fields {} e.2 = .ok p ∧
        { a with patterns := p } = a') ∨
      e.1 = "audit" ∧ ∃ s, Decode.record "AuditConfig" AuditConfig.fields {} e.2 = .ok s ∧
        { a with audit := s } = a' := by
  rw [Decode.entry_eq_ok_iff names_nodup]
  simp [fields, bind_eq_ok_iff, path_eq_ok_iff, paths_eq_ok_iff, pure, Except.pure]

theorem accepts : Accepts fields FitsEntry := by
  intro e a
  simp [entry_eq_ok_iff, FitsEntry, Kind.Holds, IsPath, IsPaths, exists_or,
    PatternConfig.isSection.exists_record_iff, AuditConfig.isSection.exists_record_iff]

theorem described_of_decode (distinct : es.Distinct) (h : decode es = .ok c) : Described es c := by
  have tracks : Tracks fields "root" IsPath root ∧ Tracks fields "files" IsPaths files ∧
      Tracks fields "patterns" (fun v p => Decode.record "PatternConfig" PatternConfig.fields {} v =
        .ok p) patterns ∧
      Tracks fields "audit" (fun v s => Decode.record "AuditConfig" AuditConfig.fields {} v = .ok s)
        audit := by
    refine ⟨?_, ?_, ?_, ?_⟩
    all_goals
      intro e a a' h
      rcases entry_eq_ok_iff.mp h with
        ⟨key, x, is, rfl⟩ | ⟨key, x, is, rfl⟩ | ⟨key, x, is, rfl⟩ | ⟨key, x, is, rfl⟩ <;>
        simp [key, is]
  obtain ⟨root, files, patterns, audit⟩ := tracks
  -- of the sections this says that they were read, and so that they are described by their own
  -- entries
  refine ⟨root.given distinct.keys h, files.given distinct.keys h,
    (patterns.given distinct.keys h).imp ?_, (audit.given distinct.keys h).imp ?_⟩
  · intro v mem read
    exact PatternConfig.isSection.sectionIs_of_record (distinct.values _ mem) read
  · intro v mem read
    exact AuditConfig.isSection.sectionIs_of_record (distinct.values _ mem) read

theorem Described.unique (distinct : es.Distinct) (order : es.Perm es') (h : Described es c)
    (h' : Described es' c') :
    c = c' := by
  have root := h.root.unique distinct.keys order (fun _ _ => IsPath.unique) h'.root
  have files := h.files.unique distinct.keys order (fun _ _ => IsPaths.unique) h'.files
  have patterns := h.patterns.unique distinct.keys order
    (fun _ mem => PatternConfig.isSection.eq_of_sectionIs (distinct.values _ mem)) h'.patterns
  have audit := h.audit.unique distinct.keys order
    (fun _ mem => AuditConfig.isSection.eq_of_sectionIs (distinct.values _ mem)) h'.audit
  cases c
  cases c'
  cases root
  cases files
  cases patterns
  cases audit
  rfl

theorem exists_decode_iff : (∃ c, decode es = .ok c) ↔ ∀ e ∈ es, FitsEntry e :=
  accepts.exists_entries_eq_ok_iff {}

theorem decode_eq_ok_iff (distinct : es.Distinct) :
    decode es = .ok c ↔ (∀ e ∈ es, FitsEntry e) ∧ Described es c := by
  constructor
  · intro h
    exact ⟨exists_decode_iff.mp ⟨c, h⟩, described_of_decode distinct h⟩
  · intro h
    obtain ⟨c', read⟩ := exists_decode_iff.mpr h.1
    rw [h.2.unique distinct (.refl es) (described_of_decode distinct read), read]

theorem decode_eq_ok_iff_of_reordered (distinct : es.Distinct) (order : es.Reordered es') :
    decode es = .ok c ↔ decode es' = .ok c := by
  refine entries_eq_ok_iff_of_reordered ?_ ?_ distinct order c
  · intro es es' distinct order c
    refine accepts.entries_eq_ok_iff_of_perm order fun c c' h h' => ?_
    have distinct' := distinct.reordered (.perm order)
    exact (described_of_decode distinct h).unique distinct order (described_of_decode distinct' h')
  · intro es es' distinct order name origin origin' a b
    simp [entry_eq_ok_iff, IsPath, IsPaths, IsText, IsTexts, Decode.record,
      PatternConfig.isSection.entries_eq_ok_iff_of_reordered distinct order,
      AuditConfig.isSection.entries_eq_ok_iff_of_reordered distinct order]

/-- A key that is no part of a configuration, or no setting of the section it stands in. -/
inductive HasUnknownKey (es : Entries) : Prop
  | root {key : String} {v : Value} (mem : (key, v) ∈ es)
    (unknown : key ∉ ["root", "files", "patterns", "audit"])
  | patterns {origin : Origin} {settings : Entries} {key : String} {v : Value}
      (here : ("patterns", .table origin settings) ∈ es) (mem : (key, v) ∈ settings)
      (unknown : key ∉ ["service_lookup", "service_enum"])
  | audit {origin : Origin} {settings : Entries} {key : String} {v : Value}
      (here : ("audit", .table origin settings) ∈ es) (mem : (key, v) ∈ settings)
      (unknown : key ∉ ["source_dir", "extension", "large_function_lines", "skip_dirs"])

theorem HasUnknownKey.not_fits (h : HasUnknownKey es) : ¬ ∀ e ∈ es, FitsEntry e := by
  intro fits
  cases h with
  | root mem unknown =>
    have known := fits _ mem
    grind [FitsEntry]
  | @patterns origin settings _ _ here mem unknown =>
    have fitting : FitsSection PatternConfig.kinds (.table origin settings) := by
      simpa [FitsEntry] using fits _ here
    exact unknown (fitting.mem_names mem)
  | @audit origin settings _ _ here mem unknown =>
    have fitting : FitsSection AuditConfig.kinds (.table origin settings) := by
      simpa [FitsEntry] using fits _ here
    exact unknown (fitting.mem_names mem)

theorem exists_error_of_hasUnknownKey (h : HasUnknownKey es) :
    ∃ cause, decode es = .error cause := by
  cases read : decode es with
  | error cause => exact ⟨cause, rfl⟩
  | ok c => exact absurd (exists_decode_iff.mp ⟨c, read⟩) h.not_fits

theorem ofToml_eq_ok_iff {text : String} (parsed : Toml.parse? text = some es) :
    ofToml text = .ok c ↔ decode es = .ok c := by
  simp only [ofToml, parsed]
  cases decode es <;> simp [Except.mapError]

/-- A document is a configuration if every part that it has, and every setting of a section, is one
that there is, with a value of its type. It is the one in which all that is given has the value that
is given, and all else its default. The order of the keys has no part in this, and no key is passed
over. -/
theorem decode_exact :
    (∀ text es, Toml.parse? text = some es → es.Distinct ∧ ∀ c, ofToml text = .ok c ↔
      decode es = .ok c) ∧
      (∀ es, (∃ c, decode es = .ok c) ↔ ∀ e ∈ es, FitsEntry e) ∧
      (∀ es : Entries, es.Distinct → ∀ c, decode es = .ok c ↔ (∀ e ∈ es, FitsEntry e) ∧
        Described es c) ∧
      (∀ es es' : Entries, es.Distinct → es.Reordered es' → ∀ c, decode es = .ok c ↔
        decode es' = .ok c) ∧
      ∀ es, HasUnknownKey es → ∃ cause, decode es = .error cause :=
  ⟨fun _ _ parsed => ⟨distinct_of_parse? parsed, fun _ => ofToml_eq_ok_iff parsed⟩,
    fun _ => exists_decode_iff, fun _ distinct _ => decode_eq_ok_iff distinct,
    fun _ _ distinct order _ => decode_eq_ok_iff_of_reordered distinct order,
    fun _ => exists_error_of_hasUnknownKey⟩

/-- A section by name and one in order, in two documents that differ in the order of their keys, and
a third document with a setting that there is not. -/
theorem decode_exact_of_other_order :
    ∃ es es' wrong : Entries,
      Toml.parse?
        "audit=[\"lib\",\"gs\",9,[],1]\n[patterns]\nservice_lookup=\"get\"\nservice_enum=\"I\""
          = some es ∧
      Toml.parse?
        "patterns=\x7bservice_enum=\"I\",service_lookup=\"get\"\x7d\naudit=[\"lib\",\"gs\",9,[],1]"
          = some es' ∧
      Toml.parse? "audit.depth=1" = some wrong ∧ es.Distinct ∧ es.Reordered es' ∧
      decode es' = .ok { patterns := ⟨"get", "I"⟩, audit := ⟨.ofText "lib", "gs", 9, []⟩ } ∧
      HasUnknownKey wrong ∧ ∃ cause, decode wrong = .error cause := by
  obtain ⟨parsed, -, -, reordered, unknown⟩ := decode_exact
  let audit : String × Value :=
    ("audit", .array false [.string "lib", .string "gs", .integer 9, .array false [], .integer 1])
  let lookup : String × Value := ("service_lookup", .string "get")
  let enum : String × Value := ("service_enum", .string "I")
  let es : Entries := [audit, ("patterns", .table .header [lookup, enum])]
  let es' : Entries := [("patterns", .table .inline [enum, lookup]), audit]
  have order : es.Reordered es' :=
    .trans (.within [audit] [] "patterns" .header .inline (.perm (.swap enum lookup [])))
      (.perm (.swap _ _ []))
  have text : Toml.parse?
      "audit=[\"lib\",\"gs\",9,[],1]\n[patterns]\nservice_lookup=\"get\"\nservice_enum=\"I\"" =
    some es := rfl
  have distinct := (parsed _ es text).1
  have decoded :=
    (reordered es es' distinct order { patterns := ⟨"get", "I"⟩, audit :=
      ⟨.ofText "lib", "gs", 9, []⟩ }).mp rfl
  have wrong : HasUnknownKey [("audit", .table .dotted [("depth", .integer 1)])] :=
    .audit (List.mem_singleton.mpr rfl) (List.mem_singleton.mpr rfl) (by decide)
  exact ⟨es, es', _, text, rfl, rfl, distinct, order, decoded, wrong, unknown _ wrong⟩

end Config

end CodeAtlas
