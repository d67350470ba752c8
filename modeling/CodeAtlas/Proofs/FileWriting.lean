import CodeAtlas.FileStore
import CodeAtlas.Proofs.NameMapLookup
import CodeAtlas.Proofs.PathComponents

/-!
# Writing a file

A text written to a path goes to the one place that the path leads to, if there is one: a file, or a
name that is free. Every other place keeps its entry, and reading the path gives the text back.
Otherwise the tree is as it was.

That reading finds the text is a property of walks. A walk to a file passes only directories and
links, so it takes the same way when another file, or a first one, is put at its end.
-/
namespace CodeAtlas

theorem Path.not_mem_of_mem_pieces {body piece : Bytes} (h : piece ∈ pieces body) :
    slash ∉ piece := by
  induction body generalizing piece with
  | nil =>
    cases List.mem_singleton.mp h
    exact List.not_mem_nil
  | cons c body ih =>
    by_cases isSlash : c = slash
    · rw [isSlash, pieces_slash] at h
      rcases List.mem_cons.mp h with rfl | later
      · exact List.not_mem_nil
      · exact ih later
    · obtain ⟨first, others, hbody, hcons⟩ := pieces_cons isSlash body
      rw [hcons] at h
      rw [hbody] at ih
      rcases List.mem_cons.mp h with rfl | later
      · have inFirst : slash ∉ first := ih List.mem_cons_self
        simp [inFirst, Ne.symm isSlash]
      · exact ih (List.mem_cons_of_mem _ later)

namespace FileTree

variable {tree : FileTree} {place : Location}

/-! ## One entry is put -/

theorem lookup_putEntry (place other : Location) (entry : FileEntry)
    (l : List (Location × FileEntry)) :
    (putEntry place entry l).lookup other = if other = place then some entry
      else l.lookup other := by
  induction l with
  | nil => exact lookup_entry_cons other place entry []
  | cons head rest ih =>
    obtain ⟨key, old⟩ := head
    simp only [putEntry]
    split
    next same =>
      rw [same, lookup_entry_cons, lookup_entry_cons]
      by_cases h : other = place <;> simp [h]
    next different =>
      rw [lookup_entry_cons, lookup_entry_cons, ih]
      by_cases h : other = key
      · simp [h, different]
      · simp [h]

theorem entry?_put (named : place.all FileEntry.isName = true)
    (entry : FileEntry) (other : Location) :
    FileTree.entry? (tree.put place entry) other = if other = place then some entry
      else tree.entry? other := by
  rw [put, dif_pos named]
  exact lookup_putEntry place other entry tree.entries

@[simp] theorem workDir_put (tree : FileTree) (place : Location) (entry : FileEntry) :
    (tree.put place entry).workDir = tree.workDir := by
  unfold put
  split <;> rfl

/-! ## Routes -/

/-- A name that is looked up in a directory. -/
structure IsStep (name : Bytes) : Prop where
  filled : name ≠ []
  not_here : name ≠ [Path.dot]
  not_up : name ≠ [Path.dot, Path.dot]
  short : name.length ≤ nameLimit

/-- The way from a directory by names, with at most `links` links on it, and where it ends. -/
inductive Route (tree : FileTree) : Nat → Location → List Bytes → Landing → Prop
  | arrive {links : Nat} {dir : Location} : Route tree links dir [] (.directory dir)
  | stay {links : Nat} {dir : Location} {name : Bytes} {rest : List Bytes} {landing : Landing} :
      name = [] ∨ name = [Path.dot] → Route tree links dir rest landing →
      Route tree links dir (name :: rest) landing
  | up {links : Nat} {dir : Location} {rest : List Bytes} {landing : Landing} :
      Route tree links dir.dropLast rest landing →
      Route tree links dir ([Path.dot, Path.dot] :: rest) landing
  | vacant {links : Nat} {dir : Location} {name : Bytes} : IsStep name →
      tree.entry? (dir ++ [name]) = none → Route tree links dir [name] (.vacant (dir ++ [name]))
  | file {links : Nat} {dir : Location} {name : Bytes} {bytes : ByteArray} : IsStep name →
      tree.entry? (dir ++ [name]) = some (.file bytes) →
      Route tree links dir [name] (.file (dir ++ [name]) bytes)
  | enter {links : Nat} {dir : Location} {name : Bytes} {rest : List Bytes}
    {landing : Landing} : IsStep name →
      tree.entry? (dir ++ [name]) = some .directory →
      Route tree links (dir ++ [name]) rest landing →
      Route tree links dir (name :: rest) landing
  | link {links : Nat} {dir : Location} {name target : Bytes} {rest : List Bytes}
    {landing : Landing} :
      IsStep name → tree.entry? (dir ++ [name]) = some (.link target) →
      Route tree links (start target dir) (steps target ++ rest) landing →
      Route tree (links + 1) dir (name :: rest) landing

/-- How a walk goes on from the target of a link. -/
def follower (tree : FileTree) (toFile : Bool) : Nat → Location → List Bytes →
    Except FileError Landing
  | 0 => fun _ _ => .error .linkLoop
  | links + 1 => tree.walk toFile links

theorem walk_eq (tree : FileTree) (toFile : Bool) (links : Nat) :
    tree.walk toFile links = tree.walkWith toFile (tree.follower toFile links) := by
  cases links <;> rfl

theorem route_of_walkWith {toFile : Bool} {links : Nat}
    {follow : Location → List Bytes → Except FileError Landing} {landing : Landing}
    (onward : ∀ dir names, follow dir names = .ok landing →
      ∃ fewer, links = fewer + 1 ∧ Route tree fewer dir names landing)
    {dir : Location} {names : List Bytes}
    (h : tree.walkWith toFile follow dir names = .ok landing) :
    Route tree links dir names landing := by
  induction names generalizing dir with
  | nil =>
    cases h
    exact .arrive
  | cons name rest ih =>
    rw [walkWith] at h
    split at h
    next stays => exact .stay stays (ih h)
    next moves =>
      split at h
      next up =>
        rw [up]
        exact .up (ih h)
      next down =>
        split at h
        · cases h
        · split at h
          · cases h
          next fits =>
            have step : IsStep name :=
              ⟨fun e => moves (.inl e), fun e => moves (.inr e), down, Nat.not_lt.mp fits⟩
            dsimp only at h
            split at h
            next free =>
              split at h
              next last =>
                cases h
                rw [List.isEmpty_iff.mp last]
                exact .vacant step free
              · cases h
            next found => exact .enter step found (ih h)
            next bytes found =>
              split at h
              next last =>
                cases h
                rw [List.isEmpty_iff.mp last]
                exact .file step found
              · cases h
            next target found =>
              obtain ⟨fewer, rfl, route⟩ := onward _ _ h
              exact .link step found route

theorem route_of_walk {toFile : Bool} {links : Nat} {dir : Location}
    {names : List Bytes} {landing : Landing} (h : tree.walk toFile links dir names = .ok landing) :
    Route tree links dir names landing := by
  induction links generalizing dir names with
  | zero =>
    refine route_of_walkWith ?_ h
    intro dir names stuck
    cases stuck
  | succ links ih =>
    refine route_of_walkWith ?_ h
    intro dir names walked
    exact ⟨links, rfl, ih walked⟩

theorem IsStep.walk_eq {name : Bytes} (h : IsStep name) (tree : FileTree)
    (links : Nat) (dir : Location) (rest : List Bytes) : tree.walk false links dir (name :: rest) =
      match tree.entry? (dir ++ [name]) with
      | none => if rest.isEmpty then .ok (.vacant (dir ++ [name])) else .error .notFound
      | some .directory => tree.walk false links (dir ++ [name]) rest
      | some (.file bytes) => if rest.isEmpty then .ok (.file (dir ++ [name]) bytes)
        else .error .notDirectory
      | some (.link target) =>
        tree.follower false links (start target dir) (steps target ++ rest) := by
  have moves : ¬ (name = [] ∨ name = [Path.dot]) := not_or.mpr ⟨h.filled, h.not_here⟩
  rewrite [FileTree.walk_eq, walkWith, if_neg moves, if_neg h.not_up, Bool.false_and,
    if_neg Bool.false_ne_true, if_neg (Nat.not_lt.mpr h.short)]
  rfl

/-- A route is what a walk takes that may end anywhere. -/
theorem Route.walk_eq {links : Nat} {dir : Location} {names : List Bytes} {landing : Landing}
    (h : Route tree links dir names landing) : tree.walk false links dir names = .ok landing := by
  induction h with
  | arrive => rw [FileTree.walk_eq, walkWith]
  | stay stays _ ih => rw [FileTree.walk_eq, walkWith, if_pos stays, ← FileTree.walk_eq, ih]
  | up _ ih =>
    rw [FileTree.walk_eq, walkWith, if_neg (by decide), if_pos rfl, ← FileTree.walk_eq, ih]
  | vacant step free => simp [step.walk_eq, free]
  | file step found => simp [step.walk_eq, found]
  | enter step found _ ih => simp only [step.walk_eq, found, ih]
  | link step found _ ih => simp only [step.walk_eq, found, follower, ih]

/-! ## Files at the end of a route -/

/-- The place of a file, or of one that can be made. -/
def Landing.filePlace? : Landing → Option Location
  | .directory _ => none
  | .file place _ => some place
  | .vacant place => some place

/-- A file can be put at this place: names lead to it, and there is no directory or link. -/
structure IsOpen (tree : FileTree) (place : Location) : Prop where
  named : place.all FileEntry.isName = true
  entry : ∀ e, tree.entry? place = some e → ∃ bytes, e = .file bytes

theorem not_mem_of_mem_steps {path : Bytes} {name : Bytes} (h : name ∈ steps path) :
    Path.slash ∉ name := by
  have pieces : ∀ name ∈ (Path.pieces path).filter fun piece => !piece.isEmpty, Path.slash ∉ name :=
    fun name hname => Path.not_mem_of_mem_pieces (List.mem_filter.mp hname).1
  unfold steps at h
  split at h
  · rcases List.mem_append.mp h with first | last
    · exact pieces name first
    · cases List.mem_singleton.mp last
      exact List.not_mem_nil
  · exact pieces name h

theorem named_start (path : Bytes) {dir : Location} (named : dir.all FileEntry.isName = true) :
    (start path dir).all FileEntry.isName = true := by
  unfold start
  split
  · rfl
  · exact named

theorem IsStep.named {name : Bytes} (h : IsStep name) (unslashed : Path.slash ∉ name)
    {dir : Location} (named : dir.all FileEntry.isName = true) :
    (dir ++ [name]).all FileEntry.isName = true := by
  have isName : FileEntry.isName name = true := by
    simp [FileEntry.isName, h.filled, h.not_here, h.not_up, unslashed]
  rw [List.all_append, named, List.all_cons, isName]
  rfl

theorem named_dropLast {dir : Location} (named : dir.all FileEntry.isName = true) :
    dir.dropLast.all FileEntry.isName = true := by
  rw [List.all_eq_true] at named ⊢
  intro name hname
  exact named name ((List.dropLast_sublist dir).subset hname)

/-- A route by names that have no slash ends, if not in a directory, at a place where a file can be
put. -/
theorem Route.isOpen {links : Nat} {dir : Location} {names : List Bytes} {landing : Landing}
    (h : Route tree links dir names landing) (named : dir.all FileEntry.isName = true)
    (unslashed : ∀ name ∈ names, Path.slash ∉ name) (lands : landing.filePlace? = some place) :
    tree.IsOpen place := by
  induction h with
  | arrive => cases lands
  | stay _ _ ih =>
    exact ih named (fun name hname => unslashed name (List.mem_cons_of_mem _ hname)) lands
  | up _ ih =>
    exact ih (named_dropLast named)
      (fun name hname => unslashed name (List.mem_cons_of_mem _ hname)) lands
  | vacant step free =>
    cases lands
    refine ⟨step.named (unslashed _ List.mem_cons_self) named, fun e he => ?_⟩
    rw [free] at he
    cases he
  | file step found =>
    cases lands
    refine ⟨step.named (unslashed _ List.mem_cons_self) named, fun e he => ?_⟩
    rw [found] at he
    cases he
    exact ⟨_, rfl⟩
  | enter step _ _ ih =>
    exact ih (step.named (unslashed _ List.mem_cons_self) named)
      (fun name hname => unslashed name (List.mem_cons_of_mem _ hname)) lands
  | link step _ _ ih =>
    refine ih (named_start _ named) (fun name hname => ?_) lands
    rcases List.mem_append.mp hname with inTarget | later
    · exact not_mem_of_mem_steps inTarget
    · exact unslashed name (List.mem_cons_of_mem _ later)

/-- With a file put at its end, a route ends at that file: on the way there are only directories and
links, and none of them is where the file is put. -/
theorem Route.put {links : Nat} {dir : Location} {names : List Bytes} {landing : Landing}
    (h : Route tree links dir names landing) (lands : landing.filePlace? = some place)
    (opened : tree.IsOpen place) (bytes : ByteArray) :
    Route (tree.put place (.file bytes)) links dir names (.file place bytes) := by
  have kept : ∀ {other e}, tree.entry? other = some e → (∀ bytes, e ≠ .file bytes) →
      FileTree.entry? (tree.put place (.file bytes)) other = some e := by
    intro other e found notFile
    rw [entry?_put opened.named, if_neg, found]
    intro same
    rw [same] at found
    obtain ⟨bytes, isFile⟩ := opened.entry e found
    exact notFile bytes isFile
  have here : FileTree.entry? (tree.put place (.file bytes)) place = some (.file bytes) := by
    rw [entry?_put opened.named, if_pos rfl]
  induction h with
  | arrive => cases lands
  | stay stays _ ih => exact .stay stays (ih lands)
  | up _ ih => exact .up (ih lands)
  | vacant step _ =>
    cases lands
    exact .file step here
  | file step _ =>
    cases lands
    exact .file step here
  | enter step found _ ih => exact .enter step (kept found fun _ h => by cases h) (ih lands)
  | link step found _ ih => exact .link step (kept found fun _ h => by cases h) (ih lands)

/-! ## Writing -/

theorem follow_eq_ok {path : Path} {toFile : Bool} {landing : Landing}
    (h : tree.follow path toFile = .ok landing) : refusal? path = none ∧
      tree.walk toFile linkLimit (start path.bytes tree.workDir) (steps path.bytes) =
        .ok landing := by
  unfold follow at h
  split at h
  · cases h
  next admitted => exact ⟨admitted, h⟩

theorem target_eq_ok {path : Path} (h : tree.target path = .ok place) :
    ∃ landing, tree.follow path true = .ok landing ∧ landing.filePlace? = some place := by
  unfold target at h
  cases followed : tree.follow path true with
  | error e =>
    rw [followed] at h
    cases h
  | ok landing =>
    rw [followed] at h
    refine ⟨landing, rfl, ?_⟩
    cases landing with
    | directory => cases h
    | file place bytes => exact congrArg some (Except.ok.inj h)
    | vacant place => exact congrArg some (Except.ok.inj h)

theorem isOpen_of_target {path : Path} (h : tree.target path = .ok place) : tree.IsOpen place := by
  obtain ⟨landing, followed, lands⟩ := target_eq_ok h
  have route := route_of_walk (follow_eq_ok followed).2
  exact route.isOpen (named_start _ tree.workDir_named) (fun _ => not_mem_of_mem_steps) lands

/-- What is put where a path leads is read by that path. -/
theorem read_put_target {path : Path} (h : tree.target path = .ok place) (bytes : ByteArray) :
    (tree.put place (.file bytes)).read path = .ok bytes := by
  obtain ⟨landing, followed, lands⟩ := target_eq_ok h
  obtain ⟨admitted, walked⟩ := follow_eq_ok followed
  have route := (route_of_walk walked).put lands (isOpen_of_target h) bytes
  have follows : (tree.put place (.file bytes)).follow path = .ok (.file place bytes) := by
    unfold follow
    rw [admitted, workDir_put]
    exact route.walk_eq
  rw [read, follows]
  rfl

end FileTree

end CodeAtlas
