import CodeAtlas.Command.Run
import CodeAtlas.Proofs.AuditLoading
import CodeAtlas.Proofs.FileWriting
import CodeAtlas.Proofs.RecordDecoding

/-!
# What a command leaves behind

A run has two effects, on the files and on what is printed, and they are the state in which it is
looked at here. Up to its last steps a command only reads: from a tree and its arguments it makes a
`Product`, or it fails, and nothing has been printed by then. The last steps, `deliver`, print the
document of the product, or write it and then print the figures. Only a write changes the tree, and
a write that fails comes before the first line is printed. So a command that fails, at whatever
stage, has printed nothing and changed nothing, and one that succeeds has changed at most the file
that its output path leads to.

The document of a graph does not depend on where it goes. What `-o` writes to a file is therefore
what is printed without it, and the last section but one shows that `-o` with a file, put behind
other arguments, changes the output and nothing else.
-/
namespace CodeAtlas

namespace FileTree

variable {tree : FileTree}

/-- The configuration in the file at a path. -/
def configAt (tree : FileTree) (path : Path) : Except ConfigError Config :=
  match tree.read path with
  | .error cause => .error (.read path (.file cause))
  | .ok bytes => Config.ofBytes path bytes

/-- The configuration that is named, or else the default one if it is there. -/
def configuration (tree : FileTree) : Option Path → Except ConfigError Config
  | some path => tree.configAt path
  | none => if tree.isKind .file Command.defaultConfig then tree.configAt Command.defaultConfig
    else .ok {}

section

variable {m : Type → Type} [Monad m] [LawfulMonad m]

theorem run_configOfFile (tree : FileTree) (path : Path) :
    (Config.ofFile path : StateT FileTree m _).run tree = pure (tree.configAt path, tree) := by
  rw [Config.ofFile, StateT.run_bind, run_read, pure_bind, configAt]
  cases tree.read path <;> rfl

theorem run_loadConfig (tree : FileTree) (named : Option Path) :
    (Command.loadConfig named : StateT FileTree m _).run tree =
      pure (tree.configuration named, tree) := by
  cases named with
  | some path => exact tree.run_configOfFile path
  | none =>
    rw [Command.loadConfig, FileStore.isFile, StateT.run_bind, run_isKind, pure_bind, configuration]
    cases tree.isKind .file Command.defaultConfig with
    | true => exact tree.run_configOfFile Command.defaultConfig
    | false => rfl

end

/-- The files of an audit, if its source directory is one. -/
def auditCorpus (tree : FileTree) (config : Config) : Except ScanError AuditCorpus :=
  if tree.isDirectory config.auditRoot then
    .ok (.ofUnits config.root config.auditRoot
      (tree.readable (tree.scanned config.audit.extension config.auditRoot)))
  else .error ⟨config.auditRoot⟩

/-- Two trees that differ in at most one file: the first may not have it yet. -/
structure DiffersAt (before after : FileTree) (place : Location) : Prop where
  workDir : after.workDir = before.workDir
  isOpen : before.IsOpen place
  file : ∃ bytes, after.entry? place = some (.file bytes)
  elsewhere : ∀ other, other ≠ place → after.entry? other = before.entry? other

theorem differsAt_put {place : Location} {path : Path} (h : tree.target path = .ok place)
    (bytes : ByteArray) :
    tree.DiffersAt (tree.put place (.file bytes)) place where
  workDir := workDir_put tree place _
  isOpen := isOpen_of_target h
  file := ⟨bytes, by rw [entry?_put (isOpen_of_target h).named, if_pos rfl]⟩
  elsewhere other different := by rw [entry?_put (isOpen_of_target h).named, if_neg different]

/-- The difference between two trees is the file that a path leads to, if there is a path. -/
def ChangedAtMost (before after : FileTree) : Option Path → Prop
  | none => after = before
  | some path => ∃ place, before.target path = .ok place ∧ before.DiffersAt after place

end FileTree

namespace Command

/-- Where the document of a command goes; a graph may be printed instead. -/
def Action.output? : Action → Option Path
  | .graph _ output _ => output
  | .inventory output => some output
  | .audit output => some output

/-- What a command has made before it has an effect: a document, and the lines that are printed when
the document goes to a file. -/
structure Product where
  document : String
  figures : List String

/-- What an action makes in a tree. -/
def product [PatternLimit] (tree : FileTree) (config : Config) : Action → Except Failure Product
  | .graph _ _ format =>
    match config.analysisIn tree with
    | .error e => .error (.config e)
    | .ok analysis => .ok ⟨render format analysis.graph, []⟩
  | .inventory output =>
    match tree.auditCorpus config with
    | .error e => .error (.scan e)
    | .ok corpus => .ok ⟨corpus.inventory.json, inventoryFigures corpus.inventory output⟩
  | .audit output =>
    match tree.auditCorpus config with
    | .error e => .error (.scan e)
    | .ok corpus =>
      let report := Audit.report config.audit config.root corpus
      .ok ⟨report.markdown, auditFigures report.summary output⟩

/-- A file tree, and all that has been printed. -/
structure World where
  files : FileTree
  printed : String

/-- Runs an action in a world. -/
def World.run {α : Type} (world : World) (action : StateT FileTree (StateM String) α) : α × World :=
  let ((result, files), printed) := ((action.run world.files).run world.printed).run
  (result, ⟨files, printed⟩)

/-- The text of lines, each with its end. -/
def linesText (lines : List String) : String :=
  lines.foldl (fun text line => text ++ line ++ "\n") ""

/-- The effects of a command: how its product is printed, or written and the figures printed. -/
def deliver (world : World) (output : Option Path) (p : Product) : Except Failure Unit × World :=
  match output with
  | none => (.ok (), { world with printed := world.printed ++ p.document })
  | some path =>
    match world.files.target path with
    | .error e => (.error (.write ⟨path, e⟩), world)
    | .ok place =>
      (.ok (), ⟨world.files.put place (.file p.document.toUTF8),
        world.printed ++ linesText p.figures⟩)

/-- What an invocation makes in a tree. -/
def prepared [PatternLimit] (tree : FileTree) (invocation : Invocation) : Except Failure Product :=
  match tree.configuration invocation.config with
  | .error e => .error (.config e)
  | .ok config =>
    product tree (config.override invocation.root invocation.action.files) invocation.action

/-- How an invocation ends. -/
def completed [PatternLimit] (world : World) (invocation : Invocation) :
    Except Failure Unit × World :=
  match prepared world.files invocation with
  | .error failure => (.error failure, world)
  | .ok p => deliver world invocation.action.output? p

/-- The outcome of a command line in a tree before anything is printed, and the world after it. -/
def runOn [PatternLimit] (tree : FileTree) (args : List String) : Outcome × World :=
  World.run ⟨tree, ""⟩ (run args)

namespace World

variable {α β : Type}

theorem run_pure (world : World) (a : α) : world.run (pure a) = (a, world) := rfl

theorem run_bind (world : World) (action : StateT FileTree (StateM String) α)
    (next : α → StateT FileTree (StateM String) β) :
    world.run (action >>= next) = (world.run action).2.run (next (world.run action).1) := rfl

/-- An action that only looks at the files changes nothing in a world. -/
theorem run_of_run_eq_pure {action : StateT FileTree (StateM String) α} {world : World} {a : α}
    (h : action.run world.files = pure (a, world.files)) : world.run action = (a, world) := by
  unfold run
  rw [h]
  rfl

theorem run_printLines (world : World) (lines : List String) :
    world.run (lines.forM Console.printLine) =
      ((), { world with
        printed := lines.foldl (fun text line => text ++ line ++ "\n") world.printed }) := by
  induction lines generalizing world with
  | nil => rfl
  | cons line lines ih =>
    rw [List.forM, run_bind]
    exact ih _

end World

theorem foldl_linesText (lines : List String) (printed : String) :
    lines.foldl (fun text line => text ++ line ++ "\n") printed = printed ++ linesText lines := by
  induction lines generalizing printed with
  | nil => rw [linesText, List.foldl_nil, List.foldl_nil, String.append_empty]
  | cons line lines ih =>
    rw [linesText, List.foldl_cons, List.foldl_cons, ih, ih, String.empty_append]
    simp only [String.append_assoc]

theorem run_writeThen (world : World) (path : Path) (p : Product) :
    world.run (writeThen path p.document p.figures) = deliver world (some path) p := by
  have written : world.run (FileStore.write path p.document) =
      ((world.files.write path p.document).1,
        { world with files := (world.files.write path p.document).2 }) := rfl
  rw [writeThen, writeDocument, World.run_bind, World.run_bind, written, deliver, FileTree.write]
  cases world.files.target path with
  | error e => rfl
  | ok place =>
    dsimp only
    rw [World.run_pure, World.run_bind, World.run_printLines, foldl_linesText]
    rfl

/-- An action makes its product without an effect, and then delivers it. -/
theorem run_perform [PatternLimit] (world : World) (config : Config) (action : Action) :
    world.run (perform config action) =
      match product world.files config action with
      | .error failure => (.error failure, world)
      | .ok p => deliver world action.output? p := by
  have loads : world.run (AuditCorpus.load config.audit config.root config.auditRoot) =
      (world.files.auditCorpus config, world) :=
    World.run_of_run_eq_pure (world.files.run_auditLoad config.audit config.root config.auditRoot)
  cases action with
  | graph files output format =>
    rw [perform, World.run_bind, World.run_of_run_eq_pure (Config.run_analyze world.files config)]
    unfold product
    dsimp only
    cases config.analysisIn world.files with
    | error e => rfl
    | ok analysis =>
      cases output with
      | none => rfl
      | some path => exact run_writeThen world path ⟨render format analysis.graph, []⟩
  | inventory output =>
    rw [perform, World.run_bind, loads]
    unfold product
    dsimp only
    cases world.files.auditCorpus config with
    | error e => rfl
    | ok corpus => exact run_writeThen world output ⟨_, _⟩
  | audit output =>
    rw [perform, World.run_bind, loads]
    unfold product
    dsimp only
    cases world.files.auditCorpus config with
    | error e => rfl
    | ok corpus => exact run_writeThen world output ⟨_, _⟩

theorem run_invoke [PatternLimit] (world : World) (invocation : Invocation) :
    world.run (invoke invocation) = completed world invocation := by
  rw [invoke, World.run_bind,
    World.run_of_run_eq_pure (world.files.run_loadConfig invocation.config), completed, prepared]
  dsimp only
  cases world.files.configuration invocation.config with
  | error e => rfl
  | ok config => exact run_perform world _ invocation.action

/-- A run that stops at its arguments changes no file, and prints something only if that was asked
for. -/
theorem runOn_of_stop [PatternLimit] (tree : FileTree) {args : List String} {stop : Stop}
    (h : readArguments args = .error stop) :
    (runOn tree args).2.files = tree ∧
        ((runOn tree args).1.exit ≠ 0 → (runOn tree args).2.printed = "") ∧
      (stop = .usage → (runOn tree args).1.exit ≠ 0) := by
  unfold runOn run
  rw [h]
  cases stop with
  | usage => exact ⟨rfl, fun _ => rfl, fun _ => Nat.succ_ne_zero 1⟩
  | version => exact ⟨rfl, fun failed => absurd rfl failed, fun h => by cases h⟩
  | help => exact ⟨rfl, fun failed => absurd rfl failed, fun h => by cases h⟩

theorem runOn_of_ok [PatternLimit] (tree : FileTree) {args : List String} {invocation : Invocation}
    (h : readArguments args = .ok invocation) :
    runOn tree args =
      match completed ⟨tree, ""⟩ invocation with
      | (.ok (), after) => ({ exit := 0 }, after)
      | (.error failure, after) => ({ exit := 1, stderr := failure.report }, after) := by
  unfold runOn run
  rw [h]
  dsimp only
  rw [World.run_bind, run_invoke]
  obtain ⟨result, after⟩ := completed ⟨tree, ""⟩ invocation
  cases result <;> rfl

theorem prepared_graph [PatternLimit] (tree : FileTree) (config root : Option Path)
    (files : List Path) (output : Option Path) (format : Format) :
    prepared tree ⟨config, root, .graph files output format⟩ =
      prepared tree ⟨config, root, .graph files none format⟩ :=
  rfl

/-- The ways in which a run that has its arguments can end, with what it leaves. -/
theorem runOn_cases [PatternLimit] (tree : FileTree) {args : List String} {invocation : Invocation}
    (h : readArguments args = .ok invocation) :
    (∃ failure : Failure, runOn tree args = ({ exit := 1, stderr := failure.report }, ⟨tree, ""⟩)) ∨
    ∃ p, prepared tree invocation = .ok p ∧
      ((invocation.action.output? = none ∧ runOn tree args = ({ exit := 0 }, ⟨tree, p.document⟩)) ∨
      ∃ path place, invocation.action.output? = some path ∧ tree.target path = .ok place ∧
        runOn tree args =
          ({ exit := 0 }, ⟨tree.put place (.file p.document.toUTF8), linesText p.figures⟩)) := by
  rw [runOn_of_ok tree h, completed]
  dsimp only
  cases prepared tree invocation with
  | error failure => exact .inl ⟨failure, rfl⟩
  | ok p =>
    unfold deliver
    cases invocation.action.output? with
    | none => exact .inr ⟨p, rfl, .inl ⟨rfl, by simp only [String.empty_append]⟩⟩
    | some path =>
      dsimp only
      cases target : tree.target path with
      | error e => exact .inl ⟨_, rfl⟩
      | ok place =>
        exact .inr ⟨p, rfl, .inr ⟨path, place, rfl, target, by simp only [String.empty_append]⟩⟩

/-! ## Arguments behind others -/

/-- Behind arguments that are complete reading goes on, unless they ended the options. -/
theorem readBehind_append {name : Name} {waiting : Waiting} {args : List String} {given : Given}
    (h : readBehind name waiting args = .ok given) (more : List String) :
    readBehind name waiting (args ++ more) = readBehind name (given, none) more ∨
      readBehind name waiting (args ++ more) = .error .usage := by
  induction args generalizing waiting with
  | nil =>
    obtain ⟨values, pending⟩ := waiting
    cases pending with
    | none =>
      cases h
      exact .inl rfl
    | some opt => cases h
  | cons arg args ih =>
    obtain ⟨values, pending⟩ := waiting
    rw [List.cons_append]
    cases pending with
    | some opt =>
      rw [readBehind] at h ⊢
      split at h
      · cases h
      next isValue =>
        obtain ⟨read, taken, h⟩ := bind_eq_ok_iff.mp h
        rw [if_neg isValue, taken]
        exact ih h
    | none =>
      rw [readBehind] at h ⊢
      split at h
      next isEnd =>
        split at h
        next isLast =>
          cases h
          rw [if_pos isEnd, List.isEmpty_iff.1 isLast]
          cases more with
          | nil => exact .inl rfl
          | cons _ _ => exact .inr rfl
        · cases h
      next notEnd =>
        split at h
        next isOpt =>
          obtain ⟨read, taken, h⟩ := bind_eq_ok_iff.mp h
          rw [if_neg notEnd, if_pos isOpt, taken]
          exact ih h
        · cases h

theorem readAll_append {waiting : Waiting} {args : List String}
    {before behind : Given} {name : Name} (h : readAll waiting args = .ok (before, name, behind))
    (more : List String) :
    readAll waiting (args ++ more) =
      (do return (before, name, ← readBehind name (behind, none) more)) ∨
      readAll waiting (args ++ more) = .error .usage := by
  induction args generalizing waiting with
  | nil => cases h
  | cons arg args ih =>
    obtain ⟨values, pending⟩ := waiting
    rw [List.cons_append]
    cases pending with
    | some opt =>
      rw [readAll] at h ⊢
      split at h
      · cases h
      next isValue =>
        obtain ⟨read, taken, h⟩ := bind_eq_ok_iff.mp h
        rw [if_neg isValue, taken]
        exact ih h
    | none =>
      rw [readAll] at h ⊢
      split at h
      · cases h
      next notEnd =>
        rw [if_neg notEnd]
        split at h
        next isOpt =>
          obtain ⟨read, taken, h⟩ := bind_eq_ok_iff.mp h
          rw [if_pos isOpt, taken]
          exact ih h
        next notOpt =>
          rw [if_neg notOpt]
          cases named : Name.ofText? arg with
          | none =>
            rw [named] at h
            cases h
          | some command =>
            rw [named] at h
            obtain ⟨read, taken, h⟩ := bind_eq_ok_iff.mp h
            cases h
            dsimp only
            rcases readBehind_append taken more with goesOn | stops
            · exact .inl (by rw [goesOn])
            · exact .inr (by rw [stops]; rfl)

/-- An output path at the end sets the output and nothing else. -/
theorem readBehind_output (name : Name) (given : Given) (file : String) :
    readBehind name (given, none) ["-o", file] = .ok { given with output := some (.ofText file) } ∨
      readBehind name (given, none) ["-o", file] = .error .usage := by
  have waits : readOption (some name) given "-o" = .ok (given, some .output) := by
    cases name <;> rfl
  have isOpt : isOption "-o" = true := rfl
  rw [readBehind, if_neg (by decide), if_pos isOpt, waits]
  change readBehind name (given, some .output) [file] = _ ∨
    readBehind name (given, some .output) [file] = _
  rw [readBehind]
  split
  · exact .inr rfl
  · rw [Given.set, onePath]
    split
    · exact .inr rfl
    · exact .inl rfl

/-- With an output path behind it, a command line that prints a graph asks for the same graph in
that file. -/
theorem readArguments_output {args : List String} {config root : Option Path}
    {files : List Path} {format : Format}
    (h : readArguments args = .ok ⟨config, root, .graph files none format⟩) (file : String) :
    readArguments (args ++ ["-o", file]) =
      .ok ⟨config, root, .graph files (some (.ofText file)) format⟩ ∨
      readArguments (args ++ ["-o", file]) = .error .usage := by
  obtain ⟨⟨before, name, behind⟩, read, result⟩ := bind_eq_ok_iff.mp h
  rw [readArguments]
  rcases readAll_append read ["-o", file] with goesOn | stops
  · rw [goesOn]
    rcases readBehind_output name behind file with placed | refused
    · rw [placed]
      cases name with
      | graph =>
        cases behind
        cases result
        exact .inl rfl
      | inventory => cases result
      | audit => cases result
    · rw [refused]
      exact .inr rfl
  · rw [stops]
    exact .inr rfl

/-! ## The effects of a run -/

theorem no_effect_of_failure [PatternLimit] {tree : FileTree} {args : List String}
    (failed : (runOn tree args).1.exit ≠ 0) :
    (runOn tree args).2.printed = "" ∧ (runOn tree args).2.files = tree := by
  cases read : readArguments args with
  | error stop =>
    have stopped := runOn_of_stop tree read
    exact ⟨stopped.2.1 failed, stopped.1⟩
  | ok invocation =>
    rcases runOn_cases tree read with ⟨failure, ends⟩ | ⟨p, _,
      ⟨_, ends⟩ | ⟨path, place, _, _, ends⟩⟩
    · rw [ends]
      exact ⟨rfl, rfl⟩
    · rw [ends] at failed
      exact absurd rfl failed
    · rw [ends] at failed
      exact absurd rfl failed

theorem changedAtMost_of_success [PatternLimit] {tree : FileTree} {args : List String}
    {invocation : Invocation} (read : readArguments args = .ok invocation)
    (done : (runOn tree args).1.exit = 0) :
    tree.ChangedAtMost (runOn tree args).2.files invocation.action.output? := by
  rcases runOn_cases tree read with ⟨failure, ends⟩ | ⟨p, _,
    ⟨output, ends⟩ | ⟨path, place, output, target, ends⟩⟩
  · rw [ends] at done
    cases done
  · rw [ends, output]
    rfl
  · rw [ends, output]
    exact ⟨place, target, FileTree.differsAt_put target _⟩

/-- Two command lines that ask for one graph, once to be printed and once for a file. -/
theorem read_written_graph [PatternLimit] {tree : FileTree} {args other : List String}
    {config root : Option Path} {files : List Path} {format : Format} {path : Path}
    (printed : readArguments args = .ok ⟨config, root, .graph files none format⟩)
    (written : readArguments other = .ok ⟨config, root, .graph files (some path) format⟩)
    (done : (runOn tree args).1.exit = 0) (done' : (runOn tree other).1.exit = 0) :
    (runOn tree other).2.files.read path = .ok (runOn tree args).2.printed.toUTF8 := by
  rcases runOn_cases tree printed with ⟨failure, ends⟩ | ⟨p, made, ⟨_, ends⟩ | ⟨_, _, output, _, _⟩⟩
  · rw [ends] at done
    cases done
  · rcases runOn_cases tree written with
      ⟨failure, ends'⟩ | ⟨p', made', ⟨output, _⟩ | ⟨path', place, output, target, ends'⟩⟩
    · rw [ends'] at done'
      cases done'
    · cases output
    · cases output
      have same : p' = p := by
        rw [prepared_graph, made] at made'
        cases made'
        rfl
      rw [ends, ends', same]
      exact FileTree.read_put_target target _
  · cases output

/-- A run that fails prints nothing and leaves the tree as it was. A command that succeeds changes
at most the file that its output path leads to. And of two runs that succeed with one graph, printed
and written, the file holds what was printed; in particular for the same arguments with `-o` and a
file behind them. -/
theorem runOn_effects [PatternLimit] (tree : FileTree) (args : List String) :
    ((runOn tree args).1.exit ≠ 0 → (runOn tree args).2.printed = "" ∧
      (runOn tree args).2.files = tree) ∧
    (∀ invocation, readArguments args = .ok invocation → (runOn tree args).1.exit = 0 →
      tree.ChangedAtMost (runOn tree args).2.files invocation.action.output?) ∧
    ∀ config root files format, readArguments args = .ok ⟨config, root, .graph files none format⟩ →
      (runOn tree args).1.exit = 0 →
      (∀ other path, readArguments other = .ok ⟨config, root, .graph files (some path) format⟩ →
        (runOn tree other).1.exit = 0 → (runOn tree other).2.files.read path =
          .ok (runOn tree args).2.printed.toUTF8) ∧
      ∀ file, (runOn tree (args ++ ["-o", file])).1.exit = 0 →
        (runOn tree (args ++ ["-o", file])).2.files.read (.ofText file) =
          .ok (runOn tree args).2.printed.toUTF8 := by
  refine ⟨no_effect_of_failure, fun _ => changedAtMost_of_success, ?_⟩
  intro config root files format printed done
  refine ⟨fun other path written => read_written_graph printed written done, ?_⟩
  intro file done'
  rcases readArguments_output printed file with written | refused
  · exact read_written_graph printed written done done'
  · exact absurd done' ((runOn_of_stop tree refused).2.2 rfl)

/-- One source file, whose graph is printed and then written, and an audit that has no source
directory. -/
theorem runOn_effects_of_one_file :
    let _ : PatternLimit := .ofLiterals
    let tree := (FileTree.empty ["work"]).create (.ofText "a.gs") (.file "class A {}".toUTF8)
    let args := ["graph", "--file", "a.gs"]
    let written := args ++ ["-o", "out.dot"]
    ((runOn tree ["audit"]).1.exit = 1 ∧ (runOn tree ["audit"]).2.printed = "" ∧
      (runOn tree ["audit"]).2.files = tree) ∧
    ((runOn tree written).1.exit = 0 ∧ tree.ChangedAtMost (runOn tree written).2.files
      (some (.ofText "out.dot"))) ∧
    (runOn tree args).1.exit = 0 ∧
      (runOn tree written).2.files.read (.ofText "out.dot") =
        .ok (runOn tree args).2.printed.toUTF8 := by
  intro limit tree args written
  have failed : (runOn tree ["audit"]).1.exit = 1 := by decide +kernel
  have printed : readArguments args = .ok ⟨none, none, .graph [.ofText "a.gs"] none .dot⟩ := rfl
  have asked : readArguments written =
    .ok ⟨none, none, .graph [.ofText "a.gs"] (some (.ofText "out.dot")) .dot⟩ := rfl
  have done : (runOn tree args).1.exit = 0 := by decide +kernel
  have done' : (runOn tree written).1.exit = 0 := by decide +kernel
  refine ⟨⟨failed, (runOn_effects tree ["audit"]).1 (by rw [failed]; decide)⟩,
    ⟨done', (runOn_effects tree written).2.1 _ asked done'⟩, done, ?_⟩
  exact ((runOn_effects tree args).2.2 _ _ _ _ printed done).2 "out.dot" done'

end Command

end CodeAtlas
