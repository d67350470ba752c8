import CodeAtlas.Command.Run

/-!
# The command-line program

The files of the machine as a file store, and the program over them. Everything else is decided by
`Command.run`. The machine is asked for files by text, so only those that have a text as their path
are within reach here.
-/
namespace CodeAtlas.Machine

def errorCode : IO.Error → UInt32
  | .alreadyExists _ code _ | .otherError code _ | .resourceBusy code _ | .resourceVanished code _
  | .unsupportedOperation code _ | .hardwareFault code _ | .unsatisfiedConstraints code _
  | .illegalOperation code _ | .protocolError code _ | .timeExpired code _ | .interrupted _ code _
  | .noFileOrDirectory _ code _ | .invalidArgument _ code _ | .permissionDenied _ code _
  | .resourceExhausted _ code _ | .inappropriateType _ code _ | .noSuchThing _ code _ => code
  | .unexpectedEof | .userError _ => 0

/-- The number that the operating system gives an error; some calls report it negated. -/
def errorNumber (e : IO.Error) : Nat :=
  min (errorCode e).toNat (0 - errorCode e).toNat

def fileError (e : IO.Error) : FileError :=
  match errorNumber e with
  | 2 => .notFound
  | 20 => .notDirectory
  | 21 => .isDirectory
  | 36 => .nameTooLong
  | 40 => .linkLoop
  | _ => .other (toString e)

def attempt {α : Type} (action : IO α) : IO (Except FileError α) := do
  try return .ok (← action)
  catch e => return .error (fileError e)

def fileKind : IO.FS.FileType → FileKind
  | .dir => .directory
  | .file => .file
  | .symlink => .link
  | _ => .other

partial def collect (dir : String) (names : List Bytes) : IO (List (List Bytes × FileKind)) := do
  let place := IO.FS.DirEntry.mk dir ""
  let mut found := []
  for entry in ← place.root.readDir do
    let names := names ++ [Text.encode entry.fileName]
    match ← attempt entry.path.symlinkMetadata with
    | .error _ => pure ()
    | .ok info =>
      let kind := fileKind info.type
      found := found ++ [(names, kind)]
      if kind = .directory then
        found := found ++ (← try collect entry.path.toString names catch _ => pure [])
  return found

/-- The program keeps to a limit by literal texts. -/
instance : PatternLimit := .ofLiterals

instance : FileStore IO where
  kind path := attempt do return fileKind (← (IO.FS.DirEntry.mk path.text "").root.metadata).type
  read path := attempt (IO.FS.readBinFile path.text)
  entriesBelow path := do
    let below ← try collect path.text [] catch _ => pure []
    return ([], .directory) :: below
  write path text := attempt (IO.FS.writeFile path.text text)

instance : Console IO where
  write text := attempt (IO.print text)
  printLine line := IO.println line

end CodeAtlas.Machine

def main (args : List String) : IO UInt32 := do
  let outcome ← (CodeAtlas.Command.run args : IO CodeAtlas.Command.Outcome)
  IO.eprint outcome.stderr
  return UInt32.ofNat outcome.exit
