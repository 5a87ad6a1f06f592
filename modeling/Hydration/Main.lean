import Hydration.CommandLine.Command

/-! The program: the command line on the file system of the machine. -/

open Hydration

def troubleOf : IO.Error → Trouble
  | .noFileOrDirectory .. => .noEntry
  | .alreadyExists .. => .exists
  | .inappropriateType _ code _ => if code = 21 then .isFolder else .notFolder
  | .permissionDenied _ code details => .other code.toNat details
  | e => .other 5 (toString e)

def attempt (l : Path.Location) (action : IO α) : IO (Except FileError α) := do
  try return .ok (← action)
  catch e => return .error ⟨troubleOf e, l.toText⟩

instance : FileAccess IO where
  current := do return Path.Location.ofText (← IO.currentDir).toString
  look l := do
    let path := (← IO.currentDir) / l.toText
    if ← path.isDir then return some .folder
    else if ← path.pathExists then return some .file
    else return none
  read l := do return (← attempt l (IO.FS.readBinFile l.toText)).map fun bytes => bytes.toList
  makeFolder l := attempt l (IO.FS.createDir l.toText)
  write l text := attempt l (IO.FS.writeFile l.toText text)
  overflows _ _ := return false
  explain title issues := return Validation.issueCount title issues

def showTable (table : CommandLine.Table) : IO Unit := do
  IO.println table.title
  for row in table.columns :: table.rows do
    match Markup.render (" | ".intercalate row).toList with
    | .ok text => IO.println (String.ofList text)
    | .error _ => IO.println (" | ".intercalate row)

def showEvent : CommandLine.Event → IO Unit
  | .record record =>
    match Terminal.recordLines record with
    | .ok lines => lines.forM (IO.println ·)
    | .error e => IO.eprintln e.message
  | .table table => showTable table

def main (arguments : List String) : IO UInt32 := do
  match ← CommandLine.answer (m := IO) arguments with
  | .shown code text =>
    if code = 0 then IO.println text else IO.eprintln text
    return code.toUInt32
  | .ran outcome =>
    outcome.events.forM showEvent
    match outcome.result with
    | .ok code => return code.toUInt32
    | .error escaped =>
      IO.eprintln escaped.message
      return 1
