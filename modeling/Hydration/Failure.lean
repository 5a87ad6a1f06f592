import Hydration.Data
import Hydration.Diagnostic
import Hydration.Syntax.Reading

/-! Why a compiler can fail on a module. Each failure becomes one diagnostic of the build. -/

namespace Hydration

/-- A fault that a compiler meets outside this library: its kind and the values it carries. -/
structure Fault where
  kind : String
  values : List Data := []
deriving Inhabited

namespace Fault

def describeAll (values : List Data) : String :=
  match values with
  | [value] => "(" ++ value.describe ++ ",)"
  | values => "(" ++ ", ".intercalate (values.map Data.describe) ++ ")"

def plainText : List Data → String
  | [] => ""
  | [.text text] => text
  | [value] => value.describe
  | values => describeAll values

def filesText : Data → Data → String
  | .null, _ => ""
  | file, .null => ": " ++ file.describe
  | file, second => ": " ++ file.describe ++ " -> " ++ second.describe

/-- Faults of the system carry a number, a text and perhaps one or two files. -/
def systemText : List Data → String
  | [number, text] => s!"[Errno {plainText [number]}] {plainText [text]}"
  | [number, text, file] => s!"[Errno {plainText [number]}] {plainText [text]}" ++ filesText file .null
  | [number, text, file, _] => s!"[Errno {plainText [number]}] {plainText [text]}" ++ filesText file .null
  | [number, text, file, _, second] =>
    s!"[Errno {plainText [number]}] {plainText [text]}" ++ filesText file second
  | values => plainText values

/-- The fault of a missing key shows the key as it is written. -/
def keyText : List Data → String
  | [value] => value.describe
  | values => plainText values

def systemKinds : List String :=
  ["OSError", "FileNotFoundError", "PermissionError", "FileExistsError", "IsADirectoryError", "NotADirectoryError", "ConnectionError",
    "TimeoutError", "InterruptedError", "BlockingIOError", "ChildProcessError",
    "ProcessLookupError", "BrokenPipeError", "ConnectionAbortedError", "ConnectionRefusedError",
    "ConnectionResetError"]

def text (fault : Fault) : String :=
  if fault.kind == "KeyError" then keyText fault.values
  else if systemKinds.contains fault.kind then systemText fault.values
  else plainText fault.values

end Fault

inductive Failure where
  | read (error : Syntax.ReadError)
  /-- The module is indented in a way that generated members cannot follow. -/
  | badIndent (indent : String)
  | unknownVersion
  /-- A stage that is no pass. -/
  | foreignStage (kind : String)
  | fault (fault : Fault)
deriving Inhabited

namespace Failure

def knownVersions : List (Nat × Nat) :=
  [(3, 0), (3, 1), (3, 3), (3, 5), (3, 6), (3, 7), (3, 8), (3, 9), (3, 10), (3, 11), (3, 12),
    (3, 13), (3, 14), (3, 15)]

def versionLabel (version : Nat × Nat) : String := s!"{version.1}.{version.2}"

def message : Failure → String
  | .read (.text error _) => error.message
  | .read (.tree error) => error.message
  | .badIndent indent => s!"Got an invalid value for default_indent: {Text.quoted indent}"
  | .unknownVersion =>
    "LibCST can only parse code using one of the following versions of Python's grammar: " ++
      ", ".intercalate (knownVersions.map versionLabel) ++
      ". More versions may be supported by future releases."
  | .foreignStage kind => s!"Expected a RewriterPass, got {kind}"
  | .fault f => if f.text.isEmpty then f.kind else f.text

/-- The diagnostic of a failure. Only an error in the text of a module has a place. -/
def diagnostic (failure : Failure) (file : Option String) : Diagnostic :=
  match failure with
  | .read (.text error (line, column)) =>
    { header := "Syntax Error", message := error.message, file
      line := some line, column := some column }
  | failure => { message := failure.message, file }

end Failure

end Hydration
