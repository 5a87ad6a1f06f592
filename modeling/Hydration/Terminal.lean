import Hydration.Terminal.Markup
import Hydration.Terminal.Wrap
import Hydration.Data
import Hydration.Diagnostic

/-! The terminal: what is shown of the messages of a run, and the level that a message must reach to
be shown. The level that was asked for last is kept apart from the one in force, and comes into
force whenever output moves to another terminal. -/

namespace Hydration

/-- A level that was asked for. Anything but a number is refused once it is to come into force. -/
abbrev Asked := Data

inductive TerminalError where
  | unknownLevel (text : String)
  | notLevel (data : Data)
  | markup (error : Markup.MarkupError)
  | notSeverity (data : Data)

namespace TerminalError

def message : TerminalError → String
  | .unknownLevel text => s!"Unknown level: {Text.quoted text}"
  | .notLevel data => s!"Level not an integer or a valid string: {data.describe}"
  | .markup error => error.message
  | .notSeverity data => s!"{data.describe} is not a valid Severity"

end TerminalError

/-- `handlers` lists the terminals that receive messages, by their number. -/
structure Terminal where
  asked : Asked := .whole 20
  level : Int := 20
  active : Nat := 0
  handlers : List Nat := [0]

namespace Terminal

def levelNames : List (String × Int) :=
  [("CRITICAL", 50), ("FATAL", 50), ("ERROR", 40), ("WARN", 30), ("WARNING", 30),
    ("SUCCESS", 25), ("INFO", 20), ("DEBUG", 10), ("NOTSET", 0)]

/-- A name stands for its number; an unknown one for a text that is no level. -/
def namedLevel : Data → Asked
  | .text name =>
    match levelNames.lookup name with
    | some level => .whole level
    | none => .text ("Level " ++ name)
  | data => data

def checkLevel : Asked → Except TerminalError Int
  | .whole level => .ok level
  | .flag value => .ok (if value then 1 else 0)
  | .text name =>
    match levelNames.lookup name with
    | some level => .ok level
    | none => .error (.unknownLevel name)
  | data => .error (.notLevel data)

def enforce (terminal : Terminal) : Terminal × Except TerminalError Unit :=
  match checkLevel terminal.asked with
  | .ok level => ({ terminal with level }, .ok ())
  | .error e => (terminal, .error e)

def setLevel (terminal : Terminal) (level : Data) : Terminal × Except TerminalError Unit :=
  { terminal with asked := namedLevel level }.enforce

def swap (terminal : Terminal) : Terminal × Except TerminalError Unit :=
  { terminal with active := terminal.active + 1, handlers := [terminal.active + 1] }.enforce

def shows (terminal : Terminal) (level : Level) : Bool := terminal.level ≤ level.rank

def icon : Level → String
  | .success => "✅ "
  | .warning => "⚠️  "
  | .error => "❌ "
  | _ => "ℹ️  "

def announce (level : Level) (message : String) : Record := ⟨level, icon level ++ message⟩

def width : Nat := 200

def padded (size : Nat) (text : String) : List Char :=
  text.toList ++ List.replicate (size - text.length) ' '

def visibleLines (lines : List (List Char)) : List String :=
  ((lines.map Wrap.trimEnd).filter fun line => !line.isEmpty).map String.ofList

def recordLines (record : Record) : Except TerminalError (List String) := do
  let text ← (Markup.render record.message.toList).mapError .markup
  match Wrap.wrap (width - 9) text with
  | [] => return visibleLines [padded 9 record.level.name]
  | first :: rest =>
    return visibleLines ((padded 9 record.level.name ++ first) ::
      rest.map fun line => List.replicate 9 ' ' ++ line)

def log (terminal : Terminal) (level : Level) (message : String) :
    Except TerminalError (List String) :=
  if terminal.shows level then recordLines (announce level message) else .ok []

def print (text : String) : Except TerminalError (List String) := do
  let text ← (Markup.render text.toList).mapError .markup
  return visibleLines (Wrap.wrap width text)

end Terminal

def Severity.markup (severity : Severity) : String :=
  s!"[diag.{severity.label}]{severity.label}[/diag.{severity.label}]"

end Hydration
