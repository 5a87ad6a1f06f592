/-! Diagnostics: what a build reports about a module. A sink collects those of a whole build in the
order in which they came, and counts the errors among them. Records are what the stages of a build note
down while they work. -/

namespace Hydration

inductive Severity where
  | error | warning
deriving Repr, DecidableEq, Inhabited

def Severity.label : Severity → String
  | .error => "error"
  | .warning => "warning"

inductive Category where
  | build | hydrate | imports
deriving Repr, DecidableEq, Inhabited

def Category.label : Category → String
  | .build => "build"
  | .hydrate => "hydrate"
  | .imports => "imports"

structure Diagnostic where
  severity : Severity := .error
  category : Category := .build
  header : String := "Build Error"
  message : String
  file : Option String := none
  line : Option Int := none
  column : Option Int := none
deriving Repr, DecidableEq, Inhabited

namespace Diagnostic

def isError (d : Diagnostic) : Bool := d.severity == .error

def place (d : Diagnostic) : String :=
  match d.line, d.column with
  | some line, some column => s!":{line}:{column}"
  | some line, none => s!":{line}"
  | none, _ => ""

def summary (d : Diagnostic) : String :=
  let location := match d.file with
    | some file => if file.isEmpty then "" else file ++ d.place ++ " "
    | none => ""
  s!"{d.severity.label}[{d.category.label}] {location}{d.message}"

end Diagnostic

structure Sink where
  items : List Diagnostic := []
  errorCount : Nat := 0
deriving Repr, DecidableEq, Inhabited

namespace Sink

def extend (sink : Sink) (batch : List Diagnostic) : Sink :=
  { items := sink.items ++ batch
    errorCount := sink.errorCount + (batch.filter Diagnostic.isError).length }

def push (sink : Sink) (d : Diagnostic) : Sink := sink.extend [d]

def hasErrors (sink : Sink) : Bool := sink.errorCount > 0

def errors (sink : Sink) : List Diagnostic := sink.items.filter Diagnostic.isError

def size (sink : Sink) : Nat := sink.items.length

end Sink

inductive Level where
  | debug | info | success | warning | error
deriving Repr, DecidableEq, Inhabited

def Level.rank : Level → Nat
  | .debug => 10
  | .info => 20
  | .success => 25
  | .warning => 30
  | .error => 40

def Level.name : Level → String
  | .debug => "DEBUG"
  | .info => "INFO"
  | .success => "SUCCESS"
  | .warning => "WARNING"
  | .error => "ERROR"

structure Record where
  level : Level
  message : String
deriving Repr, DecidableEq, Inhabited

end Hydration
