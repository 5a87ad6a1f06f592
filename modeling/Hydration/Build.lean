import Hydration.Stage

/-! A build: many transformations that share one state. An abort request keeps further ones from
starting, and one error anywhere keeps all later ones from giving a text. -/

namespace Hydration

structure Build where
  sink : Sink := {}
  abort : Bool := false
  records : List Record := []
deriving Inhabited

structure Request where
  text : String
  options : Options := {}
  index : Index := {}
  file : Option String := none
deriving Inhabited

/-- What a compiler answers. It may ask for the build to be aborted while it works. -/
structure Reply where
  outcome : Except Failure Output
  abort : Bool := false
  records : List Record := []

abbrev Compiler := Request → Reply

def Compiler.standard : Compiler := fun request =>
  let pass := Pass.hydration request.index
  { outcome := runStages request.text request.options [.pass pass] request.file
    records := stageRecords request.text request.options [pass] request.file }

def fileOf (options : Options) (components : List Component) : Option String :=
  (named? options.fileName).or (components.head?.map (·.sourcePath))

def requestOf (text : String) (components : List Component) (options : Options) : Request :=
  { text, options, index := Index.ofComponents components, file := fileOf options components }

namespace Build

def hasErrors (build : Build) : Bool := build.sink.hasErrors

/-- Notes a record down. Noting is taken not to fail here; what cannot be shown stops a run later. -/
def note (build : Build) (record : Record) : Build :=
  { build with records := build.records ++ [record] }

def setAbort (build : Build) (value : Bool) : Build := { build with abort := value }

def report (build : Build) (diagnostics : List Diagnostic) : Build :=
  { build with sink := build.sink.extend diagnostics }

def catchFailure (build : Build) (failure : Failure) (file : Option String) : Build :=
  let label := (named? file).getD "<module>"
  (build.report [failure.diagnostic file]).note
    ⟨.debug, s!"Recorded build error for {label}: {failure.message}"⟩

/-- Takes in what the compiler reported, and gives its text if nothing forbids that. -/
def accept (build : Build) (output : Output) (file : Option String) : Build × Option String :=
  let build := build.report output.diagnostics
  let label := file.getD "None"
  if build.hasErrors then (build, none)
  else if build.abort then
    (build.note ⟨.debug, s!"Discarding output for {label}: build aborted during transpile"⟩, none)
  else match named? output.text with
    | some text => (build, some text)
    | none => (build.note ⟨.warning, s!"Engine produced no output for {label}"⟩, none)

/-- Takes in a reply: an abort request, the records, and what came of the compilation. -/
def settle (build : Build) (file : Option String) (reply : Reply) : Build × Option String :=
  let build := { build with
    abort := build.abort || reply.abort
    records := build.records ++ reply.records }
  match reply.outcome with
  | .error failure => (build.catchFailure failure file, none)
  | .ok output => build.accept output file

/-- Transforms a module with a compiler that may act on the world around it. Once an abort was
asked for, the compiler is left alone. -/
def transformWith {m : Type → Type} [Monad m] (compile : Request → m Reply) (build : Build)
    (text : String) (components : List Component) (options : Options) :
    m (Build × Option String) :=
  if build.abort then pure (build, none)
  else
    let request := requestOf text components options
    do return build.settle request.file (← compile request)

/-- Transforms a module. No text comes back when the build is aborted or has an error. -/
def transform (build : Build) (text : String) (components : List Component) (options : Options)
    (compiler : Compiler := Compiler.standard) : Build × Option String :=
  Id.run (build.transformWith (fun request => pure (compiler request)) text components options)

end Build

structure Job where
  text : String
  components : List Component := []
  file : Option String := none
deriving Inhabited

/-- The name of a job's file goes before the one that the options give. -/
def Job.options (job : Job) (options : Options) : Options :=
  match named? job.file with
  | some file => { options with fileName := some file }
  | none => options

namespace Build

def runJob (options : Options) (build : Build) (job : Job) : Build × Option String :=
  build.transform job.text job.components (job.options options)

def runJobs (options : Options) (build : Build) : List Job → Build × List (Option String)
  | [] => (build, [])
  | job :: rest =>
    let (build, text) := build.runJob options job
    let (build, texts) := build.runJobs options rest
    (build, text :: texts)

/-- Transforms modules with a number of workers, of which there must be one at least. -/
def batch (build : Build) (jobs : List Job) (options : Options) (workers : Int) :
    Except Failure (Build × List (Option String)) :=
  if workers ≤ 0 then
    .error (.fault ⟨"ValueError", [.text "max_workers must be greater than 0"]⟩)
  else .ok (build.runJobs options jobs)

end Build

/-- Transforms a module in a build of its own; the error is the text that describes the failure. -/
def hydrateText (text : String) (components : List Component) (options : Options) :
    Except String String :=
  let (build, result) := ({} : Build).transform text components options
  match result with
  | some text => .ok text
  | none =>
    let errors := "\n".intercalate (build.sink.errors.map Diagnostic.summary)
    .error ("Hydration failed:\n" ++ if errors.isEmpty then "no output produced" else errors)

end Hydration
