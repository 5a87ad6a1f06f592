import Hydration.Text.Character
import Hydration.Text.Printable

/-! The arguments of the command line. Options may stand anywhere, may be shortened as long as they
stay clear, and may carry their value behind an equals sign; after `--` nothing is an option. -/

namespace Hydration.CommandLine

inductive Key where
  | help | version | verbose | manifest | out | format | targetVersion | workers
deriving Repr, DecidableEq

structure OptionSpec where
  key : Key
  names : List String
  takesValue : Bool := false
deriving Repr, DecidableEq

/-- A program with its options and its one positional argument. Some take all that follows. -/
structure Grammar where
  program : String
  options : List OptionSpec
  positional : String
  takesRest : Bool := false

def helpSpec : OptionSpec := { key := .help, names := ["-h", "--help"] }

def valueSpec (key : Key) (name : String) : OptionSpec := { key, names := [name], takesValue := true }

def mainGrammar : Grammar where
  program := "hydrant"
  options := [helpSpec, { key := .version, names := ["--version"] },
    { key := .verbose, names := ["-v", "--verbose"] }]
  positional := "command"
  takesRest := true

def hydrateGrammar : Grammar where
  program := "hydrant hydrate"
  options := [helpSpec, valueSpec .manifest "--manifest", valueSpec .out "--out",
    valueSpec .format "--format", valueSpec .targetVersion "--target-version",
    valueSpec .workers "--workers"]
  positional := "path"

def Grammar.named (g : Grammar) : List (String × OptionSpec) :=
  g.options.flatMap fun spec => spec.names.map fun name => (name, spec)

/-- What stands behind the name of an option in one word: text, perhaps after an equals sign. -/
structure Attached where
  value : String
  equals : Bool
deriving Repr, DecidableEq

structure Match where
  spec : OptionSpec
  name : String
  attached : Option Attached := none

inductive Word where
  | plain (text : String)
  | dashes
  | option (found : Match)
  | unknown (text : String)

def Word.text : Word → String
  | .plain text => text
  | .dashes => "--"
  | .option found => found.name
  | .unknown text => text

def splitEquals (cs : List Char) : List Char × Option (List Char) :=
  let name := cs.takeWhile (· != '=')
  match cs.drop name.length with
  | _ :: value => (name, some value)
  | [] => (name, none)

def withValue (value : Option (List Char)) : Option Attached :=
  value.map fun cs => ⟨String.ofList cs, true⟩

/-- The options that a word may be short for. -/
def Grammar.candidates (g : Grammar) (cs : List Char) : List Match :=
  match cs with
  | '-' :: '-' :: _ =>
    let (start, value) := splitEquals cs
    (g.named.filter fun (name, _) => start.isPrefixOf name.toList).map fun (name, spec) =>
      ⟨spec, name, withValue value⟩
  | _ =>
    g.named.filterMap fun (name, spec) =>
      if name == String.ofList (cs.take 2) then
        some ⟨spec, name, some ⟨String.ofList (cs.drop 2), false⟩⟩
      else if cs.isPrefixOf name.toList then some ⟨spec, name, none⟩
      else none

/-- Negative numbers are no options. -/
def isNegativeNumber : List Char → Bool
  | '-' :: rest =>
    let whole := rest.takeWhile Text.isDecimal
    match rest.drop whole.length with
    | [] => !whole.isEmpty
    | '.' :: fraction => !fraction.isEmpty && fraction.all Text.isDecimal
    | _ => false
  | _ => false

structure UsageError where
  program : String
  complaint : String
deriving Repr, DecidableEq

def UsageError.message (e : UsageError) : String := s!"{e.program}: error: {e.complaint}"

def Grammar.refuse (g : Grammar) (complaint : String) : Except UsageError α :=
  .error ⟨g.program, complaint⟩

def ambiguousText (text : String) (found : List Match) : String :=
  let names := ", ".intercalate (found.map (·.name))
  s!"ambiguous option: {text} could match {names}"

def Grammar.exact? (g : Grammar) (cs : List Char) : Option Match :=
  match g.named.lookup (String.ofList cs) with
  | some spec => some ⟨spec, String.ofList cs, none⟩
  | none =>
    match splitEquals cs with
    | (name, some value) =>
      (g.named.lookup (String.ofList name)).map fun spec =>
        ⟨spec, String.ofList name, withValue (some value)⟩
    | (_, none) => none

def Grammar.classify (g : Grammar) (text : String) : Except UsageError Word :=
  let cs := text.toList
  if cs.head? != some '-' || cs.length = 1 then .ok (.plain text)
  else match g.exact? cs with
  | some found => .ok (.option found)
  | none =>
    match g.candidates cs with
    | [found] => .ok (.option found)
    | first :: second :: rest => g.refuse (ambiguousText text (first :: second :: rest))
    | [] =>
      .ok (if isNegativeNumber cs || cs.contains ' ' then .plain text else .unknown text)

def Grammar.words (g : Grammar) : List String → Except UsageError (List (Word × String))
  | [] => .ok []
  | text :: rest =>
    if text == "--" then .ok ((.dashes, text) :: rest.map fun t => (.plain t, t))
    else do
      let word ← g.classify text
      return (word, text) :: (← g.words rest)

/-- What was found: options in order with their values, the positional argument and what it takes
along, and words that belong to nothing. -/
structure Scan where
  options : List (Key × String) := []
  positional : Option (String × List String) := none
  extras : List String := []

def specName (spec : OptionSpec) : String := "/".intercalate spec.names

def argumentText (name complaint : String) : String := s!"argument {name}: {complaint}"

def ignoredText (value : String) : String := s!"ignored explicit argument {Text.quoted value}"

/-- What one option word stands for: several options when short ones are joined. -/
structure Taken where
  options : List (Key × String) := []
  extra : Option String := none
  needsValue : Option OptionSpec := none

def attachedRest : List Char → Option Attached
  | [] => none
  | '=' :: rest => some ⟨String.ofList rest, true⟩
  | rest => some ⟨String.ofList rest, false⟩

def Grammar.takeOption (g : Grammar) : Nat → Match → Except UsageError Taken
  | 0, _ => .ok {}
  | fuel + 1, found =>
    let spec := found.spec
    match found.attached with
    | none =>
      if spec.takesValue then .ok { needsValue := some spec }
      else .ok { options := [(spec.key, "")] }
    | some attached =>
      if spec.takesValue then .ok { options := [(spec.key, attached.value)] }
      else
        let ignored := g.refuse (argumentText (specName spec) (ignoredText attached.value))
        match attached.value.toList with
        | [] => ignored
        | c :: rest =>
          if "--".toList.isPrefixOf found.name.toList || attached.equals || c == '-' then ignored
          else match g.named.lookup (String.ofList ['-', c]) with
          | none =>
            .ok { options := [(spec.key, "")], extra := some ("-" ++ attached.value) }
          | some next => do
            let taken ← g.takeOption fuel ⟨next, String.ofList ['-', c], attachedRest rest⟩
            return { taken with options := (spec.key, "") :: taken.options }

def isOptionWord : Word → Bool
  | .option _ => true
  | .unknown _ => true
  | _ => false

def Grammar.takePositional (g : Grammar) (words : List (Word × String)) :
    Option ((String × List String) × List (Word × String)) :=
  let dashes := words.takeWhile fun w => w.1 matches .dashes
  match words.drop dashes.length with
  | (.plain _, text) :: rest =>
    if g.takesRest then
      match dashes.map (·.2) ++ text :: rest.map (·.2) with
      | [] => none
      | first :: others => some ((first, others), [])
    else some ((text, []), rest.dropWhile fun w => w.1 matches .dashes)
  | _ => none

abbrev CheckValue := Key → String → Except String Unit

def Grammar.checkOptions (g : Grammar) (check : CheckValue) :
    List (Key × String) → Except UsageError Unit
  | [] => .ok ()
  | (key, value) :: rest =>
    match check key value with
    | .ok () => g.checkOptions check rest
    | .error complaint =>
      let name := ((g.options.find? fun spec => spec.key == key).map specName).getD ""
      g.refuse (argumentText name complaint)

def stops (key : Key) : Bool := key == .help || key == .version

def Grammar.scan (g : Grammar) (check : CheckValue) :
    Nat → Scan → List (Word × String) → Except UsageError Scan
  | 0, scan, _ => .ok scan
  | _ + 1, scan, [] => .ok scan
  | fuel + 1, scan, (.option found, _) :: rest => do
    let taken ← g.takeOption (found.name.length + 1000) found
    let scan := { scan with extras := scan.extras ++ taken.extra.toList }
    match taken.needsValue, rest with
    | none, rest =>
      g.checkOptions check taken.options
      let scan := { scan with options := scan.options ++ taken.options }
      if taken.options.any fun o => stops o.1 then return scan else g.scan check fuel scan rest
    | some spec, (.plain _, value) :: rest =>
      let options := taken.options ++ [(spec.key, value)]
      g.checkOptions check options
      g.scan check fuel { scan with options := scan.options ++ options } rest
    | some spec, _ => g.refuse (argumentText (specName spec) "expected one argument")
  | fuel + 1, scan, (.unknown text, _) :: rest =>
    g.scan check fuel { scan with extras := scan.extras ++ [text] } rest
  | fuel + 1, scan, words =>
    match scan.positional, g.takePositional words with
    | none, some (positional, rest) =>
      g.scan check fuel { scan with positional := some positional } rest
    | _, _ =>
      let skipped := words.takeWhile fun w => !isOptionWord w.1
      g.scan check fuel { scan with extras := scan.extras ++ skipped.map (·.2) }
        (words.drop skipped.length)

structure Arguments where
  path : String
  verbose : Bool := false
  manifest : Option String := none
  out : Option String := none
  format : Option String := none
  targetVersion : Option String := none
  workers : Option Int := none
deriving Repr, DecidableEq

inductive Asked where
  | run (arguments : Arguments)
  | help
  | version
  | refused (error : UsageError)

/-- Digits with single underscores between them. -/
def takeNumber : List Char → Option Nat
  | [] => none
  | cs => go 0 false cs
where
  go (value : Nat) (digitBefore : Bool) : List Char → Option Nat
    | [] => if digitBefore then some value else none
    | '_' :: rest => if digitBefore then go value false rest else none
    | c :: rest =>
      if Text.isDecimal c then go (10 * value + Text.decimalValue c) true rest else none

def readWhole (text : String) : Option Int :=
  match Text.trimBoth Text.isBlank text.toList with
  | '-' :: digits => (takeNumber digits).map fun n => -(n : Int)
  | '+' :: digits => (takeNumber digits).map Int.ofNat
  | digits => (takeNumber digits).map Int.ofNat

def formatLabels : List String := ["named", "namespace"]

def choiceText (value : String) (choices : List String) : String :=
  s!"invalid choice: {Text.quoted value} (choose from " ++
    ", ".intercalate (choices.map Text.quoted) ++ ")"

def checkValue : CheckValue
  | .format, value =>
    if formatLabels.contains value then .ok () else .error (choiceText value formatLabels)
  | .workers, value =>
    if (readWhole value).isSome then .ok ()
    else .error s!"invalid int value: {Text.quoted value}"
  | _, _ => .ok ()

def lastValue (options : List (Key × String)) (key : Key) : Option String :=
  (options.reverse.find? fun o => o.1 == key).map (·.2)

def argumentsOf (verbose : Bool) (path : String) (options : List (Key × String)) : Arguments :=
  { path, verbose
    manifest := lastValue options .manifest
    out := lastValue options .out
    format := lastValue options .format
    targetVersion := lastValue options .targetVersion
    workers := (lastValue options .workers).bind readWhole }

def requiredText (name : String) : String := s!"the following arguments are required: {name}"

def firstStop (options : List (Key × String)) : Option Asked :=
  match options.find? fun o => stops o.1 with
  | some (.version, _) => some .version
  | some _ => some .help
  | none => none

def Grammar.run (g : Grammar) (arguments : List String) : Except UsageError Scan := do
  let words ← g.words arguments
  g.scan checkValue (2 * words.length + 1) {} words

def askHydrate (main : Scan) (arguments : List String) : Except UsageError Asked := do
  let scan ← hydrateGrammar.run arguments
  match firstStop scan.options, scan.positional with
  | some asked, _ => return asked
  | none, none => hydrateGrammar.refuse (requiredText hydrateGrammar.positional)
  | none, some (path, _) =>
    let extras := main.extras ++ scan.extras
    if extras.isEmpty then
      return .run (argumentsOf (main.options.any fun o => o.1 == .verbose) path scan.options)
    else mainGrammar.refuse ("unrecognized arguments: " ++ " ".intercalate extras)

def ask (arguments : List String) : Except UsageError Asked := do
  let scan ← mainGrammar.run arguments
  match firstStop scan.options, scan.positional with
  | some asked, _ => return asked
  | none, none => mainGrammar.refuse (requiredText mainGrammar.positional)
  | none, some (command, rest) =>
    if command == "hydrate" then askHydrate scan rest
    else mainGrammar.refuse (argumentText "command" (choiceText command ["hydrate"]))

def read (arguments : List String) : Asked :=
  match ask arguments with
  | .ok asked => asked
  | .error e => .refused e

end Hydration.CommandLine
