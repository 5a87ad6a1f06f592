import Hydration.Path.NormalForm

/-! Places in a tree of files: a path without empty and `.` segments. Parent segments stay, as what
they lead to depends on the tree. -/

namespace Hydration.Path

structure Location where
  /-- The number of slashes in front; none for a relative place. -/
  slashes : Nat := 0
  parts : List String := []
deriving Repr, DecidableEq, Inhabited

namespace Location

def ofText (path : String) : Location :=
  let cs := path.toList
  let parts := (segments cs).filter fun s => s != [] && s != ['.']
  { slashes := leadingSlashes cs, parts := parts.map String.ofList }

def toText (l : Location) : String :=
  let body := "/".intercalate l.parts
  let text := String.ofList (List.replicate l.slashes '/') ++ body
  if text.isEmpty then "." else text

def isAbsolute (l : Location) : Bool := l.slashes > 0

/-- No file has a name with a null character, and to follow one is a fault. -/
def hasNull (l : Location) : Bool := l.parts.any fun part => part.toList.contains '\x00'

def join (base l : Location) : Location :=
  if l.isAbsolute then l else { base with parts := base.parts ++ l.parts }

def parent (l : Location) : Location := { l with parts := l.parts.dropLast }

def name (l : Location) : String := l.parts.getLast?.getD ""

def withName (l : Location) (name : String) : Location :=
  { l with parts := l.parts.dropLast ++ [name] }

def child (l : Location) (name : String) : Location := l.join (ofText name)

/-- The name without its last suffix. -/
def stem (l : Location) : String :=
  let cs := l.name.toList
  let suffix := cs.reverse.takeWhile (· != '.')
  let stem := cs.take (cs.length - suffix.length - 1)
  if suffix.isEmpty || stem.isEmpty then l.name else String.ofList stem

def climb (parts : List String) (part : String) : List String :=
  if part == ".." then parts.tail else part :: parts

/-- The absolute place without parent segments, in a tree where none of them is a link. -/
def resolve (current l : Location) : Location :=
  let absolute := current.join l
  { slashes := 1, parts := (absolute.parts.foldl climb []).reverse }

def ancestorsOf (slashes : Nat) : List String → List Location
  | [] => []
  | _ :: rest => { slashes, parts := rest.reverse } :: ancestorsOf slashes rest

/-- The places above, the nearest first. -/
def ancestors (l : Location) : List Location := ancestorsOf l.slashes l.parts.reverse

end Location

end Hydration.Path
