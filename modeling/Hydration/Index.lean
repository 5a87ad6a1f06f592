import Hydration.Component
import Hydration.Path.NormalForm
import Hydration.Syntax.Statement

/-! The components of a build by the file that holds them and the class that implements them.
Files are compared in normal form. -/

namespace Hydration

structure Index where
  entries : List ((String × String) × Component) := []
deriving Inhabited

namespace Index

/-- A later component takes the value of an earlier one with the same key, which keeps its place. -/
def insert (entries : List ((String × String) × Component)) (key : String × String)
    (cmp : Component) : List ((String × String) × Component) :=
  match entries with
  | [] => [(key, cmp)]
  | (k, c) :: rest => if k = key then (k, cmp) :: rest else (k, c) :: insert rest key cmp

def keyOf (cmp : Component) : String × String := (Path.normalize cmp.sourcePath, cmp.className)

def ofComponents (components : List Component) : Index :=
  ⟨components.foldl (fun entries cmp => insert entries (keyOf cmp) cmp) []⟩

def get? (index : Index) (file className : String) : Option Component :=
  index.entries.lookup (Path.normalize file, className)

def ofFile (index : Index) (file : String) : List Component :=
  let key := Path.normalize file
  (index.entries.filter fun entry => entry.1.1 == key).map (·.2)

def toList (index : Index) : List Component := index.entries.map (·.2)

def size (index : Index) : Nat := index.entries.length

/-- The component that a statement implements, if it is a class of the index. -/
def locate (index : Index) (file : String) : Syntax.Stmt → Option Component
  | .class_ head _ => index.get? file head.name
  | _ => none

end Index

end Hydration
