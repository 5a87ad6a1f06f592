import Hydration.Imports.DottedName

/-! The head of a module: its docstring and the imports from the future, which must stay first. -/

namespace Hydration.Imports

open Syntax

/-- A lone string literal. Whether it documents anything depends on where it stands. -/
def isDocstring : Stmt → Bool
  | .line { entries := [⟨.expr value, _⟩], .. } =>
    match value.core with
    | .string _ => true
    | .joined .. => true
    | _ => false
  | _ => false

def isFutureName (path : Expr) : Bool :=
  match path.core with
  | .name id => id == "__future__"
  | _ => false

def isFutureEntry (entry : Entry) : Bool :=
  match entry.stmt with
  | .importFrom _ _ (some path) _ _ _ => isFutureName path
  | _ => false

def importsFuture : Stmt → Bool
  | .line line => line.entries.any isFutureEntry
  | _ => false

/-- Where new imports go: behind the docstring and the imports from the future. -/
def headerIndex (body : List Stmt) : Nat :=
  let documented := (body.head?.map isDocstring).getD false
  let start := if documented then 1 else 0
  start + ((body.drop start).takeWhile importsFuture).length

end Hydration.Imports
