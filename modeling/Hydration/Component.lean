import Hydration.Text.Uppercase

/-! The metadata of a component: its tag, the class that implements it, and its declared members. -/

namespace Hydration

/-- How the styles of a component are kept apart from those of its page. -/
inductive Encapsulation where
  | shared | scoped | shadow
deriving Repr, DecidableEq, Inhabited

def Encapsulation.label : Encapsulation → String
  | .shared => "none"
  | .scoped => "scoped"
  | .shadow => "shadow"

structure PropertySpec where
  name : String
  internal : Bool := false
  isMutable : Bool := false
  reflect : Bool := false
deriving Repr, DecidableEq, Inhabited

structure MethodSpec where
  name : String
  internal : Bool := false
deriving Repr, DecidableEq, Inhabited

structure EventSpec where
  name : String
  internal : Bool := false
  methodName : Option String := none
  bubbles : Bool := true
  composed : Bool := true
  cancelable : Bool := true
deriving Repr, DecidableEq, Inhabited

def EventSpec.emitter (event : EventSpec) : String :=
  match event.methodName with
  | some name => if name.isEmpty then event.name else name
  | none => event.name

/-- One bit for each of cancelable, composed and bubbling. -/
def EventSpec.flags (event : EventSpec) : Nat :=
  (if event.cancelable then 1 else 0) + (if event.composed then 2 else 0) +
    (if event.bubbles then 4 else 0)

structure Component where
  tag : String
  className : String
  sourcePath : String
  encapsulation : Encapsulation := .shared
  properties : List PropertySpec := []
  events : List EventSpec := []
  methods : List MethodSpec := []
  elementRef : Option String := none
deriving Repr, DecidableEq, Inhabited

namespace Component

def elementMember (cmp : Component) : Option String :=
  cmp.elementRef.filter fun name => !name.isEmpty

def visibleProperties (cmp : Component) : List String :=
  (cmp.properties.filter fun p => !p.internal).map (·.name)

def visibleEvents (cmp : Component) : List String :=
  (cmp.events.filter fun e => !e.internal).map (·.name)

def visibleMethods (cmp : Component) : List String :=
  (cmp.methods.filter fun m => !m.internal).map (·.name)

end Component

def capitalize : List Char → List Char
  | [] => []
  | c :: rest => Text.uppercaseChar c ++ rest

/-- The class name of a dashed tag: its parts, each with a capital first letter. -/
def classNameOfTag (tag : String) : String :=
  String.ofList ((tag.toList.splitOnP (· == '-')).flatMap capitalize)

end Hydration
