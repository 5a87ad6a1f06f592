import Hydration.Component
import Hydration.Literal
import Hydration.Syntax.Reading

/-! The members that a hydrated class is given: the statements that start its constructor, the
constructor itself where the class has none, the property for the host element, and the method that
returns the metadata. Each is written as text in the style of the module and read back. -/

namespace Hydration.Transform

open Syntax

structure Helpers where
  register : String := "register_instance"
  createEvent : String := "create_event"
  element : String := "get_element"
deriving Repr, DecidableEq, Inhabited

def hostName : String := "host_ref"

structure Plan where
  component : Component
  helpers : Helpers := {}
  clientBases : List String := []
  bootstrapDecorators : List String := []
  style : Style := {}

def propertyEntry (p : PropertySpec) : String × Literal :=
  (p.name, .table [("kind", .text "prop"), ("mutable", .flag p.isMutable),
    ("reflect", .flag p.reflect), ("internal", .flag p.internal)])

def methodEntry (m : MethodSpec) : String × Literal :=
  (m.name, .table [("kind", .text "method"), ("internal", .flag m.internal)])

def elementEntry (name : String) : String × Literal :=
  (name, .table [("kind", .text "element"), ("internal", .flag true)])

def eventEntry (e : EventSpec) : Literal :=
  .table [("name", .text e.name), ("method", .text e.emitter), ("flags", .number e.flags),
    ("internal", .flag e.internal)]

/-- One entry for each name; of two members with one name the later one counts. -/
def memberTable (cmp : Component) : List (String × Literal) :=
  let members := cmp.properties.map propertyEntry ++ cmp.methods.map methodEntry ++
    cmp.elementMember.toList.map elementEntry
  members.foldl (fun entries (name, value) => Literal.put entries name value) []

def metadata (cmp : Component) : Literal :=
  .table [("tag_name", .text cmp.tag), ("class_name", .text cmp.className),
    ("encapsulation", .text cmp.encapsulation.label), ("members", .table (memberTable cmp)),
    ("events", .list (cmp.events.map eventEntry))]

def eventLine (helpers : Helpers) (receiver : String) (e : EventSpec) : String :=
  s!"{receiver}.{e.emitter} = {helpers.createEvent}({receiver}, {Text.quoted e.name}, {e.flags})"

/-- The statements that start a constructor: the instance is registered, then each event gets its
emitter. -/
def startLines (plan : Plan) (receiver : String) : List String :=
  s!"{plan.helpers.register}({receiver}, {hostName})" ::
    plan.component.events.map (eventLine plan.helpers receiver)

def constructorText (plan : Plan) : String :=
  let line (code : String) := plan.style.indent ++ code ++ plan.style.newline
  s!"def __init__(self, {hostName}):" ++ plan.style.newline ++
    String.join ((startLines plan "self").map line)

def elementText (plan : Plan) (name : String) : String :=
  let newline := plan.style.newline
  s!"@property{newline}def {name}(self):{newline}" ++
    s!"{plan.style.indent}return {plan.helpers.element}(self){newline}"

def metadataText (plan : Plan) : String :=
  let newline := plan.style.newline
  s!"@staticmethod{newline}def cmp_meta():{newline}" ++
    s!"{plan.style.indent}return {(metadata plan.component).render}{newline}"

def bootstrap (plan : Plan) (receiver : String) : Except ReadError (List Stmt) :=
  (startLines plan receiver).mapM fun line => Stmt.parse (line ++ plan.style.newline)

def newConstructor (plan : Plan) : Except ReadError Stmt := Stmt.parse (constructorText plan)

def elementGetter (plan : Plan) (name : String) : Except ReadError Stmt :=
  Stmt.parse (elementText plan name)

def metadataMethod (plan : Plan) : Except ReadError Stmt := Stmt.parse (metadataText plan)

end Hydration.Transform
