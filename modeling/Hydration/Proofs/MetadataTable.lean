import Hydration.Proofs.ClassScope

/-! The metadata of a hydrated class. The method that returns it returns a literal with the value of the
component's table, in which every declared name has one entry, and the name of an event is read back
from the call that creates its emitter. -/

namespace Hydration.Transform

open Syntax

/-- The entry for a name: that of the element, or of the last method with the name, or of the last
property. -/
def memberEntry? (cmp : Component) (name : String) : Option Literal :=
  if name ∈ cmp.elementMember then
    some (.table [("kind", .text "element"), ("internal", .flag true)])
  else
    ((cmp.methods.reverse.find? fun m => m.name == name).map fun m =>
      .table [("kind", .text "method"), ("internal", .flag m.internal)]).or
    ((cmp.properties.reverse.find? fun p => p.name == name).map fun p =>
      .table [("kind", .text "prop"), ("mutable", .flag p.isMutable), ("reflect", .flag p.reflect),
        ("internal", .flag p.internal)])

/-- The table for an event, with one bit for each of its flags. -/
def eventTable (e : EventSpec) : Literal :=
  .table [("name", .text e.name), ("method", .text e.emitter),
    ("flags", .number (e.cancelable.toNat + 2 * e.composed.toNat + 4 * e.bubbles.toNat)),
    ("internal", .flag e.internal)]

/-- The table of a component. Its members have one entry for each name that is declared. -/
def Describes (cmp : Component) (value : Literal) : Prop :=
  ∃ entries, value = .table [("tag_name", .text cmp.tag), ("class_name", .text cmp.className),
      ("encapsulation", .text cmp.encapsulation.label), ("members", .table entries),
      ("events", .list (cmp.events.map eventTable))] ∧
    (entries.map Prod.fst).Nodup ∧ ∀ name, entries.lookup name = memberEntry? cmp name

section Table

variable {cmp : Component} {name : String}

theorem lookup_map {α : Type} {f : α → String × Literal} (key : α → String)
    (hf : ∀ a, (f a).1 = key a) (as : List α) :
    (as.map f).lookup name = (as.find? fun a => key a == name).map fun a => (f a).2 := by
  induction as with
  | nil => rfl
  | cons a as ih =>
    rw [List.map_cons, List.lookup_cons, hf, ih, List.find?_cons, BEq.comm]
    cases key a == name <;> rfl

theorem memberTable_eq (cmp : Component) : memberTable cmp = Literal.putAll []
    (cmp.properties.map propertyEntry ++ cmp.methods.map methodEntry ++
      cmp.elementMember.toList.map elementEntry) := rfl

theorem lookup_memberTable (cmp : Component) (name : String) :
    (memberTable cmp).lookup name = memberEntry? cmp name := by
  rw [memberTable_eq, Literal.lookup_putAll, List.reverse_append, List.reverse_append,
    ← List.map_reverse, ← List.map_reverse, ← List.map_reverse, List.lookup_append, List.lookup_append,
    lookup_map PropertySpec.name fun _ => rfl, lookup_map MethodSpec.name fun _ => rfl,
    lookup_map id fun _ => rfl]
  unfold memberEntry?
  cases cmp.elementMember with
  | none => simp [propertyEntry, methodEntry]
  | some member =>
    by_cases h : member = name
    · simp [h, elementEntry]
    · simp [h, propertyEntry, methodEntry]

theorem nodup_memberTable (cmp : Component) : ((memberTable cmp).map Prod.fst).Nodup := by
  rw [memberTable_eq]
  exact Literal.nodup_putAll List.nodup_nil

theorem eventEntry_eq (e : EventSpec) : eventEntry e = eventTable e := by
  have hflags : e.flags = e.cancelable.toNat + 2 * e.composed.toNat + 4 * e.bubbles.toNat := by
    unfold EventSpec.flags
    cases e.cancelable <;> cases e.composed <;> cases e.bubbles <;> rfl
  rw [eventEntry, hflags, eventTable]

theorem describes_metadata (cmp : Component) : Describes cmp (metadata cmp) := by
  refine ⟨memberTable cmp, ?_, nodup_memberTable cmp, lookup_memberTable cmp⟩
  rw [metadata, List.map_congr_left fun e _ => eventEntry_eq e]

theorem keyed_memberTable (cmp : Component) : ∀ entry ∈ memberTable cmp, entry.2.Keyed := by
  rw [memberTable_eq]
  refine Literal.forall_mem_putAll (List.forall_mem_nil _) fun entry he => ?_
  simp only [List.mem_append, List.mem_map] at he
  rcases he with (⟨p, -, rfl⟩ | ⟨m, -, rfl⟩) | ⟨member, -, rfl⟩
  all_goals
    refine .table (by simp) fun entry he => ?_
    simp only [List.mem_cons, List.not_mem_nil, or_false] at he
    rcases he with rfl | rfl | rfl | rfl <;> constructor

theorem keyed_eventEntry (e : EventSpec) : (eventEntry e).Keyed := by
  refine .table (by simp) fun entry he => ?_
  simp only [List.mem_cons, List.not_mem_nil, or_false] at he
  rcases he with rfl | rfl | rfl | rfl <;> constructor

theorem keyed_metadata (cmp : Component) : (metadata cmp).Keyed := by
  refine .table (by simp) fun entry he => ?_
  simp only [List.mem_cons, List.not_mem_nil, or_false] at he
  rcases he with rfl | rfl | rfl | rfl | rfl
  · exact .text _
  · exact .text _
  · exact .text _
  · exact .table (nodup_memberTable cmp) (keyed_memberTable cmp)
  · refine .list fun item hi => ?_
    obtain ⟨e, -, rfl⟩ := List.mem_map.mp hi
    exact keyed_eventEntry e

end Table

/-- The assignment that gives an event its emitter, with a literal whose value is the event's name. -/
def CreatesEvent (plan : Plan) (receiver : String) (e : EventSpec) : Stmt → Prop :=
  Stmt.IsLineOf fun small => ∃ literal, literal.literal? = some (.text e.name) ∧
    small.AssignsCall receiver e.emitter (splitDots plan.helpers.createEvent)
      [.name receiver, literal, .number (toString e.flags)]

section Class

variable {plan : Plan} {head : ClassHead} {body : Suite} {c t : Stmt} {receiver : String} {e : EventSpec}

theorem createsEvent_of_emits (h : Emits plan receiver e t) : CreatesEvent plan receiver e t := by
  obtain ⟨leading, small, tail, rfl, hassigns⟩ := h
  refine ⟨leading, small, tail, rfl, .string (Text.quoted e.name), ?_, hassigns⟩
  rw [Expr.literal?, Text.unquote?_quoted]
  rfl

theorem createsEvents_of_bootstrapped {ownHead : FuncHead} {own : Suite}
    (h : Bootstrapped plan (.func ownHead own)) :
    ∃ front first rest back, blockStatements own = front ++ first :: rest ++ back ∧
      List.Forall₂ (CreatesEvent plan (receiverOf ownHead.params)) plan.component.events rest := by
  obtain ⟨head, inner, front, block, back, he, -, hbody, first, rest, rfl, -, hevents⟩ := h
  obtain ⟨rfl, rfl⟩ := Stmt.func.inj he
  exact ⟨front, first, rest, back, hbody, hevents.imp fun _ _ => createsEvent_of_emits⟩

/-- The method that returns the metadata returns a literal that describes the component, and the name of
every event is read back from the line that creates its emitter, in the text and in the constructors. -/
theorem metadata_read_back (hn : plan.style.newline ∈ ["\n", "\r\n", "\r"])
    (hi : isPlainIndent plan.style.indent = true) (h : hydrateClass plan head body = .ok t) :
    ∃ newHead newBody members method, t = .class_ newHead newBody ∧
      blockStatements newBody = members ++ [method] ∧
      method.Defines ["staticmethod"] "cmp_meta" [] (Satisfy [Stmt.IsLineOf (Small.Returns fun e =>
        ∃ value, e.literal? = some value ∧ Describes plan.component value)]) ∧
      (∀ receiver, ∀ e ∈ plan.component.events, ∃ literal, Text.unquote? literal = some e.name ∧
        eventLine plan.helpers receiver e =
          s!"{receiver}.{e.emitter} = {plan.helpers.createEvent}({receiver}, {literal}, {e.flags})") ∧
      (PlainlyWritten plan → PlainReceivers (blockStatements body) →
        ∀ ownHead own, .func ownHead own ∈ members → ownHead.name = "__init__" →
          TakesHost ownHead.params → ∃ front first rest back,
            blockStatements own = front ++ first :: rest ++ back ∧
            List.Forall₂ (CreatesEvent plan (receiverOf ownHead.params)) plan.component.events rest) := by
  simp only [hydrateClass, bind_eq_ok] at h
  obtain ⟨new, hnew, he⟩ := h
  obtain rfl := Except.ok.inj he
  obtain ⟨parts, members, element, method, hparts, hm, helement, hmeta, rfl⟩ := hydrateBody_eq_ok hnew
  refine ⟨_, _, members ++ element, withBlank method, rfl, ?_, ?_, fun receiver e _ =>
    ⟨Text.quoted e.name, Text.unquote?_quoted e.name, rfl⟩, fun hp hr ownHead own hown hname htakes => ?_⟩
  · rw [blockStatements_withStatements]
  · refine defines_withBlank (defines_mono (defines_metadataMethod hn hi (keyed_metadata _) hmeta) ?_)
    intro block hblock
    obtain ⟨stmt, rest, ⟨leading, small, tail, rfl, gap, value, rfl, hvalue⟩, hrest, rfl⟩ :=
      List.forall₂_cons_left_iff.mp hblock
    refine .cons ⟨leading, _, tail, rfl, gap, value, rfl, _, hvalue, describes_metadata _⟩ hrest
  · refine createsEvents_of_bootstrapped ?_
    rcases List.mem_append.mp hown with hown | hown
    · exact (constructors_addConstructor hp hr hparts hm).1 _ hown
        (isConstructor_iff.mpr ⟨ownHead, own, rfl, hname⟩)
    · obtain ⟨head', inner', he, -, hhost⟩ := (element_cases hp helement).1 _ hown
      obtain ⟨rfl, rfl⟩ := Stmt.func.inj he
      exact absurd htakes hhost

end Class

/-- The card has one event, and an entry for the element. -/
theorem metadata_read_back_of_card :
    cardPlan.style.newline ∈ ["\n", "\r\n", "\r"] ∧ isPlainIndent cardPlan.style.indent = true ∧
    ∃ newHead newBody members method,
      hydrateClass cardPlan cardHead cardBody = .ok (.class_ newHead newBody) ∧
      blockStatements newBody = members ++ [method] ∧
      method.Defines ["staticmethod"] "cmp_meta" [] (Satisfy [Stmt.IsLineOf (Small.Returns fun e =>
        ∃ value, e.literal? = some value ∧ Describes cardPlan.component value)]) ∧
      memberEntry? cardPlan.component "el" =
        some (.table [("kind", .text "element"), ("internal", .flag true)]) := by
  have hn : cardPlan.style.newline ∈ ["\n", "\r\n", "\r"] := by decide
  have hi : isPlainIndent cardPlan.style.indent = true := by decide
  obtain ⟨t, ht⟩ := exists_hydrated_card
  obtain ⟨newHead, newBody, members, method, rfl, hsplit, hmethod, -⟩ := metadata_read_back hn hi ht
  exact ⟨hn, hi, newHead, newBody, members, method, ht, hsplit, hmethod, rfl⟩

end Hydration.Transform
