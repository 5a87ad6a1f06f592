import Hydration.Proofs.ElementTargets
import Hydration.Proofs.FunctionTexts

/-! The members that a hydrated class is given, as they are read from their texts: the constructor with
its parameters and its block, the property for the element, and the method that returns the metadata. -/

namespace Hydration.Transform

open Syntax

/-- The names and the indentation of a plan are such that the generated members are read as they are
meant. -/
structure PlainlyWritten (plan : Plan) : Prop extends PlainlyNamed plan where
  element : IsPlainDotted plan.helpers.element
  member : ∀ name ∈ plan.component.elementMember, IsPlainName name
  indent : isPlainIndent plan.style.indent = true

/-- The call that registers the instance. -/
def Registers (plan : Plan) (receiver : String) : Stmt → Prop :=
  Stmt.IsLineOf (Small.IsCall (splitDots plan.helpers.register) [.name receiver, .name hostName])

/-- The assignment that gives an event its emitter. -/
def Emits (plan : Plan) (receiver : String) (e : EventSpec) : Stmt → Prop :=
  Stmt.IsLineOf (Small.AssignsCall receiver e.emitter (splitDots plan.helpers.createEvent)
    [.name receiver, .string (Text.quoted e.name), .number (toString e.flags)])

def IsBlock (plan : Plan) (receiver : String) (block : List Stmt) : Prop :=
  ∃ first rest, block = first :: rest ∧ Registers plan receiver first ∧
    List.Forall₂ (Emits plan receiver) plan.component.events rest

section Blocks

variable {plan : Plan} {receiver : String} {e : EventSpec} {events : List EventSpec}

theorem isBlock_of_bootstraps {first : Stmt} {rest : List Stmt} (hp : PlainlyNamed plan)
    (hr : IsPlainName receiver) (h : Bootstraps plan receiver first rest) :
    IsBlock plan receiver (first :: rest) := by
  have hcreates := h.creates hr hp.createEvent
  refine ⟨first, rest, rfl, h.registers hr hp.register, ?_⟩
  exact ((List.forall₂_and_left _ _).mpr ⟨hp.emitters, hcreates⟩).imp fun e s h => h.2 h.1

theorem exists_registerLine (hp : PlainlyNamed plan) (hr : IsPlainName receiver) :
    ∃ line : CodeLine, line.code = (s!"{plan.helpers.register}({receiver}, {hostName})").toList ∧
      line.Means plan.style.newline (Registers plan receiver) := by
  have hargs : ∀ a ∈ [Argument.name receiver, .name hostName], a.IsPlain :=
    List.forall_mem_cons.mpr ⟨hr, List.forall_mem_singleton.mpr isPlainName_hostName⟩
  obtain ⟨line, hcode, hmeans⟩ := exists_callLine hp.register hargs hp.newline
  refine ⟨line, ?_, hmeans⟩
  rw [hcode, toList_registerLine]
  rfl

theorem exists_eventLine (hp : PlainlyNamed plan) (hr : IsPlainName receiver)
    (he : IsPlainName e.emitter) :
    ∃ line : CodeLine, line.code = (eventLine plan.helpers receiver e).toList ∧
      line.Means plan.style.newline (Emits plan receiver e) := by
  have hargs : ∀ a ∈ [Argument.name receiver, .text e.name, .number e.flags], a.IsPlain :=
    List.forall_mem_cons.mpr ⟨hr, List.forall_mem_cons.mpr
      ⟨trivial, List.forall_mem_singleton.mpr trivial⟩⟩
  obtain ⟨line, hcode, hmeans⟩ := exists_assignLine hr he hp.createEvent hargs hp.newline
  refine ⟨line, ?_, hmeans⟩
  rw [hcode, toList_eventLine]
  rfl

theorem exists_eventLines (hp : PlainlyNamed plan) (hr : IsPlainName receiver)
    (he : ∀ e ∈ events, IsPlainName e.emitter) :
    ∃ lines : List CodeLine, lines.map CodeLine.code =
        events.map (fun e => (eventLine plan.helpers receiver e).toList) ∧
      List.Forall₂ (CodeLine.Means plan.style.newline) lines (events.map (Emits plan receiver)) := by
  induction events with
  | nil => exact ⟨[], rfl, .nil⟩
  | cons e events ih =>
    obtain ⟨he, hevents⟩ := List.forall_mem_cons.mp he
    obtain ⟨lines, hcodes, hlines⟩ := ih hevents
    obtain ⟨line, hcode, hline⟩ := exists_eventLine hp hr he
    exact ⟨line :: lines, by rw [List.map_cons, hcode, hcodes, List.map_cons], .cons hline hlines⟩

/-- The lines that start a constructor, each with its meaning. -/
theorem exists_startLines (hp : PlainlyNamed plan) (hr : IsPlainName receiver) :
    ∃ lines : List CodeLine, lines.map CodeLine.code = (startLines plan receiver).map String.toList ∧
      List.Forall₂ (CodeLine.Means plan.style.newline) lines
        (Registers plan receiver :: plan.component.events.map (Emits plan receiver)) := by
  obtain ⟨first, hcode, hfirst⟩ := exists_registerLine hp hr
  obtain ⟨lines, hcodes, hlines⟩ := exists_eventLines hp hr hp.emitters
  refine ⟨first :: lines, ?_, .cons hfirst hlines⟩
  rw [List.map_cons, hcode, hcodes, startLines, List.map_cons, List.map_map]
  rfl

theorem isBlock_of_satisfy {block : List Stmt} (h : Satisfy (Registers plan receiver ::
    plan.component.events.map (Emits plan receiver)) block) : IsBlock plan receiver block := by
  obtain ⟨first, rest, hfirst, hrest, rfl⟩ := List.forall₂_cons_left_iff.mp h
  rw [List.forall₂_map_left_iff] at hrest
  exact ⟨first, rest, rfl, hfirst, hrest⟩

end Blocks

section Defined

variable {decorators params : List String} {name : String} {P Q : List Stmt → Prop} {stmt : Stmt}

theorem defines_withBlank (h : stmt.Defines decorators name params P) :
    (withBlank stmt).Defines decorators name params P := by
  obtain ⟨head, body, rfl, hd, hname, hparams, hbody⟩ := h
  unfold withBlank
  split
  · exact ⟨{ head with leading := [blankLine] }, body, rfl, hd, hname, hparams, hbody⟩
  · exact ⟨head, body, rfl, hd, hname, hparams, hbody⟩

theorem defines_mono (h : stmt.Defines decorators name params P) (hPQ : ∀ body, P body → Q body) :
    stmt.Defines decorators name params Q := by
  obtain ⟨head, body, rfl, hd, hname, hparams, hbody⟩ := h
  exact ⟨head, body, rfl, hd, hname, hparams, hPQ _ hbody⟩

end Defined

section Members

variable {plan : Plan} {stmt : Stmt} {name : String} {lines : List CodeLine}

theorem isPlainName_self : IsPlainName "self" := by decide

theorem flatMap_chars (indent newline : String) (lines : List CodeLine) :
    lines.flatMap (CodeLine.chars indent newline) = (lines.map CodeLine.code).flatMap fun code =>
      indent.toList ++ (code ++ newline.toList) := by
  rw [List.flatMap_map]
  rfl

theorem defines_newConstructor (hp : PlainlyNamed plan) (hi : isPlainIndent plan.style.indent = true)
    (h : newConstructor plan = .ok stmt) :
    stmt.Defines [] "__init__" ["self", hostName] (IsBlock plan "self") := by
  obtain ⟨lines, hcodes, hlines⟩ := exists_startLines hp isPlainName_self
  have hname : IsPlainName "__init__" := by decide
  have hparams : ∀ p ∈ ["self", hostName], IsPlainName p := by decide
  have hne : lines ≠ [] := by
    rintro rfl
    cases hlines
  have htext : (constructorText plan).toList =
      [CodeLine.head hname hparams].flatMap (CodeLine.chars "" plan.style.newline) ++
        lines.flatMap (CodeLine.chars plan.style.indent plan.style.newline) := by
    rw [toList_constructorText, flatMap_chars _ _ lines, hcodes, List.flatMap_map,
      List.flatMap_singleton, CodeLine.chars_head]
    simp [paramChars, argumentChars, Argument.chars, hostName]
  have hdefines := defines_of_parse (isIndent_iff.mpr hi) hp.newline (List.forall_mem_nil _) hname
    hparams rfl hne hlines htext h
  exact defines_mono hdefines fun _ => isBlock_of_satisfy

theorem defines_elementGetter (hp : PlainlyWritten plan) (hn : IsPlainName name)
    (h : elementGetter plan name = .ok stmt) :
    stmt.Defines ["property"] name ["self"] (Satisfy [Stmt.IsLineOf (Small.Returns fun call =>
      ∃ f, f.segments = splitDots plan.helpers.element ∧ call.Calls f [.name "self"])]) := by
  have hself : ∀ a ∈ [Argument.name "self"], a.IsPlain :=
    List.forall_mem_singleton.mpr isPlainName_self
  obtain ⟨line, hcode, hline⟩ := exists_returnCallLine hp.element hself hp.newline
  have hword : IsPlainName "property" := by decide
  have hparams : ∀ p ∈ ["self"], IsPlainName p := by decide
  have htext : (elementText plan name).toList =
      [CodeLine.decorator hword, CodeLine.head hn hparams].flatMap
          (CodeLine.chars "" plan.style.newline) ++
        [line].flatMap (CodeLine.chars plan.style.indent plan.style.newline) := by
    rw [toList_elementText, flatMap_chars _ _ [line], List.map_singleton, hcode, List.flatMap_cons,
      List.flatMap_singleton, List.flatMap_singleton, CodeLine.chars_decorator, CodeLine.chars_head]
    simp [paramChars, callChars, argumentChars, Argument.chars]
  exact defines_of_parse (isIndent_iff.mpr hp.indent) hp.newline (List.forall_mem_singleton.mpr hword)
    hn hparams rfl (List.cons_ne_nil _ _) (.cons hline .nil) htext h

theorem defines_metadataMethod (hn : plan.style.newline ∈ ["\n", "\r\n", "\r"])
    (hi : isPlainIndent plan.style.indent = true) (hk : (metadata plan.component).Keyed)
    (h : metadataMethod plan = .ok stmt) :
    stmt.Defines ["staticmethod"] "cmp_meta" [] (Satisfy [Stmt.IsLineOf (Small.Returns fun e =>
      e.literal? = some (metadata plan.component))]) := by
  obtain ⟨line, hcode, hline⟩ := exists_literalLine hk hn
  have hword : IsPlainName "staticmethod" := by decide
  have hname : IsPlainName "cmp_meta" := by decide
  have htext : (metadataText plan).toList =
      [CodeLine.decorator hword, CodeLine.head hname (List.forall_mem_nil _)].flatMap
          (CodeLine.chars "" plan.style.newline) ++
        [line].flatMap (CodeLine.chars plan.style.indent plan.style.newline) := by
    rw [toList_metadataText, flatMap_chars _ _ [line], List.map_singleton, hcode, List.flatMap_cons,
      List.flatMap_singleton, List.flatMap_singleton, CodeLine.chars_decorator, CodeLine.chars_head]
    simp [paramChars]
  exact defines_of_parse (isIndent_iff.mpr hi) hn (List.forall_mem_singleton.mpr hword)
    hname (List.forall_mem_nil _) rfl (List.cons_ne_nil _ _) (.cons hline .nil) htext h

end Members

end Hydration.Transform
