import Hydration.Proofs.Facts
import Mathlib.Data.List.Induction

/-! Running the top level of a module. Statements bind names one after another, and the last binding
of a name wins; a text denotes a name of a module through the one binding that it hangs on. -/

namespace Hydration.Imports

open Syntax

/-- What a name may stand for: a module or package by its path, a name of a module, or something
that has nothing to do with either. -/
inductive Value where
  | package (path : List String)
  | member (module name : String)
  | unrelated
deriving DecidableEq

abbrev Binding := String × Value

def rootOf (name : String) : String := (splitDots name).headD ""

/-- An import under an alias binds the module to it; any other binds the root to its package. -/
def bindingOfImport (item : ImportName) : Binding :=
  match item.asName with
  | some (_, asName) => (asName, .package (splitDots item.name.fullName))
  | none => (rootOf item.name.fullName, .package [rootOf item.name.fullName])

def boundBy (item : ImportName) : String := (aliasOf item).getD item.name.fullName

def bindingsOfSmall : Small → List Binding
  | .import_ _ names => names.map bindingOfImport
  | .importFrom _ [] (some path) _ _ (.names _ names) =>
    names.map fun item => (boundBy item, .member path.fullName item.name.fullName)
  | .importFrom _ _ _ _ _ (.names _ names) => names.map fun item => (boundBy item, .unrelated)
  | .assign targets _ =>
    (targets.flatMap fun t => t.target.boundNames).map fun x => (x, .unrelated)
  | .annAssign target _ _ (some _) => target.boundNames.map fun x => (x, .unrelated)
  | .augAssign target _ _ _ => target.boundNames.map fun x => (x, .unrelated)
  | _ => []

def bindingsOfStmt : Stmt → List Binding
  | .line line => line.entries.flatMap fun entry => bindingsOfSmall entry.stmt
  | .func head _ => [(head.name, .unrelated)]
  | .class_ head _ => [(head.name, .unrelated)]
  | .compound _ => []

def bindingsOf (body : List Stmt) : List Binding := body.flatMap bindingsOfStmt

/-- Imports that name what they import, assignments, functions and classes. -/
def IsPlainSmall : Small → Prop
  | .import_ .. => True
  | .importFrom _ _ _ _ _ (.names ..) => True
  | .assign .. => True
  | .annAssign .. => True
  | .augAssign .. => True
  | _ => False

def IsPlainStmt : Stmt → Prop
  | .line line => ∀ entry ∈ line.entries, IsPlainSmall entry.stmt
  | .func .. => True
  | .class_ .. => True
  | .compound _ => False

/-- No name is bound to two values. A root may be bound again and again to its package. -/
def Consistent (bindings : List Binding) : Prop :=
  ∀ x v w, (x, v) ∈ bindings → (x, w) ∈ bindings → v = w

abbrev Env := String → Option Value

def Env.bind (env : Env) (binding : Binding) : Env :=
  fun x => if x = binding.1 then some binding.2 else env x

def run (bindings : List Binding) : Env := bindings.foldl Env.bind fun _ => none

def execute (m : Module) : Env := run (bindingsOf m.body)

theorem run_append_singleton (bindings : List Binding) (binding : Binding) (x : String) :
    run (bindings ++ [binding]) x =
      if x = binding.1 then some binding.2 else run bindings x := by
  simp [run, Env.bind]

theorem run_append_of_mem (first : List Binding) {second : List Binding} {x : String} {v : Value}
    (h : (x, v) ∈ second) :
    ∃ w, (x, w) ∈ second ∧ run (first ++ second) x = some w := by
  induction second using List.reverseRecOn with
  | nil => simp at h
  | append_singleton second binding ih =>
    rw [← List.append_assoc, run_append_singleton]
    by_cases hx : x = binding.1
    · exact ⟨binding.2, by simp [hx], by rw [if_pos hx]⟩
    · rcases List.mem_append.mp h with h | h
      · obtain ⟨w, hw, hr⟩ := ih h
        exact ⟨w, List.mem_append_left _ hw, by rw [if_neg hx]; exact hr⟩
      · exact absurd (congrArg Prod.fst (List.mem_singleton.mp h)) hx

theorem run_append_of_unique (first : List Binding) {second : List Binding} {x : String}
    {v : Value} (h : (x, v) ∈ second) (hu : ∀ w, (x, w) ∈ second → w = v) :
    run (first ++ second) x = some v := by
  obtain ⟨w, hw, hr⟩ := run_append_of_mem first h
  rw [hr, hu w hw]

/-- New bindings disturb nothing: no new name is bound again behind them to another value, none is
bound to two values, and none takes a name in use away from an earlier binding. -/
structure Undisturbed (front new back : List Binding) (used : List String) : Prop where
  behind : ∀ x v w, (x, v) ∈ new → (x, w) ∈ back → v = w
  among : ∀ x v w, (x, v) ∈ new → (x, w) ∈ new → v = w
  in_use : ∀ x v w, x ∈ used → (x, v) ∈ new → (x, w) ∈ front → v = w

theorem Undisturbed.of_subset {front new new' back : List Binding} {used : List String}
    (hu : Undisturbed front new back used) (h : new' ⊆ new) : Undisturbed front new' back used where
  behind x v w hv hw := hu.behind x v w (h hv) hw
  among x v w hv hw := hu.among x v w (h hv) (h hw)
  in_use x v w hx hv hw := hu.in_use x v w hx (h hv) hw

/-- A name in use keeps its value: whatever binds it once more binds it to the same. -/
theorem Undisturbed.run_of_used {front new back : List Binding} {used : List String}
    (hu : Undisturbed front new back used) (hc : Consistent (front ++ back)) {x : String} {v : Value}
    (hx : x ∈ used) (hmem : (x, v) ∈ front ++ back) : run (front ++ new ++ back) x = some v := by
  have hall : (x, v) ∈ front ++ new ++ back := by
    rcases List.mem_append.mp hmem with hm | hm
    · exact List.mem_append_left _ (List.mem_append_left _ hm)
    · exact List.mem_append_right _ hm
  apply run_append_of_unique [] hall
  intro w hw
  rcases List.mem_append.mp hw with hw | hw
  · rcases List.mem_append.mp hw with hw | hw
    · exact hc x w v (List.mem_append_left _ hw) hmem
    · rcases List.mem_append.mp hmem with hm | hm
      · exact hu.in_use x w v hx hw hm
      · exact hu.behind x w v hw hm
  · exact hc x w v (List.mem_append_right _ hw) hmem

theorem Undisturbed.run_of_new {front new back : List Binding} {used : List String}
    (hu : Undisturbed front new back used) {x : String} {v : Value} (hv : (x, v) ∈ new) :
    run (front ++ new ++ back) x = some v := by
  rw [List.append_assoc]
  apply run_append_of_unique front (List.mem_append_left _ hv)
  intro w hw
  rcases List.mem_append.mp hw with hw | hw
  · exact hu.among x w v hw hv
  · exact (hu.behind x v w hv hw).symm

/-- Names in use keep their values and new names get theirs exactly if nothing is disturbed. -/
theorem run_around_iff {front new back : List Binding} {used : List String}
    (hc : Consistent (front ++ back)) :
    ((∀ x v, x ∈ used → (x, v) ∈ front ++ back → run (front ++ new ++ back) x = some v) ∧
      ∀ x v, (x, v) ∈ new → run (front ++ new ++ back) x = some v) ↔
      Undisturbed front new back used := by
  constructor
  · rintro ⟨hused, hnew⟩
    constructor
    · intro x v w hv hw
      obtain ⟨w', hw', hr⟩ := run_append_of_mem (front ++ new) hw
      have he := hc x w w' (List.mem_append_right _ hw) (List.mem_append_right _ hw')
      rw [he]
      exact Option.some.inj ((hnew x v hv).symm.trans hr)
    · intro x v w hv hw
      exact Option.some.inj ((hnew x v hv).symm.trans (hnew x w hw))
    · intro x v w hx hv hw
      have hr := hused x w hx (List.mem_append_left _ hw)
      exact Option.some.inj ((hnew x v hv).symm.trans hr)
  · exact fun hu => ⟨fun x v => hu.run_of_used hc, fun x v => hu.run_of_new⟩

/-- A dotted text leads to a module if its root stands for a package from which the rest of the text
goes on to the module. -/
def Leads (env : Env) (text module : String) : Prop :=
  ∃ path, env (rootOf text) = some (.package path) ∧
    path ++ (splitDots text).tail = splitDots module

/-- A plain name denotes what it stands for, a dotted text a name of the module it leads to. -/
def Denotes (env : Env) (text module name : String) : Prop :=
  splitDots text = [text] ∧ env text = some (.member module name) ∨
    ∃ start, text = start ++ "." ++ name ∧ Leads env start module

/-- A text denotes the name of the module just where the binding is in force. -/
def HangsOn (text module name : String) (binding : Binding) : Prop :=
  ∀ env, Denotes env text module name ↔ env binding.1 = some binding.2

theorem splitDots_append_ne (start name text : String) :
    splitDots (start ++ "." ++ name) ≠ [text] := by
  intro h
  rw [splitDots_append] at h
  have hl := congrArg List.length h
  have hs := List.length_pos_iff.mpr (splitDots_ne_nil start)
  have hn := List.length_pos_iff.mpr (splitDots_ne_nil name)
  simp only [List.length_append, List.length_singleton] at hl
  omega

theorem hangsOn_plain {text : String} (ht : splitDots text = [text]) (module name : String) :
    HangsOn text module name (text, .member module name) := by
  intro env
  constructor
  · rintro (⟨-, h⟩ | ⟨start, he, -⟩)
    · exact h
    · rw [he] at ht
      exact absurd ht (splitDots_append_ne start name _)
  · intro h
    exact .inl ⟨ht, h⟩

theorem denotes_dotted_iff (env : Env) (start module name : String) :
    Denotes env (start ++ "." ++ name) module name ↔ Leads env start module := by
  constructor
  · rintro (⟨ht, -⟩ | ⟨other, he, hl⟩)
    · exact absurd ht (splitDots_append_ne start name _)
    · have hs : start = other := by simpa using he
      exact hs ▸ hl
  · intro h
    exact .inr ⟨start, rfl, h⟩

theorem hangsOn_alias {asName : String} (ha : splitDots asName = [asName]) (module name : String) :
    HangsOn (asName ++ "." ++ name) module name (asName, .package (splitDots module)) := by
  intro env
  rw [denotes_dotted_iff]
  simp [Leads, rootOf, ha]

theorem hangsOn_root (module name : String) :
    HangsOn (module ++ "." ++ name) module name (rootOf module, .package [rootOf module]) := by
  intro env
  rw [denotes_dotted_iff, Leads]
  have hs : splitDots module = rootOf module :: (splitDots module).tail := by
    cases h : splitDots module with
    | nil => exact absurd h (splitDots_ne_nil module)
    | cons root rest => simp [rootOf, h]
  constructor
  · rintro ⟨path, he, hp⟩
    rw [hs] at hp
    have hpath : path = [rootOf module] := by simpa using List.append_cancel_right (hp.trans rfl)
    rw [he, hpath]
  · intro h
    exact ⟨_, h, hs.symm⟩

theorem rootOf_append (start name : String) : rootOf (start ++ "." ++ name) = rootOf start := by
  cases h : splitDots start with
  | nil => exact absurd h (splitDots_ne_nil start)
  | cons root rest => simp [rootOf, splitDots_append, h]

theorem splitDots_identifier {name : String} (h : Text.isIdentifier name = true) :
    splitDots name = [name] := splitDots_of_dot_not_mem (dot_not_mem h)

theorem rootOf_identifier {name : String} (h : Text.isIdentifier name = true) :
    rootOf name = name := by
  simp [rootOf, splitDots_identifier h]

end Hydration.Imports
