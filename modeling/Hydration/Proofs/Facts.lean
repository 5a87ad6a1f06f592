import Hydration.Imports.Supply
import Hydration.Proofs.Naming

/-! What a module's top level says about its names, as a list of facts in the order in which the
scan meets them. The scan is a fold over the facts, and every question to its result is a question
about them. -/

namespace Hydration.Imports

open Syntax

/-- One thing that a top-level statement says: a module is imported, a name is imported from a
module, all names are, or names are defined. -/
inductive Fact where
  | imports (full : String) (asName : Option String)
  | member (module name : String) (asName : Option String)
  | star (module : String)
  | defines (names : List String)
deriving DecidableEq

namespace Fact

def binds : Fact → List String
  | .imports full asName => [asName.getD ((splitDots full).headD "")]
  | .member _ name asName => [asName.getD name]
  | .star _ => []
  | .defines names => names

/-- The text by which a fact refers to a name of a module. -/
def memberText (module name : String) : Fact → Option String
  | .member m n asName => if m = module ∧ n = name then some (asName.getD n) else none
  | _ => none

/-- The text by which a fact refers to a module. -/
def moduleText (module : String) : Fact → Option String
  | .imports full asName => if full = module then some (asName.getD full) else none
  | _ => none

/-- The names of an import are those that the nodes of a tree can hold: dotted names for modules,
identifiers for all others. -/
def WellNamed : Fact → Prop
  | .imports full asName => IsDotted full ∧ ∀ a ∈ asName, Text.isIdentifier a = true
  | .member module name asName =>
    IsDotted module ∧ Text.isIdentifier name = true ∧ ∀ a ∈ asName, Text.isIdentifier a = true
  | .star module => IsDotted module
  | .defines _ => True

end Fact

theorem Fact.WellNamed.of_memberText {f : Fact} (hf : f.WellNamed) {module name text : String}
    (h : f.memberText module name = some text) :
    IsDotted module ∧ Text.isIdentifier name = true ∧ Text.isIdentifier text = true := by
  cases f with
  | member m n asName =>
    simp only [Fact.memberText, Option.ite_none_right_eq_some, Option.some.injEq] at h
    obtain ⟨⟨rfl, rfl⟩, rfl⟩ := h
    refine ⟨hf.1, hf.2.1, ?_⟩
    cases asName with
    | none => exact hf.2.1
    | some a => exact hf.2.2 a rfl
  | _ => simp [Fact.memberText] at h

theorem Fact.WellNamed.of_moduleText {f : Fact} (hf : f.WellNamed) {module text : String}
    (h : f.moduleText module = some text) : IsDotted module ∧ IsDotted text := by
  cases f with
  | imports full asName =>
    simp only [Fact.moduleText, Option.ite_none_right_eq_some, Option.some.injEq] at h
    obtain ⟨rfl, rfl⟩ := h
    refine ⟨hf.1, ?_⟩
    cases asName with
    | none => exact hf.1
    | some a => exact .of_identifier (hf.2 a rfl)
  | _ => simp [Fact.moduleText] at h

def aliasOf (item : ImportName) : Option String := item.asName.map (·.2)

def factsOfSmall : Small → List Fact
  | .import_ _ names => names.map fun item => .imports item.name.fullName (aliasOf item)
  | .importFrom _ [] (some path) _ _ .star => [.star path.fullName]
  | .importFrom _ [] (some path) _ _ (.names _ names) =>
    names.map fun item => .member path.fullName item.name.fullName (aliasOf item)
  | .assign targets _ => [.defines (targets.flatMap fun t => t.target.boundNames)]
  | .annAssign target _ _ _ => [.defines target.boundNames]
  | .augAssign target _ _ _ => [.defines target.boundNames]
  | _ => []

def factsOfEntries (entries : List Entry) : List Fact :=
  entries.flatMap fun entry => factsOfSmall entry.stmt

mutual

def factsOfStmt : Stmt → List Fact
  | .line line => factsOfEntries line.entries
  | .func head _ => [.defines [head.name]]
  | .class_ head _ => [.defines [head.name]]
  | .compound clauses => if isScanned clauses then factsOfClauses clauses else []

def factsOfSuite : Suite → List Fact
  | .block _ _ body _ => factsOfBody body
  | .inline _ entries _ => factsOfEntries entries

def factsOfClauses : List Clause → List Fact
  | [] => []
  | .mk _ head _ body :: rest =>
    (if ClauseHead.neverRuns head then [] else factsOfSuite body) ++ factsOfClauses rest

def factsOfBody : List Stmt → List Fact
  | [] => []
  | stmt :: rest => factsOfStmt stmt ++ factsOfBody rest

end

theorem factsOfBody_append (front back : List Stmt) :
    factsOfBody (front ++ back) = factsOfBody front ++ factsOfBody back := by
  induction front with
  | nil => rfl
  | cons stmt front ih => simp [factsOfBody, ih]

theorem factsOfBody_insertAt (body : List Stmt) (index : Nat) (statements : List Stmt) :
    factsOfBody (insertAt body index statements) =
      factsOfBody (body.take index) ++ factsOfBody statements ++ factsOfBody (body.drop index) := by
  simp [insertAt, factsOfBody_append]

theorem factsOfBody_split (body : List Stmt) (index : Nat) :
    factsOfBody body = factsOfBody (body.take index) ++ factsOfBody (body.drop index) := by
  rw [← factsOfBody_append, List.take_append_drop]

/-- The names in a module's top-level imports are names. -/
def WellNamed (m : Module) : Prop := ∀ f ∈ factsOfBody m.body, f.WellNamed

def Scope.learn (b : Scope) : Fact → Scope
  | .imports full asName =>
    { b with
      namespaces := addFirst b.namespaces full (asName.getD full)
      imported := b.imported ++ [asName.getD ((splitDots full).headD "")] }
  | .member module name asName =>
    { b with
      fromNames := addFirst b.fromNames (module, name) (asName.getD name)
      imported := b.imported ++ [asName.getD name] }
  | .star module => { b with starModules := b.starModules ++ [module] }
  | .defines names => b.define names

theorem addImport_eq_learn (b : Scope) (item : ImportName) :
    b.addImport item = b.learn (.imports item.name.fullName (aliasOf item)) := by
  cases h : item.asName with
  | none => simp [Scope.addImport, Scope.learn, aliasOf, h]
  | some asName => simp [Scope.addImport, Scope.learn, aliasOf, h]

theorem addFromName_eq_learn (module : String) (b : Scope) (item : ImportName) :
    Scope.addFromName module b item =
      b.learn (.member module item.name.fullName (aliasOf item)) := by
  cases h : item.asName with
  | none => simp [Scope.addFromName, Scope.learn, aliasOf, h]
  | some asName => simp [Scope.addFromName, Scope.learn, aliasOf, h]

theorem addSmall_eq_foldl (b : Scope) (small : Small) :
    b.addSmall small = (factsOfSmall small).foldl Scope.learn b := by
  cases small with
  | import_ gap names =>
    rw [Scope.addSmall, factsOfSmall, List.foldl_map, funext₂ addImport_eq_learn]
  | importFrom afterFrom dots path before after names =>
    cases dots with
    | cons dot dots => rfl
    | nil =>
      cases path with
      | none => rfl
      | some path =>
        cases names with
        | star => rfl
        | names parens names =>
          rw [Scope.addSmall, factsOfSmall, List.foldl_map, funext₂ (addFromName_eq_learn _)]
  | _ => rfl

theorem addEntries_eq_foldl (b : Scope) (entries : List Entry) :
    b.addEntries entries = (factsOfEntries entries).foldl Scope.learn b := by
  unfold Scope.addEntries factsOfEntries
  induction entries generalizing b with
  | nil => rfl
  | cons entry entries ih =>
    rw [List.foldl_cons, List.flatMap_cons, List.foldl_append, ih, addSmall_eq_foldl]

mutual

theorem scanStmt_eq_foldl (b : Scope) :
    (stmt : Stmt) → scanStmt b stmt = (factsOfStmt stmt).foldl Scope.learn b
  | .line line => by
    rw [scanStmt, factsOfStmt, addEntries_eq_foldl]
  | .func head body => rfl
  | .class_ head body => rfl
  | .compound clauses => by
    by_cases h : isScanned clauses = true
    · simp only [scanStmt, factsOfStmt, h, if_true]
      exact scanClauses_eq_foldl b clauses
    · simp [scanStmt, factsOfStmt, h]

theorem scanSuite_eq_foldl (b : Scope) :
    (body : Suite) → scanSuite b body = (factsOfSuite body).foldl Scope.learn b
  | .block header indent body footer => by
    rw [scanSuite, factsOfSuite]
    exact scanStmts_eq_foldl b body
  | .inline gap entries tail => by
    rw [scanSuite, factsOfSuite, addEntries_eq_foldl]

theorem scanClauses_eq_foldl (b : Scope) :
    (clauses : List Clause) → scanClauses b clauses = (factsOfClauses clauses).foldl Scope.learn b
  | [] => rfl
  | .mk leading head gap body :: rest => by
    rw [scanClauses, factsOfClauses, List.foldl_append, scanClauses_eq_foldl _ rest]
    by_cases h : ClauseHead.neverRuns head = true
    · simp [h]
    · simp only [h]
      rw [scanSuite_eq_foldl b body]
      rfl

theorem scanStmts_eq_foldl (b : Scope) :
    (body : List Stmt) → scanStmts b body = (factsOfBody body).foldl Scope.learn b
  | [] => rfl
  | stmt :: rest => by
    rw [scanStmts, factsOfBody, List.foldl_append, scanStmts_eq_foldl _ rest,
      scanStmt_eq_foldl b stmt]

end

theorem scanScope_eq_foldl (m : Module) :
    scanScope m = (factsOfBody m.body).foldl Scope.learn {} :=
  scanStmts_eq_foldl {} m.body

theorem lookup_addFirst {κ : Type} [BEq κ] [LawfulBEq κ] (entries : List (κ × String))
    (key other : κ) (value : String) :
    (addFirst entries key value).lookup other =
      (entries.lookup other).or (if key == other then some value else none) := by
  unfold addFirst
  by_cases hk : key = other
  · subst hk
    cases h : entries.lookup key with
    | none => simp [List.lookup_append, h]
    | some text => simp [h]
  · have hne : (other == key) = false := by simpa using Ne.symm hk
    split <;> simp [List.lookup_append, List.lookup_cons, hk, hne]

theorem mem_addFirst {κ : Type} [BEq κ] {entries : List (κ × String)} {key other : κ}
    {value text : String} :
    (other, text) ∈ addFirst entries key value ↔
      (other, text) ∈ entries ∨ entries.lookup key = none ∧ other = key ∧ text = value := by
  unfold addFirst
  cases h : entries.lookup key <;> simp

/-- A scope that keeps its first answer to a question gets it from the first fact that has one. -/
theorem foldl_learn_eq_findSome {α : Type} (ask : Scope → Option α) {tell : Fact → Option α}
    (h : ∀ b f, ask (b.learn f) = (ask b).or (tell f)) (b : Scope) (facts : List Fact) :
    ask (facts.foldl Scope.learn b) = (ask b).or (facts.findSome? tell) := by
  induction facts generalizing b with
  | nil => simp
  | cons fact facts ih =>
    rw [List.foldl_cons, ih, h, Option.or_assoc, List.findSome?_cons]
    cases tell fact <;> rfl

theorem foldl_learn_iff (P : Scope → Prop) {Q : Fact → Prop} (h : ∀ b f, P (b.learn f) ↔ P b ∨ Q f)
    (b : Scope) (facts : List Fact) : P (facts.foldl Scope.learn b) ↔ P b ∨ ∃ f ∈ facts, Q f := by
  induction facts generalizing b with
  | nil => simp
  | cons fact facts ih => rw [List.foldl_cons, ih, h, or_assoc, List.exists_mem_cons_iff]

theorem fromNames_learn (b : Scope) (f : Fact) (module name : String) :
    (b.learn f).fromNames.lookup (module, name) =
      (b.fromNames.lookup (module, name)).or (f.memberText module name) := by
  cases f with
  | member m n asName =>
    simp only [Scope.learn, lookup_addFirst, beq_iff_eq, Prod.mk.injEq, Fact.memberText]
  | _ => simp [Scope.learn, Fact.memberText, Scope.define]

theorem namespaces_learn (b : Scope) (f : Fact) (module : String) :
    (b.learn f).namespaces.lookup module = (b.namespaces.lookup module).or (f.moduleText module) := by
  cases f with
  | imports full asName =>
    simp only [Scope.learn, lookup_addFirst, beq_iff_eq, Fact.moduleText]
  | _ => simp [Scope.learn, Fact.moduleText, Scope.define]

theorem mem_starModules_learn (b : Scope) (f : Fact) (module : String) :
    module ∈ (b.learn f).starModules ↔ module ∈ b.starModules ∨ f = .star module := by
  cases f <;> simp [Scope.learn, Scope.define, eq_comm]

theorem mem_boundNames_learn (b : Scope) (f : Fact) (x : String) :
    x ∈ (b.learn f).boundNames ↔ x ∈ b.boundNames ∨ x ∈ f.binds := by
  cases f <;> simp only [Scope.learn, Scope.define, Scope.boundNames, Fact.binds, List.mem_append,
    List.mem_cons, List.not_mem_nil] <;> tauto

theorem mem_namespaces_foldl_learn (b : Scope) (facts : List Fact) (module text : String) :
    (module, text) ∈ (facts.foldl Scope.learn b).namespaces ↔
      (module, text) ∈ b.namespaces ∨
        b.namespaces.lookup module = none ∧
          facts.findSome? (Fact.moduleText module) = some text := by
  induction facts generalizing b with
  | nil => simp
  | cons fact facts ih =>
    rw [List.foldl_cons, ih, List.findSome?_cons]
    cases fact with
    | imports full asName =>
      simp only [Scope.learn, mem_addFirst, lookup_addFirst, Fact.moduleText]
      by_cases h : full = module
      · subst h
        cases hl : b.namespaces.lookup full <;> simp [eq_comm]
      · simp [h, Ne.symm h]
    | _ => simp [Scope.learn, Fact.moduleText, Scope.define]

/-- The text that the facts give for a name of a module: the name itself if it is imported, or
through the module, or by a star. -/
def resolveIn (facts : List Fact) (module name : String) : Option String :=
  ((facts.findSome? (Fact.memberText module name)).or
    ((facts.findSome? (Fact.moduleText module)).map fun text => text ++ "." ++ name)).or
    (if .star module ∈ facts then some name else none)

theorem fromNames_scanScope (m : Module) (module name : String) :
    (scanScope m).fromNames.lookup (module, name) =
      (factsOfBody m.body).findSome? (Fact.memberText module name) := by
  rw [scanScope_eq_foldl]
  exact foldl_learn_eq_findSome (fun b => b.fromNames.lookup (module, name))
    (fun b f => fromNames_learn b f module name) {} _

theorem namespaces_scanScope (m : Module) (module : String) :
    (scanScope m).namespaces.lookup module =
      (factsOfBody m.body).findSome? (Fact.moduleText module) := by
  rw [scanScope_eq_foldl]
  exact foldl_learn_eq_findSome (fun b => b.namespaces.lookup module)
    (fun b f => namespaces_learn b f module) {} _

theorem mem_starModules_scanScope {m : Module} {module : String} :
    module ∈ (scanScope m).starModules ↔ .star module ∈ factsOfBody m.body := by
  rw [scanScope_eq_foldl, foldl_learn_iff (fun b => module ∈ b.starModules)
    fun b f => mem_starModules_learn b f module]
  simp

theorem resolve_scanScope (m : Module) (module name : String) :
    (scanScope m).resolve module name = resolveIn (factsOfBody m.body) module name := by
  simp only [Scope.resolve, resolveIn, fromNames_scanScope, namespaces_scanScope,
    List.contains_iff_mem, mem_starModules_scanScope]
  cases (factsOfBody m.body).findSome? (Fact.memberText module name) with
  | some text => rfl
  | none => cases (factsOfBody m.body).findSome? (Fact.moduleText module) <;> simp

theorem mem_boundNames_scanScope {m : Module} {x : String} :
    x ∈ (scanScope m).boundNames ↔ ∃ f ∈ factsOfBody m.body, x ∈ f.binds := by
  rw [scanScope_eq_foldl, foldl_learn_iff (fun b => x ∈ b.boundNames)
    fun b f => mem_boundNames_learn b f x]
  simp [Scope.boundNames]

theorem importsRoot_scanScope {m : Module} {root : String} :
    (scanScope m).importsRoot root = true ↔
      ∃ full, (factsOfBody m.body).findSome? (Fact.moduleText full) = some full ∧
        (splitDots full).headD "" = root := by
  have hh := mem_namespaces_foldl_learn {} (factsOfBody m.body)
  rw [← scanScope_eq_foldl] at hh
  simp only [List.not_mem_nil, List.lookup_nil, true_and, false_or] at hh
  simp only [Scope.importsRoot, List.any_eq_true, Prod.exists, Bool.and_eq_true, beq_iff_eq, hh]
  constructor
  · rintro ⟨full, text, hf, rfl, hr⟩
    exact ⟨text, hf, hr⟩
  · rintro ⟨full, hf, hr⟩
    exact ⟨full, full, hf, rfl, hr⟩

end Hydration.Imports
