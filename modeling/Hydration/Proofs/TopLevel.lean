import Hydration.Proofs.Soundness
import Hydration.Proofs.Splicing
import Hydration.Transform.Constructor

/-! Which names the top level of a module binds, and which of them the scan sees. It misses relative
imports, the names in the heads of clauses, and all that stands in a compound statement other than
`if` and plain `try`. -/

namespace Hydration.Syntax

def Member.target? : Member → Option Expr
  | .item (.starred _ value) _ => some value
  | .item value _ => some value
  | _ => none

/-- An assignment to a target binds a name: the target itself, or one of the targets in its brackets.
There a target may have a star. -/
inductive Expr.TargetBinds (x : String) : Expr → Prop where
  | name : TargetBinds x (.name x)
  | paren {before after : Gap} {inner : Expr} (h : TargetBinds x inner) :
      TargetBinds x (.paren before inner after)
  | tuple {members : List Member} {member : Member} {target : Expr} (hm : member ∈ members)
      (ht : target ∈ member.target?) (h : TargetBinds x target) :
      TargetBinds x (.tuple members)
  | list {before after : Gap} {members : List Member} {member : Member} {target : Expr}
      (hm : member ∈ members) (ht : target ∈ member.target?) (h : TargetBinds x target) :
      TargetBinds x (.list before members after)

/-- A small statement imports a name or assigns to it. -/
def Small.Introduces (x : String) : Small → Prop
  | .import_ _ names => ∃ item ∈ names, (Imports.bindingOfImport item).1 = x
  | .importFrom _ _ _ _ _ (.names _ names) => ∃ item ∈ names, Imports.boundBy item = x
  | .assign targets _ => ∃ t ∈ targets, t.target.TargetBinds x
  | .annAssign target _ _ _ => target.TargetBinds x
  | .augAssign target _ _ _ => target.TargetBinds x
  | _ => False

/-- The head of a loop or of a block has a name as a target, or that of an exception. -/
def ClauseHead.Introduces (x : String) : ClauseHead → Prop
  | .for_ _ _ target _ _ => target.TargetBinds x
  | .with_ _ _ _ items => ∃ item ∈ items, ∃ target ∈ item.target, target.2.TargetBinds x
  | .except _ (some name) => name.2 = x
  | .exceptStar _ _ _ (some name) => name.2 = x
  | _ => False

/-- A statement introduces a name by itself, the statements inside it apart. -/
def Stmt.Introduces (x : String) : Stmt → Prop
  | .line l => ∃ entry ∈ l.entries, entry.stmt.Introduces x
  | .func head _ => head.name = x
  | .class_ head _ => head.name = x
  | .compound clauses => ∃ clause ∈ clauses, clause.head.Introduces x

/-- A name is imported from a package that is given relative to the module. -/
def Small.ImportsRelatively (x : String) : Small → Prop
  | .importFrom _ dots path _ _ (.names _ names) =>
    (dots ≠ [] ∨ path = none) ∧ ∃ item ∈ names, Imports.boundBy item = x
  | _ => False

section Targets

variable {x : String}

theorem mem_boundNamesOfMembers {members : List Member} :
    x ∈ Expr.boundNames.boundNamesOfMembers members ↔
      ∃ member ∈ members, ∃ target ∈ member.target?, x ∈ target.boundNames := by
  induction members with
  | nil => simp [Expr.boundNames.boundNamesOfMembers]
  | cons member members ih =>
    rw [List.exists_mem_cons_iff, ← ih]
    cases member with
    | item value comma =>
      cases value <;> simp [Expr.boundNames.boundNamesOfMembers, Member.target?]
    | _ => simp [Expr.boundNames.boundNamesOfMembers, Member.target?]

theorem sizeOf_target_lt {members : List Member} {member : Member} {target : Expr}
    (hm : member ∈ members) (ht : target ∈ member.target?) : sizeOf target < sizeOf members := by
  have hlt := List.sizeOf_lt_of_mem hm
  cases member with
  | item value comma =>
    cases value with
    | starred gap value =>
      obtain rfl := Option.some.inj ht
      simp only [Member.item.sizeOf_spec, Expr.starred.sizeOf_spec] at hlt
      omega
    | _ =>
      obtain rfl := Option.some.inj ht
      simp only [Member.item.sizeOf_spec] at hlt
      omega
  | _ => simp [Member.target?] at ht

theorem mem_boundNames_iff (e : Expr) : x ∈ e.boundNames ↔ e.TargetBinds x := by
  cases e with
  | name id =>
    rw [Expr.boundNames, List.mem_singleton]
    constructor
    · rintro rfl
      exact .name
    · intro h
      cases h
      rfl
  | paren before inner after =>
    rw [Expr.boundNames, mem_boundNames_iff inner]
    constructor
    · exact .paren
    · intro h
      cases h with
      | paren h => exact h
  | tuple members =>
    rw [Expr.boundNames, mem_boundNamesOfMembers]
    constructor
    · rintro ⟨member, hm, target, ht, h⟩
      have hlt := sizeOf_target_lt hm ht
      exact .tuple hm ht ((mem_boundNames_iff target).mp h)
    · intro h
      cases h with
      | tuple hm ht h =>
        have hlt := sizeOf_target_lt hm ht
        exact ⟨_, hm, _, ht, (mem_boundNames_iff _).mpr h⟩
  | list before members after =>
    rw [Expr.boundNames, mem_boundNamesOfMembers]
    constructor
    · rintro ⟨member, hm, target, ht, h⟩
      have hlt := sizeOf_target_lt hm ht
      exact .list hm ht ((mem_boundNames_iff target).mp h)
    · intro h
      cases h with
      | list hm ht h =>
        have hlt := sizeOf_target_lt hm ht
        exact ⟨_, hm, _, ht, (mem_boundNames_iff _).mpr h⟩
  | _ => exact iff_of_false (by simp [Expr.boundNames]) nofun
termination_by sizeOf e
decreasing_by all_goals (subst_vars; simp_wf; omega)

end Targets

end Hydration.Syntax

namespace Hydration.Imports

open Syntax Transform

/-- A statement stands in another one, which it may be itself, inside clauses that are entered. What
is entered may depend on the clauses around. -/
inductive Reached (enters : List Clause → Clause → List Clause → Prop) (t : Stmt) : Stmt → Prop where
  | here : Reached enters t t
  | inside {clauses before after : List Clause} {clause : Clause} {s : Stmt}
      (hc : clauses = before ++ clause :: after) (he : enters before clause after)
      (hs : s ∈ blockStatements clause.body) (h : Reached enters t s) :
      Reached enters t (.compound clauses)

/-- The clauses that are part of the top level. -/
def Runs (_ : List Clause) (clause : Clause) (_ : List Clause) : Prop :=
  ClauseHead.neverRuns clause.head = false

/-- The clauses that the scan enters. -/
def Scans (before : List Clause) (clause : Clause) (after : List Clause) : Prop :=
  isScanned (before ++ clause :: after) = true ∧ Runs before clause after

theorem Reached.mono {first second : List Clause → Clause → List Clause → Prop}
    (h : ∀ before clause after, first before clause after → second before clause after)
    {s t : Stmt} (hr : Reached first t s) : Reached second t s := by
  induction hr with
  | here => exact .here
  | inside hc he hs _ ih => exact .inside hc (h _ _ _ he) hs ih

/-- What is part of the top level is scanned, unless a compound statement on the way is not. -/
theorem Reached.scans_or_beyond {s t : Stmt} (h : Reached Runs t s) :
    Reached Scans t s ∨ ∃ clauses, Reached Scans (.compound clauses) s ∧
      isScanned clauses = false ∧ Reached Runs t (.compound clauses) := by
  -- The first compound statement that is not scanned, seen from outside, decides.
  induction h with
  | here => exact .inl .here
  | @inside clauses before after clause s hc he hs ht ih =>
    cases hscan : isScanned clauses with
    | false => exact .inr ⟨clauses, .here, hscan, .inside hc he hs ht⟩
    | true =>
      have hscans : Scans before clause after := ⟨hc ▸ hscan, he⟩
      rcases ih with ih | ⟨inner, hi, hno, hin⟩
      · exact .inl (.inside hc hscans hs ih)
      · exact .inr ⟨inner, .inside hc hscans hs hi, hno, hin⟩

/-- What a statement says by itself, the statements inside it apart. -/
def ownFacts : Stmt → List Fact
  | .line line => factsOfEntries line.entries
  | .func head _ => [.defines [head.name]]
  | .class_ head _ => [.defines [head.name]]
  | .compound _ => []

theorem mem_factsOfBody {body : List Stmt} {f : Fact} :
    f ∈ factsOfBody body ↔ ∃ s ∈ body, f ∈ factsOfStmt s := by
  induction body with
  | nil => simp [factsOfBody]
  | cons s body ih => rw [factsOfBody, List.mem_append, ih, List.exists_mem_cons_iff]

theorem mem_factsOfSuite {body : Suite} {f : Fact} :
    f ∈ factsOfSuite body ↔ ∃ s ∈ blockStatements body, f ∈ factsOfStmt s := by
  cases body with
  | block header indent body footer => exact mem_factsOfBody
  | inline gap entries tail => simp [blockStatements, factsOfSuite, factsOfStmt]

theorem mem_factsOfClauses {clauses : List Clause} {f : Fact} :
    f ∈ factsOfClauses clauses ↔ ∃ clause ∈ clauses, ClauseHead.neverRuns clause.head = false ∧
      f ∈ factsOfSuite clause.body := by
  induction clauses with
  | nil => simp [factsOfClauses]
  | cons clause clauses ih =>
    obtain ⟨leading, head, gap, body⟩ := clause
    rw [factsOfClauses, List.mem_append, ih, List.exists_mem_cons_iff]
    cases hn : ClauseHead.neverRuns head <;> simp [Clause.head, Clause.body, hn]

theorem mem_factsOfCompound {clauses : List Clause} {f : Fact} :
    f ∈ factsOfStmt (.compound clauses) ↔ ∃ before clause after s,
      clauses = before ++ clause :: after ∧ Scans before clause after ∧
        s ∈ blockStatements clause.body ∧ f ∈ factsOfStmt s := by
  rw [factsOfStmt]
  constructor
  · intro h
    obtain ⟨hscan, hf⟩ : isScanned clauses = true ∧ f ∈ factsOfClauses clauses := by
      split at h
      · exact ⟨‹_›, h⟩
      · simp at h
    obtain ⟨clause, hc, hruns, hb⟩ := mem_factsOfClauses.mp hf
    obtain ⟨before, after, rfl⟩ := List.append_of_mem hc
    obtain ⟨s, hs, hf⟩ := mem_factsOfSuite.mp hb
    exact ⟨before, clause, after, s, rfl, ⟨hscan, hruns⟩, hs, hf⟩
  · rintro ⟨before, clause, after, s, rfl, ⟨hscan, hruns⟩, hs, hf⟩
    rw [if_pos hscan]
    exact mem_factsOfClauses.mpr
      ⟨clause, by simp, hruns, mem_factsOfSuite.mpr ⟨s, hs, hf⟩⟩

/-- A suite on the line of its clause counts as a line of its own, which need not be smaller. -/
theorem line_or_sizeOf_lt (before after : List Clause) {clause : Clause} {s : Stmt}
    (hs : s ∈ blockStatements clause.body) :
    (∃ line, s = .line line) ∨ sizeOf s < sizeOf (Stmt.compound (before ++ clause :: after)) := by
  obtain ⟨leading, head, gap, body⟩ := clause
  cases body with
  | inline inlineGap entries tail => exact .inl ⟨_, List.mem_singleton.mp hs⟩
  | block header indent body footer =>
    have hlt := List.sizeOf_lt_of_mem (show s ∈ body from hs)
    have hclause : sizeOf (Clause.mk leading head gap (.block header indent body footer)) <
        sizeOf (before ++ .mk leading head gap (.block header indent body footer) :: after) :=
      List.sizeOf_lt_of_mem (by simp)
    right
    rw [Clause.mk.sizeOf_spec, Suite.block.sizeOf_spec] at hclause
    rw [Stmt.compound.sizeOf_spec]
    omega

theorem exists_reached_of_mem_facts {f : Fact} (s : Stmt) (h : f ∈ factsOfStmt s) :
    ∃ t, Reached Scans t s ∧ f ∈ ownFacts t := by
  cases s with
  | compound clauses =>
    obtain ⟨before, clause, after, s, rfl, hscans, hs, hf⟩ := mem_factsOfCompound.mp h
    have hin : ∃ t, Reached Scans t s ∧ f ∈ ownFacts t := by
      rcases line_or_sizeOf_lt before after hs with ⟨line, rfl⟩ | hlt
      · exact ⟨_, .here, hf⟩
      · exact exists_reached_of_mem_facts s hf
    obtain ⟨t, ht, hf⟩ := hin
    exact ⟨t, .inside rfl hscans hs ht, hf⟩
  | _ => exact ⟨_, .here, h⟩
termination_by sizeOf s
decreasing_by
  subst_vars
  exact hlt

/-- A statement says what those statements in it say that the scan gets to. -/
theorem mem_factsOfStmt {s : Stmt} {f : Fact} :
    f ∈ factsOfStmt s ↔ ∃ t, Reached Scans t s ∧ f ∈ ownFacts t := by
  constructor
  · exact exists_reached_of_mem_facts s
  · rintro ⟨t, ht, hf⟩
    induction ht with
    | here =>
      cases t with
      | compound clauses => simp [ownFacts] at hf
      | _ => exact hf
    | inside hc he hs _ ih => exact mem_factsOfCompound.mpr ⟨_, _, _, _, hc, he, hs, ih⟩

/-- The top level of a module introduces a name. -/
def Introduced (m : Module) (x : String) : Prop :=
  ∃ s ∈ m.body, ∃ t, Reached Runs t s ∧ t.Introduces x

/-- A name is introduced in one of the three ways that the scan has no eye for: it is imported from
a relative package, or stands in the head of a clause, or in a compound statement that is not
entered. -/
inductive Overlooks (x : String) (s : Stmt) : Prop where
  | relative {line : Line} {entry : Entry} (h : Reached Scans (.line line) s)
      (he : entry ∈ line.entries) (hx : entry.stmt.ImportsRelatively x)
  | head {clauses : List Clause} (h : Reached Scans (.compound clauses) s)
      (hx : (Stmt.compound clauses).Introduces x)
  | beyond {clauses : List Clause} {t : Stmt} (h : Reached Scans (.compound clauses) s)
      (hno : isScanned clauses = false) (ht : Reached Runs t (.compound clauses))
      (hx : t.Introduces x)

def Overlooked (m : Module) (x : String) : Prop := ∃ s ∈ m.body, Overlooks x s

section Seen

variable {x : String}

theorem introduces_iff_of_small {small : Small} :
    small.Introduces x ↔ (∃ f ∈ factsOfSmall small, x ∈ f.binds) ∨ small.ImportsRelatively x := by
  cases small with
  | import_ gap names =>
    have hitem (item : ImportName) : (bindingOfImport item).1 = x ↔
        x ∈ (Fact.imports item.name.fullName (aliasOf item)).binds := by
      cases ha : item.asName <;>
        simp [bindingOfImport, Fact.binds, aliasOf, ha, rootOf, eq_comm]
    simp [Small.Introduces, Small.ImportsRelatively, factsOfSmall, hitem]
  | importFrom afterFrom dots path before after names =>
    cases names with
    | star =>
      refine iff_of_false id ?_
      cases dots <;> cases path <;> simp [factsOfSmall, Small.ImportsRelatively, Fact.binds]
    | names parens names =>
      cases dots <;> cases path <;>
        simp [Small.Introduces, Small.ImportsRelatively, factsOfSmall, Fact.binds, boundBy, eq_comm]
  | assign targets value =>
    simp [Small.Introduces, Small.ImportsRelatively, factsOfSmall, Fact.binds, mem_boundNames_iff]
  | annAssign target colon typing value =>
    simp [Small.Introduces, Small.ImportsRelatively, factsOfSmall, Fact.binds, mem_boundNames_iff]
  | augAssign target around op value =>
    simp [Small.Introduces, Small.ImportsRelatively, factsOfSmall, Fact.binds, mem_boundNames_iff]
  | _ => simp [Small.Introduces, Small.ImportsRelatively, factsOfSmall]

theorem introduces_iff_of_line {line : Line} :
    (Stmt.line line).Introduces x ↔ (∃ f ∈ ownFacts (.line line), x ∈ f.binds) ∨
      ∃ entry ∈ line.entries, entry.stmt.ImportsRelatively x := by
  simp only [Stmt.Introduces, introduces_iff_of_small, ownFacts, factsOfEntries, List.mem_flatMap]
  constructor
  · rintro ⟨entry, he, ⟨f, hf, hx⟩ | hx⟩
    · exact .inl ⟨f, ⟨entry, he, hf⟩, hx⟩
    · exact .inr ⟨entry, he, hx⟩
  · rintro (⟨f, ⟨entry, he, hf⟩, hx⟩ | ⟨entry, he, hx⟩)
    · exact ⟨entry, he, .inl ⟨f, hf, hx⟩⟩
    · exact ⟨entry, he, .inr hx⟩

/-- What a statement introduces where the scan gets to it is seen or overlooked. -/
theorem seen_or_overlooks {s t : Stmt} (h : Reached Scans t s) (hx : t.Introduces x) :
    (∃ f ∈ factsOfStmt s, x ∈ f.binds) ∨ Overlooks x s := by
  cases t with
  | line line =>
    rcases introduces_iff_of_line.mp hx with ⟨f, hf, hx⟩ | ⟨entry, he, hx⟩
    · exact .inl ⟨f, mem_factsOfStmt.mpr ⟨_, h, hf⟩, hx⟩
    · exact .inr (.relative h he hx)
  | compound clauses => exact .inr (.head h hx)
  | _ =>
    left
    refine ⟨_, mem_factsOfStmt.mpr ⟨_, h, List.mem_singleton_self _⟩, ?_⟩
    exact List.mem_singleton.mpr hx.symm

theorem introduces_of_own {t : Stmt} {f : Fact} (hf : f ∈ ownFacts t) (hx : x ∈ f.binds) :
    t.Introduces x := by
  cases t with
  | line line => exact introduces_iff_of_line.mpr (.inl ⟨f, hf, hx⟩)
  | compound clauses => simp [ownFacts] at hf
  | _ =>
    obtain rfl := List.mem_singleton.mp hf
    exact (List.mem_singleton.mp hx).symm

theorem Reached.trans {enters : List Clause → Clause → List Clause → Prop} {s t u : Stmt}
    (hst : Reached enters t s) (htu : Reached enters u t) : Reached enters u s := by
  induction hst with
  | here => exact htu
  | inside hc he hs _ ih => exact .inside hc he hs ih

theorem Reached.runs {s t : Stmt} (h : Reached Scans t s) : Reached Runs t s :=
  h.mono fun _ _ _ hs => hs.2

/-- The names that the top level introduces are those that the scan sees and those that it
overlooks. -/
theorem introduced_iff {m : Module} :
    Introduced m x ↔ x ∈ (scanScope m).boundNames ∨ Overlooked m x := by
  rw [mem_boundNames_scanScope]
  constructor
  · rintro ⟨s, hs, t, ht, hx⟩
    have hor : (∃ f ∈ factsOfStmt s, x ∈ f.binds) ∨ Overlooks x s := by
      rcases ht.scans_or_beyond with ht | ⟨clauses, hc, hno, ht⟩
      · exact seen_or_overlooks ht hx
      · exact .inr (.beyond hc hno ht hx)
    rcases hor with ⟨f, hf, hx⟩ | ho
    · exact .inl ⟨f, mem_factsOfBody.mpr ⟨s, hs, hf⟩, hx⟩
    · exact .inr ⟨s, hs, ho⟩
  · rintro (⟨f, hf, hx⟩ | ⟨s, hs, ho⟩)
    · obtain ⟨s, hs, hf⟩ := mem_factsOfBody.mp hf
      obtain ⟨t, ht, hf⟩ := mem_factsOfStmt.mp hf
      exact ⟨s, hs, t, ht.runs, introduces_of_own hf hx⟩
    · refine ⟨s, hs, ?_⟩
      cases ho with
      | relative h he hx => exact ⟨_, h.runs, introduces_iff_of_line.mpr (.inr ⟨_, he, hx⟩)⟩
      | head h hx => exact ⟨_, h.runs, hx⟩
      | beyond h _ ht hx => exact ⟨_, h.runs.trans ht, hx⟩

end Seen

/-- A name is imported under its alias, with a warning. -/
structure Renamed (s : Specifier) (statements : List Stmt) (warnings : List String) : Prop where
  imported : .member s.module s.name (some (aliasPrefix ++ s.name)) ∈ factsOfBody statements
  warned : renamedMessage s.name s.key (aliasPrefix ++ s.name) ∈ warnings

/-- A name that is free and not asked for twice keeps its own name. -/
theorem mem_named_of_free {taken : List String} {missing : List Specifier} {s : Specifier}
    (hs : s ∈ missing) (ht : s.name ∉ taken) (hr : ¬ IsReserved s.name)
    (hone : ∀ t ∈ missing, t.name = s.name → t = s) : (s, none) ∈ named taken missing := by
  induction missing generalizing taken with
  | nil => simp at hs
  | cons t missing ih =>
    by_cases he : t = s
    · subst he
      simp [named, freeAlias, ht]
    · have hname : t.name ≠ s.name := fun h => he (hone t List.mem_cons_self h)
      refine List.mem_cons_of_mem _ (ih ((List.mem_cons.mp hs).resolve_left (Ne.symm he)) ?_ ?_)
      · rw [List.mem_append, not_or, List.mem_singleton]
        refine ⟨ht, fun h => ?_⟩
        unfold freeAlias at h
        split at h
        · exact hr ⟨t.name, h⟩
        · exact hname h.symm
      · exact fun t ht => hone t (List.mem_cons_of_mem _ ht)

theorem renamed_of_mem {m : Module} {missing : List Specifier} {statements : List Stmt}
    (hl : NewLines .named (scanScope m) missing statements) {s : Specifier} (hs : s ∈ missing)
    (hb : s.name ∈ (scanScope m).boundNames) :
    Renamed s statements (newWarnings .named (scanScope m) missing) := by
  have hmem := mem_named_of_taken hs hb
  exact ⟨(facts_of_named hl).mem_iff.mpr (List.mem_map_of_mem hmem),
    List.mem_filterMap.mpr ⟨_, hmem, rfl⟩⟩

/-- The scan sees the names that the top level introduces, but for those that it overlooks: it is
complete exactly for the modules where each of these is seen elsewhere. A missing name that is seen
is imported under its alias, with a warning. One that is not seen is imported as it is, if it is no
other's name or alias, although the module may introduce it. -/
theorem scan_complete_iff (m : Module) :
    (∀ x, Introduced m x ↔ x ∈ (scanScope m).boundNames ∨ Overlooked m x) ∧
      ((∀ x, Introduced m x → x ∈ (scanScope m).boundNames) ↔
        ∀ x, Overlooked m x → x ∈ (scanScope m).boundNames) ∧
      ∀ specifiers supplied, supply .named specifiers m = .ok supplied →
        ∃ statements, supplied.module = injected m statements ∧
          ∀ s ∈ missingSpecifiers (scanScope m) specifiers,
            (s.name ∈ (scanScope m).boundNames → Renamed s statements supplied.warnings) ∧
            (s.name ∉ (scanScope m).boundNames → ¬ IsReserved s.name →
              (∀ t ∈ missingSpecifiers (scanScope m) specifiers, t.name = s.name → t = s) →
              .member s.module s.name none ∈ factsOfBody statements) := by
  refine ⟨fun x => introduced_iff, ?_, ?_⟩
  · constructor
    · exact fun h x ho => h x (introduced_iff.mpr (.inr ho))
    · intro h x hx
      rcases introduced_iff.mp hx with hb | ho
      · exact hb
      · exact h x ho
  · intro specifiers supplied h
    obtain ⟨statements, hmodule, hlines, -, -, hwarnings⟩ := newLines_of_supply h
    refine ⟨statements, hmodule, fun s hs => ⟨?_, ?_⟩⟩
    · intro hb
      rw [hwarnings]
      exact renamed_of_mem hlines hs hb
    · intro hb hr hone
      have hmem := mem_named_of_free hs hb hr hone
      exact (facts_of_named hlines).mem_iff.mpr (List.mem_map_of_mem hmem)

/-- A loop over nothing, whose target is `x`. -/
def loopModule : Module :=
  { body := [.compound [.mk [] (.for_ none .space (.name "x") ⟨.space, .space⟩
      (.list .empty [] .empty)) .empty (.block {} none [plainLine .pass] [])]] }

/-- The target of a loop is not seen, so a name is imported that the loop replaces. -/
theorem scan_misses_target :
    Introduced loopModule "x" ∧ "x" ∉ (scanScope loopModule).boundNames ∧
      ∃ supplied, supply .named [⟨"m", "x"⟩] loopModule = .ok supplied ∧ supplied.warnings = [] ∧
        ∃ statements, supplied.module = injected loopModule statements ∧
          .member "m" "x" none ∈ factsOfBody statements := by
  obtain ⟨hall, -, hsupply⟩ := scan_complete_iff loopModule
  have hno : "x" ∉ (scanScope loopModule).boundNames := by decide
  have ho : Overlooked loopModule "x" :=
    ⟨_, List.mem_singleton_self _, .head .here ⟨_, List.mem_singleton_self _, .name⟩⟩
  refine ⟨(hall "x").mpr (.inr ho), hno, _, rfl, rfl, ?_⟩
  obtain ⟨statements, hmodule, hs⟩ := hsupply [⟨"m", "x"⟩] _ rfl
  refine ⟨statements, hmodule, (hs ⟨"m", "x"⟩ (by decide)).2 hno ?_ ?_⟩
  · rintro ⟨rest, he⟩
    have hl := congrArg String.toList he
    simp [aliasPrefix, String.toList_append] at hl
  · intro t ht _
    exact List.mem_singleton.mp (List.mem_filter.mp ht).1

end Hydration.Imports
