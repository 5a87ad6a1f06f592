import Hydration.Proofs.Facts
import Hydration.Proofs.Rules
import Hydration.Proofs.Tokens
import Hydration.Syntax.Reading

/-! The names in the imports of a module that is read from a text are names. The property goes from
the words of the text to the small statements, through the suites to the compound ones, and by
induction on the depth of the rules to whole modules. -/

namespace Hydration.Imports

open Syntax Syntax.Parser

variable {s : Source} {r : Rules}

def NamedWords (s : Source) : Prop :=
  ∀ w ∈ s.words, w.kind = .name → Text.isIdentifier w.text = true

theorem yields_name (hs : NamedWords s) : Yields s name (fun w => Text.isIdentifier w.text) := by
  intro place furthest w after reached h
  obtain ⟨hw, hk, -⟩ := name_eq_ok h
  exact hs w (Array.mem_of_getElem? hw) hk

theorem yields_extend {link : Expr → Parser Expr} {P : Expr → Prop}
    (hl : ∀ e, P e → Yields s (link e) P) (fuel : Nat) {e : Expr} (he : P e) :
    Yields s (extend link fuel e) P := by
  induction fuel generalizing e with
  | zero => exact .pure he
  | succ fuel ih =>
    refine .bind (hl e he).optional fun found hf => ?_
    cases found with
    | some longer => exact ih (hf longer rfl)
    | none => exact .pure he

theorem yields_dottedName (hs : NamedWords s) : Yields s dottedName Expr.IsDotted := by
  unfold dottedName dottedValue
  refine .bind (yields_name hs) fun first hf => .andThen fun count => ?_
  refine yields_extend ?_ count (.ofName hf)
  intro e he
  exact .andThen fun dot => .bind (yields_name hs) fun w hw => .pure (he.attribute dot hw)

theorem yields_importAlias (hs : NamedWords s) :
    Yields s importAlias (fun pair => Text.isIdentifier pair.2) := by
  unfold importAlias
  exact .andThen fun around => .bind (yields_name hs) fun w hw => .pure hw

def SmallNamed (stmt : Small) : Prop := ∀ f ∈ factsOfSmall stmt, f.WellNamed

/-- The name that an import gives to what it imports. -/
def AliasNamed (item : ImportName) : Prop := ∀ a ∈ aliasOf item, Text.isIdentifier a = true

theorem yields_alias (hs : NamedWords s) {e : Expr} {P : Expr → Prop} (he : P e) :
    Yields s (do return { name := e, asName := ← optional importAlias })
      (fun item : ImportName => P item.name ∧ AliasNamed item) := by
  refine .bind (yields_importAlias hs).optional fun asName ha => .pure ⟨he, ?_⟩
  intro a hm
  obtain ⟨pair, hp, rfl⟩ := Option.map_eq_some_iff.mp hm
  exact ha pair hp

theorem yields_importStatement (hs : NamedWords s) : Yields s importStatement SmallNamed := by
  unfold importStatement
  refine .andThen fun _ => .andThen fun gap => ?_
  refine .bind (P := fun names => ∀ item ∈ names, item.name.IsDotted ∧ AliasNamed item) ?_ ?_
  · refine .separated (fun comma item h => h) ?_
    exact .bind (yields_dottedName hs) fun path hp => yields_alias hs hp
  · intro names hn
    refine .pure ?_
    intro f hf
    obtain ⟨item, hi, rfl⟩ := List.mem_map.mp hf
    exact ⟨(hn item hi).1.fullName, (hn item hi).2⟩

theorem yields_importedName (hs : NamedWords s) :
    Yields s importedName
      (fun item => Text.isIdentifier item.name.fullName ∧ AliasNamed item) := by
  unfold importedName
  refine .bind (yields_name hs) fun w hw => ?_
  exact yields_alias (P := fun e => Text.isIdentifier e.fullName) hs hw

def TargetsNamed : ImportNames → Prop
  | .star => True
  | .names _ names => ∀ item ∈ names, Text.isIdentifier item.name.fullName ∧ AliasNamed item

theorem yields_importTargets (hs : NamedWords s) : Yields s importTargets TargetsNamed := by
  unfold importTargets
  refine .orElse ?_ (.orElse ?_ ?_)
  · refine .andThen fun _ => .andThen fun before => ?_
    refine .bind (.separatedTrailing (fun comma item h => h) (yields_importedName hs)) ?_
    exact fun names hn => .andThen fun close => .pure hn
  · refine .bind (.separated (fun comma item h => h) (yields_importedName hs)) ?_
    exact fun names hn => .andThen fun _ => .pure hn
  · exact .andThen fun _ => .pure trivial

theorem wellNamed_importFrom {gap around behind : Gap} {dots : List Around} {path : Option Expr}
    {names : ImportNames} (hp : ∀ e ∈ path, e.IsDotted) (hn : TargetsNamed names) :
    SmallNamed (.importFrom gap dots path around behind names) := by
  intro f hf
  cases dots with
  | cons dot dots => simp [factsOfSmall] at hf
  | nil =>
    cases path with
    | none => simp [factsOfSmall] at hf
    | some e =>
      have he := (hp e rfl).fullName
      cases names with
      | star =>
        obtain rfl := List.mem_singleton.mp hf
        exact he
      | names parens items =>
        obtain ⟨item, hi, rfl⟩ := List.mem_map.mp hf
        exact ⟨he, hn item hi⟩

theorem yields_importFromStatement (hs : NamedWords s) :
    Yields s importFromStatement SmallNamed := by
  unfold importFromStatement
  refine .andThen fun _ => .andThen fun afterFrom => .andThen fun dots => .andThen fun gap => ?_
  dsimp only
  split
  all_goals
    refine .bind (P := fun path : Option Expr => ∀ e ∈ path, e.IsDotted) ?_ fun path hp =>
      .andThen fun w => .andThen fun behind => .bind (yields_importTargets hs) fun names hn =>
        .pure (wellNamed_importFrom hp hn)
  · refine .bind (yields_dottedName hs) fun e he => .pure ?_
    rintro e' ⟨⟩
    exact he
  · exact (yields_dottedName hs).optional

theorem smallNamed_of_no_import {stmt : Small}
    (h : factsOfSmall stmt = [] ∨ ∃ names, factsOfSmall stmt = [.defines names]) :
    SmallNamed stmt := by
  intro f hf
  rcases h with h | ⟨names, h⟩
  · simp [h] at hf
  · rw [h, List.mem_singleton] at hf
    rw [hf]
    trivial

theorem yields_annotated (target : Expr) : Yields s (annotated r target) SmallNamed := by
  unfold annotated
  refine .andThen fun colon => .andThen fun typing => .andThen fun value => .pure ?_
  exact smallNamed_of_no_import (.inr ⟨_, rfl⟩)

theorem yields_assignment : Yields s (assignment r) SmallNamed := by
  unfold assignment
  refine .orElse ?_ (.orElse ?_ (.orElse ?_ ?_))
  · exact .andThen fun w => yields_annotated _
  · exact .andThen fun target => yields_annotated target
  · refine .andThen fun targets => .andThen fun value => .andThen fun _ => .pure ?_
    exact smallNamed_of_no_import (.inr ⟨_, rfl⟩)
  · refine .andThen fun target => .andThen fun op => .andThen fun gap => .andThen fun value =>
      .pure ?_
    exact smallNamed_of_no_import (.inr ⟨_, rfl⟩)

theorem yields_raiseStatement : Yields s (raiseStatement r) SmallNamed := by
  unfold raiseStatement
  refine .andThen fun _ => .andThen fun value => ?_
  cases value with
  | some value => exact .andThen fun cause => .pure (smallNamed_of_no_import (.inl rfl))
  | none => exact .pure (smallNamed_of_no_import (.inl rfl))

theorem yields_deleteStatement : Yields s (deleteStatement r) SmallNamed := by
  unfold deleteStatement
  refine .andThen fun _ => .andThen fun gap => .andThen fun members => .andThen fun _ => ?_
  split <;> exact .pure (smallNamed_of_no_import (.inl rfl))

theorem yields_typeStatement : Yields s (typeStatement r) SmallNamed := by
  unfold typeStatement
  refine .andThen fun _ => .andThen fun gap => .andThen fun target => .andThen fun after =>
    .andThen fun params => .andThen fun equal => .andThen fun value => .pure ?_
  exact smallNamed_of_no_import (.inl rfl)

theorem yields_smallStatement (hs : NamedWords s) : Yields s (smallStatement r) SmallNamed := by
  have plain {stmt : Small} (h : factsOfSmall stmt = []) : SmallNamed stmt :=
    smallNamed_of_no_import (.inl h)
  unfold smallStatement returnStatement assertStatement
  refine .orElse (.andThen fun _ => yields_typeStatement) (.orElse yields_assignment ?_)
  refine .orElse (.andThen fun value => .pure (plain rfl)) ?_
  refine .orElse (.andThen fun _ => .andThen fun value => .pure (plain rfl)) ?_
  refine .orElse (yields_importStatement hs) (.orElse (yields_importFromStatement hs) ?_)
  refine .orElse yields_raiseStatement ?_
  refine .orElse (.andThen fun _ => .pure (plain rfl)) ?_
  refine .orElse yields_deleteStatement ?_
  refine .orElse (.andThen fun value => .pure (plain rfl)) ?_
  refine .orElse (.andThen fun _ => .andThen fun gap => .andThen fun test => .andThen fun message =>
    .pure (plain rfl)) ?_
  refine .orElse (.andThen fun _ => .pure (plain rfl)) ?_
  refine .orElse (.andThen fun _ => .pure (plain rfl)) ?_
  refine .orElse (.andThen fun _ => .andThen fun gap => .andThen fun names => .pure (plain rfl)) ?_
  exact .andThen fun _ => .andThen fun gap => .andThen fun names => .pure (plain rfl)

theorem forall_joinEntries {first : Small} {rest : List (Around × Small)} (hf : SmallNamed first)
    (hr : ∀ pair ∈ rest, SmallNamed pair.2) (trailing : Option Around) :
    ∀ entry ∈ joinEntries first rest trailing, SmallNamed entry.stmt := by
  induction rest generalizing first with
  | nil => simpa [joinEntries] using hf
  | cons pair rest ih =>
    obtain ⟨semi, second⟩ := pair
    have hh := ih (hr (semi, second) List.mem_cons_self) fun pair hp =>
      hr pair (List.mem_cons_of_mem _ hp)
    intro entry he
    rcases List.mem_cons.mp he with rfl | he
    · exact hf
    · exact hh entry he

theorem yields_smallStatements (hs : NamedWords s) :
    Yields s (smallStatements r) (fun line => ∀ f ∈ factsOfEntries line.1, f.WellNamed) := by
  unfold smallStatements
  refine .bind (yields_smallStatement hs) fun first hf => ?_
  refine .bind (P := fun rest => ∀ pair ∈ rest, SmallNamed pair.2) ?_ ?_
  · exact .many (.andThen fun semi => .bind (yields_smallStatement hs) fun stmt h => .pure h)
  · intro rest hr
    refine .andThen fun trailing => .andThen fun w => .pure ?_
    intro f hm
    obtain ⟨entry, he, hm⟩ := List.mem_flatMap.mp hm
    exact forall_joinEntries hf hr trailing entry he f hm

def StmtNamed (stmt : Stmt) : Prop := ∀ f ∈ factsOfStmt stmt, f.WellNamed

def SuiteNamed (suite : Suite) : Prop := ∀ f ∈ factsOfSuite suite, f.WellNamed

theorem wellNamed_factsOfBody {body : List Stmt} (h : ∀ stmt ∈ body, StmtNamed stmt) :
    ∀ f ∈ factsOfBody body, f.WellNamed := by
  induction body with
  | nil => simp [factsOfBody]
  | cons stmt rest ih =>
    intro f hf
    rw [factsOfBody, List.mem_append] at hf
    rcases hf with hf | hf
    · exact h stmt List.mem_cons_self f hf
    · exact ih (fun stmt hs => h stmt (List.mem_cons_of_mem _ hs)) f hf

theorem stmtNamed_compound {clauses : List Clause}
    (h : ∀ clause ∈ clauses, SuiteNamed clause.body) : StmtNamed (.compound clauses) := by
  have hc : ∀ f ∈ factsOfClauses clauses, f.WellNamed := by
    induction clauses with
    | nil => simp [factsOfClauses]
    | cons clause rest ih =>
      obtain ⟨leading, head, gap, body⟩ := clause
      have hb := h (.mk leading head gap body) List.mem_cons_self
      intro f hf
      rw [factsOfClauses, List.mem_append] at hf
      rcases hf with hf | hf
      · split at hf
        · simp at hf
        · exact hb f hf
      · exact ih (fun clause hm => h clause (List.mem_cons_of_mem _ hm)) f hf
  intro f hf
  unfold factsOfStmt at hf
  split at hf
  · exact hc f hf
  · simp at hf

theorem compositional_named :
    Compositional (fun entries => ∀ f ∈ factsOfEntries entries, f.WellNamed) SuiteNamed
      StmtNamed where
  line _ _ _ h := h
  compound _ h := stmtNamed_compound h
  block _ _ _ _ h := wellNamed_factsOfBody h
  inline _ _ _ h := h

theorem yields_definition_named (hs : NamedWords s) (hr : Yields s r.statement StmtNamed) :
    Yields s (definition r) StmtNamed := by
  have he := yields_smallStatements (r := r) hs
  refine yields_definition (yields_function (P := fun _ => True) compositional_named he hr
    trivial (fun _ _ _ _ _ _ _ => trivial) ?_) (yields_classStatement compositional_named he hr ?_)
  · simp [StmtNamed, factsOfStmt, Fact.WellNamed]
  · simp [StmtNamed, factsOfStmt, Fact.WellNamed]

theorem yields_statement (hs : NamedWords s) (depth : Nat) :
    Yields s (Rules.upTo depth).statement StmtNamed :=
  yields_upTo (fun _ hr => yields_statementRule compositional_named (yields_smallStatements hs) hr
    (yields_definition_named hs hr)) depth

theorem namedWords_of_lexText {text : List Char} (h : lexText text = .ok s) : NamedWords s := by
  unfold lexText at h
  split at h
  · simp at h
  · rename_i tokens ht
    obtain rfl := Except.ok.inj h
    exact isIdentifier_of_ofTokens (isIdentifier_of_tokenize ht)

theorem stmtNamed_withLeading {stmt : Stmt} (h : StmtNamed stmt) (leading : List EmptyLine) :
    StmtNamed (stmt.withLeading leading) := by
  cases stmt with
  | line l => exact h
  | func head body => exact h
  | class_ head body => exact h
  | compound clauses =>
    cases clauses with
    | nil => exact h
    | cons clause rest =>
      obtain ⟨_, head, gap, body⟩ := clause
      cases head <;> exact h

/-- What the rules give for the words of any text holds of the statements of a module. -/
theorem forall_mem_of_parse {P : Stmt → Prop} {text : String} {m : Module}
    (hr : ∀ s, NamedWords s → ∀ depth, Yields s (Rules.upTo depth).statement P)
    (hl : ∀ stmt leading, P stmt → P (stmt.withLeading leading)) (h : Module.parse text = .ok m) :
    ∀ stmt ∈ m.body, P stmt := by
  unfold Module.parse at h
  simp only [bind_eq_ok] at h
  obtain ⟨source, hsource, ⟨body, last⟩, hrun, -, -, h⟩ := h
  have hs := namedWords_of_lexText hsource
  have hbody : ∀ stmt ∈ body, P stmt := by
    refine holds_of_run (P := fun pieces => ∀ stmt ∈ pieces.1, P stmt) (fun depth => ?_) hrun
    unfold modulePieces
    exact .bind (hr source hs depth).many fun body hb => .andThen fun finish => .pure hb
  cases body with
  | nil =>
    obtain rfl := Except.ok.inj h
    simp
  | cons first rest =>
    obtain rfl := Except.ok.inj h
    obtain ⟨hfirst, hrest⟩ := List.forall_mem_cons.mp hbody
    exact List.forall_mem_cons.mpr ⟨hl first [] hfirst, hrest⟩

/-- The names in the imports of a module that was read are names. -/
theorem wellNamed_parse {text : String} {m : Module} (h : Module.parse text = .ok m) :
    WellNamed m :=
  wellNamed_factsOfBody (forall_mem_of_parse (fun _ hs => yields_statement hs)
    (fun _ leading hs => stmtNamed_withLeading hs leading) h)

/-- A module that was read from a text, or one that was put together from names that are names. -/
def Admissible (m : Module) : Prop := (∃ text, Module.parse text = .ok m) ∨ WellNamed m

theorem Admissible.wellNamed {m : Module} (h : Admissible m) : WellNamed m := by
  rcases h with ⟨text, h⟩ | h
  · exact wellNamed_parse h
  · exact h

def ListNamed (params : List Param) : Prop := ∀ p ∈ params, Text.isIdentifier p.name = true

/-- The parameters that may be given by position have names. -/
def ParamsNamed (params : Params) : Prop := ListNamed (params.posonly ++ params.params)

/-- The same for the parameters of a function. -/
def HeadNamed : Stmt → Prop
  | .func head _ => ParamsNamed head.params
  | _ => True

theorem exists_of_mem_setLastAfter {gap : Gap} {params : List Param} {p : Param}
    (hp : p ∈ setLastAfter gap params) : ∃ q ∈ params, p.name = q.name := by
  induction params with
  | nil => simp [setLastAfter] at hp
  | cons first params ih =>
    cases params with
    | nil =>
      refine ⟨first, List.mem_cons_self, ?_⟩
      obtain rfl := List.mem_singleton.mp hp
      split <;> rfl
    | cons second params =>
      rcases List.mem_cons.mp hp with rfl | hp
      · exact ⟨p, List.mem_cons_self, rfl⟩
      · obtain ⟨q, hq, hn⟩ := ih hp
        exact ⟨q, List.mem_cons_of_mem first hq, hn⟩

theorem ParamsNamed.closeWith {params : Params} (h : ParamsNamed params) (gap : Gap) :
    ParamsNamed (params.closeWith gap) := by
  unfold Params.closeWith
  split
  · exact h
  · split
    · exact h
    · split
      · exact h
      · intro p hp
        rcases List.mem_append.mp hp with hp | hp
        · exact h p (List.mem_append_left _ hp)
        · obtain ⟨q, hq, hn⟩ := exists_of_mem_setLastAfter hp
          rw [hn]
          exact h q (List.mem_append_right _ hq)

theorem yields_param (hs : NamedWords s) (star : String) (gap : Gap) :
    Yields s (param r star gap) (fun p => Text.isIdentifier p.name) := by
  unfold param
  exact .bind (yields_name hs) fun w hw => .andThen fun typing => .pure hw

theorem yields_plainParam (hs : NamedWords s) (star : String) (gap : Gap) :
    Yields s (plainParam r star gap) (fun p => Text.isIdentifier p.name) := by
  unfold plainParam finishParam
  exact .bind (yields_param hs star gap) fun p hp => .andThen fun comma => .pure hp

theorem yields_defaultParam (hs : NamedWords s) :
    Yields s (defaultParam r) (fun p => Text.isIdentifier p.name) := by
  unfold defaultParam finishParam
  exact .bind (yields_param hs "" .empty) fun p hp => .andThen fun equal => .andThen fun value =>
    .andThen fun comma => .pure hp

theorem yields_paramList (hs : NamedWords s) : Yields s (paramList r) ParamsNamed := by
  have hplain := (yields_plainParam (r := r) hs "" .empty).many
  have hdefault := (yields_defaultParam (r := r) hs).many
  unfold paramList
  refine .bind hplain fun plain hp => .bind hdefault fun defaults hd => ?_
  have hfirst := List.forall_mem_append.mpr ⟨hp, hd⟩
  dsimp only
  split
  all_goals
    refine .andThen fun slash => ?_
    split
    · refine .bind (P := ListNamed) ?_ fun rest hrest => .andThen fun star => .andThen fun _ => ?_
      · split
        · exact .bind hplain fun more hm => .bind hdefault fun others ho =>
            .pure (List.forall_mem_append.mpr ⟨hm, ho⟩)
        · exact .bind (P := ListNamed) (.pure (by simp [ListNamed])) fun more hm =>
            .bind hdefault fun others ho => .pure (List.forall_mem_append.mpr ⟨hm, ho⟩)
      · exact .pure (List.forall_mem_append.mpr ⟨hfirst, hrest⟩)
    · exact .andThen fun rest => .andThen fun star => .andThen fun _ => .pure hfirst

theorem yields_statement_headNamed (hs : NamedWords s) (depth : Nat) :
    Yields s (Rules.upTo depth).statement (fun stmt => Everywhere HeadNamed [stmt]) := by
  have hc := compositional_everywhere (P := HeadNamed) (fun _ => trivial) fun _ => trivial
  have he {r : Rules} : Yields s (smallStatements r) fun _ => True := fun _ _ _ _ _ _ => trivial
  refine yields_upTo (fun r hr => yields_statementRule hc he hr (yields_definition ?_ ?_)) depth
  · refine yields_function (P := ParamsNamed) hc he hr (by simp [ParamsNamed, ListNamed]) ?_ ?_
    · intro place furthest params after reached hp gap
      exact ParamsNamed.closeWith (yields_paramList hs _ _ _ _ _ hp) gap
    · exact fun head body hp hb => everywhere_singleton.mpr ⟨hp, hb⟩
  · exact yields_classStatement hc he hr fun head body hb => everywhere_singleton.mpr ⟨trivial, hb⟩

/-- The positional parameters of the functions in a module that was read have names. -/
theorem headNamed_parse {text : String} {m : Module} (h : Module.parse text = .ok m) :
    Everywhere HeadNamed m.body := by
  refine everywhere_iff_singletons.mpr (forall_mem_of_parse
    (fun _ hs => yields_statement_headNamed hs) (fun stmt leading hs => ?_) h)
  obtain ⟨hp, hc⟩ := everywhere_singleton.mp hs
  refine everywhere_singleton.mpr ⟨?_, stmt.children_withLeading leading ▸ hc⟩
  cases stmt with
  | func head body => exact hp
  | compound clauses =>
    cases clauses with
    | nil => trivial
    | cons clause clauses => trivial
  | _ => trivial

end Hydration.Imports
