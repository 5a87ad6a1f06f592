import Hydration.Proofs.Address
import Hydration.Proofs.Parsing
import Hydration.Proofs.Success
import Hydration.Syntax.Reading

/-! What the rules for statements give. A property that a statement has as soon as its parts have it
holds of all statements that the rules give, if it holds of the definitions among them. -/

namespace Hydration.Syntax

open Hydration.Syntax.Parser

/-- A property of statements that follows from what holds of their parts. -/
structure Compositional (OnEntries : List Entry → Prop) (OnSuite : Suite → Prop)
    (OnStmt : Stmt → Prop) : Prop where
  line : ∀ leading entries tail, OnEntries entries → OnStmt (.line { leading, entries, tail })
  compound : ∀ clauses : List Clause, (∀ clause ∈ clauses, OnSuite clause.body) →
    OnStmt (.compound clauses)
  block : ∀ header indent body footer, (∀ stmt ∈ body, OnStmt stmt) →
    OnSuite (.block header indent body footer)
  inline : ∀ gap entries tail, OnEntries entries → OnSuite (.inline gap entries tail)

theorem compositional_everywhere {P : Stmt → Prop} (hl : ∀ line, P (.line line))
    (hc : ∀ clauses, P (.compound clauses)) :
    Compositional (fun _ => True) (fun suite => Everywhere P suite.stmts)
      (fun stmt => Everywhere P [stmt]) where
  line _ _ _ _ := everywhere_singleton.mpr ⟨hl _, everywhere_nil P⟩
  compound clauses h := by
    refine everywhere_singleton.mpr ⟨hc clauses, everywhere_iff_singletons.mpr fun stmt hs => ?_⟩
    obtain ⟨clause, hm, hs⟩ := List.mem_flatMap.mp hs
    exact everywhere_iff_singletons.mp (h clause hm) stmt hs
  block _ _ _ _ h := everywhere_iff_singletons.mpr h
  inline _ _ _ _ := everywhere_nil P

section Rules

variable {s : Source} {r : Rules} {OnEntries : List Entry → Prop} {OnSuite : Suite → Prop}
  {OnStmt : Stmt → Prop} (hp : Compositional OnEntries OnSuite OnStmt)
  (he : Yields s (smallStatements r) (fun line => OnEntries line.1))
  (hr : Yields s r.statement OnStmt)

include hp he hr

theorem yields_suite : Yields s (suite r) OnSuite := by
  unfold suite
  refine .orElse ?_ ?_
  · refine .andThen fun header => .andThen fun indent => .bind hr.atLeastOne fun body hb => ?_
    exact .andThen fun close => .andThen fun style => .pure (hp.block _ _ _ _ hb)
  · exact .andThen fun gap => .bind he fun line hl => .pure (hp.inline _ _ _ hl)

theorem yields_clauseEnd (leading : List EmptyLine) (head : ClauseHead) :
    Yields s (clauseEnd r leading head) (fun clause => OnSuite clause.body) := by
  unfold clauseEnd
  exact .andThen fun colon => .bind (yields_suite hp he hr) fun body hb => .pure hb

theorem yields_testClause (text : String) (head : Gap → Expr → ClauseHead) :
    Yields s (testClause r text head) (fun clause => OnSuite clause.body) := by
  unfold testClause
  exact .andThen fun start => .andThen fun gap => .andThen fun test =>
    yields_clauseEnd hp he hr start.lines (head gap test)

theorem yields_elseClause : Yields s (elseClause r) (fun clause => OnSuite clause.body) := by
  unfold elseClause
  exact .andThen fun start => yields_clauseEnd hp he hr start.lines .else_

theorem yields_finallyClause : Yields s (finallyClause r) (fun clause => OnSuite clause.body) := by
  unfold finallyClause
  exact .andThen fun start => yields_clauseEnd hp he hr start.lines .finally_

theorem yields_ifStatement : Yields s (ifStatement r) OnStmt := by
  unfold ifStatement
  refine .bind (yields_testClause hp he hr "if" .if_) fun first hf => ?_
  refine .bind (yields_testClause hp he hr "elif" .elif).many fun more hm => ?_
  refine .bind (yields_elseClause hp he hr).optional fun last hl => .pure (hp.compound _ ?_)
  refine List.forall_mem_append.mpr ⟨List.forall_mem_cons.mpr ⟨hf, hm⟩, ?_⟩
  simpa using hl

theorem yields_whileStatement : Yields s (whileStatement r) OnStmt := by
  unfold whileStatement
  refine .bind (yields_testClause hp he hr "while" .while_) fun first hf => ?_
  refine .bind (yields_elseClause hp he hr).optional fun last hl => .pure (hp.compound _ ?_)
  refine List.forall_mem_cons.mpr ⟨hf, ?_⟩
  simpa using hl

theorem yields_forStatement : Yields s (forStatement r) OnStmt := by
  unfold forStatement
  refine .andThen fun start => .andThen fun asyncGap => .andThen fun _ => .andThen fun gap =>
    .andThen fun target => .andThen fun around => .andThen fun iter => ?_
  refine .bind (yields_clauseEnd hp he hr _ _) fun first hf => ?_
  refine .bind (yields_elseClause hp he hr).optional fun last hl => .pure (hp.compound _ ?_)
  refine List.forall_mem_cons.mpr ⟨hf, ?_⟩
  simpa using hl

theorem yields_withStatement : Yields s (withStatement r) OnStmt := by
  unfold withStatement
  refine .andThen fun start => .andThen fun opened => ?_
  refine .bind (yields_suite hp he hr) fun body hb => .pure (hp.compound _ ?_)
  simpa [Clause.body] using hb

theorem yields_exceptClause :
    Yields s (exceptClause r) (fun clause => OnSuite clause.body) := by
  unfold exceptClause
  refine .andThen fun start => .orElse ?_ (yields_clauseEnd hp he hr _ _)
  exact .andThen fun value => .andThen fun asName => yields_clauseEnd hp he hr _ _

theorem yields_exceptStarClause :
    Yields s (exceptStarClause r) (fun clause => OnSuite clause.body) := by
  unfold exceptStarClause
  exact .andThen fun start => .andThen fun star => .andThen fun gap => .andThen fun value =>
    .andThen fun asName => yields_clauseEnd hp he hr _ _

theorem yields_tryStatement : Yields s (tryStatement r) OnStmt := by
  unfold tryStatement
  refine .andThen fun start => .bind (yields_clauseEnd hp he hr _ _) fun first hf => ?_
  have handlers {clause : Parser Clause} (hc : Yields s clause fun c => OnSuite c.body) :
      Yields s (do
        let caught ← atLeastOne clause
        let otherwise ← optional (elseClause r)
        let final ← optional (finallyClause r)
        return .compound (first :: caught ++ otherwise.toList ++ final.toList)) OnStmt := by
    refine .bind hc.atLeastOne fun caught hcaught => ?_
    refine .bind (yields_elseClause hp he hr).optional fun last hl => ?_
    refine .bind (yields_finallyClause hp he hr).optional fun final hfinal =>
      .pure (hp.compound _ ?_)
    refine List.forall_mem_append.mpr ⟨List.forall_mem_append.mpr ⟨?_, ?_⟩, ?_⟩
    · exact List.forall_mem_cons.mpr ⟨hf, hcaught⟩
    · simpa using hl
    · simpa using hfinal
  refine .orElse ?_ (.orElse (handlers (yields_exceptClause hp he hr)) ?_)
  · refine .bind (yields_finallyClause hp he hr) fun last hl => .pure (hp.compound _ ?_)
    simpa using And.intro hf hl
  · exact handlers (yields_exceptStarClause hp he hr)

theorem yields_matchArm : Yields s (matchArm r) OnStmt := by
  unfold matchArm
  refine .andThen fun start => .andThen fun gap => .andThen fun pattern => .andThen fun test => ?_
  refine .bind (yields_clauseEnd hp he hr _ _) fun clause hc => .pure (hp.compound _ ?_)
  simpa using hc

theorem yields_matchStatement : Yields s (matchStatement r) OnStmt := by
  unfold matchStatement
  refine .andThen fun start => .andThen fun gap => .andThen fun subject => .andThen fun colon =>
    .andThen fun header => .andThen fun indent => ?_
  refine .bind (yields_matchArm hp he hr).atLeastOne fun arms ha => ?_
  refine .andThen fun close => .andThen fun style => .pure (hp.compound _ ?_)
  intro clause hc
  obtain rfl := List.mem_singleton.mp hc
  exact hp.block _ _ _ _ ha

omit hp he hr in
theorem yields_definition
    (hf : ∀ leading decorators after,
      Yields s (Syntax.function r leading decorators after) OnStmt)
    (hk : ∀ leading decorators after,
      Yields s (classStatement r leading decorators after) OnStmt) :
    Yields s (definition r) OnStmt := by
  unfold definition
  exact .andThen fun decorators => .andThen fun w => .orElse (hf _ _ _) (hk _ _ _)

/-- A function, from what holds of its parameters and of its body. -/
theorem yields_function {P : Params → Prop} (hnone : P {})
    (hparams : Yields s (paramList r) fun params => ∀ gap, P (params.closeWith gap))
    (hf : ∀ head body, P head.params → OnSuite body → OnStmt (.func head body))
    (leading : List EmptyLine) (decorators : List Decorator) (after : List EmptyLine) :
    Yields s (Syntax.function r leading decorators after) OnStmt := by
  unfold Syntax.function
  refine .andThen fun asyncGap => .andThen fun _ => .andThen fun gap => .andThen fun target =>
    .andThen fun afterName => .andThen fun typeParams => .andThen fun _ => .andThen fun before => ?_
  refine .bind hparams.optional fun params hall => ?_
  refine .andThen fun close => .andThen fun returns => .andThen fun colon => ?_
  refine .bind (yields_suite hp he hr) fun body hb => .pure (hf _ _ ?_ hb)
  cases params with
  | none => exact hnone
  | some params => exact hall params rfl close.gap

theorem yields_classStatement (hk : ∀ head body, OnSuite body → OnStmt (.class_ head body))
    (leading : List EmptyLine) (decorators : List Decorator) (after : List EmptyLine) :
    Yields s (classStatement r leading decorators after) OnStmt := by
  unfold classStatement
  refine .andThen fun _ => .andThen fun gap => .andThen fun target => .andThen fun afterName =>
    .andThen fun typeParams => .andThen fun parens => .andThen fun colon => ?_
  exact .bind (yields_suite hp he hr) fun body hb => .pure (hk _ _ hb)

theorem yields_statementRule (hd : Yields s (definition r) OnStmt) :
    Yields s (statementRule r) OnStmt := by
  unfold statementRule compoundStatement lineStatement
  refine .orElse ?_ ?_
  · refine .orElse (.andThen fun _ => hd) ?_
    refine .orElse (.andThen fun _ => yields_ifStatement hp he hr) ?_
    refine .orElse (.andThen fun _ => yields_withStatement hp he hr) ?_
    refine .orElse (.andThen fun _ => yields_forStatement hp he hr) ?_
    refine .orElse (.andThen fun _ => yields_tryStatement hp he hr) ?_
    refine .orElse (.andThen fun _ => yields_whileStatement hp he hr) ?_
    exact yields_matchStatement hp he hr
  · exact .andThen fun start => .bind he fun line hl => .pure (hp.line _ _ _ hl)

end Rules

/-- What the rules of one depth give, if it passes from each depth to the next. -/
theorem yields_upTo {s : Source} {OnStmt : Stmt → Prop}
    (h : ∀ r : Rules, Yields s r.statement OnStmt → Yields s (statementRule r) OnStmt)
    (depth : Nat) : Yields s (Rules.upTo depth).statement OnStmt := by
  induction depth with
  | zero => exact .fail
  | succ depth ih => exact h _ ih

theorem holds_of_run {α : Type} {p : Rules → Parser α} {P : α → Prop} {text : List Char} {a : α}
    (hp : ∀ depth, Yields s (p (Rules.upTo depth)) P) (h : s.run text p = .ok a) : P a := by
  unfold Source.run at h
  split at h
  · rename_i value place furthest hv
    obtain rfl := Except.ok.inj h
    exact hp _ _ _ _ _ _ hv
  · simp at h

end Hydration.Syntax
