import Hydration.Proofs.Comments
import Hydration.Syntax.Printer

/-! Comments in texts. Those of a statement occur one behind the other in what is written of it, whatever
the place. -/

namespace Hydration.Syntax

/-- The parts stand in the text one behind the other. -/
inductive Occur : List String → String → Prop where
  | nil (text : String) : Occur [] text
  | part (before part : String) {parts : List String} {text : String}
      (h : Occur parts text) : Occur (part :: parts) (before ++ part ++ text)

section Occur

variable {parts parts' : List String} {text text' : String}

theorem Occur.self (text : String) : Occur [text] text := by
  have h := Occur.part "" text (.nil "")
  rwa [String.empty_append, String.append_empty] at h

theorem Occur.before (front : String) (h : Occur parts text) : Occur parts (front ++ text) := by
  cases h with
  | nil => exact .nil _
  | part between part h =>
    rw [← String.append_assoc, ← String.append_assoc]
    exact .part _ _ h

theorem Occur.append (h : Occur parts text) (h' : Occur parts' text') :
    Occur (parts ++ parts') (text ++ text') := by
  induction h with
  | nil front => exact h'.before front
  | part between part _ ih =>
    rw [String.append_assoc]
    exact .part between part ih

theorem Occur.after (h : Occur parts text) (back : String) : Occur parts (text ++ back) := by
  have hall := h.append (.nil back)
  rwa [List.append_nil] at hall

theorem Occur.sublist (h : Occur parts' text) (hs : parts.Sublist parts') : Occur parts text := by
  induction h generalizing parts with
  | nil =>
    rw [List.sublist_nil.mp hs]
    exact .nil _
  | part between part _ ih =>
    cases hs with
    | cons _ hs => exact (ih hs).before _
    | cons_cons _ hs => exact .part between part (ih hs)

end Occur

section Rendered

variable (place : Place)

theorem LineTail.comments_occur (tail : LineTail) : Occur tail.comments (tail.render place) := by
  unfold LineTail.comments LineTail.render
  cases tail.comment with
  | none => exact .nil _
  | some comment => exact ((Occur.self comment).before _).after _

theorem EmptyLine.comments_occur (line : EmptyLine) : Occur line.comments (line.render place) := by
  unfold EmptyLine.comments EmptyLine.render
  cases line.comment with
  | none => exact .nil _
  | some comment => exact ((Occur.self comment).before _).after _

/-- What is written one by one holds the comments one by one. -/
theorem occur_join {α : Type} {comments : α → List String} {render : α → String}
    (h : ∀ x, Occur (comments x) (render x)) (l : List α) :
    Occur (l.flatMap comments) (String.join (l.map render)) := by
  induction l with
  | nil => exact .nil _
  | cons x l ih =>
    rw [List.map_cons, String.join_cons, List.flatMap_cons]
    exact (h x).append ih

/-- The same where what is written of a member depends on those behind it. -/
theorem occur_list {α : Type} {comments : α → List String} {render : List α → String}
    (h : ∀ x rest, ∃ text, render (x :: rest) = text ++ render rest ∧ Occur (comments x) text)
    (l : List α) : Occur (l.flatMap comments) (render l) := by
  induction l with
  | nil => exact .nil _
  | cons x l ih =>
    obtain ⟨text, htext, hx⟩ := h x l
    rw [htext, List.flatMap_cons]
    exact hx.append ih

theorem commentsOfLines_occur (lines : List EmptyLine) :
    Occur (commentsOfLines lines) (renderLines place lines) :=
  occur_join (EmptyLine.comments_occur place) lines

theorem Gap.comments_occur (gap : Gap) : Occur gap.comments (gap.render place) := by
  cases gap with
  | inline blanks => exact .nil _
  | folded first between indented blanks =>
    exact (((first.comments_occur place).append (commentsOfLines_occur place between)).after _).after _

theorem Around.comments_occur (around : Around) (mark : String) :
    Occur around.comments (around.render place mark) :=
  ((around.before.comments_occur place).after mark).append (around.after.comments_occur place)

theorem commentsOfMark_occur (mark : String) (around : Option Around) :
    Occur (commentsOfMark around)
      (match around with | some around => around.render place mark | none => "") := by
  cases around with
  | none => exact .nil _
  | some around => exact around.comments_occur place mark

theorem renderComma_occur (more : Bool) (comma : Option Around) :
    Occur (commentsOfMark comma) (renderComma place more comma) := by
  cases comma with
  | none => exact .nil _
  | some comma => exact comma.comments_occur place ","

theorem commentsOfGap?_occur (word : String) (gap : Option Gap) :
    Occur (commentsOfGap? gap) (match gap with | some gap => word ++ gap.render place | none => "") := by
  cases gap with
  | none => exact .nil _
  | some gap => exact (gap.comments_occur place).before word

mutual

theorem Expr.comments_occur (e : Expr) : Occur e.comments (e.render place) := by
  match e with
  | .name _ => exact .nil _
  | .number _ => exact .nil _
  | .string _ => exact .nil _
  | .format opening parts closing =>
    rw [Expr.comments, Expr.render]
    exact ((commentsOfParts_occur parts).before opening).after closing
  | .joined left gap right =>
    rw [Expr.comments, Expr.render]
    exact (left.comments_occur.append (gap.comments_occur place)).append right.comments_occur
  | .ellipsis => exact .nil _
  | .paren before inner after =>
    rw [Expr.comments, Expr.render]
    exact ((((before.comments_occur place).before "(").append inner.comments_occur).append
      (after.comments_occur place)).after ")"
  | .tuple members =>
    have h := commentsOfMembers_occur members
    unfold Expr.comments Expr.render
    split
    · simp only [renderMembers, renderComma, List.isEmpty_nil, Bool.not_true, Bool.false_eq_true, if_false,
        String.append_empty] at h
      exact h.after ","
    · exact h
  | .list before members after =>
    rw [Expr.comments, Expr.render]
    exact ((((before.comments_occur place).before "[").append (commentsOfMembers_occur members)).append
      (after.comments_occur place)).after "]"
  | .set before members after =>
    rw [Expr.comments, Expr.render]
    exact ((((before.comments_occur place).before _).append (commentsOfMembers_occur members)).append
      (after.comments_occur place)).after _
  | .dict before members after =>
    rw [Expr.comments, Expr.render]
    exact ((((before.comments_occur place).before _).append (commentsOfMembers_occur members)).append
      (after.comments_occur place)).after _
  | .listComp before element clauses after =>
    rw [Expr.comments, Expr.render]
    exact (((((before.comments_occur place).before "[").append element.comments_occur).append
      (commentsOfLoops_occur clauses)).append (after.comments_occur place)).after "]"
  | .setComp before element clauses after =>
    rw [Expr.comments, Expr.render]
    exact (((((before.comments_occur place).before _).append element.comments_occur).append
      (commentsOfLoops_occur clauses)).append (after.comments_occur place)).after _
  | .dictComp before key colon value clauses after =>
    rw [Expr.comments, Expr.render]
    exact (((((((before.comments_occur place).before _).append key.comments_occur).append
      (colon.comments_occur place ":")).append value.comments_occur).append
      (commentsOfLoops_occur clauses)).append (after.comments_occur place)).after _
  | .generator element clauses =>
    rw [Expr.comments, Expr.render]
    exact element.comments_occur.append (commentsOfLoops_occur clauses)
  | .attribute value dot attr =>
    rw [Expr.comments, Expr.render]
    exact (value.comments_occur.append (dot.comments_occur place ".")).after attr
  | .subscript value gap before members after =>
    rw [Expr.comments, Expr.render]
    exact (((((value.comments_occur.append (gap.comments_occur place)).after "[").append
      (before.comments_occur place)).append (commentsOfMembers_occur members)).append
      (after.comments_occur place)).after "]"
  | .call func gap before args after =>
    rw [Expr.comments, Expr.render]
    exact (((((func.comments_occur.append (gap.comments_occur place)).after "(").append
      (before.comments_occur place)).append (commentsOfMembers_occur args)).append
      (after.comments_occur place)).after ")"
  | .unary op gap operand =>
    rw [Expr.comments, Expr.render]
    exact ((gap.comments_occur place).before op).append operand.comments_occur
  | .binary left around op right =>
    rw [Expr.comments, Expr.render]
    exact (left.comments_occur.append (around.comments_occur place op)).append right.comments_occur
  | .boolean left around op right =>
    rw [Expr.comments, Expr.render]
    exact (left.comments_occur.append (around.comments_occur place op)).append right.comments_occur
  | .compare left rest =>
    rw [Expr.comments, Expr.render]
    exact left.comments_occur.append (commentsOfComparisons_occur rest)
  | .conditional body aroundIf test aroundElse otherwise =>
    rw [Expr.comments, Expr.render]
    exact (((body.comments_occur.append (aroundIf.comments_occur place "if")).append
      test.comments_occur).append (aroundElse.comments_occur place "else")).append
      otherwise.comments_occur
  | .lambda gap params colon body =>
    rw [Expr.comments, Expr.render]
    exact ((((gap.comments_occur place).before "lambda").append
      (commentsOfLambdaParams_occur params)).append (colon.comments_occur place ":")).append
      body.comments_occur
  | .assigned target around value =>
    rw [Expr.comments, Expr.render]
    exact ((around.comments_occur place ":=").before target).append value.comments_occur
  | .starred gap value =>
    rw [Expr.comments, Expr.render]
    exact ((gap.comments_occur place).before "*").append value.comments_occur
  | .await gap value =>
    rw [Expr.comments, Expr.render]
    exact ((gap.comments_occur place).before "await").append value.comments_occur
  | .yield => exact .nil _
  | .yieldValue gap value =>
    rw [Expr.comments, Expr.render]
    exact ((gap.comments_occur place).before "yield").append value.comments_occur
  | .yieldFrom beforeFrom gap value =>
    rw [Expr.comments, Expr.render]
    exact ((((beforeFrom.comments_occur place).before "yield").after "from").append
      (gap.comments_occur place)).append value.comments_occur

theorem commentsOfParts_occur (parts : List FormatPart) :
    Occur (commentsOfParts parts) (renderParts place parts) := by
  match parts with
  | [] => exact .nil _
  | .text text :: parts =>
    rw [commentsOfParts, renderParts]
    exact (commentsOfParts_occur parts).before text
  | .field before value equal after conversion hasSpec spec :: parts =>
    have hspec : Occur (if hasSpec then commentsOfParts spec else [])
        (if hasSpec then ":" ++ renderParts place spec else "") := by
      split
      · exact (commentsOfParts_occur spec).before ":"
      · exact .nil _
    unfold commentsOfParts renderParts
    exact (((((((((before.comments_occur place).before _).append value.comments_occur).append
      (commentsOfMark_occur place "=" equal)).append (after.comments_occur place)).after _).append
      hspec).after _).append (commentsOfParts_occur parts))

theorem commentsOfMembers_occur (members : List Member) :
    Occur (commentsOfMembers members) (renderMembers place members) := by
  match members with
  | [] => exact .nil _
  | .item value comma :: rest =>
    rw [commentsOfMembers, renderMembers]
    exact (value.comments_occur.append (renderComma_occur place _ comma)).append
      (commentsOfMembers_occur rest)
  | .keyword name equal value comma :: rest =>
    rw [commentsOfMembers, renderMembers]
    exact ((((equal.comments_occur place "=").before name).append value.comments_occur).append
      (renderComma_occur place _ comma)).append (commentsOfMembers_occur rest)
  | .spread gap value comma :: rest =>
    rw [commentsOfMembers, renderMembers]
    exact ((((gap.comments_occur place).before "**").append value.comments_occur).append
      (renderComma_occur place _ comma)).append (commentsOfMembers_occur rest)
  | .pair key colon value comma :: rest =>
    rw [commentsOfMembers, renderMembers]
    exact (((key.comments_occur.append (colon.comments_occur place ":")).append
      value.comments_occur).append (renderComma_occur place _ comma)).append
      (commentsOfMembers_occur rest)
  | .slice lower colon upper stepColon step comma :: rest =>
    unfold commentsOfMembers renderMembers
    exact ((((((commentsOfOptional_occur lower).append (colon.comments_occur place ":")).append
      (commentsOfOptional_occur upper)).append (commentsOfMark_occur place ":" stepColon)).append
      (commentsOfOptional_occur step)).append (renderComma_occur place _ comma)).append
      (commentsOfMembers_occur rest)

theorem commentsOfOptional_occur (e : Option Expr) :
    Occur (commentsOfOptional e) (renderOptional place e) := by
  match e with
  | none => exact .nil _
  | some e =>
    rw [commentsOfOptional, renderOptional]
    exact e.comments_occur

theorem commentsOfLoops_occur (clauses : List CompClause) :
    Occur (commentsOfLoops clauses) (renderClauses place clauses) := by
  match clauses with
  | [] => exact .nil _
  | .loop before asyncGap afterFor target aroundIn iter :: rest =>
    unfold commentsOfLoops renderClauses
    exact ((((((((before.comments_occur place).append (commentsOfGap?_occur place "async" asyncGap)).after
      "for").append (afterFor.comments_occur place)).append target.comments_occur).append
      (aroundIn.comments_occur place "in")).append iter.comments_occur).append
      (commentsOfLoops_occur rest))
  | .filter before afterIf test :: rest =>
    rw [commentsOfLoops, renderClauses]
    exact ((((before.comments_occur place).after "if").append (afterIf.comments_occur place)).append
      test.comments_occur).append (commentsOfLoops_occur rest)

theorem commentsOfComparisons_occur (comparisons : List Comparison) :
    Occur (commentsOfComparisons comparisons) (renderComparisons place comparisons) := by
  match comparisons with
  | [] => exact .nil _
  | .mk around op second right :: rest =>
    have hsecond : Occur (commentsOfGap? (second.map Prod.fst))
        (match second with | some (gap, word) => gap.render place ++ word | none => "") := by
      cases second with
      | none => exact .nil _
      | some second => exact (second.1.comments_occur place).after second.2
    unfold commentsOfComparisons renderComparisons
    exact (((((around.before.comments_occur place).after op).append hsecond).append
      (around.after.comments_occur place)).append right.comments_occur).append
      (commentsOfComparisons_occur rest)

theorem commentsOfLambdaParams_occur (params : List LambdaParam) :
    Occur (commentsOfLambdaParams params) (renderLambdaParams place params) := by
  match params with
  | [] => exact .nil _
  | .param star starGap name equal none comma :: rest =>
    rw [commentsOfLambdaParams, renderLambdaParams]
    exact ((((((starGap.comments_occur place).before star).after name).append (.nil "")).append
      (renderComma_occur place _ comma)).append (commentsOfLambdaParams_occur rest))
  | .param star starGap name equal (some value) comma :: rest =>
    rw [commentsOfLambdaParams, renderLambdaParams]
    exact ((((((starGap.comments_occur place).before star).after name).append
      ((equal.comments_occur place "=").append value.comments_occur)).append
      (renderComma_occur place _ comma)).append (commentsOfLambdaParams_occur rest))
  | .mark text comma :: rest =>
    rw [commentsOfLambdaParams, renderLambdaParams]
    exact ((renderComma_occur place _ comma).before text).append (commentsOfLambdaParams_occur rest)

end

mutual

theorem Pattern.comments_occur (pattern : Pattern) :
    Occur pattern.comments (pattern.render place) := by
  match pattern with
  | .value value =>
    rw [Pattern.comments, Pattern.render]
    exact value.comments_occur place
  | .capture _ => exact .nil _
  | .named pattern around name =>
    rw [Pattern.comments, Pattern.render]
    exact (pattern.comments_occur.append (around.comments_occur place "as")).after name
  | .either left around right =>
    rw [Pattern.comments, Pattern.render]
    exact (left.comments_occur.append (around.comments_occur place "|")).append right.comments_occur
  | .paren before inner after =>
    rw [Pattern.comments, Pattern.render]
    exact ((((before.comments_occur place).before "(").append inner.comments_occur).append
      (after.comments_occur place)).after ")"
  | .open_ members =>
    rw [Pattern.comments, Pattern.render]
    exact commentsOfPatterns_occur members
  | .list before members after =>
    rw [Pattern.comments, Pattern.render]
    exact ((((before.comments_occur place).before "[").append (commentsOfPatterns_occur members)).append
      (after.comments_occur place)).after "]"
  | .tuple before members after =>
    rw [Pattern.comments, Pattern.render]
    exact ((((before.comments_occur place).before "(").append (commentsOfPatterns_occur members)).append
      (after.comments_occur place)).after ")"
  | .star gap name =>
    rw [Pattern.comments, Pattern.render]
    exact ((gap.comments_occur place).before "*").after name
  | .mapping before members after =>
    rw [Pattern.comments, Pattern.render]
    exact ((((before.comments_occur place).before _).append (commentsOfPatterns_occur members)).append
      (after.comments_occur place)).after _
  | .class_ name gap before members after =>
    rw [Pattern.comments, Pattern.render]
    exact ((((((name.comments_occur place).append (gap.comments_occur place)).after "(").append
      (before.comments_occur place)).append (commentsOfPatterns_occur members)).append
      (after.comments_occur place)).after ")"

theorem commentsOfPatterns_occur (members : List PatternMember) :
    Occur (commentsOfPatterns members) (renderPatterns place members) := by
  match members with
  | [] => exact .nil _
  | .item pattern comma :: rest =>
    rw [commentsOfPatterns, renderPatterns]
    exact (pattern.comments_occur.append (renderComma_occur place _ comma)).append
      (commentsOfPatterns_occur rest)
  | .keyed key colon pattern comma :: rest =>
    rw [commentsOfPatterns, renderPatterns]
    exact ((((key.comments_occur place).append (colon.comments_occur place ":")).append
      pattern.comments_occur).append (renderComma_occur place _ comma)).append
      (commentsOfPatterns_occur rest)
  | .keyword name equal pattern comma :: rest =>
    rw [commentsOfPatterns, renderPatterns]
    exact ((((equal.comments_occur place "=").before name).append pattern.comments_occur).append
      (renderComma_occur place _ comma)).append (commentsOfPatterns_occur rest)
  | .rest gap name comma :: rest =>
    rw [commentsOfPatterns, renderPatterns]
    exact ((((gap.comments_occur place).before "**").after name).append
      (renderComma_occur place _ comma)).append (commentsOfPatterns_occur rest)

end

theorem commentsOfMarked_occur (mark : String) (marked : Option (Around × Expr)) :
    Occur (commentsOfMarked marked) ( renderAnnotation place mark marked) := by
  cases marked with
  | none => exact .nil _
  | some marked =>
    exact (marked.1.comments_occur place mark).append (marked.2.comments_occur place)

theorem Param.comments_occur (more : Bool) (param : Param) :
    Occur param.comments (param.render place more) :=
  ((((((param.starGap.comments_occur place).before param.star).after param.name).append
    (commentsOfMarked_occur place ":" param.typing)).append
    (commentsOfMarked_occur place "=" param.default)).append
    (renderComma_occur place more param.comma)).append (param.after.comments_occur place)

theorem renderParamList_occur (more : Bool) (params : List Param) :
    Occur (params.flatMap Param.comments) (renderParamList place more params) :=
  occur_list (fun param _ => ⟨_, rfl, param.comments_occur place _⟩) params

theorem Params.comments_occur (params : Params) : Occur params.comments (params.render place) := by
  obtain ⟨posonly, slash, plain, star, kwonly, kwarg⟩ := params
  unfold Params.comments Params.render
  refine (((((renderParamList_occur place _ posonly).append ?_).append
    (renderParamList_occur place _ plain)).append ?_).append (renderParamList_occur place _ kwonly)).append ?_
  · cases slash with
    | none => exact .nil _
    | some slash =>
      rw [Option.toList_some, List.flatMap_singleton]
      exact ((slash.after.comments_occur place).before "/").append (renderComma_occur place _ slash.comma)
  · cases star with
    | none => exact .nil _
    | some star =>
      rw [Option.toList_some, List.flatMap_singleton]
      cases star with
      | mark comma => exact (comma.comments_occur place ",").before "*"
      | param p => exact p.comments_occur place _
  · cases kwarg with
    | none => exact .nil _
    | some param =>
      rw [Option.toList_some, List.flatMap_singleton]
      exact param.comments_occur place false

theorem renderTypeParamList_occur (params : List TypeParam) :
    Occur (params.flatMap TypeParam.comments) (renderTypeParamList place params) :=
  occur_list (fun param _ => ⟨_, rfl, (((((param.gap.comments_occur place).before param.star).after
    param.name).append (commentsOfMarked_occur place ":" param.bound)).append
    (commentsOfMarked_occur place "=" param.default)).append
    (renderComma_occur place _ param.comma)⟩) params

theorem commentsOfTypeParams_occur (params : Option TypeParams) :
    Occur (commentsOfTypeParams params) (renderTypeParams place params) := by
  cases params with
  | none => exact .nil _
  | some params =>
    exact (((((params.before.comments_occur place).before "[").append
      (renderTypeParamList_occur place params.params)).append
      (params.after.comments_occur place)).after "]").append (params.behind.comments_occur place)

theorem commentsOfOperand_occur (operand : Option (Gap × Expr)) :
    Occur (commentsOfOperand operand) (renderOperand place operand) := by
  cases operand with
  | none => exact .nil _
  | some operand => exact (operand.1.comments_occur place).append (operand.2.comments_occur place)

theorem renderTargets_occur (targets : List AssignTarget) :
    Occur (targets.flatMap AssignTarget.comments) (renderTargets place targets) :=
  occur_list (fun target _ => ⟨_, rfl,
    (target.target.comments_occur place).append (target.equal.comments_occur place "=")⟩) targets

theorem commentsOfAlias_occur (name : Option (Around × String)) :
    Occur (commentsOfAlias name) (renderAlias place name) := by
  cases name with
  | none => exact .nil _
  | some name => exact (name.1.comments_occur place "as").after name.2

theorem renderImportNames_occur (names : List ImportName) :
    Occur (names.flatMap ImportName.comments) (renderImportNames place names) :=
  occur_list (fun name _ => ⟨_, rfl, ((name.name.comments_occur place).append
    (commentsOfAlias_occur place name.asName)).append (renderComma_occur place _ name.comma)⟩) names

theorem ImportNames.comments_occur (names : ImportNames) :
    Occur names.comments (names.render place) := by
  cases names with
  | star => exact .nil _
  | names parens list =>
    cases parens with
    | none => exact renderImportNames_occur place list
    | some parens =>
      exact ((((parens.1.comments_occur place).before "(").append
        (renderImportNames_occur place list)).append (parens.2.comments_occur place)).after ")"

theorem renderNameList_occur (names : List (String × Option Around)) :
    Occur (commentsOfNames names) (renderNameList place names) :=
  occur_list (fun name _ => ⟨_, rfl, (renderComma_occur place _ name.2).before name.1⟩) names

theorem Small.comments_occur (small : Small) : Occur small.comments (small.render place) := by
  cases small with
  | expr value => exact value.comments_occur place
  | assign targets value => exact (renderTargets_occur place targets).append (value.comments_occur place)
  | annAssign target colon typing value =>
    exact (((target.comments_occur place).append (colon.comments_occur place ":")).append
      (typing.comments_occur place)).append (commentsOfMarked_occur place "=" value)
  | augAssign target around op value =>
    exact ((target.comments_occur place).append (around.comments_occur place op)).append
      (value.comments_occur place)
  | return_ value => exact (commentsOfOperand_occur place value).before "return"
  | raise value cause =>
    exact ((commentsOfOperand_occur place value).before "raise").append
      (commentsOfMarked_occur place "from" cause)
  | assert gap test message =>
    exact (((gap.comments_occur place).before "assert").append (test.comments_occur place)).append
      (commentsOfMarked_occur place "," message)
  | del gap target =>
    exact ((gap.comments_occur place).before "del").append (target.comments_occur place)
  | import_ gap names =>
    exact ((gap.comments_occur place).before "import").append (renderImportNames_occur place names)
  | importFrom afterFrom dots module beforeImport afterImport names =>
    refine (((((((afterFrom.comments_occur place).before "from").append
      (occur_join (fun dot => dot.comments_occur place ".") dots)).append ?_).append
      (beforeImport.comments_occur place)).after "import").append
      (afterImport.comments_occur place)).append (names.comments_occur place)
    cases module with
    | none => exact .nil _
    | some name => exact name.comments_occur place
  | global gap names =>
    exact ((gap.comments_occur place).before "global").append (renderNameList_occur place names)
  | nonlocal gap names =>
    exact ((gap.comments_occur place).before "nonlocal").append (renderNameList_occur place names)
  | typeAlias gap name afterName params equal value =>
    exact ((((((gap.comments_occur place).before "type").after name).append
      (afterName.comments_occur place)).append (commentsOfTypeParams_occur place params)).append
      (equal.comments_occur place "=")).append (value.comments_occur place)
  | _ => exact .nil _

theorem renderEntries_occur (entries : List Entry) :
    Occur (entries.flatMap Entry.comments) (renderEntries place entries) := by
  have hlist : Occur (entries.flatMap Entry.comments) (renderEntryList place entries) :=
    occur_list (fun entry rest => by
      refine ⟨_, rfl, (entry.stmt.comments_occur place).append ?_⟩
      cases entry.semi with
      | none => exact .nil _
      | some semi => exact semi.comments_occur place ";") entries
  unfold renderEntries
  split
  · rename_i hnil
    rw [List.isEmpty_iff.mp hnil]
    exact .nil _
  · exact hlist

theorem Line.comments_occur (line : Line) : Occur line.comments (line.render place) :=
  (((commentsOfLines_occur place line.leading).after place.margin).append
    (renderEntries_occur place line.entries)).append (line.tail.comments_occur place)

theorem Decorator.comments_occur (decorator : Decorator) :
    Occur decorator.comments (decorator.render place) :=
  (((((commentsOfLines_occur place decorator.leading).after place.margin).after "@").append
    (decorator.gap.comments_occur place)).append (decorator.value.comments_occur place)).append
    (decorator.tail.comments_occur place)

theorem renderDecorators_occur (decorators : List Decorator) :
    Occur (decorators.flatMap Decorator.comments) (renderDecorators place decorators) :=
  occur_join (Decorator.comments_occur place) decorators

theorem FuncHead.comments_occur (head : FuncHead) : Occur head.comments (head.render place) := by
  have hfront := (((commentsOfLines_occur place head.leading).append
    (renderDecorators_occur place head.decorators)).append
    (commentsOfLines_occur place head.afterDecorators)).after place.margin
  have hname := ((((hfront.append (commentsOfGap?_occur place "async" head.asyncGap)).after "def").append
    (head.gap.comments_occur place)).after head.name).append (head.afterName.comments_occur place)
  have hparams := ((((hname.append (commentsOfTypeParams_occur place head.typeParams)).after "(").append
    (head.beforeParams.comments_occur place)).append (head.params.comments_occur place)).after ")"
  exact ((hparams.append (commentsOfMarked_occur place "->" head.returns)).append
    (head.beforeColon.comments_occur place)).after ":"

/-- Brackets that are left open are written where there are bases. -/
theorem ClassHead.renderBases_occur (head : ClassHead) :
    Occur head.enclosed (head.renderBases place) := by
  have hmembers := commentsOfMembers_occur place (head.bases ++ head.keywords)
  unfold ClassHead.enclosed ClassHead.opening ClassHead.closing ClassHead.renderBases
  cases head.parens with
  | some parens =>
    exact ((((parens.1.comments_occur place).before "(").append hmembers).append
      (parens.2.comments_occur place)).after ")"
  | none =>
    simp only [Option.map_none, commentsOfGap?, List.nil_append, List.append_nil]
    split
    · rename_i hnil
      rw [List.isEmpty_iff.mp hnil]
      exact .nil _
    · exact (hmembers.before "(").after ")"

theorem ClassHead.comments_occur (head : ClassHead) : Occur head.comments (head.render place) := by
  have hfront := (((((((commentsOfLines_occur place head.leading).append
    (renderDecorators_occur place head.decorators)).append
    (commentsOfLines_occur place head.afterDecorators)).after place.margin).after "class").append
    (head.gap.comments_occur place)).after head.name).append (head.afterName.comments_occur place)
  exact (((hfront.append (commentsOfTypeParams_occur place head.typeParams)).append
    (head.renderBases_occur place)).append (head.beforeColon.comments_occur place)).after ":"

theorem renderWithItems_occur (items : List WithItem) :
    Occur (items.flatMap WithItem.comments) (renderWithItems place items) :=
  occur_list (fun item _ => ⟨_, rfl, ((item.value.comments_occur place).append
    (commentsOfMarked_occur place "as" item.target)).append
    (renderComma_occur place _ item.comma)⟩) items

theorem ClauseHead.comments_occur (head : ClauseHead) : Occur head.comments (head.render place) := by
  cases head with
  | if_ gap test => exact ((gap.comments_occur place).before "if").append (test.comments_occur place)
  | elif gap test => exact ((gap.comments_occur place).before "elif").append (test.comments_occur place)
  | while_ gap test => exact ((gap.comments_occur place).before "while").append (test.comments_occur place)
  | for_ asyncGap gap target aroundIn iter =>
    exact (((((commentsOfGap?_occur place "async" asyncGap).after "for").append
      (gap.comments_occur place)).append (target.comments_occur place)).append
      (aroundIn.comments_occur place "in")).append (iter.comments_occur place)
  | with_ asyncGap gap parens items =>
    have hitems := renderWithItems_occur place items
    rw [ClauseHead.comments, List.append_assoc, List.append_assoc]
    refine (((commentsOfGap?_occur place "async" asyncGap).after "with").append
      (gap.comments_occur place)).append ?_
    cases parens with
    | none => simpa [commentsOfGap?] using hitems
    | some parens =>
      exact List.append_assoc .. ▸ ((((parens.1.comments_occur place).before "(").append hitems).append
        (parens.2.comments_occur place)).after ")"
  | except value name =>
    exact ((commentsOfOperand_occur place value).before "except").append
      (commentsOfAlias_occur place name)
  | exceptStar beforeStar afterStar value name =>
    exact (((((beforeStar.comments_occur place).before "except").after "*").append
      (afterStar.comments_occur place)).append (value.comments_occur place)).append
      (commentsOfAlias_occur place name)
  | match_ gap subject =>
    exact ((gap.comments_occur place).before "match").append (subject.comments_occur place)
  | case gap pattern guard =>
    exact (((gap.comments_occur place).before "case").append (pattern.comments_occur place)).append
      (commentsOfMarked_occur place "if" guard)
  | _ => exact .nil _

end Rendered

mutual

/-- The comments of a statement occur in what is written of it, in order. -/
theorem Stmt.comments_occur (s : Stmt) (place : Place) : Occur s.comments (s.render place) := by
  match s with
  | .line line =>
    rw [Stmt.comments, Stmt.render]
    exact line.comments_occur place
  | .func head body =>
    rw [Stmt.comments, Stmt.render]
    exact (head.comments_occur place).append (body.comments_occur place)
  | .class_ head body =>
    rw [Stmt.comments, Stmt.render]
    exact (head.comments_occur place).append (body.comments_occur place)
  | .compound clauses =>
    rw [Stmt.comments, Stmt.render]
    exact commentsOfClauses_occur clauses place

theorem Suite.comments_occur (body : Suite) (place : Place) :
    Occur body.comments (body.render place) := by
  match body with
  | .block header indent body footer =>
    rw [Suite.comments, Suite.render]
    refine ((header.comments_occur place).append ?_).append (commentsOfLines_occur _ footer)
    split
    · rename_i hnil
      rw [List.isEmpty_iff.mp hnil]
      exact .nil _
    · exact commentsOfStmts_occur body _
  | .inline gap entries tail =>
    rw [Suite.comments, Suite.render]
    exact ((gap.comments_occur place).append (renderEntries_occur place entries)).append
      (tail.comments_occur place)

theorem commentsOfClauses_occur (clauses : List Clause) (place : Place) :
    Occur (commentsOfClauses clauses) (renderClauseList place clauses) := by
  match clauses with
  | [] => exact .nil _
  | .mk leading head beforeColon body :: rest =>
    rw [commentsOfClauses, renderClauseList, Clause.render]
    exact ((((((commentsOfLines_occur place leading).after place.margin).append
      (head.comments_occur place)).append (beforeColon.comments_occur place)).after ":").append
      (body.comments_occur place)).append (commentsOfClauses_occur rest place)

theorem commentsOfStmts_occur (body : List Stmt) (place : Place) :
    Occur (commentsOfStmts body) (renderStmts place body) := by
  match body with
  | [] => exact .nil _
  | s :: rest =>
    rw [commentsOfStmts, renderStmts]
    exact (s.comments_occur place).append (commentsOfStmts_occur rest place)

end

end Hydration.Syntax
