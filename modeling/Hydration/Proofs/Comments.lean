import Hydration.Syntax.Statement

/-! Comments. Those of a piece of syntax are listed in the order in which it is written. -/

namespace Hydration.Syntax

def LineTail.comments (tail : LineTail) : List String := tail.comment.toList

def EmptyLine.comments (line : EmptyLine) : List String := line.comment.toList

def commentsOfLines (lines : List EmptyLine) : List String := lines.flatMap EmptyLine.comments

def Gap.comments : Gap → List String
  | .inline _ => []
  | .folded first between _ _ => first.comments ++ commentsOfLines between

def commentsOfGap? : Option Gap → List String
  | some gap => gap.comments
  | none => []

def Around.comments (around : Around) : List String := around.before.comments ++ around.after.comments

/-- The comments around a mark that may be left open. -/
def commentsOfMark : Option Around → List String
  | some around => around.comments
  | none => []

mutual

def Expr.comments : Expr → List String
  | .name _ => []
  | .number _ => []
  | .string _ => []
  | .format _ parts _ => commentsOfParts parts
  | .joined left gap right => left.comments ++ gap.comments ++ right.comments
  | .ellipsis => []
  | .paren before inner after => before.comments ++ inner.comments ++ after.comments
  | .tuple members => commentsOfMembers members
  | .list before members after => before.comments ++ commentsOfMembers members ++ after.comments
  | .set before members after => before.comments ++ commentsOfMembers members ++ after.comments
  | .dict before members after => before.comments ++ commentsOfMembers members ++ after.comments
  | .listComp before element clauses after =>
    before.comments ++ element.comments ++ commentsOfLoops clauses ++ after.comments
  | .setComp before element clauses after =>
    before.comments ++ element.comments ++ commentsOfLoops clauses ++ after.comments
  | .dictComp before key colon value clauses after =>
    before.comments ++ key.comments ++ colon.comments ++ value.comments ++ commentsOfLoops clauses ++
      after.comments
  | .generator element clauses => element.comments ++ commentsOfLoops clauses
  | .attribute value dot _ => value.comments ++ dot.comments
  | .subscript value gap before members after =>
    value.comments ++ gap.comments ++ before.comments ++ commentsOfMembers members ++ after.comments
  | .call func gap before args after =>
    func.comments ++ gap.comments ++ before.comments ++ commentsOfMembers args ++ after.comments
  | .unary _ gap operand => gap.comments ++ operand.comments
  | .binary left around _ right => left.comments ++ around.comments ++ right.comments
  | .boolean left around _ right => left.comments ++ around.comments ++ right.comments
  | .compare left rest => left.comments ++ commentsOfComparisons rest
  | .conditional body aroundIf test aroundElse otherwise =>
    body.comments ++ aroundIf.comments ++ test.comments ++ aroundElse.comments ++ otherwise.comments
  | .lambda gap params colon body =>
    gap.comments ++ commentsOfLambdaParams params ++ colon.comments ++ body.comments
  | .assigned _ around value => around.comments ++ value.comments
  | .starred gap value => gap.comments ++ value.comments
  | .await gap value => gap.comments ++ value.comments
  | .yield => []
  | .yieldValue gap value => gap.comments ++ value.comments
  | .yieldFrom beforeFrom gap value => beforeFrom.comments ++ gap.comments ++ value.comments

def commentsOfParts : List FormatPart → List String
  | [] => []
  | .text _ :: parts => commentsOfParts parts
  | .field before value equal after _ hasSpec spec :: parts =>
    before.comments ++ value.comments ++ commentsOfMark equal ++ after.comments ++
      (if hasSpec then commentsOfParts spec else []) ++ commentsOfParts parts

def commentsOfMembers : List Member → List String
  | [] => []
  | .item value comma :: rest => value.comments ++ commentsOfMark comma ++ commentsOfMembers rest
  | .keyword _ equal value comma :: rest =>
    equal.comments ++ value.comments ++ commentsOfMark comma ++ commentsOfMembers rest
  | .spread gap value comma :: rest =>
    gap.comments ++ value.comments ++ commentsOfMark comma ++ commentsOfMembers rest
  | .pair key colon value comma :: rest =>
    key.comments ++ colon.comments ++ value.comments ++ commentsOfMark comma ++ commentsOfMembers rest
  | .slice lower colon upper stepColon step comma :: rest =>
    commentsOfOptional lower ++ colon.comments ++ commentsOfOptional upper ++
      commentsOfMark stepColon ++ commentsOfOptional step ++ commentsOfMark comma ++
      commentsOfMembers rest

def commentsOfOptional : Option Expr → List String
  | some e => e.comments
  | none => []

def commentsOfLoops : List CompClause → List String
  | [] => []
  | .loop before asyncGap afterFor target aroundIn iter :: rest =>
    before.comments ++ commentsOfGap? asyncGap ++ afterFor.comments ++ target.comments ++
      aroundIn.comments ++ iter.comments ++ commentsOfLoops rest
  | .filter before afterIf test :: rest =>
    before.comments ++ afterIf.comments ++ test.comments ++ commentsOfLoops rest

def commentsOfComparisons : List Comparison → List String
  | [] => []
  | .mk around _ second right :: rest =>
    around.before.comments ++ commentsOfGap? (second.map Prod.fst) ++ around.after.comments ++
      right.comments ++ commentsOfComparisons rest

def commentsOfLambdaParams : List LambdaParam → List String
  | [] => []
  | .param _ starGap _ equal value comma :: rest =>
    starGap.comments ++
      (match value with | some value => equal.comments ++ value.comments | none => []) ++
      commentsOfMark comma ++ commentsOfLambdaParams rest
  | .mark _ comma :: rest => commentsOfMark comma ++ commentsOfLambdaParams rest

end

mutual

def Pattern.comments : Pattern → List String
  | .value value => value.comments
  | .capture _ => []
  | .named pattern around _ => pattern.comments ++ around.comments
  | .either left around right => left.comments ++ around.comments ++ right.comments
  | .paren before inner after => before.comments ++ inner.comments ++ after.comments
  | .open_ members => commentsOfPatterns members
  | .list before members after => before.comments ++ commentsOfPatterns members ++ after.comments
  | .tuple before members after => before.comments ++ commentsOfPatterns members ++ after.comments
  | .star gap _ => gap.comments
  | .mapping before members after => before.comments ++ commentsOfPatterns members ++ after.comments
  | .class_ name gap before members after =>
    name.comments ++ gap.comments ++ before.comments ++ commentsOfPatterns members ++ after.comments

def commentsOfPatterns : List PatternMember → List String
  | [] => []
  | .item pattern comma :: rest =>
    pattern.comments ++ commentsOfMark comma ++ commentsOfPatterns rest
  | .keyed key colon pattern comma :: rest =>
    key.comments ++ colon.comments ++ pattern.comments ++ commentsOfMark comma ++
      commentsOfPatterns rest
  | .keyword _ equal pattern comma :: rest =>
    equal.comments ++ pattern.comments ++ commentsOfMark comma ++ commentsOfPatterns rest
  | .rest gap _ comma :: rest => gap.comments ++ commentsOfMark comma ++ commentsOfPatterns rest

end

def commentsOfMarked : Option (Around × Expr) → List String
  | some (around, value) => around.comments ++ value.comments
  | none => []

def Param.comments (param : Param) : List String :=
  param.starGap.comments ++ commentsOfMarked param.typing ++ commentsOfMarked param.default ++
    commentsOfMark param.comma ++ param.after.comments

def Slash.comments (slash : Slash) : List String :=
  slash.after.comments ++ commentsOfMark slash.comma

def StarParam.comments : StarParam → List String
  | .mark comma => comma.comments
  | .param p => p.comments

def Params.comments (params : Params) : List String :=
  params.posonly.flatMap Param.comments ++ params.slash.toList.flatMap Slash.comments ++
    params.params.flatMap Param.comments ++ params.star.toList.flatMap StarParam.comments ++
    params.kwonly.flatMap Param.comments ++ params.kwarg.toList.flatMap Param.comments

def TypeParam.comments (param : TypeParam) : List String :=
  param.gap.comments ++ commentsOfMarked param.bound ++ commentsOfMarked param.default ++
    commentsOfMark param.comma

def commentsOfTypeParams : Option TypeParams → List String
  | some params => params.before.comments ++ params.params.flatMap TypeParam.comments ++
      params.after.comments ++ params.behind.comments
  | none => []

def commentsOfOperand : Option (Gap × Expr) → List String
  | some (gap, value) => gap.comments ++ value.comments
  | none => []

def AssignTarget.comments (target : AssignTarget) : List String :=
  target.target.comments ++ target.equal.comments

def commentsOfAlias : Option (Around × String) → List String
  | some (around, _) => around.comments
  | none => []

def ImportName.comments (name : ImportName) : List String :=
  name.name.comments ++ commentsOfAlias name.asName ++ commentsOfMark name.comma

def ImportNames.comments : ImportNames → List String
  | .star => []
  | .names (some (before, after)) list =>
    before.comments ++ list.flatMap ImportName.comments ++ after.comments
  | .names none list => list.flatMap ImportName.comments

def commentsOfNames (names : List (String × Option Around)) : List String :=
  names.flatMap fun name => commentsOfMark name.2

def Small.comments : Small → List String
  | .expr value => value.comments
  | .assign targets value => targets.flatMap AssignTarget.comments ++ value.comments
  | .annAssign target colon typing value =>
    target.comments ++ colon.comments ++ typing.comments ++ commentsOfMarked value
  | .augAssign target around _ value => target.comments ++ around.comments ++ value.comments
  | .return_ value => commentsOfOperand value
  | .raise value cause => commentsOfOperand value ++ commentsOfMarked cause
  | .assert gap test message => gap.comments ++ test.comments ++ commentsOfMarked message
  | .del gap target => gap.comments ++ target.comments
  | .pass => []
  | .break_ => []
  | .continue_ => []
  | .import_ gap names => gap.comments ++ names.flatMap ImportName.comments
  | .importFrom afterFrom dots module beforeImport afterImport names =>
    afterFrom.comments ++ dots.flatMap Around.comments ++ commentsOfOptional module ++
      beforeImport.comments ++ afterImport.comments ++ names.comments
  | .global gap names => gap.comments ++ commentsOfNames names
  | .nonlocal gap names => gap.comments ++ commentsOfNames names
  | .typeAlias gap _ afterName params equal value =>
    gap.comments ++ afterName.comments ++ commentsOfTypeParams params ++ equal.comments ++
      value.comments

def Entry.comments (entry : Entry) : List String := entry.stmt.comments ++ commentsOfMark entry.semi

def Line.comments (line : Line) : List String :=
  commentsOfLines line.leading ++ line.entries.flatMap Entry.comments ++ line.tail.comments

def Decorator.comments (decorator : Decorator) : List String :=
  commentsOfLines decorator.leading ++ decorator.gap.comments ++ decorator.value.comments ++
    decorator.tail.comments

def FuncHead.comments (head : FuncHead) : List String :=
  commentsOfLines head.leading ++ head.decorators.flatMap Decorator.comments ++
    commentsOfLines head.afterDecorators ++ commentsOfGap? head.asyncGap ++ head.gap.comments ++
    head.afterName.comments ++ commentsOfTypeParams head.typeParams ++ head.beforeParams.comments ++
    head.params.comments ++ commentsOfMarked head.returns ++ head.beforeColon.comments

/-- The comments behind the opening bracket of the bases. -/
def ClassHead.opening (head : ClassHead) : List String := commentsOfGap? (head.parens.map Prod.fst)

/-- The comments in front of the closing bracket of the bases. -/
def ClassHead.closing (head : ClassHead) : List String := commentsOfGap? (head.parens.map Prod.snd)

/-- The comments in the brackets around the bases. -/
def ClassHead.enclosed (head : ClassHead) : List String :=
  head.opening ++ commentsOfMembers (head.bases ++ head.keywords) ++ head.closing

def ClassHead.comments (head : ClassHead) : List String :=
  commentsOfLines head.leading ++ head.decorators.flatMap Decorator.comments ++
    commentsOfLines head.afterDecorators ++ head.gap.comments ++ head.afterName.comments ++
    commentsOfTypeParams head.typeParams ++ head.enclosed ++ head.beforeColon.comments

def WithItem.comments (item : WithItem) : List String :=
  item.value.comments ++ commentsOfMarked item.target ++ commentsOfMark item.comma

def ClauseHead.comments : ClauseHead → List String
  | .if_ gap test => gap.comments ++ test.comments
  | .elif gap test => gap.comments ++ test.comments
  | .else_ => []
  | .while_ gap test => gap.comments ++ test.comments
  | .for_ asyncGap gap target aroundIn iter =>
    commentsOfGap? asyncGap ++ gap.comments ++ target.comments ++ aroundIn.comments ++ iter.comments
  | .with_ asyncGap gap parens items =>
    commentsOfGap? asyncGap ++ gap.comments ++ commentsOfGap? (parens.map Prod.fst) ++
      items.flatMap WithItem.comments ++ commentsOfGap? (parens.map Prod.snd)
  | .try_ => []
  | .except value name => commentsOfOperand value ++ commentsOfAlias name
  | .exceptStar beforeStar afterStar value name =>
    beforeStar.comments ++ afterStar.comments ++ value.comments ++ commentsOfAlias name
  | .finally_ => []
  | .match_ gap subject => gap.comments ++ subject.comments
  | .case gap pattern guard => gap.comments ++ pattern.comments ++ commentsOfMarked guard

mutual

def Stmt.comments : Stmt → List String
  | .line line => line.comments
  | .func head body => head.comments ++ body.comments
  | .class_ head body => head.comments ++ body.comments
  | .compound clauses => commentsOfClauses clauses

def Suite.comments : Suite → List String
  | .block header _ body footer => header.comments ++ commentsOfStmts body ++ commentsOfLines footer
  | .inline gap entries tail => gap.comments ++ entries.flatMap Entry.comments ++ tail.comments

def commentsOfClauses : List Clause → List String
  | [] => []
  | .mk leading head beforeColon body :: rest =>
    commentsOfLines leading ++ head.comments ++ beforeColon.comments ++ body.comments ++
      commentsOfClauses rest

def commentsOfStmts : List Stmt → List String
  | [] => []
  | stmt :: rest => stmt.comments ++ commentsOfStmts rest

end

end Hydration.Syntax
