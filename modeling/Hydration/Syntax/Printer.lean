import Hydration.Syntax.Statement

/-! Writing syntax back as text. Marks that the tree leaves open, such as the comma between a
parameter and a new one behind it, are written in their plain form. -/

namespace Hydration.Syntax

def Around.render (place : Place) (around : Around) (mark : String) : String :=
  around.before.render place ++ mark ++ around.after.render place

/-- A comma; between two members one that is not given is written as `, `. -/
def renderComma (place : Place) (more : Bool) : Option Around → String
  | some comma => comma.render place ","
  | none => if more then ", " else ""

mutual

def Expr.render (place : Place) : Expr → String
  | .name id => id
  | .number text => text
  | .string text => text
  | .format opening parts closing => opening ++ renderParts place parts ++ closing
  | .joined left gap right => left.render place ++ gap.render place ++ right.render place
  | .ellipsis => "..."
  | .paren before inner after =>
    "(" ++ before.render place ++ inner.render place ++ after.render place ++ ")"
  | .tuple members =>
    match members with
    | [.item value none] => value.render place ++ ","
    | members => renderMembers place members
  | .list before members after =>
    "[" ++ before.render place ++ renderMembers place members ++ after.render place ++ "]"
  | .set before members after =>
    "\x7b" ++ before.render place ++ renderMembers place members ++ after.render place ++ "\x7d"
  | .dict before members after =>
    "\x7b" ++ before.render place ++ renderMembers place members ++ after.render place ++ "\x7d"
  | .listComp before element clauses after =>
    "[" ++ before.render place ++ element.render place ++ renderClauses place clauses ++
      after.render place ++ "]"
  | .setComp before element clauses after =>
    "\x7b" ++ before.render place ++ element.render place ++ renderClauses place clauses ++
      after.render place ++ "\x7d"
  | .dictComp before key colon value clauses after =>
    "\x7b" ++ before.render place ++ key.render place ++ colon.render place ":" ++
      value.render place ++ renderClauses place clauses ++ after.render place ++ "\x7d"
  | .generator element clauses => element.render place ++ renderClauses place clauses
  | .attribute value dot attr => value.render place ++ dot.render place "." ++ attr
  | .subscript value gap before members after =>
    value.render place ++ gap.render place ++ "[" ++ before.render place ++
      renderMembers place members ++ after.render place ++ "]"
  | .call func gap before args after =>
    func.render place ++ gap.render place ++ "(" ++ before.render place ++
      renderMembers place args ++ after.render place ++ ")"
  | .unary op gap operand => op ++ gap.render place ++ operand.render place
  | .binary left around op right =>
    left.render place ++ around.render place op ++ right.render place
  | .boolean left around op right =>
    left.render place ++ around.render place op ++ right.render place
  | .compare left rest => left.render place ++ renderComparisons place rest
  | .conditional body aroundIf test aroundElse otherwise =>
    body.render place ++ aroundIf.render place "if" ++ test.render place ++
      aroundElse.render place "else" ++ otherwise.render place
  | .lambda gap params colon body =>
    "lambda" ++ gap.render place ++ renderLambdaParams place params ++ colon.render place ":" ++
      body.render place
  | .assigned target around value => target ++ around.render place ":=" ++ value.render place
  | .starred gap value => "*" ++ gap.render place ++ value.render place
  | .await gap value => "await" ++ gap.render place ++ value.render place
  | .yield => "yield"
  | .yieldValue gap value => "yield" ++ gap.render place ++ value.render place
  | .yieldFrom beforeFrom gap value =>
    "yield" ++ beforeFrom.render place ++ "from" ++ gap.render place ++ value.render place

def renderParts (place : Place) : List FormatPart → String
  | [] => ""
  | .text text :: parts => text ++ renderParts place parts
  | .field before value equal after conversion hasSpec spec :: parts =>
    "\x7b" ++ before.render place ++ value.render place ++
      (match equal with | some equal => equal.render place "=" | none => "") ++
      after.render place ++
      (match conversion with | some conversion => "!" ++ conversion | none => "") ++
      (if hasSpec then ":" ++ renderParts place spec else "") ++ "\x7d" ++ renderParts place parts

def renderMembers (place : Place) : List Member → String
  | [] => ""
  | .item value comma :: rest =>
    value.render place ++ renderComma place (!rest.isEmpty) comma ++ renderMembers place rest
  | .keyword name equal value comma :: rest =>
    name ++ equal.render place "=" ++ value.render place ++
      renderComma place (!rest.isEmpty) comma ++ renderMembers place rest
  | .spread gap value comma :: rest =>
    "**" ++ gap.render place ++ value.render place ++
      renderComma place (!rest.isEmpty) comma ++ renderMembers place rest
  | .pair key colon value comma :: rest =>
    key.render place ++ colon.render place ":" ++ value.render place ++
      renderComma place (!rest.isEmpty) comma ++ renderMembers place rest
  | .slice lower colon upper stepColon step comma :: rest =>
    renderOptional place lower ++ colon.render place ":" ++ renderOptional place upper ++
      (match stepColon with | some colon => colon.render place ":" | none => "") ++
      renderOptional place step ++ renderComma place (!rest.isEmpty) comma ++
      renderMembers place rest

def renderOptional (place : Place) : Option Expr → String
  | some e => e.render place
  | none => ""

def renderClauses (place : Place) : List CompClause → String
  | [] => ""
  | .loop before asyncGap afterFor target aroundIn iter :: rest =>
    before.render place ++
      (match asyncGap with | some gap => "async" ++ gap.render place | none => "") ++ "for" ++
      afterFor.render place ++ target.render place ++ aroundIn.render place "in" ++
      iter.render place ++ renderClauses place rest
  | .filter before afterIf test :: rest =>
    before.render place ++ "if" ++ afterIf.render place ++ test.render place ++
      renderClauses place rest

def renderComparisons (place : Place) : List Comparison → String
  | [] => ""
  | .mk around op second right :: rest =>
    around.before.render place ++ op ++
      (match second with | some (gap, word) => gap.render place ++ word | none => "") ++
      around.after.render place ++ right.render place ++ renderComparisons place rest

def renderLambdaParams (place : Place) : List LambdaParam → String
  | [] => ""
  | .param star starGap name equal value comma :: rest =>
    star ++ starGap.render place ++ name ++
      (match value with | some value => equal.render place "=" ++ value.render place | none => "") ++
      renderComma place (!rest.isEmpty) comma ++ renderLambdaParams place rest
  | .mark text comma :: rest =>
    text ++ renderComma place (!rest.isEmpty) comma ++ renderLambdaParams place rest

end

mutual

def Pattern.render (place : Place) : Pattern → String
  | .value value => value.render place
  | .capture name => name
  | .named pattern around name => pattern.render place ++ around.render place "as" ++ name
  | .either left around right =>
    left.render place ++ around.render place "|" ++ right.render place
  | .paren before inner after =>
    "(" ++ before.render place ++ inner.render place ++ after.render place ++ ")"
  | .open_ members => renderPatterns place members
  | .list before members after =>
    "[" ++ before.render place ++ renderPatterns place members ++ after.render place ++ "]"
  | .tuple before members after =>
    "(" ++ before.render place ++ renderPatterns place members ++ after.render place ++ ")"
  | .star gap name => "*" ++ gap.render place ++ name
  | .mapping before members after =>
    "\x7b" ++ before.render place ++ renderPatterns place members ++ after.render place ++ "\x7d"
  | .class_ name gap before members after =>
    name.render place ++ gap.render place ++ "(" ++ before.render place ++
      renderPatterns place members ++ after.render place ++ ")"

def renderPatterns (place : Place) : List PatternMember → String
  | [] => ""
  | .item pattern comma :: rest =>
    pattern.render place ++ renderComma place (!rest.isEmpty) comma ++ renderPatterns place rest
  | .keyed key colon pattern comma :: rest =>
    key.render place ++ colon.render place ":" ++ pattern.render place ++
      renderComma place (!rest.isEmpty) comma ++ renderPatterns place rest
  | .keyword name equal pattern comma :: rest =>
    name ++ equal.render place "=" ++ pattern.render place ++
      renderComma place (!rest.isEmpty) comma ++ renderPatterns place rest
  | .rest gap name comma :: rest =>
    "**" ++ gap.render place ++ name ++ renderComma place (!rest.isEmpty) comma ++
      renderPatterns place rest

end

def renderAnnotation (place : Place) (mark : String) : Option (Around × Expr) → String
  | some (around, value) => around.render place mark ++ value.render place
  | none => ""

/-- `more` tells that another parameter or mark follows. -/
def Param.render (place : Place) (more : Bool) (param : Param) : String :=
  param.star ++ param.starGap.render place ++ param.name ++
    renderAnnotation place ":" param.typing ++ renderAnnotation place "=" param.default ++
    renderComma place more param.comma ++ param.after.render place

def renderParamList (place : Place) (more : Bool) : List Param → String
  | [] => ""
  | param :: rest =>
    param.render place (more || !rest.isEmpty) ++ renderParamList place more rest

def Slash.render (place : Place) (more : Bool) (slash : Slash) : String :=
  "/" ++ slash.after.render place ++ renderComma place more slash.comma

def StarParam.render (place : Place) (more : Bool) : StarParam → String
  | .mark comma => "*" ++ comma.render place ","
  | .param p => p.render place more

def Params.render (place : Place) (params : Params) : String :=
  let afterPlain := params.star.isSome || !params.kwonly.isEmpty || params.kwarg.isSome
  let afterSlash := afterPlain || !params.params.isEmpty
  renderParamList place true params.posonly ++
    (match params.slash with
      | some slash => slash.render place afterSlash
      | none => if params.posonly.isEmpty then "" else if afterSlash then "/, " else "/") ++
    renderParamList place afterPlain params.params ++
    (match params.star with
      | some star => star.render place (!params.kwonly.isEmpty || params.kwarg.isSome)
      | none => if params.kwonly.isEmpty then "" else "*, ") ++
    renderParamList place params.kwarg.isSome params.kwonly ++
    (match params.kwarg with
      | some param => param.render place false
      | none => "")

def renderTypeParamList (place : Place) : List TypeParam → String
  | [] => ""
  | param :: rest =>
    param.star ++ param.gap.render place ++ param.name ++ renderAnnotation place ":" param.bound ++
      renderAnnotation place "=" param.default ++ renderComma place (!rest.isEmpty) param.comma ++
      renderTypeParamList place rest

def renderTypeParams (place : Place) : Option TypeParams → String
  | some params =>
    "[" ++ params.before.render place ++ renderTypeParamList place params.params ++
      params.after.render place ++ "]" ++ params.behind.render place
  | none => ""

def renderOperand (place : Place) : Option (Gap × Expr) → String
  | some (gap, value) => gap.render place ++ value.render place
  | none => ""

def renderTargets (place : Place) : List AssignTarget → String
  | [] => ""
  | target :: rest =>
    target.target.render place ++ target.equal.render place "=" ++ renderTargets place rest

def renderAlias (place : Place) : Option (Around × String) → String
  | some (around, name) => around.render place "as" ++ name
  | none => ""

def renderImportNames (place : Place) : List ImportName → String
  | [] => ""
  | name :: rest =>
    name.name.render place ++ renderAlias place name.asName ++
      renderComma place (!rest.isEmpty) name.comma ++ renderImportNames place rest

def ImportNames.render (place : Place) : ImportNames → String
  | .star => "*"
  | .names (some (before, after)) list =>
    "(" ++ before.render place ++ renderImportNames place list ++ after.render place ++ ")"
  | .names none list => renderImportNames place list

def renderNameList (place : Place) : List (String × Option Around) → String
  | [] => ""
  | (name, comma) :: rest =>
    name ++ renderComma place (!rest.isEmpty) comma ++ renderNameList place rest

def Small.render (place : Place) : Small → String
  | .expr value => value.render place
  | .assign targets value => renderTargets place targets ++ value.render place
  | .annAssign target colon typing value =>
    target.render place ++ colon.render place ":" ++ typing.render place ++
      renderAnnotation place "=" value
  | .augAssign target around op value =>
    target.render place ++ around.render place op ++ value.render place
  | .return_ value => "return" ++ renderOperand place value
  | .raise value cause => "raise" ++ renderOperand place value ++ renderAnnotation place "from" cause
  | .assert gap test message =>
    "assert" ++ gap.render place ++ test.render place ++ renderAnnotation place "," message
  | .del gap target => "del" ++ gap.render place ++ target.render place
  | .pass => "pass"
  | .break_ => "break"
  | .continue_ => "continue"
  | .import_ gap names => "import" ++ gap.render place ++ renderImportNames place names
  | .importFrom afterFrom dots module beforeImport afterImport names =>
    "from" ++ afterFrom.render place ++
      String.join (dots.map fun dot => dot.render place ".") ++
      (match module with | some name => name.render place | none => "") ++
      beforeImport.render place ++ "import" ++ afterImport.render place ++ names.render place
  | .global gap names => "global" ++ gap.render place ++ renderNameList place names
  | .nonlocal gap names => "nonlocal" ++ gap.render place ++ renderNameList place names
  | .typeAlias gap name afterName params equal value =>
    "type" ++ gap.render place ++ name ++ afterName.render place ++ renderTypeParams place params ++
      equal.render place "=" ++ value.render place

def renderSemicolon (place : Place) (more : Bool) : Option Around → String
  | some semi => semi.render place ";"
  | none => if more then "; " else ""

def renderEntryList (place : Place) : List Entry → String
  | [] => ""
  | entry :: rest =>
    entry.stmt.render place ++ renderSemicolon place (!rest.isEmpty) entry.semi ++
      renderEntryList place rest

/-- A list without statements is written as `pass`. -/
def renderEntries (place : Place) (entries : List Entry) : String :=
  if entries.isEmpty then "pass" else renderEntryList place entries

def Line.render (place : Place) (line : Line) : String :=
  renderLines place line.leading ++ place.margin ++ renderEntries place line.entries ++
    line.tail.render place

def Decorator.render (place : Place) (decorator : Decorator) : String :=
  renderLines place decorator.leading ++ place.margin ++ "@" ++ decorator.gap.render place ++
    decorator.value.render place ++ decorator.tail.render place

def renderDecorators (place : Place) (decorators : List Decorator) : String :=
  String.join (decorators.map (Decorator.render place))

def renderAsync (place : Place) : Option Gap → String
  | some gap => "async" ++ gap.render place
  | none => ""

def FuncHead.render (place : Place) (head : FuncHead) : String :=
  renderLines place head.leading ++ renderDecorators place head.decorators ++
    renderLines place head.afterDecorators ++ place.margin ++ renderAsync place head.asyncGap ++
    "def" ++ head.gap.render place ++ head.name ++ head.afterName.render place ++
    renderTypeParams place head.typeParams ++ "(" ++ head.beforeParams.render place ++
    head.params.render place ++ ")" ++ renderAnnotation place "->" head.returns ++
    head.beforeColon.render place ++ ":"

def ClassHead.renderBases (place : Place) (head : ClassHead) : String :=
  let members := renderMembers place (head.bases ++ head.keywords)
  match head.parens with
  | some (before, after) => "(" ++ before.render place ++ members ++ after.render place ++ ")"
  | none => if (head.bases ++ head.keywords).isEmpty then "" else "(" ++ members ++ ")"

def ClassHead.render (place : Place) (head : ClassHead) : String :=
  renderLines place head.leading ++ renderDecorators place head.decorators ++
    renderLines place head.afterDecorators ++ place.margin ++ "class" ++ head.gap.render place ++
    head.name ++ head.afterName.render place ++ renderTypeParams place head.typeParams ++
    head.renderBases place ++ head.beforeColon.render place ++ ":"

def renderWithItems (place : Place) : List WithItem → String
  | [] => ""
  | item :: rest =>
    item.value.render place ++ renderAnnotation place "as" item.target ++
      renderComma place (!rest.isEmpty) item.comma ++ renderWithItems place rest

def ClauseHead.render (place : Place) : ClauseHead → String
  | .if_ gap test => "if" ++ gap.render place ++ test.render place
  | .elif gap test => "elif" ++ gap.render place ++ test.render place
  | .else_ => "else"
  | .while_ gap test => "while" ++ gap.render place ++ test.render place
  | .for_ asyncGap gap target aroundIn iter =>
    renderAsync place asyncGap ++ "for" ++ gap.render place ++ target.render place ++
      aroundIn.render place "in" ++ iter.render place
  | .with_ asyncGap gap parens items =>
    renderAsync place asyncGap ++ "with" ++ gap.render place ++
      (match parens with
        | some (before, after) =>
          "(" ++ before.render place ++ renderWithItems place items ++ after.render place ++ ")"
        | none => renderWithItems place items)
  | .try_ => "try"
  | .except value name => "except" ++ renderOperand place value ++ renderAlias place name
  | .exceptStar beforeStar afterStar value name =>
    "except" ++ beforeStar.render place ++ "*" ++ afterStar.render place ++ value.render place ++
      renderAlias place name
  | .finally_ => "finally"
  | .match_ gap subject => "match" ++ gap.render place ++ subject.render place
  | .case gap pattern guard =>
    "case" ++ gap.render place ++ pattern.render place ++ renderAnnotation place "if" guard

mutual

def Stmt.render (place : Place) : Stmt → String
  | .line line => line.render place
  | .func head body => head.render place ++ body.render place
  | .class_ head body => head.render place ++ body.render place
  | .compound clauses => renderClauseList place clauses

/-- An empty block is written as `pass`. -/
def Suite.render (place : Place) : Suite → String
  | .block header indent body footer =>
    let inner := { place with margin := place.margin ++ indent.getD place.style.indent }
    header.render place ++
      (if body.isEmpty then inner.margin ++ "pass" ++ place.style.newline
        else renderStmts inner body) ++
      renderLines inner footer
  | .inline gap entries tail =>
    gap.render place ++ renderEntries place entries ++ tail.render place

def Clause.render (place : Place) : Clause → String
  | .mk leading head beforeColon body =>
    renderLines place leading ++ place.margin ++ head.render place ++ beforeColon.render place ++
      ":" ++ body.render place

def renderStmts (place : Place) : List Stmt → String
  | [] => ""
  | stmt :: rest => stmt.render place ++ renderStmts place rest

def renderClauseList (place : Place) : List Clause → String
  | [] => ""
  | clause :: rest => clause.render place ++ renderClauseList place rest

end

def dropLineEnd (cs : List Char) : List Char :=
  match cs.reverse with
  | '\n' :: '\r' :: rest => rest.reverse
  | '\n' :: rest => rest.reverse
  | '\r' :: rest => rest.reverse
  | _ => cs

def Module.renderBody (m : Module) : String :=
  let place : Place := { style := m.style }
  renderLines place m.header ++ renderStmts place m.body ++ renderLines place m.footer

/-- The text of a module. One that does not end its last line is written without the last line
end; one that does has at least one. -/
def Module.render (m : Module) : String :=
  let text := m.renderBody
  if m.endsLine then
    if text.isEmpty then m.style.newline else text
  else String.ofList (dropLineEnd text.toList)

end Hydration.Syntax
