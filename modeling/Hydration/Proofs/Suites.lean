import Hydration.Proofs.Blocks
import Hydration.Proofs.Definitions

/-! Functions that are read with their parameters and their block. -/

namespace Hydration.Syntax

open Hydration.Syntax.Parser

/-- Parameters that are names and nothing more. -/
structure Params.OnlyNames (params : Params) (names : List String) : Prop where
  posonly : params.posonly = []
  names : params.params.map Param.name = names
  kwonly : params.kwonly = []

/-- The words of a list of names and of the bracket behind it. -/
def paramLexemes : List String → List Lexeme
  | [] => [markLexeme ')']
  | name :: names => (.name, name) :: argumentLexemes (names.map fun n => (.name, n))

section Params

variable {s : Source} {r : Rules} {i j : Nat} {x y : Lexeme} {ts : List Lexeme} {name : String}
  {names : List String}

theorem reads_param {star : String} {gap : Gap} (hx : s.At i (.name, name)) (hn : IsPlainName name)
    (hy : s.At (i + 1) y) (hcolon : y.2 ≠ ":") :
    Reads s (param r star gap) i (i + 1) (fun p => p.name = name) := by
  refine (reads_name hx hn.2).bind fun target ht => ?_
  refine (Refuses.optional (refuses_mark hy hcolon).bind).bind ?_
  rintro _ rfl
  exact .pure (congrArg Prod.snd ht)

theorem reads_plainParam_comma (hx : s.At i (.name, name)) (hn : IsPlainName name)
    (hy : s.At (i + 1) (markLexeme ',')) :
    Reads s (plainParam r "" .empty) i (i + 2) (fun p => p.name = name) := by
  refine (reads_param hx hn hy (by decide)).bind fun p hp => ?_
  have hend : Reads s (endsParam ")") (i + 1) (i + 2) (fun _ => True) :=
    .first ((reads_comma hy rfl).bind fun _ _ => .pure trivial)
  exact hend.bind fun _ _ => .pure hp

theorem reads_plainParam_close (hx : s.At i (.name, name)) (hn : IsPlainName name)
    (hy : s.At (i + 1) (markLexeme ')')) :
    Reads s (plainParam r "" .empty) i (i + 1) (fun p => p.name = name) := by
  refine (reads_param hx hn hy (by decide)).bind fun p hp => ?_
  have hend : Reads s (endsParam ")") (i + 1) (i + 1) (fun _ => True) := by
    refine .second (refuses_comma hy (by decide)).bind ?_
    exact (reads_guard hy (is_of_lexeme rfl)).bind fun _ _ => .pure trivial
  exact hend.bind fun _ _ => .pure hp

theorem refuses_param (hx : s.At i (markLexeme ')')) {star : String} {gap : Gap} :
    Refuses s (param r star gap) i :=
  (refuses_name hx (.inl nofun)).bind

theorem readsMany_plainParam (hn : ∀ n ∈ name :: names, IsPlainName n)
    (hf : s.Follows i (paramLexemes (name :: names) ++ ts)) :
    ReadsMany s (plainParam r "" .empty) i (i + 1 + 2 * names.length)
      (fun ps => ps.map Param.name = name :: names) := by
  induction names generalizing i name with
  | nil =>
    refine (reads_plainParam_close hf.at (hn name List.mem_cons_self) hf.tail.at).readsMany hf.at
      (Nat.lt_succ_self i) fun p hp => ?_
    refine Refuses.readsMany (refuses_param hf.tail.at).bind ?_
    rw [List.map_singleton, hp]
  | cons next names ih =>
    obtain ⟨hname, hnames⟩ := List.forall_mem_cons.mp hn
    refine (reads_plainParam_comma hf.at hname hf.tail.at).readsMany hf.at (by omega) fun p hp => ?_
    have hrest := ih hnames hf.tail.tail
    rw [List.length_cons, show i + 1 + 2 * (names.length + 1) = i + 2 + 1 + 2 * names.length by omega]
    intro fuel hfuel
    refine (hrest fuel hfuel).mono fun ps hps => ?_
    rw [List.map_cons, hp, hps]

theorem onlyNames_closeWith {params : Params} (h : params.OnlyNames names) (gap : Gap) :
    (params.closeWith gap).OnlyNames names := by
  have hlast (ps : List Param) : (setLastAfter gap ps).map Param.name = ps.map Param.name := by
    fun_induction setLastAfter gap ps with
    | case1 => rfl
    | case2 p =>
      rw [List.map_singleton, List.map_singleton]
      split <;> rfl
    | case3 p rest hrest ih => rw [List.map_cons, List.map_cons, ih]
  unfold Params.closeWith
  split
  · exact ⟨h.posonly, h.names, h.kwonly⟩
  · rw [if_neg (by simp [h.kwonly])]
    split
    · exact ⟨h.posonly, h.names, h.kwonly⟩
    · exact ⟨h.posonly, (hlast _).trans h.names, h.kwonly⟩

theorem refuses_starParams (hx : s.At i (markLexeme ')')) : Refuses s (starParams r) i := by
  have hmark {text : String} (ht : text ∈ ["*", "**"]) {α : Type} {f : Word → Parser α} :
      Refuses s (lit text >>= f) i := by
    refine (refuses_lit hx fun he => ?_).bind
    exact absurd (he ▸ ht) (by decide)
  have hstarred : Refuses s (starredParam r) i := hmark (by decide)
  have hkeywords : Refuses s (keywordsParam r) i := hmark (by decide)
  exact .orElse hstarred.bind (.orElse (hmark (by decide)) hkeywords.bind)

/-- A list of names is read up to the bracket behind it. -/
theorem reads_paramList (hn : ∀ n ∈ name :: names, IsPlainName n)
    (hf : s.Follows i (paramLexemes (name :: names) ++ ts)) :
    Reads s (paramList r) i (i + 1 + 2 * names.length) (·.OnlyNames (name :: names)) := by
  have hclose := (follows_closing (names.map fun n => (.name, n)) hf.tail).at
  rw [List.length_map] at hclose
  refine (readsMany_plainParam hn hf).many.bind fun plain hplain => ?_
  refine (Refuses.many (refuses_param hclose).bind).bind ?_
  rintro _ rfl
  have hsome : plain ≠ [] := by
    rintro rfl
    exact absurd hplain (by simp)
  rw [List.append_nil, if_neg (by simpa using hsome)]
  refine (Refuses.optional (refuses_lit hclose (by decide)).bind).bind ?_
  rintro _ rfl
  refine Reads.bind (P := (· = [])) (.pure rfl) ?_
  rintro _ rfl
  have hstar := refuses_starParams (r := r) hclose
  refine hstar.optional.bind ?_
  rintro _ rfl
  have hguard : Reads s (guard (Parser.pure (!plain.isEmpty || (none : Option (Option StarParam ×
      List Param × Option Param)).isSome))) (i + 1 + 2 * names.length) (i + 1 + 2 * names.length)
      (fun _ => True) := by
    refine Reads.bind (P := (· = true)) (.pure (by simpa using hsome)) ?_
    rintro _ rfl
    exact .pure trivial
  exact hguard.bind fun _ _ => .pure ⟨rfl, hplain, rfl⟩

theorem refuses_paramList (hx : s.At i (markLexeme ')')) : Refuses s (paramList r) i := by
  refine (Refuses.many (refuses_param hx).bind).refuses ?_
  rintro _ rfl
  refine (Refuses.many (refuses_param hx).bind).refuses ?_
  rintro _ rfl
  rw [List.append_nil, if_pos (by rfl)]
  refine Reads.refuses (P := (· = none)) (.pure rfl) ?_
  rintro _ rfl
  refine Reads.refuses (P := (· = [])) (.pure rfl) ?_
  rintro _ rfl
  refine (refuses_starParams hx).optional.refuses ?_
  rintro _ rfl
  refine Refuses.bind (Reads.refuses (P := (· = false)) (.pure rfl) ?_)
  rintro _ rfl
  exact .fail

/-- The parameters of a function up to the bracket behind them. -/
theorem reads_optionalParams (hn : ∀ n ∈ names, IsPlainName n)
    (hf : s.Follows i (paramLexemes names ++ ts)) :
    ∃ j, Reads s (optional (paramList r)) i j (fun params => (params.getD {}).OnlyNames names) ∧
      s.Follows j (markLexeme ')' :: ts) := by
  cases names with
  | nil =>
    refine ⟨i, (refuses_paramList hf.at).optional.mono ?_, hf⟩
    rintro _ rfl
    exact ⟨rfl, rfl, rfl⟩
  | cons name names =>
    refine ⟨i + 1 + 2 * names.length, (reads_paramList hn hf).optional.mono ?_, ?_⟩
    · rintro _ ⟨params, rfl, h⟩
      exact h
    · have hh := follows_closing (names.map fun n => (.name, n)) hf.tail
      rwa [List.length_map] at hh

end Params

section Blocks

variable {s : Source} {r inner deep : Rules} {i j : Nat} {x y : Lexeme} {ts : List Lexeme}
  {newline indent : String} {line : CodeLine} {lines : List CodeLine} {Ps : List (Stmt → Prop)}

/-- The words of a line are read as a statement of a kind, wherever they stand. -/
def ReadsLine (s : Source) (r : Rules) (newline : String) (line : CodeLine) (P : Stmt → Prop) : Prop :=
  ∀ i ts, s.Follows i (line.lexemes newline ++ ts) →
    Reads s r.statement i (i + (line.lexemes newline).length) P

/-- The statements have the properties in order. -/
def Satisfy (Ps : List (Stmt → Prop)) (stmts : List Stmt) : Prop :=
  List.Forall₂ (fun P stmt => P stmt) Ps stmts

theorem startsNoSmall_dedent : StartsNoSmall (.dedent, "") :=
  ⟨⟨by decide, by decide, by decide⟩, by decide⟩

/-- No statement starts where a block closes. -/
theorem refuses_statement_of_dedent (hr : r.expression = expressionRule inner)
    (ht : r.starTarget = starTargetRule inner) (hx : s.At i (.dedent, "")) :
    Refuses s (statementRule r) i := by
  refine .orElse ?_ (refuses_lineStatement hr ht startsNoSmall_dedent hx)
  exact refuses_compoundStatement hx (by decide) nofun (refuses_matchStatement_of_ne hx (by decide))

theorem readsMany_lines (hs : r.statement = statementRule inner)
    (hr : inner.expression = expressionRule deep) (ht : inner.starTarget = starTargetRule deep)
    (hl : List.Forall₂ (ReadsLine s r newline) lines Ps)
    (hf : s.Follows i (lines.flatMap (CodeLine.lexemes newline) ++ (.dedent, "") :: ts)) :
    ReadsMany s r.statement i (i + (lines.flatMap (CodeLine.lexemes newline)).length) (Satisfy Ps) := by
  induction hl generalizing i with
  | nil =>
    refine Refuses.readsMany ?_ .nil
    rw [hs]
    exact refuses_statement_of_dedent hr ht hf.at
  | @cons line P lines Ps hline hlines ih =>
    have hpos := line.length_lexemes_pos newline
    obtain ⟨x, xs, hx⟩ := List.exists_cons_of_ne_nil (List.length_pos_iff.mp hpos)
    rw [List.flatMap_cons, List.append_assoc] at hf
    have hplain := hf
    rw [hx, List.cons_append] at hplain
    refine (hline i _ hf).readsMany hplain.at (by omega) fun stmt hstmt => ?_
    rw [List.flatMap_cons, List.length_append, ← Nat.add_assoc]
    intro fuel hfuel
    refine (ih hf.drop fuel hfuel).mono fun stmts hstmts => ?_
    exact .cons hstmt hstmts

/-- A block of lines behind the line of its head. -/
theorem reads_block (hs : r.statement = statementRule inner)
    (hr : inner.expression = expressionRule deep) (ht : inner.starTarget = starTargetRule deep)
    (hne : lines ≠ []) (hl : List.Forall₂ (ReadsLine s r newline) lines Ps)
    (hf : s.Follows i ((.newline, newline) :: (.indent, indent) ::
      (lines.flatMap (CodeLine.lexemes newline) ++ (.dedent, "") :: ts))) :
    ∃ j, Reads s (suite r) i j (fun body => Satisfy Ps (Transform.blockStatements body)) := by
  obtain ⟨line, lines, rfl⟩ := List.exists_cons_of_ne_nil hne
  obtain ⟨P, Ps, hline, hlines, rfl⟩ := List.forall₂_cons_left_iff.mp hl
  have hbody := hf.tail.tail
  have hmany : Reads s (atLeastOne r.statement) (i + 2)
      (i + 2 + ((line :: lines).flatMap (CodeLine.lexemes newline)).length)
      (Satisfy (P :: Ps)) := by
    rw [List.flatMap_cons, List.append_assoc] at hbody
    refine (hline _ _ hbody).bind fun stmt hstmt => ?_
    rw [List.flatMap_cons, List.length_append, ← Nat.add_assoc]
    exact (readsMany_lines hs hr ht hlines hbody.drop).many.bind fun stmts hstmts =>
      .pure (.cons hstmt hstmts)
  have hclose := hbody.drop.at
  refine ⟨i + 2 + ((line :: lines).flatMap (CodeLine.lexemes newline)).length + 1, .first ?_⟩
  refine (reads_kind hf.at rfl).bind fun header _ => (reads_kind hf.tail.at rfl).bind fun w _ => ?_
  refine hmany.bind fun body hb => (reads_kind hclose rfl).bind fun close _ => ?_
  have hstyle {k : Nat} : Reads s Parser.style k k (fun _ => True) := fun m => ⟨_, m, rfl, trivial⟩
  exact hstyle.bind fun _ _ => .pure hb

end Blocks

/-- A function with decorators that are names, with its name, its parameters and its block. -/
def Stmt.Defines (decorators : List String) (name : String) (params : List String)
    (Q : List Stmt → Prop) (stmt : Stmt) : Prop :=
  ∃ head body, stmt = .func head body ∧
    head.decorators.map Decorator.value = decorators.map Expr.name ∧ head.name = name ∧
    head.params.OnlyNames params ∧ Q (Transform.blockStatements body)

/-- The words of a function up to the colon behind its parameters. -/
def functionLexemes (name : String) (params : List String) : List Lexeme :=
  (.name, "def") :: (.name, name) :: markLexeme '(' :: (paramLexemes params ++ [markLexeme ':'])

section Functions

variable {s : Source} {r inner deep : Rules} {i j : Nat} {x y : Lexeme} {ts : List Lexeme}
  {newline indent name : String} {params decorators : List String} {line : CodeLine}
  {lines : List CodeLine} {Ps : List (Stmt → Prop)}

theorem reads_function (hs : r.statement = statementRule inner)
    (hr : inner.expression = expressionRule deep) (ht : inner.starTarget = starTargetRule deep)
    (hn : IsPlainName name) (hp : ∀ p ∈ params, IsPlainName p) (hne : lines ≠ [])
    (hl : List.Forall₂ (ReadsLine s r newline) lines Ps)
    (hf : s.Follows i (functionLexemes name params ++ (.newline, newline) :: (.indent, indent) ::
      (lines.flatMap (CodeLine.lexemes newline) ++ (.dedent, "") :: ts))) :
    ∃ j, ∀ leading written afterDecorators, Reads s (function r leading written afterDecorators) i j
      (fun stmt => ∃ head body, stmt = .func head body ∧ head.decorators = written ∧ head.name = name ∧
        head.params.OnlyNames params ∧ Satisfy Ps (Transform.blockStatements body)) := by
  rw [functionLexemes, List.cons_append, List.cons_append, List.cons_append, List.append_assoc] at hf
  have hopen := hf.tail.tail
  obtain ⟨j, hparams, hclose⟩ := reads_optionalParams (r := r) hp hopen.tail
  obtain ⟨k, hbody⟩ := reads_block hs hr ht hne hl hclose.tail.tail
  have hasync : Refuses s (Parser.kind .asyncWord) i := refuses_kind hf.at nofun
  refine ⟨k, fun leading written afterDecorators => ?_⟩
  refine hasync.bind.optional.bind fun asyncGap _ => (reads_lit hf.at rfl).bind fun _ _ => ?_
  refine (reads_nextGap hf.tail.at).bind fun gap _ => ?_
  refine (reads_name hf.tail.at hn.2).bind fun target htarget => ?_
  refine (reads_nextGap hopen.at).bind fun afterName _ => ?_
  have htypes : Refuses s (typeParams r) (i + 1 + 1) := (refuses_lit hopen.at (by decide)).bind
  refine htypes.optional.bind fun types _ => (reads_lit hopen.at rfl).bind fun _ _ => ?_
  obtain ⟨z, hz⟩ : ∃ z, s.At (i + 1 + 1 + 1) z := by
    cases params with
    | nil => exact ⟨_, hopen.tail.at⟩
    | cons p params => exact ⟨_, hopen.tail.at⟩
  refine (reads_nextGap hz).bind fun beforeParams _ => hparams.bind fun found hfound => ?_
  refine (reads_lit hclose.at rfl).bind fun close _ => ?_
  have hreturns {α : Type} {f : Around → Parser α} : Refuses s (mark "->" >>= f) (j + 1) :=
    (refuses_mark hclose.tail.at (by decide)).bind
  refine hreturns.optional.bind fun returns _ => (reads_lit hclose.tail.at rfl).bind fun colon _ => ?_
  refine hbody.bind fun body hb => .pure ⟨_, body, rfl, rfl, congrArg Prod.snd htarget, ?_, hb⟩
  cases found with
  | none => exact hfound
  | some found => exact onlyNames_closeWith hfound _

/-- The words of decorators that are names, each on a line of its own. -/
def decoratorLexemes (newline : String) (decorators : List String) : List Lexeme :=
  decorators.flatMap fun word => [markLexeme '@', (.name, word), (.newline, newline)]

theorem readsMany_decorators (hr : r.expression = expressionRule inner)
    (hd : ∀ d ∈ decorators, IsPlainName d) (hn : newline ∈ ["\n", "\r\n", "\r"])
    (hf : s.Follows i (decoratorLexemes newline decorators ++ (.name, "def") :: ts)) :
    ReadsMany s (decorator r) i (i + (decoratorLexemes newline decorators).length)
      (fun ds => ds.map Decorator.value = decorators.map Expr.name) := by
  induction decorators generalizing i with
  | nil => exact Refuses.readsMany (refuses_lit hf.at (by decide)).bind rfl
  | cons word decorators ih =>
    obtain ⟨hword, hd⟩ := List.forall_mem_cons.mp hd
    have hone := reads_decorator hr hword hf ⟨rfl, hn⟩
    refine hone.readsMany hf.at (by omega) fun d hd' => ?_
    have hrest := ih hd hf.tail.tail.tail
    have hlen : i + (decoratorLexemes newline (word :: decorators)).length =
        i + 3 + (decoratorLexemes newline decorators).length := by
      simp only [decoratorLexemes, List.flatMap_cons, List.length_append, List.length_cons,
        List.length_nil]
      omega
    rw [hlen]
    intro fuel hfuel
    refine (hrest fuel hfuel).mono fun ds hds => ?_
    rw [List.map_cons, hd', hds, List.map_cons]

/-- A whole function, from its decorators to the end of its block. -/
theorem reads_functionStatement (hr : r.expression = expressionRule inner)
    (hs : r.statement = statementRule inner) (hi : inner.expression = expressionRule deep)
    (ht : inner.starTarget = starTargetRule deep) (hd : ∀ d ∈ decorators, IsPlainName d)
    (hnewline : newline ∈ ["\n", "\r\n", "\r"]) (hn : IsPlainName name)
    (hp : ∀ p ∈ params, IsPlainName p) (hne : lines ≠ [])
    (hl : List.Forall₂ (ReadsLine s r newline) lines Ps)
    (hf : s.Follows i (decoratorLexemes newline decorators ++ (functionLexemes name params ++
      (.newline, newline) :: (.indent, indent) ::
        (lines.flatMap (CodeLine.lexemes newline) ++ (.dedent, "") :: ts)))) :
    ∃ j, Reads s (statementRule r) i j (Stmt.Defines decorators name params (Satisfy Ps)) := by
  have hfunction := hf.drop
  have hdecorators := (readsMany_decorators hr hd hnewline hf).many
  obtain ⟨x, hx, hstarts⟩ : ∃ x, s.At i x ∧ StartsDefinition x := by
    cases decorators with
    | nil => exact ⟨_, hf.at, startsDefinition_def⟩
    | cons word decorators => exact ⟨_, hf.at, startsDefinition_at⟩
  obtain ⟨j, hread⟩ := reads_function hs hi ht hn hp hne hl hfunction
  refine ⟨j, reads_definitionStatement hstarts hx ?_⟩
  refine hdecorators.bind fun ds hds => (reads_peek hfunction.at).bind fun _ _ => .first ?_
  refine (hread _ _ _).mono ?_
  rintro _ ⟨head, body, rfl, hwritten, hname, hparams, hbody⟩
  refine ⟨head, body, rfl, ?_, hname, hparams, hbody⟩
  rw [hwritten, ← hds]
  cases ds <;> rfl

end Functions

section Texts

variable {newline indent name text : String} {params decorators : List String} {line : CodeLine}
  {heads lines : List CodeLine} {Ps : List (Stmt → Prop)} {P : Stmt → Prop} {stmt : Stmt}

/-- A line is read as a statement of a kind, where the rules are deep enough for its words. -/
def CodeLine.Means (newline : String) (line : CodeLine) (P : Stmt → Prop) : Prop :=
  ∀ s depth, line.words.length ≤ depth → ReadsLine s (Rules.upTo (depth + 2)) newline line P

theorem length_le_of_follows {s : Source} {ts : List Lexeme} (hf : s.Follows 0 ts) :
    ts.length ≤ s.words.size := by
  obtain ⟨rest, hrest⟩ := hf
  have hlen := congrArg List.length hrest
  simp only [List.length_append, List.length_drop, List.length_map, Array.length_toList] at hlen
  omega

/-- A text of decorators, the head of a function and the lines of its block is read as the function. -/
theorem defines_of_parse (hi : IsIndent indent) (hnewline : newline ∈ ["\n", "\r\n", "\r"])
    (hd : ∀ d ∈ decorators, IsPlainName d) (hn : IsPlainName name) (hp : ∀ p ∈ params, IsPlainName p)
    (hheads : heads.flatMap (CodeLine.lexemes newline) = decoratorLexemes newline decorators ++
      (functionLexemes name params ++ [(.newline, newline)]))
    (hne : lines ≠ []) (hl : List.Forall₂ (CodeLine.Means newline) lines Ps)
    (htext : text.toList = heads.flatMap (CodeLine.chars "" newline) ++
      lines.flatMap (CodeLine.chars indent newline)) (h : Stmt.parse text = .ok stmt) :
    stmt.Defines decorators name params (Satisfy Ps) := by
  refine holds_of_parse h fun s hsource depth hdepth => ?_
  rw [htext] at hsource
  have hf : s.Follows 0 (decoratorLexemes newline decorators ++ (functionLexemes name params ++
      (.newline, newline) :: (.indent, indent) ::
        (lines.flatMap (CodeLine.lexemes newline) ++ [(.dedent, ""), (.finish, "")]))) := by
    refine Source.follows_of_lexText hsource fun tokens ht => ?_
    rw [lexemes_of_tokenize_block hi hnewline hne ht, hheads]
    simp
  have hlen := length_le_of_follows hf
  simp only [List.length_append, List.length_cons, functionLexemes] at hlen
  have hshort : ∀ line ∈ lines, line.words.length ≤ depth := by
    intro line hline
    have hmem : line.lexemes newline ∈ lines.map (CodeLine.lexemes newline) := List.mem_map_of_mem hline
    have hle := (List.sublist_flatten_of_mem hmem).length_le
    have hwords : line.words.length ≤ (line.lexemes newline).length := by simp [CodeLine.lexemes]
    rw [← List.flatMap_def] at hle
    omega
  have hlines : List.Forall₂ (ReadsLine s (Rules.upTo (depth + 2)) newline) lines Ps :=
    ((List.forall₂_and_left _ _).mpr ⟨hshort, hl⟩).imp fun line P h => h.2 s depth h.1
  obtain ⟨j, hread⟩ := reads_functionStatement (upTo_expression (depth + 1))
    (upTo_statement (depth + 1)) (upTo_expression depth) (upTo_starTarget depth) hd hnewline hn hp hne
    hlines hf
  exact hread.only

end Texts

section Lines

variable {newline func receiver attr : String} {a : Argument} {as : List Argument}

theorem exists_callLine (hf : IsPlainDotted func) (ha : ∀ b ∈ a :: as, b.IsPlain)
    (hn : newline ∈ ["\n", "\r\n", "\r"]) :
    ∃ line : CodeLine, line.code = callChars func a as ∧ line.Means newline
      (Stmt.IsLineOf (Small.IsCall (splitDots func) ((a :: as).map Argument.expr))) := by
  obtain ⟨root, segments, hsplit⟩ := List.exists_cons_of_ne_nil (splitDots_ne_nil func)
  have hs : ∀ z ∈ root :: segments, IsPlainName z := hsplit ▸ hf
  refine ⟨⟨_, _, isLine_callChars hsplit hf ha⟩, rfl, fun s depth hdepth i ts hfollows => ?_⟩
  obtain ⟨depth, rfl⟩ : ∃ d, depth = d + 1 := Nat.exists_eq_succ_of_ne_zero (by
    simp only [callLexemes, List.length_cons] at hdepth
    omega)
  obtain ⟨ha, has⟩ := List.forall_mem_cons.mp ha
  rw [CodeLine.lexemes, List.append_assoc] at hfollows
  rw [hsplit, CodeLine.lexemes, List.length_append, List.length_singleton, ← Nat.add_assoc]
  exact reads_callLine (upTo_expression (depth + 1)) (upTo_starTarget (depth + 1))
    (upTo_expression depth) hs (Argument.operand ha) (Argument.operands has) hfollows
    ⟨rfl, hn⟩

theorem exists_assignLine (hr : IsPlainName receiver) (hattr : IsPlainName attr)
    (hf : IsPlainDotted func) (ha : ∀ b ∈ a :: as, b.IsPlain) (hn : newline ∈ ["\n", "\r\n", "\r"]) :
    ∃ line : CodeLine, line.code = assignedChars receiver attr (callChars func a as) ∧
      line.Means newline (Stmt.IsLineOf
        (Small.AssignsCall receiver attr (splitDots func) ((a :: as).map Argument.expr))) := by
  obtain ⟨root, segments, hsplit⟩ := List.exists_cons_of_ne_nil (splitDots_ne_nil func)
  have hs : ∀ z ∈ root :: segments, IsPlainName z := hsplit ▸ hf
  refine ⟨⟨_, _, isLine_assignedChars hr hattr (isLine_callChars hsplit hf ha)⟩, rfl,
    fun s depth hdepth i ts hfollows => ?_⟩
  obtain ⟨depth, rfl⟩ : ∃ d, depth = d + 1 := Nat.exists_eq_succ_of_ne_zero (by
    simp only [assignedLexemes, List.length_cons] at hdepth
    omega)
  obtain ⟨ha, has⟩ := List.forall_mem_cons.mp ha
  rw [CodeLine.lexemes, List.append_assoc] at hfollows
  have hread := reads_assignLine (upTo_expression (depth + 1)) (upTo_starTarget (depth + 1))
    (upTo_expression depth) hr hattr hs (Argument.operand ha) (Argument.operands has)
    hfollows ⟨rfl, hn⟩
  have hlen (ws : List Lexeme) : (assignedLexemes receiver attr ws).length = 4 + ws.length := by
    simp only [assignedLexemes, List.length_cons]
    omega
  rw [hsplit, CodeLine.lexemes, List.length_append, List.length_singleton, hlen, ← Nat.add_assoc,
    ← Nat.add_assoc]
  exact hread

end Lines

end Hydration.Syntax
