import Hydration.Proofs.Generated
import Hydration.Proofs.Refusals

/-! The statements that a constructor opens with. The line that registers the instance is read as a call,
and the line for an event as an assignment of a call to an attribute of the receiver. -/

namespace Hydration.Syntax

open Hydration.Syntax.Parser

section Targets

variable {s : Source} {r inner deep : Rules} {i j : Nat} {x y : Lexeme} {e : Expr}
  {receiver attr root : String} {segments : List String} {xs ts : List Lexeme} {es : List Expr}

theorem startsTrailer_of_follows (hx : s.At i x) (h : x.2 ∈ ["(", "[", "."]) :
    Reads s (guard startsTrailer) i i (fun _ => True) :=
  reads_guard hx (among_of_lexeme h)

theorem EndsExpr.refuses_startsTrailer (hend : EndsExpr y) (hy : s.At i y) :
    Refuses s (guard startsTrailer) i :=
  refuses_guard hy (not_among_of_lexeme (hend.not_mem (by decide)))

/-- The trailers of what stands before the last part of a target: more must follow each. -/
def targetLink (r : Rules) (e : Expr) : Parser Expr := do
  let longer ← trailer r e
  guard startsTrailer
  return longer

theorem linksNames_targetLink : LinksNames s (targetLink r) := by
  intro e i name y ts hf hn hy
  refine (reads_attribute hf hn).bind fun longer hl => ?_
  exact (startsTrailer_of_follows hf.tail.tail.at hy).bind fun _ _ => .pure hl

/-- The target `receiver.attr` before a mark that ends it. -/
theorem reads_attributeTarget (hr : IsPlainName receiver) (ha : IsPlainName attr)
    (hf : s.Follows i ((.name, receiver) :: markLexeme '.' :: (.name, attr) :: y :: ts))
    (hend : EndsExpr y) :
    Reads s (attributeOrSubscript r) i (i + 3)
      (fun target => ∃ dot, target = .attribute (.name receiver) dot attr) := by
  have hdot := hf.tail
  have hbehind := hdot.tail.tail
  have hvalue : Reads s (targetPrimary r) i (i + 1) (· = .name receiver) := by
    refine (reads_nameAtom hf.at hr.2).bind ?_
    rintro _ rfl
    refine (startsTrailer_of_follows hdot.at (by decide)).bind fun _ _ => ?_
    have hcount : Reads s wordCount (i + 1) (i + 1) (· = s.words.size) := fun m => ⟨_, m, rfl, rfl⟩
    refine hcount.bind ?_
    rintro _ rfl
    -- The attribute is left for the target, as nothing follows it.
    have hstop : Refuses s (targetLink r (.name receiver)) (i + 1) :=
      (reads_attribute hdot ha).refuses fun _ _ => (hend.refuses_startsTrailer hbehind.at).bind
    have hextends : Extends s (targetLink r) (i + 1) (.name receiver) (i + 1) (· = .name receiver) :=
      .stop hstop rfl
    exact hextends _ (Nat.le_add_right _ _)
  refine hvalue.bind ?_
  rintro _ rfl
  have htarget : Reads s (do
      let dot ← mark "."
      return Expr.attribute (.name receiver) dot (← name).text) (i + 1) (i + 3)
      (fun target => ∃ dot, target = .attribute (.name receiver) dot attr) := by
    refine (reads_mark hdot.at rfl hdot.tail.at).bind fun dot _ => ?_
    refine (reads_name hdot.tail.at ha.2).bind fun w hw => .pure ⟨dot, ?_⟩
    rw [show w.text = attr from congrArg Prod.snd hw]
  refine (Reads.first htarget).bind fun target ht => ?_
  have hfree : Reads s (guardNot startsTrailer) (i + 3) (i + 3) (fun _ => True) :=
    reads_guardNot hbehind.at (not_among_of_lexeme (hend.not_mem (by decide)))
  exact hfree.bind fun _ _ => .pure ht

/-- A call is no target. -/
theorem refuses_callTarget (hr : r.expression = expressionRule inner)
    (hs : ∀ z ∈ root :: segments, IsPlainName z) (hxe : Operand x e)
    (ho : List.Forall₂ Operand xs es) (hf : s.Follows i (callLexemes root segments x xs ++ y :: ts))
    (hend : EndsExpr y) : Refuses s (attributeOrSubscript r) i := by
  obtain ⟨hopen, hbehind⟩ := follows_call hf
  rw [callLexemes_append] at hf
  have hfirst : (Expr.name root).segments = [root] := by simp [Expr.segments]
  have hvalue : Reads s (targetPrimary r) i (i + 1 + 2 * segments.length) (fun _ => True) := by
    refine (reads_nameAtom hf.at (hs root List.mem_cons_self).2).bind ?_
    rintro _ rfl
    have hnext : ∃ z more,
        dottedTail segments ++ markLexeme '(' :: x :: (argumentLexemes xs ++ y :: ts) = z :: more ∧
        z.2 ∈ ["(", "[", "."] := by
      cases segments with
      | nil => exact ⟨_, _, rfl, by decide⟩
      | cons z segments => exact ⟨_, _, rfl, by decide⟩
    obtain ⟨z, more, hz, hmem⟩ := hnext
    have htail := hf.tail
    rw [hz] at htail
    refine (startsTrailer_of_follows htail.at hmem).bind fun _ _ => ?_
    have hcount : Reads s wordCount (i + 1) (i + 1) (· = s.words.size) := fun m => ⟨_, m, rfl, rfl⟩
    refine hcount.bind ?_
    rintro _ rfl
    have hplain : ∀ z ∈ segments, IsPlainName z := fun z hz => hs z (List.mem_cons_of_mem root hz)
    refine extends_dotted (linksNames_targetLink (r := r)) hplain hf.tail (by simp [hfirst]) ?_ _
      (Nat.le_add_right _ _)
    intro func _
    refine .stop ?_ trivial
    exact (reads_call hr hxe ho hopen).refuses fun _ _ => (hend.refuses_startsTrailer hbehind.at).bind
  refine hvalue.refuses fun value _ => ?_
  exact .bind (.orElse (refuses_mark hopen.at (by decide)).bind (refuses_lit hopen.at (by decide)).bind)

/-- An expression that no comma follows is no tuple. -/
theorem reads_tupleOr {P : Expr → Prop} {p q : Parser Expr} (h : Reads s p i j P) (hy : s.At j y)
    (hcomma : y.2 ≠ ",") :
    Reads s (do
      let first ← p
      let rest ← many (do return (← comma, ← q))
      return tupleOr first rest (← optional comma)) i j P := by
  refine h.bind fun first hf => ?_
  refine (Refuses.many (refuses_comma hy hcomma).bind).bind ?_
  rintro _ rfl
  refine (refuses_comma hy hcomma).optional.bind ?_
  rintro _ rfl
  exact .pure hf

theorem reads_assignTarget (ht : r.starTarget = starTargetRule inner) (hr : IsPlainName receiver)
    (ha : IsPlainName attr)
    (hf : s.Follows i
      ((.name, receiver) :: markLexeme '.' :: (.name, attr) :: markLexeme '=' :: x :: ts)) :
    Reads s (assignTarget r) i (i + 4)
      (fun target => ∃ dot, target.target = .attribute (.name receiver) dot attr) := by
  have hequal := hf.tail.tail.tail
  have hend : EndsExpr (markLexeme '=') := ⟨by decide, by decide, by decide⟩
  have htarget : Reads s r.starTarget i (i + 3)
      (fun target => ∃ dot, target = .attribute (.name receiver) dot attr) := by
    rw [ht]
    refine .second (refuses_lit hf.at (ne_of_not_reserved hr.not_reserved (by decide))).bind ?_
    exact .first (reads_attributeTarget hr ha hf hend)
  refine (reads_tupleOr htarget hequal.at (by decide)).bind fun target hd => ?_
  exact (reads_mark hequal.at rfl hequal.tail.at).bind fun _ _ => .pure hd

/-- No target of an assignment starts at a call. -/
theorem refuses_assignTarget (ht : r.starTarget = starTargetRule inner)
    (hr : inner.expression = expressionRule deep) (hs : ∀ z ∈ root :: segments, IsPlainName z)
    (hxe : Operand x e) (ho : List.Forall₂ Operand xs es)
    (hf : s.Follows i (callLexemes root segments x xs ++ y :: ts)) (hend : EndsExpr y) :
    Refuses s (assignTarget r) i := by
  have hroot := hs root List.mem_cons_self
  obtain ⟨z, more, hz, hcomma, hequal⟩ : ∃ z more, callLexemes root segments x xs ++ y :: ts =
      (.name, root) :: z :: more ∧ z.2 ≠ "," ∧ z.2 ≠ "=" := by
    cases segments with
    | nil => exact ⟨_, _, rfl, by decide, by decide⟩
    | cons z segments => exact ⟨_, _, rfl, by decide, by decide⟩
  have hplain := hf
  rw [hz] at hplain
  have htarget : Reads s r.starTarget i (i + 1) (fun _ => True) := by
    rw [ht]
    refine .second (refuses_lit hplain.at (ne_of_not_reserved hroot.not_reserved (by decide))).bind ?_
    refine .second (refuses_callTarget hr hs hxe ho hf hend) (.first ?_)
    exact (reads_name hplain.at hroot.2).bind fun _ _ => .pure trivial
  refine (reads_tupleOr htarget hplain.tail.at hcomma).refuses fun _ _ => ?_
  exact (refuses_mark hplain.tail.at hequal).bind

end Targets

/-- The word at the end of a line. -/
def IsLineEnd (y : Lexeme) : Prop := y.1 = .newline ∧ y.2 ∈ ["\n", "\r\n", "\r"]

theorem IsLineEnd.not_mem {y : Lexeme} {texts : List String} (h : IsLineEnd y)
    (ht : ∀ t ∈ texts, t ∉ ["\n", "\r\n", "\r"]) : y.2 ∉ texts :=
  fun hm => ht _ hm h.2

theorem IsLineEnd.ne {y : Lexeme} {text : String} (h : IsLineEnd y)
    (ht : text ∉ ["\n", "\r\n", "\r"]) : y.2 ≠ text :=
  fun he => ht (he ▸ h.2)

theorem IsLineEnd.endsExpr {y : Lexeme} (h : IsLineEnd y) : EndsExpr y :=
  ⟨h.not_mem (by decide), by simp [h.1], by simp [h.1]⟩

section Statements

variable {s : Source} {r inner deep : Rules} {i j : Nat} {x y : Lexeme} {e : Expr}
  {receiver attr root : String} {segments : List String} {xs ts : List Lexeme} {es : List Expr}

theorem reads_starExpressions {P : Expr → Prop} (h : Reads s r.expression i j P) (hx : s.At i x)
    (hstar : x.2 ≠ "*") (hy : s.At j y) (hcomma : y.2 ≠ ",") : Reads s (starExpressions r) i j P :=
  reads_tupleOr (.second (refuses_lit hx hstar).bind h) hy hcomma

/-- A name before a mark starts no definition of a type. -/
theorem refuses_typeStatement {word : String} (hf : s.Follows i ((.name, word) :: x :: ts))
    (hx : x.1 ≠ .name) : Refuses s (do guard (nextIs "type"); typeStatement r) i := by
  by_cases hw : word = "type"
  · refine (reads_guard hf.at (is_of_lexeme hw)).refuses fun _ _ => ?_
    refine (reads_lit hf.at hw).refuses fun _ _ => (reads_nextGap hf.tail.at).refuses fun _ _ => ?_
    exact (refuses_name hf.tail.at (.inl hx)).bind
  · exact (refuses_guard hf.at (is_not_of_lexeme hw)).bind

/-- A dot or a bracket follows the root of a function that is called. -/
theorem callLexemes_eq_cons (root : String) (segments : List String) (x : Lexeme)
    (xs ts : List Lexeme) : ∃ y more, callLexemes root segments x xs ++ ts = (.name, root) :: y :: more ∧
      y.1 = .operator ∧ y.2 ∈ [".", "("] := by
  cases segments with
  | nil => exact ⟨_, _, rfl, rfl, by decide⟩
  | cons z segments => exact ⟨_, _, rfl, rfl, by decide⟩

theorem refuses_annotated {target : Expr} (hx : s.At i x) (h : x.2 ≠ ":") :
    Refuses s (annotated r target) i :=
  (refuses_mark hx h).bind

/-- A call on a line of its own. -/
theorem reads_callStatement (hr : r.expression = expressionRule inner)
    (ht : r.starTarget = starTargetRule inner) (hi : inner.expression = expressionRule deep)
    (hs : ∀ z ∈ root :: segments, IsPlainName z) (hxe : Operand x e) (ho : List.Forall₂ Operand xs es)
    (hf : s.Follows i (callLexemes root segments x xs ++ y :: ts)) (hend : IsLineEnd y) :
    Reads s (smallStatement r) i (i + 1 + 2 * segments.length + 3 + 2 * xs.length)
      (fun stmt => ∃ call func, stmt = .expr call ∧ func.segments = root :: segments ∧
        call.Calls func (e :: es)) := by
  obtain ⟨hopen, hbehind⟩ := follows_call hf
  obtain ⟨z, more, hz, hkind, hnext⟩ := callLexemes_eq_cons root segments x xs (y :: ts)
  have hplain := hf
  rw [hz] at hplain
  have hroot := hs root List.mem_cons_self
  have hapart : ∀ t ∈ ":" :: augmentedOperators, t ∉ [".", "("] := by decide
  -- The root of the function is tried as a target, and no mark of an assignment follows it.
  have hassign : Refuses s (assignment r) i := by
    have hcall : Refuses s (attributeOrSubscript r) i := refuses_callTarget hr hs hxe ho hf hend.endsExpr
    refine .orElse ?_ (.orElse hcall.bind (.orElse ?_ ?_))
    · refine (reads_name hplain.at hroot.2).refuses fun _ _ => ?_
      exact refuses_annotated hplain.tail.at fun he => hapart _ List.mem_cons_self (he ▸ hnext)
    · have htarget : Refuses s (assignTarget r) i := refuses_assignTarget ht hi hs hxe ho hf hend.endsExpr
      exact htarget.bind.bind
    · have hname : Reads s (singleTargetRule r) i (i + 1) (fun _ => True) :=
        .second hcall (.first ((reads_name hplain.at hroot.2).bind fun _ _ => .pure trivial))
      refine hname.refuses fun _ _ => Refuses.bind (refuses_anyOf hplain.tail.at fun hm => ?_)
      exact hapart _ (List.mem_cons_of_mem _ hm) hnext
  have hcall := reads_dottedCall (r := inner) hi hs hxe ho hf hend.endsExpr
  rw [← hr] at hcall
  refine .second (refuses_typeStatement hplain (by simp [hkind])) (.second hassign (.first ?_))
  refine (reads_starExpressions hcall hplain.at (ne_of_not_reserved hroot.not_reserved (by decide))
    hbehind.at (hend.ne (by decide))).bind ?_
  rintro call ⟨func, hfunc, hcalls⟩
  exact .pure ⟨call, func, rfl, hfunc, hcalls⟩

/-- A call that is assigned to an attribute. -/
theorem reads_assignStatement (hr : r.expression = expressionRule inner)
    (ht : r.starTarget = starTargetRule inner) (hi : inner.expression = expressionRule deep)
    (hreceiver : IsPlainName receiver) (hattr : IsPlainName attr)
    (hs : ∀ z ∈ root :: segments, IsPlainName z) (hxe : Operand x e)
    (ho : List.Forall₂ Operand xs es)
    (hf : s.Follows i ((.name, receiver) :: markLexeme '.' :: (.name, attr) :: markLexeme '=' ::
      (callLexemes root segments x xs ++ y :: ts))) (hend : IsLineEnd y) :
    Reads s (smallStatement r) i (i + 4 + 1 + 2 * segments.length + 3 + 2 * xs.length)
      (fun stmt => ∃ target equal call func, stmt = .assign [⟨target, equal⟩] call ∧
        (∃ dot, target = .attribute (.name receiver) dot attr) ∧ func.segments = root :: segments ∧
        call.Calls func (e :: es)) := by
  have hvalue := hf.tail.tail.tail.tail
  obtain ⟨hopen, hbehind⟩ := follows_call hvalue
  obtain ⟨z, more, hz, -⟩ := callLexemes_eq_cons root segments x xs (y :: ts)
  have hplain := hvalue
  rw [hz] at hplain
  have htargets := hf
  rw [hz] at htargets
  have hroot := (hs root List.mem_cons_self).not_reserved
  have hcall := reads_dottedCall (r := inner) hi hs hxe ho hvalue hend.endsExpr
  rw [← hr] at hcall
  have hequal : EndsExpr (markLexeme '=') := ⟨by decide, by decide, by decide⟩
  refine .second (refuses_typeStatement hf nofun) (.first (.second ?_ (.second ?_ (.first ?_))))
  · refine (reads_name hf.at hreceiver.2).refuses fun _ _ => ?_
    exact refuses_annotated hf.tail.at (by decide)
  · refine (reads_attributeTarget hreceiver hattr htargets hequal).refuses fun _ _ => ?_
    exact refuses_annotated hf.tail.tail.tail.at (by decide)
  have hfirst : Reads s (atLeastOne (assignTarget r)) i (i + 4) (fun targets =>
      ∃ target equal, targets = [⟨target, equal⟩] ∧
        ∃ dot, target = .attribute (.name receiver) dot attr) := by
    refine (reads_assignTarget ht hreceiver hattr htargets).bind fun target hd => ?_
    have hnone := refuses_assignTarget ht hi hs hxe ho hvalue hend.endsExpr
    refine hnone.many.bind ?_
    rintro _ rfl
    exact .pure ⟨target.target, target.equal, rfl, hd⟩
  refine hfirst.bind ?_
  rintro _ ⟨target, equal, rfl, hd⟩
  have hyield : Refuses s (yieldExpr r) (i + 4) :=
    (refuses_lit hplain.at (ne_of_not_reserved hroot (by decide))).bind
  refine (Reads.second hyield (reads_starExpressions hcall hplain.at
    (ne_of_not_reserved hroot (by decide)) hbehind.at (hend.ne (by decide)))).bind ?_
  rintro call ⟨func, hfunc, hcalls⟩
  refine (reads_guardNot hbehind.at (is_not_of_lexeme (hend.ne (by decide)))).bind fun _ _ => ?_
  exact .pure ⟨target, equal, call, func, rfl, hd, hfunc, hcalls⟩

/-- A small statement that reaches to the end of its line is the line. -/
theorem reads_lineStatement {P : Small → Prop} (h : Reads s (smallStatement r) i j P)
    (hx : s.At i x) (hy : s.At j y) (hend : IsLineEnd y) :
    Reads s (lineStatement r) i (j + 1) (fun stmt =>
      ∃ leading small tail, stmt = .line { leading, entries := [⟨small, none⟩], tail } ∧ P small) := by
  have hsemi {α : Type} {f : Around → Parser α} : Refuses s (comma ";" >>= f) j :=
    (refuses_comma hy (hend.ne (by decide))).bind
  refine (reads_peek hx).bind fun start _ => ?_
  have hline : Reads s (smallStatements r) i (j + 1)
      (fun line => ∃ small, line.1 = [⟨small, none⟩] ∧ P small) := by
    refine h.bind fun small hsmall => hsemi.many.bind ?_
    rintro _ rfl
    refine (refuses_comma hy (hend.ne (by decide))).optional.bind ?_
    rintro _ rfl
    exact (reads_kind hy hend.1).bind fun w _ => .pure ⟨small, rfl, hsmall⟩
  refine hline.bind ?_
  rintro ⟨entries, tail⟩ ⟨small, rfl, hsmall⟩
  exact .pure ⟨_, small, tail, rfl, hsmall⟩

end Statements

/-- What the rule for statements gives is what a text is read as. -/
theorem holds_of_parse {text : String} {stmt : Stmt} {P : Stmt → Prop}
    (h : Stmt.parse text = .ok stmt)
    (hp : ∀ s, lexText text.toList = .ok s → ∀ depth, depth + 1 = s.words.size →
      Gives s (statementRule (Rules.upTo (depth + 2))) 0 P) : P stmt := by
  simp only [Stmt.parse, bind_eq_ok] at h
  obtain ⟨s, hs, read, hrun, checked, -, h⟩ := h
  obtain rfl := Except.ok.inj h
  unfold Source.run at hrun
  split at hrun
  · rename_i value place furthest hv
    obtain rfl := Except.ok.inj hrun
    obtain ⟨stmt, i, m, hstmt, hv⟩ := ok_of_bind hv
    obtain ⟨w, j, n, hw, hv⟩ := ok_of_bind hv
    obtain ⟨rfl, -, -⟩ := Outcome.ok.inj hv
    obtain ⟨size, hsize⟩ : ∃ size, s.words.size = size + 1 := by
      have hlt : i < s.words.size := (Array.getElem?_eq_some_iff.mp (word_eq_ok hw).1).1
      exact ⟨s.words.size - 1, by omega⟩
    rw [hsize] at hstmt
    exact hp s hs size hsize.symm 0 _ _ _ hstmt
  · simp at hrun

/-- A statement of one small statement on a line. -/
def Stmt.IsLineOf (P : Small → Prop) (stmt : Stmt) : Prop :=
  ∃ leading small tail, stmt = .line { leading, entries := [⟨small, none⟩], tail } ∧ P small

/-- The call of a dotted name with arguments that are given by position. -/
def Small.IsCall (path : List String) (args : List Expr) (small : Small) : Prop :=
  ∃ call func, small = .expr call ∧ func.segments = path ∧ call.Calls func args

/-- The assignment of such a call to an attribute, and to nothing else. -/
def Small.AssignsCall (receiver attr : String) (path : List String) (args : List Expr)
    (small : Small) : Prop :=
  ∃ target equal call func, small = .assign [⟨target, equal⟩] call ∧
    (∃ dot, target = .attribute (.name receiver) dot attr) ∧ func.segments = path ∧
    call.Calls func args

section Lines

variable {s : Source} {r : Rules} {i j : Nat} {x y : Lexeme} {P : Small → Prop}

theorem length_callLexemes (root : String) (segments : List String) (x : Lexeme) (xs : List Lexeme) :
    (callLexemes root segments x xs).length = 1 + 2 * segments.length + 3 + 2 * xs.length := by
  have hdotted : (dottedTail segments).length = 2 * segments.length := by
    induction segments with
    | nil => rfl
    | cons y segments ih =>
      rw [dottedTail, List.length_cons, List.length_cons, ih, List.length_cons]
      omega
  have harguments : (argumentLexemes xs).length = 1 + 2 * xs.length := by
    induction xs with
    | nil => rfl
    | cons x xs ih =>
      rw [argumentLexemes, List.length_cons, List.length_cons, ih, List.length_cons]
      omega
  rw [callLexemes, List.length_cons, List.length_append, List.length_cons, List.length_cons, hdotted,
    harguments]
  omega

/-- Where no compound statement can be read, the statement is a line. -/
theorem reads_line (h : Reads s (smallStatement r) i j P) (hx : s.At i x) (hy : s.At j y)
    (hend : IsLineEnd y) (hc : Refuses s (compoundStatement r) i) :
    Reads s (statementRule r) i (j + 1) (Stmt.IsLineOf P) :=
  .second hc (reads_lineStatement h hx hy hend)

variable {inner deep : Rules} {e : Expr} {receiver attr root : String} {segments : List String}
  {xs ts : List Lexeme} {es : List Expr}

theorem not_mem_compoundTexts {word : String} (h : IsPlainName word) : word ∉ compoundTexts :=
  not_mem_of_not_reserved h.not_reserved (by decide)

/-- A line with a call of a dotted name. -/
theorem reads_callLine (hr : r.expression = expressionRule inner)
    (ht : r.starTarget = starTargetRule inner) (hi : inner.expression = expressionRule deep)
    (hs : ∀ z ∈ root :: segments, IsPlainName z) (hxe : Operand x e) (ho : List.Forall₂ Operand xs es)
    (hf : s.Follows i (callLexemes root segments x xs ++ y :: ts)) (hend : IsLineEnd y) :
    Reads s (statementRule r) i (i + (callLexemes root segments x xs).length + 1)
      (Stmt.IsLineOf (Small.IsCall (root :: segments) (e :: es))) := by
  obtain ⟨-, hbehind⟩ := follows_call hf
  have hplain := hf
  rw [callLexemes_append] at hplain
  have hstmt := reads_callStatement hr ht hi hs hxe ho hf hend
  have hmatch := refuses_matchStatement_of_call hr hi hxe ho hf hend.endsExpr
    (hend.ne (by decide)) (hend.ne (by decide))
  have hline := reads_line hstmt hplain.at hbehind.at hend (refuses_compoundStatement hplain.at
    (not_mem_compoundTexts (hs root List.mem_cons_self)) nofun hmatch)
  rw [length_callLexemes, ← Nat.add_assoc, ← Nat.add_assoc, ← Nat.add_assoc]
  exact hline

/-- A line that assigns such a call to an attribute. -/
theorem reads_assignLine (hr : r.expression = expressionRule inner)
    (ht : r.starTarget = starTargetRule inner) (hi : inner.expression = expressionRule deep)
    (hreceiver : IsPlainName receiver) (hattr : IsPlainName attr)
    (hs : ∀ z ∈ root :: segments, IsPlainName z) (hxe : Operand x e) (ho : List.Forall₂ Operand xs es)
    (hf : s.Follows i ((.name, receiver) :: markLexeme '.' :: (.name, attr) :: markLexeme '=' ::
      (callLexemes root segments x xs ++ y :: ts))) (hend : IsLineEnd y) :
    Reads s (statementRule r) i (i + 4 + (callLexemes root segments x xs).length + 1)
      (Stmt.IsLineOf (Small.AssignsCall receiver attr (root :: segments) (e :: es))) := by
  obtain ⟨-, hbehind⟩ := follows_call hf.tail.tail.tail.tail
  have hstmt := reads_assignStatement hr ht hi hreceiver hattr hs hxe ho hf hend
  have hmatch : Refuses s (matchStatement r) i :=
    refuses_matchStatement_of_next hr hf ⟨by decide, by decide, by decide⟩
  have hline := reads_line hstmt hf.at hbehind.at hend
    (refuses_compoundStatement hf.at (not_mem_compoundTexts hreceiver) nofun hmatch)
  rw [length_callLexemes, ← Nat.add_assoc, ← Nat.add_assoc, ← Nat.add_assoc]
  exact hline

end Lines

end Hydration.Syntax
