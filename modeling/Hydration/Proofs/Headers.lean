import Hydration.Proofs.ConstructorBodies
import Hydration.Proofs.Splicing

/-! The head of a module under a supply. New lines go behind the lines that count as the head: a lone
literal in front, and then lines that import from a module called `__future__`. Not every docstring has
a line of its own, and not every literal or import of that kind is one for the head, so the docstring
can lose its place, and other lines can stand before the new ones. -/

namespace Hydration.Syntax

def isBytesLiteral (text : String) : Bool :=
  (text.toList.takeWhile fun c => !isQuote c).any fun c => c.toLower == 'b'

/-- Literals that write out a text: none of them is of bytes, and none has anything to fill in. -/
def Expr.isPlainText : Expr → Bool
  | .string text => !isBytesLiteral text
  | .joined left _ right => left.isPlainText && right.isPlainText
  | .paren _ inner _ => inner.isPlainText
  | _ => false

theorem Expr.core_of_isPlainText {e : Expr} (h : e.isPlainText = true) :
    (∃ text, e.core = .string text) ∨ ∃ left gap right, e.core = .joined left gap right := by
  induction e using Expr.core.induct with
  | case1 before inner after ih => exact ih h
  | case2 e hne =>
    rw [Expr.core.eq_2 e hne]
    cases e with
    | string text => exact .inl ⟨text, rfl⟩
    | joined left gap right => exact .inr ⟨left, gap, right, rfl⟩
    | paren before inner after => exact absurd rfl (hne before inner after)
    | _ => simp [Expr.isPlainText] at h

namespace Small

/-- What documents a module if it is the very first statement. -/
def Documents (small : Small) : Prop := ∃ value, small = .expr value ∧ value.isPlainText = true

def ImportsFrom (relative : Bool) (module : String) (small : Small) : Prop :=
  ∃ gap dots path before after names, small = .importFrom gap dots (some path) before after names ∧
    dots.isEmpty = !relative ∧ path.IsName module

/-- An import from the future. -/
abbrev BringsFuture : Small → Prop := ImportsFrom false "__future__"

/-- An import from a module of the own package that is called like the future. -/
abbrev BringsNamesake : Small → Prop := ImportsFrom true "__future__"

theorem Documents.isText {small : Small} (h : small.Documents) : small.IsText := by
  obtain ⟨value, rfl, ht⟩ := h
  exact ⟨value, rfl, value.core_of_isPlainText ht⟩

end Small

end Hydration.Syntax

namespace Hydration.Imports

open Syntax Transform

/-- The small statements of the top level in order. What is no line with small statements stands there
as none. -/
def smallsOf : Stmt → List (Option Small)
  | .line line => if line.entries.isEmpty then [none] else line.entries.map fun entry => some entry.stmt
  | _ => [none]

def topLevel (body : List Stmt) : List (Option Small) := body.flatMap smallsOf

def ImportsFuture (stmt : Stmt) : Prop := ∃ small, some small ∈ smallsOf stmt ∧ small.BringsFuture

/-- The first small statement of a line has a property. -/
def Opens (P : Small → Prop) (stmt : Stmt) : Prop :=
  ∃ small, (smallsOf stmt).head? = some (some small) ∧ P small

/-- Before an import from the future there are only others, behind a docstring if there is one. -/
def Orderly (body : List Stmt) : Prop :=
  ∀ before future after, topLevel body = before ++ some future :: after → future.BringsFuture →
    (∀ first ∈ before.head?, ∃ small ∈ first, small.Documents ∨ small.BringsFuture) ∧
      ∀ later ∈ before.tail, ∃ small ∈ later, small.BringsFuture

section Smalls

variable {stmt : Stmt} {line : Line} {small : Small} {body : List Stmt}

theorem isFutureName_iff {path : Expr} : isFutureName path = true ↔ path.IsName "__future__" := by
  unfold isFutureName Expr.IsName
  split <;> simp_all

theorem isFutureEntry_iff {entry : Entry} :
    isFutureEntry entry = true ↔ entry.stmt.BringsFuture ∨ entry.stmt.BringsNamesake := by
  unfold isFutureEntry
  split
  · rename_i gap dots path before after names he
    rw [isFutureName_iff, he]
    constructor
    · intro hp
      cases dots with
      | nil => exact .inl ⟨_, _, _, _, _, _, rfl, rfl, hp⟩
      | cons dot dots => exact .inr ⟨_, _, _, _, _, _, rfl, rfl, hp⟩
    · rintro (⟨_, _, _, _, _, _, h, -, hp⟩ | ⟨_, _, _, _, _, _, h, -, hp⟩) <;>
        (cases h; exact hp)
  · rename_i hne
    simp only [Bool.false_eq_true, false_iff]
    rintro (⟨_, _, _, _, _, _, h, -⟩ | ⟨_, _, _, _, _, _, h, -⟩) <;> exact hne _ _ _ _ _ _ h

theorem mem_smallsOf_line :
    some small ∈ smallsOf (.line line) ↔ ∃ entry ∈ line.entries, entry.stmt = small := by
  rw [smallsOf]
  split
  · rename_i he
    simp [List.isEmpty_iff.mp he]
  · simp

theorem exists_line_of_mem_smallsOf (h : some small ∈ smallsOf stmt) : ∃ line, stmt = .line line := by
  cases stmt with
  | line line => exact ⟨line, rfl⟩
  | _ => simp [smallsOf] at h

theorem smallsOf_ne_nil (stmt : Stmt) : smallsOf stmt ≠ [] := by
  unfold smallsOf
  split
  · split <;> simp_all
  · simp

/-- A line counts as one of the future by its namesakes, too. -/
theorem importsFuture_iff : importsFuture stmt = true ↔
    ∃ small, some small ∈ smallsOf stmt ∧ (small.BringsFuture ∨ small.BringsNamesake) := by
  cases stmt with
  | line line =>
    simp only [importsFuture, List.any_eq_true, isFutureEntry_iff, mem_smallsOf_line]
    constructor
    · rintro ⟨entry, he, h⟩
      exact ⟨_, ⟨entry, he, rfl⟩, h⟩
    · rintro ⟨_, ⟨entry, he, rfl⟩, h⟩
      exact ⟨entry, he, h⟩
  | _ => simp [importsFuture, smallsOf]

theorem ImportsFuture.counts (h : ImportsFuture stmt) : importsFuture stmt = true := by
  obtain ⟨small, hm, hs⟩ := h
  exact importsFuture_iff.mpr ⟨small, hm, .inl hs⟩

/-- A docstring that is all of a line counts as one. -/
theorem isDocstring_of_smallsOf (h : smallsOf stmt = [some small]) (hd : small.Documents) :
    isDocstring stmt = true := by
  have hm : some small ∈ smallsOf stmt := by simp [h]
  obtain ⟨line, rfl⟩ := exists_line_of_mem_smallsOf hm
  have hl : line.entries.map Entry.stmt = [small] := by
    cases he : line.entries <;> simp_all [smallsOf]
  obtain ⟨⟨own, semi⟩, he, ho⟩ := List.map_eq_singleton_iff.mp hl
  obtain rfl : own = small := ho
  exact isDocstring_iff.mpr ((lone_line he).mpr hd.isText)

theorem smallsOf_of_isDocstring (h : isDocstring stmt = true) :
    ∃ small, smallsOf stmt = [some small] ∧ small.IsText := by
  obtain ⟨line, small, semi, rfl, he, ht⟩ := isDocstring_iff.mp h
  exact ⟨small, by simp [smallsOf, he], ht⟩

end Smalls

/-- The first may be a lone literal, and the others import from a module called `__future__`. -/
def CountsAsHead (lines : List Stmt) : Prop :=
  (∀ first ∈ lines.head?, isDocstring first = true ∨ importsFuture first = true) ∧
    ∀ later ∈ lines.tail, importsFuture later = true

section Head

variable {stmt first : Stmt} {body front back before after rest : List Stmt}

theorem length_le_takeWhile_iff {p : Stmt → Bool} :
    front.length ≤ ((front ++ back).takeWhile p).length ↔ ∀ x ∈ front, p x = true := by
  induction front with
  | nil => simp
  | cons x front ih =>
    by_cases hx : p x = true
    · simp [hx, ih]
    · simp [hx]

theorem headerIndex_of_docstring (hd : isDocstring first = true) (rest : List Stmt) :
    headerIndex (first :: rest) = (rest.takeWhile importsFuture).length + 1 := by
  simp [headerIndex, hd, Nat.add_comm]

theorem headerIndex_of_other (hd : ¬ isDocstring first = true) (rest : List Stmt) :
    headerIndex (first :: rest) = ((first :: rest).takeWhile importsFuture).length := by
  simp [headerIndex, hd]

/-- New lines go behind the longest part that counts as the head. -/
theorem countsAsHead_iff (front back : List Stmt) :
    CountsAsHead front ↔ front.length ≤ headerIndex (front ++ back) := by
  cases front with
  | nil => simp [CountsAsHead]
  | cons first rest =>
    by_cases hd : isDocstring first = true
    · rw [List.cons_append, headerIndex_of_docstring hd, List.length_cons, Nat.add_le_add_iff_right,
        length_le_takeWhile_iff]
      simp [CountsAsHead, hd]
    · rw [List.cons_append, headerIndex_of_other hd, ← List.cons_append, length_le_takeWhile_iff]
      simp [CountsAsHead, hd]

theorem headerIndex_le_length (body : List Stmt) : headerIndex body ≤ body.length := by
  cases body with
  | nil => simp [headerIndex]
  | cons first rest =>
    by_cases hd : isDocstring first = true
    · have hrest := (List.takeWhile_prefix importsFuture (l := rest)).length_le
      rw [headerIndex_of_docstring hd, List.length_cons]
      omega
    · rw [headerIndex_of_other hd]
      exact (List.takeWhile_prefix importsFuture).length_le

theorem CountsAsHead.of_append (h : CountsAsHead (front ++ back)) : CountsAsHead front := by
  cases front with
  | nil => simp [CountsAsHead]
  | cons first rest => exact ⟨h.1, fun later hl => h.2 later (List.mem_append_left _ hl)⟩

theorem CountsAsHead.concat (h : CountsAsHead front) (hs : importsFuture stmt = true) :
    CountsAsHead (front ++ [stmt]) := by
  cases front with
  | nil => exact ⟨by simp [hs], by simp⟩
  | cons first rest =>
    refine ⟨h.1, fun later hl => ?_⟩
    rcases List.mem_append.mp hl with hl | hl
    · exact h.2 later hl
    · exact List.mem_singleton.mp hl ▸ hs

/-- In an orderly module all lines up to an import from the future count as the head. -/
theorem Orderly.countsAsHead (ho : Orderly (before ++ stmt :: after)) (hf : ImportsFuture stmt) :
    CountsAsHead before := by
  obtain ⟨future, hm, hb⟩ := hf
  obtain ⟨xs, ys, hs⟩ := List.append_of_mem hm
  cases before with
  | nil => simp [CountsAsHead]
  | cons first rest =>
    obtain ⟨p, ps, hp⟩ := List.exists_cons_of_ne_nil (smallsOf_ne_nil first)
    have htop : topLevel (first :: rest ++ stmt :: after) =
        (p :: (ps ++ topLevel rest ++ xs)) ++ some future :: (ys ++ topLevel after) := by
      simp [topLevel, hp, hs]
    obtain ⟨hfirst, hlater⟩ := ho _ _ _ htop hb
    have hlater' : ∀ later ∈ ps ++ topLevel rest, ∃ small ∈ later, small.BringsFuture :=
      fun later hl => hlater later (List.mem_append_left _ hl)
    constructor
    · intro own hown
      obtain rfl : first = own := Option.some.inj hown
      obtain ⟨small, rfl, hsmall⟩ := hfirst p rfl
      cases ps with
      | nil =>
        rcases hsmall with hd | hsmall
        · exact .inl (isDocstring_of_smallsOf hp hd)
        · exact .inr (ImportsFuture.counts ⟨small, by simp [hp], hsmall⟩)
      | cons q qs =>
        obtain ⟨other, rfl, hother⟩ := hlater' q (by simp)
        exact .inr (ImportsFuture.counts ⟨other, by simp [hp], hother⟩)
    · intro later hl
      obtain ⟨q, qs, hq⟩ := List.exists_cons_of_ne_nil (smallsOf_ne_nil later)
      have hmem : q ∈ ps ++ topLevel rest :=
        List.mem_append_right _ (List.mem_flatMap.mpr ⟨later, hl, by simp [hq]⟩)
      obtain ⟨other, rfl, hother⟩ := hlater' q hmem
      exact ImportsFuture.counts ⟨other, by simp [hq], hother⟩

end Head

/-- The docstring shares its line, and with nothing that counts as the head. -/
def Crowded (body : List Stmt) : Prop :=
  ∃ first ∈ body.head?, ∃ small others, smallsOf first = some small :: others ∧ small.Documents ∧
    others ≠ [] ∧ ∀ other, some other ∈ others → ¬ (other.BringsFuture ∨ other.BringsNamesake)

/-- A line holds the docstring, if it is the first, or an import from the future. -/
def BelongsBehind (before : List Stmt) (stmt : Stmt) : Prop :=
  ImportsFuture stmt ∨ before = [] ∧ Opens Small.Documents stmt

/-- Some line counts as the head that holds neither a docstring nor an import from the future: a literal
of another kind, or imports from a namesake of the future. -/
inductive Mistaken : List Stmt → Prop where
  | literal {first : Stmt} {rest : List Stmt} (hl : first.Lone Small.IsText)
      (hd : ¬ Opens Small.Documents first) : Mistaken (first :: rest)
  | namesake {before after : List Stmt} {stmt : Stmt} {small : Small} (hb : CountsAsHead before)
      (hm : some small ∈ smallsOf stmt) (hn : small.BringsNamesake)
      (hs : ¬ BelongsBehind before stmt) : Mistaken (before ++ stmt :: after)

/-- The docstring is still the first small statement. -/
def KeepsDocstring (body new : List Stmt) : Prop :=
  (∃ first ∈ body.head?, Opens Small.Documents first) → (topLevel new).head? = (topLevel body).head?

def HoldsOnlyHead (front : List Stmt) : Prop :=
  ∀ before stmt after, front = before ++ stmt :: after → BelongsBehind before stmt

section Splice

variable {stmt first : Stmt} {body front back before after rest statements : List Stmt}

theorem head?_topLevel_cons (first : Stmt) (rest : List Stmt) :
    (topLevel (first :: rest)).head? = (smallsOf first).head? := by
  obtain ⟨p, ps, hp⟩ := List.exists_cons_of_ne_nil (smallsOf_ne_nil first)
  simp [topLevel, hp]

theorem not_opens_of_importLine (h : IsImportLine stmt) : ¬ Opens Small.Documents stmt := by
  obtain ⟨small, hplain, rfl⟩ := h
  rintro ⟨own, hown, value, rfl, -⟩
  obtain rfl : small = .expr value := by simpa [smallsOf, plainLine] using hown
  exact hplain

/-- A docstring does not count as the head exactly if it is crowded. -/
theorem countsAsHead_singleton_iff (hd : Opens Small.Documents first) :
    CountsAsHead [first] ↔ ¬ Crowded (first :: rest) := by
  obtain ⟨small, hsmall, hdoc⟩ := hd
  obtain ⟨p, others, hp⟩ := List.exists_cons_of_ne_nil (smallsOf_ne_nil first)
  obtain rfl : p = some small := by simpa [hp] using hsmall
  constructor
  · rintro ⟨hcounts, -⟩ ⟨own, hown, small', others', hp', -, hne, hno⟩
    obtain rfl : first = own := Option.some.inj hown
    obtain ⟨-, rfl⟩ := List.cons.inj (hp.symm.trans hp')
    rcases hcounts first rfl with hlone | hfuture
    · obtain ⟨alone, ha, -⟩ := smallsOf_of_isDocstring hlone
      exact hne (List.cons.inj (hp.symm.trans ha)).2
    · obtain ⟨other, hm, hother⟩ := importsFuture_iff.mp hfuture
      rw [hp] at hm
      rcases List.mem_cons.mp hm with he | hm
      · obtain ⟨value, rfl, -⟩ := hdoc
        obtain rfl := Option.some.inj he
        rcases hother with ⟨_, _, _, _, _, _, h, -⟩ | ⟨_, _, _, _, _, _, h, -⟩ <;> cases h
      · exact hno other hm hother
  · intro hno
    refine ⟨fun own hown => ?_, by simp⟩
    obtain rfl : first = own := Option.some.inj hown
    by_cases hne : others = []
    · exact .inl (isDocstring_of_smallsOf (by rw [hp, hne]) hdoc)
    · by_contra hcounts
      refine hno ⟨first, rfl, small, others, hp, hdoc, hne, fun other hm hother => hcounts (.inr ?_)⟩
      exact importsFuture_iff.mpr ⟨other, by simp [hp, hm], hother⟩

theorem Crowded.opens (h : Crowded (first :: rest)) : Opens Small.Documents first := by
  obtain ⟨own, hown, small, others, hp, hdoc, -⟩ := h
  obtain rfl : first = own := Option.some.inj hown
  exact ⟨small, by simp [hp], hdoc⟩

/-- New lines leave the docstring in its place exactly if it is not crowded. -/
theorem keepsDocstring_iff (hlen : front.length = headerIndex (front ++ back))
    (hne : statements ≠ []) (himport : ∀ stmt ∈ statements, IsImportLine stmt) :
    KeepsDocstring (front ++ back) (front ++ statements ++ back) ↔ ¬ Crowded (front ++ back) := by
  cases front with
  | cons first rest =>
    -- The first line counts as the head, so it stays the first one.
    refine iff_of_true (fun _ => ?_) ?_
    · simp only [List.cons_append, head?_topLevel_cons]
    · by_cases hd : Opens Small.Documents first
      · have hc : CountsAsHead [first] :=
          (countsAsHead_iff _ (rest ++ back)).mpr (by
            have hone : 1 ≤ (first :: rest).length := by simp
            simpa using hlen ▸ hone)
        exact (countsAsHead_singleton_iff hd).mp hc
      · exact mt Crowded.opens hd
  | nil =>
    cases back with
    | nil => exact iff_of_true (fun ⟨_, h, _⟩ => nomatch h) (fun ⟨_, h, _⟩ => nomatch h)
    | cons first rest =>
      have hno : ¬ CountsAsHead [first] := by
        intro hc
        have hone := (countsAsHead_iff _ rest).mp hc
        simp only [List.nil_append, List.length_nil] at hlen
        simp [← hlen] at hone
      by_cases hd : Opens Small.Documents first
      · refine iff_of_false (fun hk => ?_) (mt (countsAsHead_singleton_iff hd).mpr hno)
        obtain ⟨stmt, others, rfl⟩ := List.exists_cons_of_ne_nil hne
        have hsame := hk ⟨first, rfl, hd⟩
        simp only [List.nil_append, List.cons_append, head?_topLevel_cons] at hsame
        obtain ⟨small, hsmall, hdoc⟩ := hd
        exact not_opens_of_importLine (himport stmt (by simp)) ⟨small, hsame.trans hsmall, hdoc⟩
      · refine iff_of_true ?_ (mt Crowded.opens hd)
        rintro ⟨own, hown, hopens⟩
        obtain rfl : first = own := Option.some.inj hown
        exact absurd hopens hd

/-- A literal imports nothing. -/
theorem not_importsFuture_of_isDocstring (h : isDocstring stmt = true) : ¬ ImportsFuture stmt := by
  rintro ⟨small, hm, _, _, _, _, _, _, rfl, -⟩
  obtain ⟨text, hs, value, rfl, -⟩ := smallsOf_of_isDocstring h
  simp [hs] at hm

theorem mistaken_iff : Mistaken body ↔ ∃ before stmt after, body = before ++ stmt :: after ∧
    CountsAsHead (before ++ [stmt]) ∧ ¬ BelongsBehind before stmt := by
  constructor
  · intro h
    cases h with
    | @literal first rest hl hd =>
      have hlone : isDocstring first = true := isDocstring_iff.mpr hl
      refine ⟨[], first, rest, rfl, ⟨by simp [hlone], by simp⟩, ?_⟩
      rintro (hf | ⟨-, ho⟩)
      · exact not_importsFuture_of_isDocstring hlone hf
      · exact hd ho
    | @namesake before after stmt small hb hm hn hs =>
      exact ⟨before, stmt, after, rfl, hb.concat (importsFuture_iff.mpr ⟨small, hm, .inr hn⟩), hs⟩
  · rintro ⟨before, stmt, after, rfl, hc, hs⟩
    have hnamesake (hcounts : importsFuture stmt = true) : Mistaken (before ++ stmt :: after) := by
      obtain ⟨small, hm, hf | hn⟩ := importsFuture_iff.mp hcounts
      · exact absurd (.inl ⟨small, hm, hf⟩) hs
      · exact .namesake hc.of_append hm hn hs
    cases before with
    | nil =>
      rcases hc.1 stmt rfl with hlone | hcounts
      · exact .literal (isDocstring_iff.mp hlone) fun ho => hs (.inr ⟨rfl, ho⟩)
      · exact hnamesake hcounts
    | cons first rest => exact hnamesake (hc.2 stmt (by simp))

/-- Before the new lines stands nothing but the head exactly if no line was mistaken for a part of it. -/
theorem holdsOnlyHead_iff (hlen : front.length = headerIndex (front ++ back)) :
    HoldsOnlyHead front ↔ ¬ Mistaken (front ++ back) := by
  rw [mistaken_iff]
  constructor
  · rintro hall ⟨before, stmt, after, hb, hc, hs⟩
    have hle : (before ++ [stmt]).length ≤ front.length := by
      have hcount := (countsAsHead_iff _ after).mp hc
      rwa [List.append_assoc, List.singleton_append, ← hb, ← hlen] at hcount
    have hprefix : before ++ [stmt] <+: front ++ back := ⟨after, by simp [hb]⟩
    obtain ⟨between, hbetween⟩ :=
      List.prefix_of_prefix_length_le hprefix (List.prefix_append front back) hle
    exact hs (hall before stmt between (by simpa using hbetween.symm))
  · intro hno before stmt after he
    by_contra hs
    have hfront : CountsAsHead front := (countsAsHead_iff _ _).mpr hlen.le
    have hall : CountsAsHead (before ++ [stmt] ++ after) := by simpa [he] using hfront
    have hc : CountsAsHead (before ++ [stmt]) := hall.of_append
    exact hno ⟨before, stmt, after ++ back, by simp [he], hc, hs⟩

end Splice

theorem isImportLine_of_newLines {style : ImportStyle} {b : Scope} {missing : List Specifier}
    {statements : List Stmt} (h : NewLines style b missing statements) :
    ∀ stmt ∈ statements, IsImportLine stmt := by
  intro stmt hs
  cases style with
  | named =>
    obtain ⟨module, -, hline⟩ := forall₂_exists h hs
    exact hline.isImportLine
  | qualified =>
    obtain ⟨module, -, hline⟩ := forall₂_exists h hs
    exact hline.isImportLine

/-- A supply of an orderly module puts its lines behind all imports from the future. Where it adds some,
the docstring stays the first small statement exactly if it does not share its line with others, none of
which counts as an import from the future. Only lines with the docstring or an import from the future
stand before the new ones exactly if no line was mistaken for such a one: a lone literal that documents
nothing, or a line that imports from a namesake of the future. -/
theorem header_first_iff {style : ImportStyle} {specifiers : List Specifier} {m : Module}
    {supplied : Supplied} (ho : Orderly m.body) (h : supply style specifiers m = .ok supplied) :
    ∃ front statements back, m.body = front ++ back ∧
      supplied.module = { m with body := front ++ statements ++ back } ∧
      List.Forall₂ (ImportsMissing style (missingSpecifiers (scanScope m) specifiers))
        (modulesOf (missingSpecifiers (scanScope m) specifiers)) statements ∧
      (∀ stmt ∈ back, ¬ ImportsFuture stmt) ∧
      (KeepsDocstring m.body supplied.module.body ↔ statements = [] ∨ ¬ Crowded m.body) ∧
      (HoldsOnlyHead front ↔ ¬ Mistaken m.body) := by
  obtain ⟨statements, hmodule, hlines, -⟩ := newLines_of_supply h
  have hsplit : m.body.take (headerIndex m.body) ++ m.body.drop (headerIndex m.body) = m.body :=
    List.take_append_drop ..
  obtain ⟨front, hfront⟩ : ∃ front, front = m.body.take (headerIndex m.body) := ⟨_, rfl⟩
  obtain ⟨back, hback⟩ : ∃ back, back = m.body.drop (headerIndex m.body) := ⟨_, rfl⟩
  have hbody : m.body = front ++ back := by rw [hfront, hback, hsplit]
  have hnew : supplied.module = { m with body := front ++ statements ++ back } := by
    rw [hmodule, injected, insertAt, ← hfront, ← hback]
  have hlen : front.length = headerIndex (front ++ back) := by
    rw [← hbody, hfront, List.length_take_of_le (headerIndex_le_length m.body)]
  refine ⟨front, statements, back, hbody, hnew, importsMissing_of_newLines hlines, ?_, ?_, ?_⟩
  · intro stmt hs hf
    obtain ⟨before, after, rfl⟩ := List.append_of_mem hs
    rw [hbody, ← List.append_assoc] at ho
    have hc : CountsAsHead (front ++ before ++ [stmt]) := (ho.countsAsHead hf).concat hf.counts
    have hle := (countsAsHead_iff _ after).mp hc
    simp only [List.append_assoc, List.singleton_append, ← hlen, List.length_append,
      List.length_singleton] at hle
    omega
  · rw [hnew, hbody]
    by_cases hne : statements = []
    · subst hne
      refine iff_of_true (fun _ => ?_) (.inl rfl)
      rw [List.append_nil]
    · rw [keepsDocstring_iff hlen hne (isImportLine_of_newLines hlines), or_iff_right hne]
  · rw [hbody]
    exact holdsOnlyHead_iff hlen

/-- The module `'text'; x = 1`. -/
def crowdedModule : Module :=
  { body := [.line
      { entries := [{ stmt := .expr (.string "'text'"), semi := some {} },
          { stmt := .assign [⟨.name "x", {}⟩] (.number "1") }] }] }

theorem orderly_crowdedModule : Orderly crowdedModule.body := by
  intro before future after htop hf
  have hm : some future ∈ topLevel crowdedModule.body := by simp [htop]
  obtain ⟨_, _, _, _, _, _, rfl, -⟩ := hf
  simp [topLevel, smallsOf, crowdedModule] at hm

theorem crowded_crowdedModule : Crowded crowdedModule.body := by
  refine ⟨_, rfl, _, _, rfl, ⟨_, rfl, by decide⟩, by simp, ?_⟩
  intro other hother
  have he : other = .assign [⟨.name "x", {}⟩] (.number "1") := by simpa using hother
  subst he
  rintro (⟨_, _, _, _, _, _, h, -⟩ | ⟨_, _, _, _, _, _, h, -⟩) <;> cases h

/-- The new line stands before the docstring, which so is none any more. -/
theorem header_first_iff_of_crowded :
    Orderly crowdedModule.body ∧ ∃ supplied,
      supply .named [⟨"m", "y"⟩] crowdedModule = .ok supplied ∧
      ¬ KeepsDocstring crowdedModule.body supplied.module.body := by
  refine ⟨orderly_crowdedModule, _, rfl, fun hk => ?_⟩
  have hs : supply .named [⟨"m", "y"⟩] crowdedModule = .ok _ := rfl
  obtain ⟨front, statements, back, -, -, hlines, -, hkeeps, -⟩ :=
    header_first_iff orderly_crowdedModule hs
  have hmissing : missingSpecifiers (scanScope crowdedModule) [⟨"m", "y"⟩] = [⟨"m", "y"⟩] := by decide
  rw [hmissing] at hlines
  rcases hkeeps.mp hk with rfl | hno
  · exact absurd hlines.length_eq (by decide)
  · exact hno crowded_crowdedModule

end Hydration.Imports
