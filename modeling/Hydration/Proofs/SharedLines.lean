import Hydration.Proofs.ClassScope
import Hydration.Proofs.Spreading

/-! Lines that small statements share. A small statement that the rewriting leaves out or changes on a line
of its own stays as it is on a shared one, and a text is not seen there. The hydrated class is the same as
that of the statements without their layout where no statement is treated otherwise for its line. -/

namespace Hydration.Syntax

def Line.Shared (line : Line) : Prop := line.entries.length ≠ 1

theorem spread_singleton {line : Line} {small : Small} {semi : Option Around}
    (h : line.entries = [⟨small, semi⟩]) : (Stmt.line line).spread = [small.alone] := by
  rw [Stmt.spread, h]
  rfl

end Hydration.Syntax

namespace Hydration.Transform

open Syntax

section Lists

variable {α β : Type} {l l' : List α} {f g : α → List β}

theorem length_flatMap_le (h : ∀ x ∈ l, (g x).length ≤ (f x).length) :
    (l.flatMap g).length ≤ (l.flatMap f).length := by
  induction l with
  | nil => exact le_refl 0
  | cons x l ih =>
    obtain ⟨hx, hl⟩ := List.forall_mem_cons.mp h
    rw [List.flatMap_cons, List.flatMap_cons, List.length_append, List.length_append]
    exact Nat.add_le_add hx (ih hl)

/-- Where no part is longer on the other side, the whole is the same when the parts are. -/
theorem flatMap_eq_flatMap_iff (h : ∀ x ∈ l, (g x).length ≤ (f x).length) :
    l.flatMap f = l.flatMap g ↔ ∀ x ∈ l, f x = g x := by
  refine ⟨fun he => ?_, List.flatMap_congr⟩
  induction l with
  | nil => exact fun x hx => absurd hx List.not_mem_nil
  | cons x l ih =>
    obtain ⟨hx, hl⟩ := List.forall_mem_cons.mp h
    rw [List.flatMap_cons, List.flatMap_cons] at he
    have hlength := congrArg List.length he
    rw [List.length_append, List.length_append] at hlength
    have hle := length_flatMap_le hl
    obtain ⟨hfirst, hrest⟩ := List.append_inj he (by omega)
    exact List.forall_mem_cons.mpr ⟨hfirst, ih hl hrest⟩

/-- What stands between the start of a list and the rest of it does not hide what the list was. -/
theorem takeWhile_insert_inj {p : α → Bool} {x : α} (hx : p x = false)
    (h : l.takeWhile p ++ x :: l.dropWhile p = l'.takeWhile p ++ x :: l'.dropWhile p) : l = l' := by
  have hstart (l : List α) : (l.takeWhile p ++ x :: l.dropWhile p).takeWhile p = l.takeWhile p := by
    rw [List.takeWhile_append_of_pos fun _ hm => List.mem_takeWhile_imp hm,
      List.takeWhile_cons_of_neg (by simp [hx]), List.append_nil]
  have htake : l.takeWhile p = l'.takeWhile p := by rw [← hstart l, h, hstart]
  rw [htake] at h
  rw [← List.takeWhile_append_dropWhile (p := p) (l := l), htake,
    (List.cons.inj (List.append_cancel_left h)).2, List.takeWhile_append_dropWhile]

end Lists

/-- What is done with lines: a line of one statement is treated as the statement is by itself, and a shared
line stays as a whole or holds nothing that would stay. -/
structure ActsOnLines (act : Stmt → List Stmt) : Prop where
  lone : ∀ {line : Line} {small : Small} {semi : Option Around}, line.entries = [⟨small, semi⟩] →
    act (.line line) = act small.alone
  shared : ∀ {line : Line}, line.Shared → act (.line line) = spreadEntries line.entries ∨
    act (.line line) = [] ∧ ∀ entry ∈ line.entries, act entry.stmt.alone = []
  alone : ∀ small : Small, (act small.alone).length ≤ 1

section Acts

variable {act : Stmt → List Stmt} {line : Line} {s : Stmt} {body : List Stmt}

theorem flatMap_spread_line : (Stmt.line line).spread.flatMap act =
    line.entries.flatMap fun entry => act entry.stmt.alone := by
  rw [Stmt.spread, spreadEntries, List.flatMap_map]

theorem spreadEntries_eq_flatMap (entries : List Entry) :
    spreadEntries entries = entries.flatMap fun entry => [entry.stmt.alone] :=
  List.map_eq_flatMap

theorem ActsOnLines.length_le (h : ActsOnLines act) (line : Line) :
    ((Stmt.line line).spread.flatMap act).length ≤ (act (.line line)).length := by
  by_cases hs : line.Shared
  · rw [flatMap_spread_line]
    rcases h.shared hs with hall | ⟨hnone, hentries⟩
    · rw [hall, spreadEntries_eq_flatMap]
      exact length_flatMap_le fun entry _ => h.alone entry.stmt
    · rw [List.flatMap_eq_nil_iff.mpr hentries]
      exact Nat.zero_le _
  · obtain ⟨⟨small, semi⟩, hl⟩ := List.length_eq_one_iff.mp (not_not.mp hs)
    rw [spread_singleton hl, h.lone hl, List.flatMap_singleton]

/-- Taking a line apart makes no difference when it is not shared, or does not stay, or holds nothing that
would not stay. -/
theorem ActsOnLines.eq_iff (h : ActsOnLines act) (line : Line) :
    act (.line line) = (Stmt.line line).spread.flatMap act ↔
      (line.Shared → act (.line line) ≠ [] → ∀ entry ∈ line.entries,
        act entry.stmt.alone = [entry.stmt.alone]) := by
  by_cases hs : line.Shared
  · rw [flatMap_spread_line]
    rcases h.shared hs with hall | ⟨hnone, hentries⟩
    · rw [hall, spreadEntries_eq_flatMap, flatMap_eq_flatMap_iff fun entry _ => h.alone entry.stmt]
      refine ⟨fun he _ _ entry hm => (he entry hm).symm, fun he entry hm => (he hs ?_ entry hm).symm⟩
      exact List.ne_nil_of_mem (List.mem_flatMap.mpr ⟨entry, hm, List.mem_singleton_self _⟩)
    · exact iff_of_true (by rw [hnone, List.flatMap_eq_nil_iff.mpr hentries]) fun _ hne => absurd hnone hne
  · obtain ⟨⟨small, semi⟩, hl⟩ := List.length_eq_one_iff.mp (not_not.mp hs)
    refine iff_of_true ?_ fun hshared => absurd hshared hs
    rw [spread_singleton hl, h.lone hl, List.flatMap_singleton]

/-- The same for a whole body, where the other statements have no layout that counts. -/
theorem ActsOnLines.flatMap_eq_iff (h : ActsOnLines act)
    (hother : ∀ s ∈ body, isLine s = false → (s.spread.flatMap act).length ≤ (act s).length) :
    body.flatMap act = (spreadAll body).flatMap act ↔ ∀ s ∈ body, act s = s.spread.flatMap act := by
  rw [spreadAll_eq_flatMap, List.flatMap_assoc]
  refine flatMap_eq_flatMap_iff fun s hs => ?_
  cases s with
  | line line => exact h.length_le line
  | _ => exact hother _ hs rfl

end Acts

/-- A shared line comes first, and a text comes first on it. -/
def SharesText (kept : List Stmt) : Prop :=
  ∃ line first second others rest, kept = .line line :: rest ∧ line.entries = first :: second :: others ∧
    first.stmt.IsText

/-- Each statement of a shared line that stays would stay as it is on a line of its own, and no text is on
a shared line where it would stand in front of the block. -/
structure Separable (receiver : String) (member : Option String) (dropsSuper : Prop)
    (body : List Stmt) : Prop where
  lines : ∀ line, .line line ∈ body → line.Shared →
    (∃ t, Fate receiver member dropsSuper (.line line) (some t)) →
    ∀ entry ∈ line.entries, Fate receiver member dropsSuper entry.stmt.alone (some entry.stmt.alone)
  text : ∀ kept, Keeps receiver member dropsSuper body kept → ¬ SharesText kept

section Constructors

variable {receiver : String} {member : Option String} {dropSuper : Bool} {cmp : Component} {s t : Stmt}
  {line : Line} {small : Small} {semi : Option Around} {body kept start block : List Stmt}

theorem keeps_iff : Keeps receiver cmp.elementMember (dropSuper = true) body kept ↔
    kept = keptStatements cmp receiver dropSuper body := by
  refine ⟨fun h => ?_, fun h => h ▸ keeps_keptStatements cmp receiver dropSuper body⟩
  obtain ⟨fates, hfates, rfl⟩ := h
  rw [keptStatements_eq]
  induction hfates with
  | nil => rfl
  | @cons s fate body fates hs _ ih =>
    obtain rfl := fate_iff.mp hs
    cases hf : fateOf receiver cmp.elementMember dropSuper s with
    | none => rw [List.reduceOption_cons_of_none, ih, List.filterMap_cons_none hf]
    | some t => rw [List.reduceOption_cons_of_some, ih, List.filterMap_cons_some hf]

/-- What the layout leaves of the fate of a statement. -/
def spreadFate (receiver : String) (member : Option String) (dropSuper : Bool) (s : Stmt) : List Stmt :=
  spreadAll (fateOf receiver member dropSuper s).toList

theorem spreadAll_filterMap_fateOf (body : List Stmt) :
    spreadAll (body.filterMap (fateOf receiver member dropSuper)) =
      body.flatMap (spreadFate receiver member dropSuper) := by
  rw [spreadAll_eq_flatMap, List.filterMap_eq_flatMap_toList, List.flatMap_assoc]
  exact List.flatMap_congr fun s _ => (spreadAll_eq_flatMap _).symm

theorem fateOf_of_not_isLine (h : isLine s = false) : fateOf receiver member dropSuper s = some s := by
  cases s with
  | line => cases h
  | _ => cases member <;> simp [fateOf, isPassLine, isSuperLine, trimmed, dropAssignment]

theorem spreadFate_of_not_isLine (h : isLine s = false) :
    spreadFate receiver member dropSuper s = s.spread := by
  rw [spreadFate, fateOf_of_not_isLine h, Option.toList_some, spreadAll_singleton]

/-- Without its layout, a statement that is no line has the same fate. -/
theorem flatMap_spreadFate_of_not_isLine (h : isLine s = false) :
    s.spread.flatMap (spreadFate receiver member dropSuper) =
      spreadFate receiver member dropSuper s := by
  obtain ⟨t, ht, hline⟩ := exists_spread_eq h
  rw [spreadFate_of_not_isLine h, ht, List.flatMap_singleton, spreadFate_of_not_isLine hline]
  exact spread_of_mem_spread (ht ▸ List.mem_singleton_self t)

theorem spreadFate_lone (h : line.entries = [⟨small, semi⟩]) :
    spreadFate receiver member dropSuper (.line line) =
      spreadFate receiver member dropSuper small.alone := by
  obtain ⟨leading, entries, tail⟩ := line
  obtain rfl := h
  have hpass : isPassLine (.line ⟨leading, [⟨small, semi⟩], tail⟩) = isPassLine small.alone := rfl
  have hsuper : isSuperLine (.line ⟨leading, [⟨small, semi⟩], tail⟩) = isSuperLine small.alone := by
    cases small <;> rfl
  have htrimmed : spreadAll (trimmed receiver member (.line ⟨leading, [⟨small, semi⟩], tail⟩)).toList =
      spreadAll (trimmed receiver member small.alone).toList := by
    cases member with
    | none => rfl
    | some name =>
      cases small with
      | annAssign target colon typing value =>
        simp only [trimmed, dropAssignment, Small.alone]
        split <;> rfl
      | assign targets value =>
        simp only [trimmed, dropAssignment, Small.alone]
        split <;> rfl
      | _ => rfl
  unfold spreadFate fateOf
  rw [hpass, hsuper]
  split
  · rfl
  · exact htrimmed

theorem not_lone_of_shared {P : Small → Prop} (h : line.Shared) : ¬ (Stmt.line line).Lone P := by
  rintro ⟨own, small, semi, he, hl, -⟩
  obtain rfl := Stmt.line.inj he
  exact h (by rw [hl]; rfl)

theorem fateOf_shared (h : line.Shared) : fateOf receiver member dropSuper (.line line) =
    if isPassLine (.line line) then none else some (.line line) := by
  have hsuper : isSuperLine (.line line) = false :=
    Bool.eq_false_iff.mpr (mt isSuperLine_iff.mp (not_lone_of_shared h))
  have htrimmed : trimmed receiver member (.line line) = some (.line line) := by
    cases member with
    | none => rfl
    | some name =>
      simp only [trimmed, dropAssignment]
      split
      · rename_i hl
        exact absurd (by rw [hl]; rfl) h
      · rename_i hl
        exact absurd (by rw [hl]; rfl) h
      · rfl
  rw [fateOf, hsuper, htrimmed, Bool.and_false, Bool.or_false]

theorem fateOf_alone (h : fateOf receiver member dropSuper small.alone = some t) : t.spread = [t] := by
  have hfate := fate_iff.mpr h
  cases hs : small.alone with
  | line line =>
    rw [hs] at hfate
    obtain rfl := Stmt.line.inj hs
    cases hfate with
    | chained hm hl =>
      obtain ⟨rfl, rfl⟩ := Entry.mk.inj (List.cons.inj hl).1
      rfl
    | kept => rfl
  | _ => cases hs

theorem spreadFate_alone : spreadFate receiver member dropSuper small.alone =
    (fateOf receiver member dropSuper small.alone).toList := by
  unfold spreadFate
  cases h : fateOf receiver member dropSuper small.alone with
  | none => rfl
  | some t => rw [Option.toList_some, spreadAll_singleton, fateOf_alone h]

theorem actsOnLines_spreadFate : ActsOnLines (spreadFate receiver member dropSuper) where
  lone := spreadFate_lone
  shared := by
    intro line hs
    rw [spreadFate, fateOf_shared hs]
    split
    · rename_i hpass
      obtain ⟨own, he, hall⟩ := isPassLine_iff.mp hpass
      obtain rfl := Stmt.line.inj he
      refine .inr ⟨rfl, fun entry hentry => ?_⟩
      rw [hall entry hentry]
      rfl
    · exact .inl spreadAll_singleton
  alone := by
    intro small
    rw [spreadFate_alone]
    cases fateOf receiver member dropSuper small.alone <;> simp

theorem lines_iff (line : Line) :
    spreadFate receiver member dropSuper (.line line) =
        (Stmt.line line).spread.flatMap (spreadFate receiver member dropSuper) ↔
      (line.Shared → (∃ t, Fate receiver member (dropSuper = true) (.line line) (some t)) →
        ∀ entry ∈ line.entries,
          Fate receiver member (dropSuper = true) entry.stmt.alone (some entry.stmt.alone)) := by
  rw [actsOnLines_spreadFate.eq_iff]
  refine forall_congr' fun hs => imp_congr ?_ (forall₂_congr fun entry _ => ?_)
  · simp only [fate_iff, spreadFate, fateOf_shared hs]
    split
    · simp [spreadAll]
    · rename_i hpass
      refine iff_of_true (fun hnil => hpass ?_) ⟨_, rfl⟩
      rw [Option.toList_some, spreadAll_singleton, Stmt.spread, spreadEntries, List.map_eq_nil_iff] at hnil
      rw [isPassLine, hnil, List.all_nil]
  · rw [spreadFate_alone, fate_iff]
    simp

theorem lone_alone {P : Small → Prop} : small.alone.Lone P ↔ P small := lone_line rfl

theorem spread_of_lone {P : Small → Prop} (h : s.Lone P) : ∃ small, s.spread = [small.alone] ∧ P small := by
  obtain ⟨line, small, semi, rfl, hl, hP⟩ := h
  exact ⟨small, spread_singleton hl, hP⟩

/-- What stays of a constructor holds no empty line. -/
theorem entries_ne_nil_of_fate {dropsSuper : Prop}
    (h : Fate receiver member dropsSuper s (some (.line line))) : line.entries ≠ [] := by
  cases h with
  | chained => exact List.cons_ne_nil _ _
  | kept hp => exact fun hnil => hp ⟨line, rfl, by simp [hnil]⟩

theorem entries_ne_nil_of_mem_kept
    (h : .line line ∈ body.filterMap (fateOf receiver member dropSuper)) : line.entries ≠ [] := by
  obtain ⟨s, -, hs⟩ := List.mem_filterMap.mp h
  exact entries_ne_nil_of_fate (fate_iff.mpr hs)

theorem not_lone_of_not_isLine {P : Small → Prop} (h : isLine s = false) : ¬ s.Lone P := by
  rintro ⟨line, small, semi, rfl, -⟩
  cases h

def StartsWithText (body : List Stmt) : Prop := ∃ s ∈ body.head?, s.Lone Small.IsText

theorem startsWithText_cons {rest : List Stmt} : StartsWithText (s :: rest) ↔ s.Lone Small.IsText := by
  simp [StartsWithText]

theorem sharesText_cons_line {rest : List Stmt} : SharesText (.line line :: rest) ↔
    ∃ first second others, line.entries = first :: second :: others ∧ first.stmt.IsText := by
  constructor
  · rintro ⟨own, first, second, others, back, he, hl, htext⟩
    obtain ⟨⟨rfl⟩, -⟩ := List.cons.inj he
    exact ⟨first, second, others, hl, htext⟩
  · rintro ⟨first, second, others, hl, htext⟩
    exact ⟨line, first, second, others, rest, rfl, hl, htext⟩

theorem isLine_of_sharesText_cons {rest : List Stmt} (h : SharesText (s :: rest)) : isLine s = true := by
  obtain ⟨own, first, second, others, back, he, -⟩ := h
  obtain ⟨rfl, -⟩ := List.cons.inj he
  rfl

/-- Taken apart, a body also starts with the text of a shared line. -/
theorem startsWithText_spreadAll_iff (hne : ∀ line, .line line ∈ kept → line.entries ≠ []) :
    StartsWithText (spreadAll kept) ↔ StartsWithText kept ∨ SharesText kept := by
  cases kept with
  | nil => simp [StartsWithText, SharesText, spreadAll]
  | cons s rest =>
    cases hs : isLine s with
    | true =>
      obtain ⟨line, rfl⟩ := exists_line_of_isLine hs
      obtain ⟨⟨small, semi⟩, others, hl⟩ := List.exists_cons_of_ne_nil (hne line List.mem_cons_self)
      have hspread : spreadAll (.line line :: rest) =
          small.alone :: (spreadEntries others ++ spreadAll rest) := by
        rw [spreadAll, Stmt.spread, hl]
        rfl
      rw [hspread, startsWithText_cons, startsWithText_cons, lone_alone, sharesText_cons_line, hl]
      cases others with
      | nil => simp [lone_line hl]
      | cons second others =>
        rw [or_iff_right (not_lone_of_shared (by simp [Line.Shared, hl]))]
        simp
    | false =>
      obtain ⟨t, ht, hline⟩ := exists_spread_eq hs
      rw [spreadAll, ht, List.singleton_append, startsWithText_cons, startsWithText_cons,
        iff_false_left (not_lone_of_not_isLine hline), not_or]
      refine ⟨not_lone_of_not_isLine hs, fun hshares => ?_⟩
      rw [isLine_of_sharesText_cons hshares] at hs
      cases hs

theorem spliceBootstrap_of_not_startsWithText (h : ¬ StartsWithText kept) :
    spliceBootstrap start kept = start ++ kept := by
  cases kept with
  | nil => exact (List.append_nil start).symm
  | cons first rest =>
    rw [spliceBootstrap, if_neg]
    exact fun htext => h ⟨first, rfl, isDocstring_iff.mp htext⟩

/-- Without its layout, a body has the block where it was put, unless it shares a text. -/
theorem spreadAll_spliceBootstrap (start : List Stmt)
    (hne : ∀ line, .line line ∈ kept → line.entries ≠ [])
    (h : ¬ SharesText kept) : spreadAll (spliceBootstrap start kept) =
      spliceBootstrap (spreadAll start) (spreadAll kept) := by
  by_cases htext : StartsWithText kept
  · obtain ⟨first, hfirst, htext⟩ := htext
    obtain ⟨rest, rfl⟩ := List.head?_eq_some_iff.mp hfirst
    obtain ⟨small, hspread, hsmall⟩ := spread_of_lone htext
    rw [spliceBootstrap, if_pos (isDocstring_iff.mpr htext), List.cons_append, spreadAll, spreadAll,
      spreadAll_append, hspread, List.singleton_append, List.singleton_append, spliceBootstrap,
      if_pos (isDocstring_iff.mpr (lone_alone.mpr hsmall)), List.cons_append]
  · have hspread : ¬ StartsWithText (spreadAll kept) := by
      rw [startsWithText_spreadAll_iff hne]
      exact not_or.mpr ⟨htext, h⟩
    rw [spliceBootstrap_of_not_startsWithText htext, spliceBootstrap_of_not_startsWithText hspread,
      spreadAll_append]

/-- A block that starts with no text does not hide where it was put, nor behind what. -/
theorem Spliced.inj {first : Stmt} {rest kept' new : List Stmt} (hfirst : ¬ first.Lone Small.IsText)
    (h : Spliced (first :: rest) kept new) (h' : Spliced (first :: rest) kept' new) : kept = kept' := by
  generalize hb : first :: rest = block at h h'
  cases h with
  | @behind text others htext =>
    generalize hnew : text :: (block ++ others) = new at h'
    cases h' with
    | behind =>
      obtain ⟨rfl, htail⟩ := List.cons.inj hnew
      rw [List.append_cancel_left htail]
    | front =>
      subst hb
      obtain ⟨rfl, -⟩ := List.cons.inj hnew
      exact absurd htext hfirst
  | front =>
    generalize hnew : block ++ kept = new at h'
    cases h' with
    | behind htext =>
      subst hb
      obtain ⟨rfl, -⟩ := List.cons.inj hnew
      exact absurd htext hfirst
    | front => exact List.append_cancel_left hnew

/-- The block in front of a shared text is not where it is when the text is on a line of its own. -/
theorem spreadAll_spliceBootstrap_ne {first : Stmt} {rest : List Stmt} {others : List Stmt}
    (hstart : spreadAll start = first :: rest) (hfirst : ¬ first.Lone Small.IsText)
    (hne : ∀ line, .line line ∈ kept → line.entries ≠ []) (h : SharesText kept) :
    spreadAll (spliceBootstrap start kept) ≠ spliceBootstrap (spreadAll start) others := by
  have hnot : ¬ StartsWithText kept := by
    obtain ⟨line, one, second, more, behind, rfl, hl, -⟩ := h
    rintro ⟨s, hs, hlone⟩
    obtain rfl := Option.some.inj hs
    exact not_lone_of_shared (by simp [Line.Shared, hl]) hlone
  obtain ⟨text, htext, hlone⟩ := (startsWithText_spreadAll_iff hne).mpr (.inr h)
  rw [spliceBootstrap_of_not_startsWithText hnot, spreadAll_append, hstart]
  intro he
  by_cases hothers : StartsWithText others
  · obtain ⟨s, hs, hslone⟩ := hothers
    obtain ⟨back, rfl⟩ := List.head?_eq_some_iff.mp hs
    rw [spliceBootstrap, if_pos (isDocstring_iff.mpr hslone)] at he
    obtain ⟨rfl, -⟩ := List.cons.inj he
    exact hfirst hslone
  · rw [spliceBootstrap_of_not_startsWithText hothers] at he
    rw [← List.append_cancel_left he] at hothers
    exact hothers ⟨text, htext, hlone⟩

theorem spread_fateOf (hs : s.spread = [s]) (h : fateOf receiver member dropSuper s = some t) :
    t.spread = [t] := by
  cases s with
  | line line =>
    have hlength := congrArg List.length hs
    rw [Stmt.spread, spreadEntries, List.length_map] at hlength
    obtain ⟨⟨small, semi⟩, hl⟩ := List.length_eq_one_iff.mp hlength
    rw [Stmt.spread, hl] at hs
    obtain ⟨hline, -⟩ := List.cons.inj hs
    exact fateOf_alone (hline ▸ h)
  | _ =>
    rw [fateOf_of_not_isLine rfl] at h
    obtain rfl := Option.some.inj h
    exact hs

theorem not_sharesText_of_spread (h : ∀ t ∈ kept, t.spread = [t]) : ¬ SharesText kept := by
  rintro ⟨line, first, second, others, rest, rfl, hl, -⟩
  have hlength := congrArg List.length (h (.line line) List.mem_cons_self)
  rw [Stmt.spread, hl] at hlength
  simp [spreadEntries] at hlength

theorem separable_iff : Separable receiver cmp.elementMember (dropSuper = true) body ↔
    (∀ s ∈ body, spreadFate receiver cmp.elementMember dropSuper s =
      s.spread.flatMap (spreadFate receiver cmp.elementMember dropSuper)) ∧
    ¬ SharesText (keptStatements cmp receiver dropSuper body) := by
  constructor
  · rintro ⟨hlines, htext⟩
    refine ⟨fun s hs => ?_, htext _ (keeps_iff.mpr rfl)⟩
    cases hl : isLine s with
    | true =>
      obtain ⟨line, rfl⟩ := exists_line_of_isLine hl
      exact (lines_iff line).mpr (hlines line hs)
    | false => exact (flatMap_spreadFate_of_not_isLine hl).symm
  · rintro ⟨hlines, htext⟩
    refine ⟨fun line hs => (lines_iff line).mp (hlines _ hs), fun kept hkept => ?_⟩
    rwa [keeps_iff.mp hkept]

/-- Taken apart after or before, a body with the block is the same if it is separable. -/
theorem spreadAll_splice_iff {first : Stmt} {rest : List Stmt} (hstart : spreadAll start = first :: rest)
    (hfirst : ¬ first.Lone Small.IsText) :
    spreadAll (spliceBootstrap start (keptStatements cmp receiver dropSuper body)) =
        spreadAll (spliceBootstrap start (keptStatements cmp receiver dropSuper (spreadAll body))) ↔
      Separable receiver cmp.elementMember (dropSuper = true) body := by
  have hapart : ∀ t ∈ keptStatements cmp receiver dropSuper (spreadAll body), t.spread = [t] := by
    intro t ht
    rw [keptStatements_eq] at ht
    obtain ⟨s, hs, ht⟩ := List.mem_filterMap.mp ht
    exact spread_fateOf (spread_of_mem_spreadAll hs) ht
  have hne (body : List Stmt) :
      ∀ line, .line line ∈ keptStatements cmp receiver dropSuper body → line.entries ≠ [] := by
    rw [keptStatements_eq]
    exact fun line hline => entries_ne_nil_of_mem_kept hline
  have hright := spreadAll_spliceBootstrap start (hne (spreadAll body))
    (not_sharesText_of_spread hapart)
  rw [separable_iff, hright]
  by_cases htext : SharesText (keptStatements cmp receiver dropSuper body)
  · refine iff_of_false ?_ fun h => h.2 htext
    exact spreadAll_spliceBootstrap_ne hstart hfirst (hne body) htext
  · rw [and_iff_left htext, spreadAll_spliceBootstrap start (hne body) htext,
      ← actsOnLines_spreadFate.flatMap_eq_iff, keptStatements_eq, keptStatements_eq,
      spreadAll_filterMap_fateOf, spreadAll_filterMap_fateOf]
    · refine ⟨fun he => ?_, fun he => by rw [he]⟩
      have hleft := spliced_spliceBootstrap (spreadAll start)
        (body.flatMap (spreadFate receiver cmp.elementMember dropSuper))
      rw [he, hstart] at hleft
      exact hleft.inj hfirst (spliced_spliceBootstrap _ _)
    · exact fun s _ hs => (flatMap_spreadFate_of_not_isLine hs).symm ▸ le_refl _

end Constructors

end Hydration.Transform
