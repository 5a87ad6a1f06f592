import Hydration.Proofs.ClassBodies
import Hydration.Proofs.OpeningTexts
import Mathlib.Data.List.ReduceOption

/-! Bodies of constructors. Some lines of the old body are left out or lose targets, and the statements
that register the instance and create the emitters are put in front of the others, behind a text that
documents the constructor. -/

namespace Hydration.Syntax

/-- A line with one small statement, which a semicolon may follow. -/
def Stmt.Lone (P : Small → Prop) (s : Stmt) : Prop :=
  ∃ line small semi, s = .line line ∧ line.entries = [⟨small, semi⟩] ∧ P small

def Stmt.OnlyPasses (s : Stmt) : Prop :=
  ∃ line, s = .line line ∧ ∀ entry ∈ line.entries, entry.stmt = .pass

/-- A string literal, of one piece or of several. -/
def Small.IsText (small : Small) : Prop :=
  ∃ value, small = .expr value ∧
    ((∃ text, value.core = .string text) ∨ ∃ left gap right, value.core = .joined left gap right)

def Expr.IsName (name : String) (e : Expr) : Prop := e.core = .name name

/-- The call of a function with whatever arguments. -/
def Expr.IsCallOf (P : Expr → Prop) (e : Expr) : Prop :=
  ∃ func gap before args after, e.core = .call func gap before args after ∧ P func

/-- The attribute with a name of what has a property. -/
def Expr.IsAttributeOf (P : Expr → Prop) (name : String) (e : Expr) : Prop :=
  ∃ value dot, e.core = .attribute value dot name ∧ P value

/-- The call `super().__init__(..)`. -/
def Small.IsSuperInit (small : Small) : Prop :=
  ∃ value, small = .expr value ∧
    value.IsCallOf (Expr.IsAttributeOf (Expr.IsCallOf (Expr.IsName "super")) "__init__")

/-- The attribute `receiver.member`. -/
def Expr.IsMember (receiver member : String) : Expr → Prop :=
  Expr.IsAttributeOf (Expr.IsName receiver) member

/-- Some entry of a line with one small statement has a property when that statement has it. -/
theorem exists_entry_iff {line : Line} {small : Small} {semi : Option Around} {P : Small → Prop}
    (h : line.entries = [⟨small, semi⟩]) : (∃ entry ∈ line.entries, P entry.stmt) ↔ P small := by
  rw [h, List.exists_mem_cons_iff]
  simp

end Hydration.Syntax

namespace Hydration.Transform

open Syntax

section Lines

variable {s : Stmt} {e : Expr} {P : Expr → Prop} {test : Expr → Bool} {receiver member : String}

theorem isName_iff {name : String} : isName name e = true ↔ e.IsName name := by
  unfold isName Expr.IsName
  split <;> simp_all

theorem isMemberOf_iff : isMemberOf receiver member e = true ↔ e.IsMember receiver member := by
  unfold isMemberOf Expr.IsMember Expr.IsAttributeOf
  split
  · rename_i value dot attr he
    simp [he, isName_iff, and_comm]
  · rename_i hne
    simp only [Bool.false_eq_true, false_iff]
    rintro ⟨value, dot, he, -⟩
    exact hne value dot member he

instance : DecidablePred (Expr.IsMember receiver member) :=
  fun _ => decidable_of_iff _ isMemberOf_iff

theorem isPassLine_iff : isPassLine s = true ↔ s.OnlyPasses := by
  have hpass (small : Small) : isPass small = true ↔ small = .pass := by
    cases small <;> simp [isPass]
  cases s <;> simp [isPassLine, Stmt.OnlyPasses, hpass]

theorem isSuper_iff : isSuper e = true ↔ e.IsName "super" := by
  unfold isSuper Expr.IsName
  split <;> simp_all

theorem isSuperCall_iff : isSuperCall e = true ↔ e.IsCallOf (Expr.IsName "super") := by
  unfold isSuperCall Expr.IsCallOf
  split
  · rename_i func gap before args after he
    simp [he, isSuper_iff]
  · rename_i hne
    simp only [Bool.false_eq_true, false_iff]
    rintro ⟨func, gap, before, args, after, he, -⟩
    exact hne _ _ _ _ _ he

theorem isSuperConstructor_iff : isSuperConstructor e = true ↔
    e.IsAttributeOf (Expr.IsCallOf (Expr.IsName "super")) "__init__" := by
  unfold isSuperConstructor Expr.IsAttributeOf
  split
  · rename_i value dot attr he
    simp [he, isSuperCall_iff, and_comm]
  · rename_i hne
    simp only [Bool.false_eq_true, false_iff]
    rintro ⟨value, dot, he, -⟩
    exact hne _ _ _ he

theorem lone_line {line : Line} {small : Small} {semi : Option Around} {P : Small → Prop}
    (h : line.entries = [⟨small, semi⟩]) : (Stmt.line line).Lone P ↔ P small := by
  constructor
  · rintro ⟨line', small', semi', he, hentries, hP⟩
    obtain rfl := Stmt.line.inj he
    rw [h, List.cons.injEq, Entry.mk.injEq] at hentries
    exact hentries.1.1 ▸ hP
  · exact fun hP => ⟨line, small, semi, rfl, h, hP⟩

theorem not_lone_expr (h : ∀ leading value semi tail,
    s ≠ .line { leading := leading, entries := [⟨.expr value, semi⟩], tail := tail }) :
    ¬ s.Lone fun small => ∃ value, small = .expr value ∧ P value := by
  rintro ⟨⟨leading, entries, tail⟩, small, semi, rfl, he, value, rfl, -⟩
  obtain rfl := he
  exact h _ _ _ _ rfl

theorem isSuperLine_iff : isSuperLine s = true ↔ s.Lone Small.IsSuperInit := by
  unfold isSuperLine
  split
  · rename_i value semi leading tail
    rw [lone_line rfl, Small.IsSuperInit]
    simp only [Small.expr.injEq, exists_eq_left']
    rw [Expr.IsCallOf]
    split
    · rename_i func gap before args after he
      simp [he, isSuperConstructor_iff]
    · rename_i hne
      simp only [Bool.false_eq_true, false_iff]
      rintro ⟨func, gap, before, args, after, he, -⟩
      exact hne _ _ _ _ _ he
  · rename_i hne
    exact iff_of_false Bool.false_ne_true (not_lone_expr hne)

theorem isDocstring_iff : Imports.isDocstring s = true ↔ s.Lone Small.IsText := by
  unfold Imports.isDocstring
  split
  · rename_i value semi leading tail
    rw [lone_line rfl, Small.IsText]
    simp only [Small.expr.injEq, exists_eq_left']
    split <;> simp_all
  · rename_i hne
    exact iff_of_false Bool.false_ne_true (not_lone_expr hne)

end Lines

/-- What becomes of a statement of a constructor: it is left out, it loses targets, or it stays. -/
inductive Fate (receiver : String) (member : Option String) (dropsSuper : Prop) :
    Stmt → Option Stmt → Prop where
  | pass {s : Stmt} (h : s.OnlyPasses) : Fate receiver member dropsSuper s none
  | super {s : Stmt} (hd : dropsSuper) (h : s.Lone Small.IsSuperInit) :
      Fate receiver member dropsSuper s none
  | annotated {line : Line} {target typing : Expr} {colon : Around}
      {value : Option (Around × Expr)} {semi : Option Around} {name : String} (hm : name ∈ member)
      (hl : line.entries = [⟨.annAssign target colon typing value, semi⟩])
      (ht : target.IsMember receiver name) : Fate receiver member dropsSuper (.line line) none
  | assigned {line : Line} {targets : List AssignTarget} {value : Expr} {semi : Option Around}
      {name : String} (hm : name ∈ member) (hl : line.entries = [⟨.assign targets value, semi⟩])
      (ht : ∀ t ∈ targets, t.target.IsMember receiver name) :
      Fate receiver member dropsSuper (.line line) none
  | chained {line : Line} {targets : List AssignTarget} {value : Expr} {semi : Option Around}
      {name : String} (hm : name ∈ member) (hl : line.entries = [⟨.assign targets value, semi⟩])
      (ht : ∃ t ∈ targets, t.target.IsMember receiver name)
      (hn : ∃ t ∈ targets, ¬ t.target.IsMember receiver name) :
      Fate receiver member dropsSuper (.line line) (some (.line { line with
        entries := [⟨.assign (targets.filter fun t => ¬ t.target.IsMember receiver name) value,
          semi⟩] }))
  | kept {s : Stmt} (hp : ¬ s.OnlyPasses) (hs : dropsSuper → ¬ s.Lone Small.IsSuperInit)
      (ha : ∀ name ∈ member, ¬ s.Lone fun small =>
        (∃ target colon typing value, small = .annAssign target colon typing value ∧
          target.IsMember receiver name) ∨
        (∃ targets value, small = .assign targets value ∧
          (targets = [] ∨ ∃ t ∈ targets, t.target.IsMember receiver name))) :
      Fate receiver member dropsSuper s (some s)

/-- What is left out does not stay. -/
theorem Fate.not_kept {receiver : String} {member : Option String} {dropsSuper : Prop} {s t : Stmt}
    (h : Fate receiver member dropsSuper s none) : ¬ Fate receiver member dropsSuper s (some t) := by
  intro hk
  cases hk with
  | @chained line targets value semi name hm hl ht hn =>
    cases h with
    | pass h =>
      obtain ⟨line', he, hall⟩ := h
      obtain rfl := Stmt.line.inj he
      have hpass : Small.assign targets value = .pass := hall ⟨_, semi⟩ (by simp [hl])
      cases hpass
    | super _ h =>
      obtain ⟨value', he, -⟩ := (lone_line hl).mp h
      cases he
    | annotated _ hl' => simp [hl] at hl'
    | assigned hm' hl' hall =>
      obtain rfl := Option.some.inj (hm'.symm.trans hm)
      rw [hl, List.cons.injEq, Entry.mk.injEq, Small.assign.injEq] at hl'
      obtain ⟨t, hmem, hn⟩ := hn
      exact hn (hall t (hl'.1.1.1 ▸ hmem))
  | kept hp hs ha =>
    cases h with
    | pass h => exact hp h
    | super hd h => exact hs hd h
    | annotated hm hl ht => exact ha _ hm ((lone_line hl).mpr (.inl ⟨_, _, _, _, rfl, ht⟩))
    | @assigned line targets value semi name hm hl hall =>
      refine ha _ hm ((lone_line hl).mpr (.inr ⟨_, _, rfl, ?_⟩))
      cases targets with
      | nil => exact .inl rfl
      | cons t targets => exact .inr ⟨t, List.mem_cons_self, hall t List.mem_cons_self⟩

theorem Fate.unique {receiver : String} {member : Option String} {dropsSuper : Prop} {s : Stmt}
    {o o' : Option Stmt} (h : Fate receiver member dropsSuper s o)
    (h' : Fate receiver member dropsSuper s o') : o = o' := by
  match o, o' with
  | none, none => rfl
  | none, some t => exact absurd h' h.not_kept
  | some t, none => exact absurd h h'.not_kept
  | some t, some t' =>
    cases h with
    | chained hm hl ht hn =>
      cases h' with
      | chained hm' hl' ht' hn' =>
        obtain rfl := Option.some.inj (hm.symm.trans hm')
        rw [hl, List.cons.injEq, Entry.mk.injEq, Small.assign.injEq] at hl'
        obtain ⟨⟨⟨rfl, rfl⟩, rfl⟩, -⟩ := hl'
        rfl
      | kept hp hs ha => exact absurd ((lone_line hl).mpr (.inr ⟨_, _, rfl, .inr ht⟩)) (ha _ hm)
    | kept hp hs ha =>
      cases h' with
      | chained hm hl ht hn => exact absurd ((lone_line hl).mpr (.inr ⟨_, _, rfl, .inr ht⟩)) (ha _ hm)
      | kept => rfl

/-- The statements of a constructor that stay, in order. -/
def Keeps (receiver : String) (member : Option String) (dropsSuper : Prop) (old kept : List Stmt) :
    Prop :=
  ∃ fates, List.Forall₂ (Fate receiver member dropsSuper) old fates ∧ kept = fates.reduceOption

/-- What holds of a statement that stays when `Q` held of it before, and `Q` of none that is left out,
is found among the kept statements when `Q` is among the old ones. -/
theorem Keeps.exists_mem_iff {receiver : String} {member : Option String} {dropsSuper : Prop}
    {old kept : List Stmt} {P Q : Stmt → Prop} (h : Keeps receiver member dropsSuper old kept)
    (hout : ∀ s, Fate receiver member dropsSuper s none → ¬ Q s)
    (hkept : ∀ s t, Fate receiver member dropsSuper s (some t) → (P t ↔ Q s)) :
    (∃ t ∈ kept, P t) ↔ ∃ s ∈ old, Q s := by
  obtain ⟨fates, hfates, rfl⟩ := h
  -- Along the statements and their fates, as those that are left out have no place among the kept.
  induction hfates with
  | nil => simp [List.reduceOption_nil]
  | @cons s fate old fates hs _ ih =>
    rw [List.exists_mem_cons_iff, ← ih]
    cases fate with
    | none =>
      rw [List.reduceOption_cons_of_none]
      exact (or_iff_right (hout s hs)).symm
    | some t => rw [List.reduceOption_cons_of_some, List.exists_mem_cons_iff, hkept s t hs]

section Fates

variable {receiver : String} {member : Option String} {dropSuper : Bool} {s : Stmt}

/-- An assignment that has no target to lose stays. -/
theorem filter_eq_self_of_not_isMember {targets : List AssignTarget} {name : String}
    (h : ¬ ∃ t ∈ targets, t.target.IsMember receiver name) :
    (targets.filter fun t => !isMemberOf receiver name t.target) = targets := by
  refine List.filter_eq_self.mpr fun t ht => ?_
  have hn : ¬ t.target.IsMember receiver name := fun hm => h ⟨t, ht, hm⟩
  simpa [isMemberOf_iff, ← Bool.not_eq_true] using hn

theorem filter_isMember (receiver name : String) (targets : List AssignTarget) :
    (targets.filter fun t => !isMemberOf receiver name t.target) =
      targets.filter fun t => ¬ t.target.IsMember receiver name := by
  refine List.filter_congr fun t _ => ?_
  rw [Bool.eq_iff_iff]
  simp [← isMemberOf_iff]

/-- A line with one small statement stays when that neither annotates nor assigns to the element. -/
theorem fate_kept_of_not_lone {name : String} (hp : ¬ s.OnlyPasses)
    (hs : dropSuper = true → ¬ s.Lone Small.IsSuperInit)
    (ha : ¬ s.Lone fun small =>
      (∃ target colon typing value, small = .annAssign target colon typing value ∧
        target.IsMember receiver name) ∨
      (∃ targets value, small = .assign targets value ∧
        (targets = [] ∨ ∃ t ∈ targets, t.target.IsMember receiver name))) :
    Fate receiver (some name) (dropSuper = true) s (some s) := by
  refine .kept hp hs fun other ho => ?_
  obtain rfl := Option.some.inj ho
  exact ha

section Assignments

variable {name : String} {line : Line} {semi : Option Around}

theorem fate_annotation {target typing : Expr} {colon : Around} {value : Option (Around × Expr)}
    (hp : ¬ (Stmt.line line).OnlyPasses)
    (hs : dropSuper = true → ¬ (Stmt.line line).Lone Small.IsSuperInit)
    (hl : line.entries = [⟨.annAssign target colon typing value, semi⟩]) :
    Fate receiver (some name) (dropSuper = true) (.line line)
      (if isMemberOf receiver name target then none else some (.line line)) := by
  split
  · rename_i ht
    exact .annotated rfl hl (isMemberOf_iff.mp ht)
  · rename_i ht
    refine fate_kept_of_not_lone hp hs fun hlone => ht (isMemberOf_iff.mpr ?_)
    rcases (lone_line hl).mp hlone with ⟨_, _, _, _, he, h⟩ | ⟨_, _, he, -⟩
    · obtain ⟨rfl, -⟩ := Small.annAssign.inj he
      exact h
    · cases he

/-- An assignment that has the element among its targets loses it, or is left out with its last one. -/
theorem fate_assignment {targets : List AssignTarget} {value : Expr}
    (hl : line.entries = [⟨.assign targets value, semi⟩])
    (hmember : ∃ t ∈ targets, t.target.IsMember receiver name) :
    Fate receiver (some name) (dropSuper = true) (.line line)
      (match targets.filter fun t => ¬ t.target.IsMember receiver name with
      | [] => none
      | kept => some (.line { line with entries := [⟨.assign kept value, semi⟩] })) := by
  split
  · rename_i hnone
    refine .assigned rfl hl fun t ht => ?_
    simpa using List.filter_eq_nil_iff.mp hnone t ht
  · rename_i kept hsome
    refine .chained rfl hl hmember ?_
    obtain ⟨t, ht⟩ := List.exists_mem_of_ne_nil _ hsome
    obtain ⟨ht, hn⟩ := List.mem_filter.mp ht
    exact ⟨t, ht, by simpa using hn⟩

/-- Any other assignment is written as it was. -/
theorem fate_assignment_of_not_isMember {t : AssignTarget} {targets : List AssignTarget}
    {value : Expr} (hp : ¬ (Stmt.line line).OnlyPasses)
    (hs : dropSuper = true → ¬ (Stmt.line line).Lone Small.IsSuperInit)
    (hl : line.entries = [⟨.assign (t :: targets) value, semi⟩])
    (hmember : ¬ ∃ other ∈ t :: targets, other.target.IsMember receiver name) :
    Fate receiver (some name) (dropSuper = true) (.line line)
      (some (.line { line with entries := [⟨.assign (t :: targets) value, semi⟩] })) := by
  have hline : Stmt.line { line with entries := [⟨.assign (t :: targets) value, semi⟩] } =
      .line line := by
    rw [← hl]
  rw [hline]
  refine fate_kept_of_not_lone hp hs fun hlone => hmember ?_
  rcases (lone_line hl).mp hlone with ⟨_, _, _, _, he, -⟩ | ⟨_, _, he, h⟩
  · cases he
  · obtain ⟨rfl, -⟩ := Small.assign.inj he
    exact h.resolve_left (List.cons_ne_nil _ _)

end Assignments

theorem fate_dropAssignment {name : String} (hp : ¬ s.OnlyPasses)
    (hs : dropSuper = true → ¬ s.Lone Small.IsSuperInit) :
    Fate receiver (some name) (dropSuper = true) s (dropAssignment receiver name s) := by
  unfold dropAssignment
  split
  · split
    · rename_i target colon typing value semi hl
      exact fate_annotation hp hs hl
    · rename_i targets value semi hl
      by_cases hmember : ∃ t ∈ targets, t.target.IsMember receiver name
      · rw [filter_isMember]
        exact fate_assignment hl hmember
      · rw [filter_eq_self_of_not_isMember hmember]
        cases targets with
        | nil => exact .assigned rfl hl (List.forall_mem_nil _)
        | cons t targets => exact fate_assignment_of_not_isMember hp hs hl hmember
    · rename_i hann hass
      refine fate_kept_of_not_lone hp hs ?_
      rintro ⟨line', small, semi, he, hl, h⟩
      obtain rfl := Stmt.line.inj he
      rcases h with ⟨target, colon, typing, value, rfl, -⟩ | ⟨targets, value, rfl, -⟩
      · exact hann _ _ _ _ _ hl
      · exact hass _ _ _ hl
  · rename_i hne
    refine fate_kept_of_not_lone hp hs ?_
    rintro ⟨line, small, semi, rfl, -⟩
    exact hne line rfl

/-- What the element leaves of a statement. -/
def trimmed (receiver : String) (member : Option String) (s : Stmt) : Option Stmt :=
  match member with
  | some name => dropAssignment receiver name s
  | none => some s

def fateOf (receiver : String) (member : Option String) (dropSuper : Bool) (s : Stmt) : Option Stmt :=
  if isPassLine s || (dropSuper && isSuperLine s) then none else trimmed receiver member s

theorem fate_fateOf (receiver : String) (member : Option String) (dropSuper : Bool) (s : Stmt) :
    Fate receiver member (dropSuper = true) s (fateOf receiver member dropSuper s) := by
  by_cases hp : s.OnlyPasses
  · rw [fateOf, isPassLine_iff.mpr hp, Bool.true_or, if_pos rfl]
    exact .pass hp
  have hpass : isPassLine s = false := Bool.eq_false_iff.mpr (mt isPassLine_iff.mp hp)
  rw [fateOf, hpass, Bool.false_or]
  by_cases hs : dropSuper = true ∧ s.Lone Small.IsSuperInit
  · rw [if_pos (by rw [hs.1, isSuperLine_iff.mpr hs.2, Bool.and_self])]
    exact .super hs.1 hs.2
  · rw [if_neg (by rwa [Bool.and_eq_true, isSuperLine_iff])]
    cases member with
    | none => exact .kept hp (fun hd hl => hs ⟨hd, hl⟩) fun _ ho => nomatch ho
    | some name => exact fate_dropAssignment hp fun hd hl => hs ⟨hd, hl⟩

theorem fate_iff {o : Option Stmt} : Fate receiver member (dropSuper = true) s o ↔
    fateOf receiver member dropSuper s = o :=
  ⟨fun h => (fate_fateOf receiver member dropSuper s).unique h, fun h => h ▸ fate_fateOf _ _ _ s⟩

/-- The passes over a body are one, statement by statement. -/
theorem keptStatements_eq (cmp : Component) (receiver : String) (dropSuper : Bool)
    (body : List Stmt) : keptStatements cmp receiver dropSuper body =
      body.filterMap (fateOf receiver cmp.elementMember dropSuper) := by
  have htrim : keptStatements cmp receiver dropSuper body =
      ((body.filter fun s => !isPassLine s).filter fun s => !(dropSuper && isSuperLine s)).filterMap
        (trimmed receiver cmp.elementMember) := by
    unfold keptStatements trimmed
    cases cmp.elementMember with
    | none => exact List.filterMap_some.symm
    | some name => rfl
  rw [htrim, List.filterMap_filter, List.filterMap_filter]
  refine List.filterMap_congr fun s _ => ?_
  cases hp : isPassLine s <;> cases hs : dropSuper && isSuperLine s <;> simp [fateOf, hp, hs]

theorem keeps_keptStatements (cmp : Component) (receiver : String) (dropSuper : Bool)
    (body : List Stmt) :
    Keeps receiver cmp.elementMember (dropSuper = true) body
      (keptStatements cmp receiver dropSuper body) := by
  refine ⟨body.map (fateOf receiver cmp.elementMember dropSuper), ?_, ?_⟩
  · exact List.forall₂_map_right_iff.mpr (List.forall₂_same.mpr fun s _ => fate_fateOf _ _ _ s)
  · change _ = (body.map (fateOf receiver cmp.elementMember dropSuper)).filterMap id
    rw [keptStatements_eq, List.filterMap_map, Function.id_comp]

end Fates

/-- The statement that registers the instance and one for each event. They are read as they are
written, and as one call each where names stand for names. -/
structure Bootstraps (plan : Plan) (receiver : String) (first : Stmt) (rest : List Stmt) : Prop where
  registered : Stmt.parse (s!"{plan.helpers.register}({receiver}, {hostName})" ++ plan.style.newline) =
    .ok first
  created : List.Forall₂ (fun e s =>
    Stmt.parse (eventLine plan.helpers receiver e ++ plan.style.newline) = .ok s)
    plan.component.events rest
  registers : IsPlainName receiver → IsPlainDotted plan.helpers.register →
    first.IsLineOf (Small.IsCall (splitDots plan.helpers.register) [.name receiver, .name hostName])
  creates : IsPlainName receiver → IsPlainDotted plan.helpers.createEvent →
    List.Forall₂ (fun e s => IsPlainName e.emitter → s.IsLineOf (Small.AssignsCall receiver e.emitter
      (splitDots plan.helpers.createEvent)
      [.name receiver, .string (Text.quoted e.name), .number (toString e.flags)]))
      plan.component.events rest

theorem bootstraps_of_bootstrap {plan : Plan} {receiver : String} {start : List Stmt}
    (hn : plan.style.newline ∈ ["\n", "\r\n", "\r"]) (h : bootstrap plan receiver = .ok start) :
    ∃ first rest, start = first :: rest ∧ Bootstraps plan receiver first rest := by
  obtain ⟨first, rest, hfirst, hrest, rfl⟩ := List.forall₂_cons_left_iff.mp (mapM_eq_ok.mp h)
  have hevents := List.forall₂_map_left_iff.mp hrest
  refine ⟨first, rest, rfl, hfirst, hevents, ?_, ?_⟩
  · exact fun hr hf => isCall_registerLine hr hf hn hfirst
  · exact fun hr hf => hevents.imp fun e s hs he => assignsCall_eventLine hr he hf hn hs

/-- The block stands behind a text at the start of the kept statements, and in front of the others. -/
inductive Spliced (block : List Stmt) : List Stmt → List Stmt → Prop where
  | behind {first : Stmt} {rest : List Stmt} (h : first.Lone Small.IsText) :
      Spliced block (first :: rest) (first :: (block ++ rest))
  | front {kept : List Stmt} (h : ∀ first ∈ kept.head?, ¬ first.Lone Small.IsText) :
      Spliced block kept (block ++ kept)

theorem spliced_spliceBootstrap (start body : List Stmt) :
    Spliced start body (spliceBootstrap start body) := by
  unfold spliceBootstrap
  split
  · rename_i first rest
    split
    · rename_i h
      exact .behind (isDocstring_iff.mp h)
    · rename_i h
      refine .front fun s hs => ?_
      obtain rfl := Option.some.inj hs
      exact mt isDocstring_iff.mpr h
  · have hh : Spliced start [] (start ++ []) := .front fun _ hs => nomatch hs
    rwa [List.append_nil] at hh

theorem Spliced.ne_nil {block kept new : List Stmt} (h : Spliced block kept new) (hb : block ≠ []) :
    new ≠ [] := by
  cases h with
  | behind => exact List.cons_ne_nil _ _
  | front => exact List.append_ne_nil_of_left_ne_nil hb _

/-- The new constructor takes the host, opens with the block, and goes on with what stays of the old
one. -/
def OpensWithBlock (plan : Plan) (dropsSuper : Prop) (old new : Stmt) : Prop :=
  ∃ head body inner first rest kept, old = .func head body ∧
    new = .func { head with params := insertHost head.params } inner ∧
    Keeps (receiverOf head.params) plan.component.elementMember dropsSuper (blockStatements body) kept ∧
    Bootstraps plan (receiverOf head.params) first rest ∧
    Spliced (first :: rest) kept (blockStatements inner) ∧ blockStatements inner ≠ []

section Class

variable {plan : Plan} {dropSuper : Bool}

theorem opensWithBlock_of_prepares (hn : plan.style.newline ∈ ["\n", "\r\n", "\r"]) {s t : Stmt}
    (h : Prepares plan dropSuper s t) : OpensWithBlock plan (dropSuper = true) s t := by
  obtain ⟨head, body, rfl, h⟩ := h
  obtain ⟨start, hs, -, rfl⟩ := prepareConstructor_eq_ok.mp h
  obtain ⟨first, rest, rfl, hblock⟩ := bootstraps_of_bootstrap hn hs
  have hspliced := spliced_spliceBootstrap (first :: rest)
    (keptStatements plan.component (receiverOf head.params) dropSuper (blockStatements body))
  refine ⟨head, body, _, first, rest, _, rfl, rfl, keeps_keptStatements _ _ _ _, hblock, ?_, ?_⟩
  · rw [blockStatements_withStatements]
    exact hspliced
  · rw [blockStatements_withStatements]
    exact hspliced.ne_nil (List.cons_ne_nil _ _)

theorem losesBases_iff {head : ClassHead} :
    losesBases plan head = true ↔ head.bases ≠ [] ∧ (dropBases plan.clientBases head).bases = [] := by
  simp [losesBases]

/-- The constructors of a class come first among those of the hydrated class, in order, and each opens
with the block. -/
theorem constructors_open_with_block {head : ClassHead} {body : Suite} {t : Stmt}
    (hn : plan.style.newline ∈ ["\n", "\r\n", "\r"]) (h : hydrateClass plan head body = .ok t) :
    ∃ newHead newBody prepared generated, t = .class_ newHead newBody ∧
      (blockStatements newBody).filter isConstructor = prepared ++ generated ∧
      List.Forall₂ (OpensWithBlock plan (head.bases ≠ [] ∧ newHead.bases = []))
        ((blockStatements body).filter isConstructor) prepared := by
  obtain ⟨newHead, newBody, prepared, generated, rfl, hbases, hg, hall⟩ :=
    constructors_hydrateClass h
  refine ⟨newHead, newBody, prepared, generated, rfl, hg, ?_⟩
  rw [hbases, ← propext losesBases_iff]
  exact hall.imp fun _ _ => opensWithBlock_of_prepares hn

end Class

theorem constructors_open_with_block_of_card :
    cardPlan.style.newline ∈ ["\n", "\r\n", "\r"] ∧ ∃ newHead newBody old new generated,
      hydrateClass cardPlan cardHead cardBody = .ok (.class_ newHead newBody) ∧
      (blockStatements newBody).filter isConstructor = new :: generated ∧
      (blockStatements cardBody).filter isConstructor = [old] ∧
      OpensWithBlock cardPlan (cardHead.bases ≠ [] ∧ newHead.bases = []) old new := by
  have hn : cardPlan.style.newline ∈ ["\n", "\r\n", "\r"] := by decide
  obtain ⟨t, ht⟩ := exists_hydrated_card
  obtain ⟨newHead, newBody, prepared, generated, rfl, hg, hall⟩ := constructors_open_with_block hn ht
  obtain ⟨new, rest, hopens, hrest, rfl⟩ := List.forall₂_cons_left_iff.mp hall
  exact ⟨hn, newHead, newBody, _, new, rest ++ generated, ht, hg, rfl, hopens⟩

/-- An event that is given to `opened #`. -/
def commentedPlan : Plan where
  component := { tag := "p-a", className := "A", sourcePath := "a.py"
                 events := [{ name := "e", methodName := some "opened #" }] }

/-- The class with the constructor `def __init__(self): pass`. -/
def plainBody : Suite :=
  .block {} none [.func { name := "__init__", params := { params := [{ name := "self" }] } }
    (.block {} none [.line { entries := [⟨.pass, none⟩] }] [])] []

def isAssignment : Stmt → Bool
  | .line line => line.entries.any fun entry =>
    match entry.stmt with
    | .assign .. => true
    | _ => false
  | _ => false

/-- The statement for such an event is read without what stands behind the comment, so it assigns
nothing. -/
theorem commented_event_not_assigned :
    commentedPlan.component.events.length = 1 ∧
    ((hydrateClass commentedPlan { name := "A" } plainBody).toOption.map fun t =>
      (t.children.filter isConstructor).map fun constructor =>
        (constructor.children.length, constructor.children.countP isAssignment)) = some [(2, 0)] := by
  decide +kernel

end Hydration.Transform
