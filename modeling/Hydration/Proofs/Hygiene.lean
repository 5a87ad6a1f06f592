import Hydration.Proofs.Scopes

/-! Capture of names by prepared constructors. The statements that a constructor opens with bind no
name, so what their helpers stand for depends on the names of the old constructor only. -/

namespace Hydration.Syntax

variable {x : String} {e func : Expr} {s t : Stmt}

/-- An expression that assigns nothing itself binds what its parts bind. -/
theorem Expr.not_binds_of_parts (hc : e.comprehension? = none)
    (ha : ∀ around value, e ≠ .assigned x around value) (hp : ∀ part ∈ e.ownParts, ¬ part.Binds x) :
    ¬ e.Binds x := by
  intro h
  cases h with
  | here => exact ha _ _ rfl
  | own hpart h => exact hp _ hpart h
  | through hsome => simp [hc] at hsome

theorem Expr.not_binds_name {name : String} : ¬ (Expr.name name).Binds x :=
  not_binds_of_parts rfl (fun _ _ => nofun) (List.forall_mem_nil _)

theorem Expr.not_binds_string {text : String} : ¬ (Expr.string text).Binds x :=
  not_binds_of_parts rfl (fun _ _ => nofun) (List.forall_mem_nil _)

theorem Expr.not_binds_number {text : String} : ¬ (Expr.number text).Binds x :=
  not_binds_of_parts rfl (fun _ _ => nofun) (List.forall_mem_nil _)

theorem Expr.not_binds_attribute {dot : Around} {attr : String} (h : ¬ e.Binds x) :
    ¬ (Expr.attribute e dot attr).Binds x :=
  not_binds_of_parts rfl (fun _ _ => nofun) (List.forall_mem_singleton.mpr h)

theorem Expr.not_binds_paren {before after : Gap} (h : ¬ e.Binds x) :
    ¬ (Expr.paren before e after).Binds x :=
  not_binds_of_parts rfl (fun _ _ => nofun) (List.forall_mem_singleton.mpr h)

/-- A dotted name binds nothing. -/
theorem Expr.not_binds_of_segments (h : e.segments ≠ []) : ¬ e.Binds x := by
  induction e using Expr.segments.induct with
  | case1 name => exact not_binds_name
  | case2 value dot attr hv => simp [Expr.segments, hv] at h
  | case3 value dot attr first rest hv ih => exact not_binds_attribute (ih (by simp [hv]))
  | case4 before inner after ih =>
    rw [Expr.segments] at h
    exact not_binds_paren (ih h)
  | case5 e hname hattr hparen =>
    refine absurd ?_ h
    cases e <;> first | rfl | simp_all

theorem Expr.not_binds_of_calls {args : List Expr} (hf : ¬ func.Binds x)
    (ha : ∀ arg ∈ args, ¬ arg.Binds x) (h : e.Calls func args) : ¬ e.Binds x := by
  obtain ⟨gap, before, members, after, rfl, hm⟩ := h
  refine not_binds_of_parts rfl (fun _ _ => nofun) (List.forall_mem_cons.mpr ⟨hf, fun part hp => ?_⟩)
  obtain ⟨member, hmember, hp⟩ := List.mem_flatMap.mp hp
  have hpos : member.positional? ∈ args.map some := hm ▸ List.mem_map_of_mem hmember
  obtain ⟨arg, harg, he⟩ := List.mem_map.mp hpos
  cases member with
  | item value comma =>
    obtain rfl := Option.some.inj he
    obtain rfl := List.mem_singleton.mp hp
    exact ha _ harg
  | _ => cases he

section Lines

variable {line : Line} {small : Small} {semi : Option Around}

theorem binds_line_iff (hl : line.entries = [⟨small, semi⟩]) :
    (Stmt.line line).Binds x ↔ small.Binds x :=
  calc (Stmt.line line).Binds x
    _ ↔ ∃ entry ∈ line.entries, entry.stmt.Binds x :=
      ⟨fun | .line he h => ⟨_, he, h⟩, fun ⟨_, he, h⟩ => .line he h⟩
    _ ↔ small.Binds x := exists_entry_iff hl

theorem within_line_iff {P : Small → Prop} (hl : line.entries = [⟨small, semi⟩]) :
    (Stmt.line line).Within P ↔ P small :=
  calc (Stmt.line line).Within P
    _ ↔ ∃ entry ∈ line.entries, P entry.stmt :=
      ⟨fun | .line he h => ⟨_, he, h⟩, fun ⟨_, he, h⟩ => .line he h⟩
    _ ↔ P small := exists_entry_iff hl

theorem reads_line_iff {nested : Bool} (hl : line.entries = [⟨small, semi⟩]) :
    (Stmt.line line).Reads x nested ↔ small.Reads x nested :=
  calc (Stmt.line line).Reads x nested
    _ ↔ ∃ entry ∈ line.entries, entry.stmt.Reads x nested :=
      ⟨fun | .line he h => ⟨_, he, h⟩, fun ⟨_, he, h⟩ => .line he h⟩
    _ ↔ small.Reads x nested := exists_entry_iff hl

end Lines

/-- A statement neither binds a name nor declares that it belongs elsewhere. -/
def Stmt.Ignores (x : String) (s : Stmt) : Prop :=
  ¬ s.Binds x ∧ ¬ s.Within fun small => x ∈ small.globals ++ small.nonlocals

theorem ignores_of_isCall {path : List String} {args : List Expr} (hpath : path ≠ [])
    (ha : ∀ arg ∈ args, ¬ arg.Binds x) (h : s.IsLineOf (Small.IsCall path args)) : s.Ignores x := by
  obtain ⟨leading, small, tail, rfl, call, func, rfl, rfl, hcall⟩ := h
  have hn := Expr.not_binds_of_calls (Expr.not_binds_of_segments hpath) ha hcall
  rw [Stmt.Ignores, binds_line_iff rfl, within_line_iff rfl]
  refine ⟨?_, by simp [Small.globals, Small.nonlocals]⟩
  simpa [Small.Binds, Small.names, Small.targets, Small.exprs, Small.values] using hn

theorem ignores_of_assignsCall {receiver attr : String} {path : List String} {args : List Expr}
    (hpath : path ≠ []) (ha : ∀ arg ∈ args, ¬ arg.Binds x)
    (h : s.IsLineOf (Small.AssignsCall receiver attr path args)) : s.Ignores x := by
  obtain ⟨leading, small, tail, rfl, target, equal, call, func, rfl, ⟨dot, rfl⟩, rfl, hcall⟩ := h
  have hn := Expr.not_binds_of_calls (Expr.not_binds_of_segments hpath) ha hcall
  rw [Stmt.Ignores, binds_line_iff rfl, within_line_iff rfl]
  refine ⟨?_, by simp [Small.globals, Small.nonlocals]⟩
  simpa [Small.Binds, Small.names, Small.targets, Small.exprs, Small.values, Expr.places,
    Expr.targetParts, Expr.ownParts, Expr.not_binds_name] using hn

end Hydration.Syntax

namespace Hydration.Transform

open Syntax

variable {x receiver name : String} {s t : Stmt}

theorem ignores_of_bootstraps {plan : Plan} {first : Stmt} {rest : List Stmt}
    (hp : PlainlyNamed plan) (hr : IsPlainName receiver) (h : Bootstraps plan receiver first rest) :
    ∀ s ∈ first :: rest, s.Ignores x := by
  refine List.forall_mem_cons.mpr ⟨?_, ?_⟩
  · refine ignores_of_isCall (splitDots_ne_nil _) ?_ (h.registers hr hp.register)
    simp [Expr.not_binds_name]
  · have hcreates := h.creates hr hp.createEvent
    have hemitters := hp.emitters
    clear h
    generalize plan.component.events = events at hcreates hemitters
    induction hcreates with
    | nil => exact List.forall_mem_nil _
    | cons hs _ ih =>
      obtain ⟨he, hemitters⟩ := List.forall_mem_cons.mp hemitters
      refine List.forall_mem_cons.mpr ⟨?_, ih hemitters⟩
      refine ignores_of_assignsCall (splitDots_ne_nil _) ?_ (hs he)
      simp [Expr.not_binds_name, Expr.not_binds_string, Expr.not_binds_number]

theorem not_binds_of_isName {e : Expr} (h : e.IsName name) : ¬ e.Binds x := by
  refine Expr.not_binds_of_segments ?_
  rw [← Expr.segments_core, h, Expr.segments]
  exact List.cons_ne_nil _ _

/-- A target binds a name, itself or by an assignment within it. -/
def TargetBinds (x : String) (target : Expr) : Prop :=
  .name x ∈ target.places ∨ ∃ part ∈ target.targetParts, part.Binds x

/-- The member of a receiver is an attribute, so as a target it binds no name. -/
theorem not_targetBinds_of_isMember {e : Expr} (h : e.IsMember receiver name) : ¬ TargetBinds x e := by
  induction e using Expr.core.induct with
  | case1 before inner after ih =>
    rw [TargetBinds, Expr.targetParts, Expr.places]
    exact ih h
  | case2 e hparen =>
    obtain ⟨value, dot, he, hvalue⟩ := h
    rw [Expr.core] at he
    · subst he
      simpa [TargetBinds, Expr.targetParts, Expr.places, Expr.ownParts] using
        not_binds_of_isName hvalue
    · exact hparen

theorem binds_assign_iff {targets : List AssignTarget} {value : Expr} :
    (Small.assign targets value).Binds x ↔
      value.Binds x ∨ ∃ t ∈ targets, TargetBinds x t.target := by
  simp only [Small.Binds, Small.names, Small.targets, Small.exprs, Small.values, TargetBinds,
    List.not_mem_nil, false_or, List.mem_append, List.mem_singleton, List.mem_map, List.mem_flatMap,
    or_and_right, exists_or, exists_eq_left, exists_exists_and_eq_and]
  constructor
  · rintro (⟨t, ht, hx⟩ | hv | ⟨part, ⟨t, ht, hp⟩, hb⟩)
    · exact .inr ⟨t, ht, .inl hx⟩
    · exact .inl hv
    · exact .inr ⟨t, ht, .inr ⟨part, hp, hb⟩⟩
  · rintro (hv | ⟨t, ht, hx | ⟨part, hp, hb⟩⟩)
    · exact .inr (.inl hv)
    · exact .inl ⟨t, ht, hx⟩
    · exact .inr (.inr ⟨part, ⟨t, ht, hp⟩, hb⟩)

section Fates

variable {member : Option String} {dropsSuper : Prop}

/-- A statement binds the same names without the targets that it loses. -/
theorem binds_of_kept (h : Fate receiver member dropsSuper s (some t)) : t.Binds x ↔ s.Binds x := by
  cases h with
  | chained hm hl ht hn =>
    rw [binds_line_iff hl, binds_line_iff rfl, binds_assign_iff, binds_assign_iff]
    refine or_congr_right ⟨?_, ?_⟩
    · rintro ⟨t, htarget, hb⟩
      exact ⟨t, (List.mem_filter.mp htarget).1, hb⟩
    · rintro ⟨t, htarget, hb⟩
      refine ⟨t, List.mem_filter.mpr ⟨htarget, ?_⟩, hb⟩
      simpa using fun hmember => not_targetBinds_of_isMember hmember hb
  | kept => exact Iff.rfl

/-- Declarations are neither changed nor left out. -/
theorem within_of_kept {P : Small → Prop} (hP : ∀ targets value, ¬ P (.assign targets value))
    (h : Fate receiver member dropsSuper s (some t)) : t.Within P ↔ s.Within P := by
  cases h with
  | chained hm hl ht hn =>
    rw [within_line_iff hl, within_line_iff rfl]
    exact iff_of_false (hP _ _) (hP _ _)
  | kept => exact Iff.rfl

theorem not_within_of_leftOut {P : Small → Prop} (hpass : ¬ P .pass) (hexpr : ∀ e, ¬ P (.expr e))
    (hassign : ∀ targets value, ¬ P (.assign targets value))
    (hann : ∀ target colon typing value, ¬ P (.annAssign target colon typing value))
    (h : Fate receiver member dropsSuper s none) : ¬ s.Within P := by
  cases h with
  | pass h =>
    obtain ⟨line, rfl, hall⟩ := h
    intro hw
    cases hw with
    | line he hw => exact hpass (hall _ he ▸ hw)
  | super _ h =>
    obtain ⟨line, small, semi, rfl, hl, value, rfl, -⟩ := h
    exact (within_line_iff hl).not.mpr (hexpr value)
  | annotated _ hl => exact (within_line_iff hl).not.mpr (hann _ _ _ _)
  | assigned _ hl => exact (within_line_iff hl).not.mpr (hassign _ _)

end Fates

/-- The names that the block refers to its helpers by. -/
def helperRoots (plan : Plan) : List String :=
  Imports.rootOf plan.helpers.register ::
    if plan.component.events.isEmpty then [] else [Imports.rootOf plan.helpers.createEvent]

/-- The statements of a body that stay, with or without all of their targets. -/
def Stays (plan : Plan) (dropsSuper : Prop) (receiver : String) (s : Stmt) : Prop :=
  ∃ t, Fate receiver plan.component.elementMember dropsSuper s (some t)

/-- A name is neither a parameter of a function nor bound by its body, so it comes from outside. -/
def ComesFromOutside (x : String) (params : Params) (body : List Stmt) : Prop :=
  x ∉ params.names ∧ ¬ BoundIn x body

/-- The calls of the block reach the helpers, and the host takes the place of no name that the old
constructor read from outside. -/
structure Hygienic (plan : Plan) (old new : FuncHead) (oldBody newBody : List Stmt) : Prop where
  helpers : ∀ root ∈ helperRoots plan, ComesFromOutside root new.params newBody
  host : hostName ∈ new.params.names → ¬ old.params.Takes hostName →
    ¬ ReadOutside hostName old.params oldBody

/-- The names of the old constructor leave the helpers and the host alone. -/
structure LeavesNames (plan : Plan) (dropsSuper : Prop) (old : FuncHead) (oldBody : List Stmt) :
    Prop where
  parameters : ∀ root ∈ helperRoots plan, root ∉ old.params.names
  added : ¬ old.params.Takes hostName → ∀ root ∈ helperRoots plan, root ≠ hostName ∧
    (old.params.positional = [] → root ≠ "self")
  bindings : ∀ root ∈ helperRoots plan,
    (∃ s ∈ oldBody, Stays plan dropsSuper (receiverOf old.params) s ∧ s.Binds root) →
      DeclaredOut root oldBody
  host : ¬ old.params.Takes hostName → ¬ ReadOutside hostName old.params oldBody

section Constructors

variable {plan : Plan} {dropsSuper : Prop} {old kept : List Stmt}

theorem exists_binds_keeps_iff (h : Keeps receiver plan.component.elementMember dropsSuper old kept) :
    (∃ t ∈ kept, t.Binds x) ↔ ∃ s ∈ old, Stays plan dropsSuper receiver s ∧ s.Binds x := by
  refine h.exists_mem_iff (fun s hs hstays => ?_) fun s t hs => ?_
  · exact hs.not_kept hstays.1.choose_spec
  · rw [binds_of_kept hs, and_iff_right (show Stays plan dropsSuper receiver s from ⟨t, hs⟩)]

theorem declaredOut_keeps_iff (h : Keeps receiver plan.component.elementMember dropsSuper old kept) :
    DeclaredOut x kept ↔ DeclaredOut x old := by
  refine h.exists_mem_iff (fun s hs => ?_) fun s t hs => ?_
  · refine not_within_of_leftOut ?_ ?_ ?_ ?_ hs
    all_goals simp [Small.globals, Small.nonlocals]
  · refine within_of_kept ?_ hs
    simp [Small.globals, Small.nonlocals]

theorem not_mem_names_insertHost_iff {params : Params} :
    x ∉ (insertHost params).names ↔ x ∉ params.names ∧
      (¬ params.Takes hostName → x ≠ hostName ∧ (params.positional = [] → x ≠ "self")) := by
  by_cases ht : params.Takes hostName
  · simp [insertHost_of_takes ht, ht]
  · by_cases hp : params.positional = []
    · rw [names_insertHost_of_none ht hp, List.mem_cons, List.mem_cons]
      tauto
    · rw [(names_insertHost ht hp).mem_iff, List.mem_cons]
      tauto

theorem hostName_mem_names_insertHost (params : Params) : hostName ∈ (insertHost params).names := by
  by_contra hn
  obtain ⟨hold, hadded⟩ := not_mem_names_insertHost_iff.mp hn
  exact (hadded fun ht => hold (hostName_mem_names ht)).1 rfl

/-- The block binds nothing, so the new body binds what the statements that stay have bound. -/
theorem boundIn_iff {block new : List Stmt} (hblock : ∀ s ∈ block, s.Ignores x)
    (hkeeps : Keeps receiver plan.component.elementMember dropsSuper old kept)
    (hspliced : Spliced block kept new) :
    BoundIn x new ↔ (∃ s ∈ old, Stays plan dropsSuper receiver s ∧ s.Binds x) ∧ ¬ DeclaredOut x old := by
  have hbinds : ¬ ∃ s ∈ block, s.Binds x := fun ⟨s, hs, hb⟩ => (hblock s hs).1 hb
  have hdeclares : ¬ ∃ s ∈ block, s.Within fun small => x ∈ small.globals ++ small.nonlocals :=
    fun ⟨s, hs, hw⟩ => (hblock s hs).2 hw
  have hout : DeclaredOut x new ↔ DeclaredOut x old := by
    rw [← declaredOut_keeps_iff hkeeps, DeclaredOut, DeclaredOut, hspliced.exists_mem_iff,
      or_iff_right hdeclares]
  rw [BoundIn, hspliced.exists_mem_iff, or_iff_right hbinds, exists_binds_keeps_iff hkeeps, hout]

theorem hygienic_iff_of_opens {head : FuncHead} {body inner : Suite} {first : Stmt}
    {rest : List Stmt} (hp : PlainlyNamed plan) (hr : IsPlainName (receiverOf head.params))
    (hkeeps : Keeps (receiverOf head.params) plan.component.elementMember dropsSuper
      (blockStatements body) kept)
    (hblock : Bootstraps plan (receiverOf head.params) first rest)
    (hspliced : Spliced (first :: rest) kept (blockStatements inner)) :
    Hygienic plan head { head with params := insertHost head.params } (blockStatements body)
        (blockStatements inner) ↔
      LeavesNames plan dropsSuper head (blockStatements body) := by
  have hbound (root : String) := boundIn_iff (x := root) (ignores_of_bootstraps hp hr hblock) hkeeps
    hspliced
  constructor
  · intro h
    refine ⟨fun root hroot => ?_, fun ht root hroot => ?_, fun root hroot hs => ?_, fun ht => ?_⟩
    · exact (not_mem_names_insertHost_iff.mp (h.helpers root hroot).1).1
    · exact (not_mem_names_insertHost_iff.mp (h.helpers root hroot).1).2 ht
    · by_contra hout
      exact (h.helpers root hroot).2 ((hbound root).mpr ⟨hs, hout⟩)
    · exact h.host (hostName_mem_names_insertHost head.params) ht
  · intro h
    refine ⟨fun root hroot => ⟨?_, fun hb => ?_⟩, fun _ ht => h.host ht⟩
    · exact not_mem_names_insertHost_iff.mpr
        ⟨h.parameters root hroot, fun ht => h.added ht root hroot⟩
    · obtain ⟨hs, hout⟩ := (hbound root).mp hb
      exact hout (h.bindings root hroot hs)

end Constructors

/-- A constructor of the hydrated class captures no name when the old one leaves the names of the
helpers and of the host alone: no parameter and no statement that stays has one of the first, and its
body does not read the second from outside. -/
theorem constructors_hygienic_iff {plan : Plan} {head : ClassHead} {body : Suite} {t : Stmt}
    (hp : PlainlyNamed plan) (h : hydrateClass plan head body = .ok t) :
    ∃ newHead newBody prepared generated, t = .class_ newHead newBody ∧
      (blockStatements newBody).filter isConstructor = prepared ++ generated ∧
      List.Forall₂ (fun old new => ∃ ownHead own inner, old = .func ownHead own ∧
        new = .func { ownHead with params := insertHost ownHead.params } inner ∧
        (IsPlainName (receiverOf ownHead.params) →
          (Hygienic plan ownHead { ownHead with params := insertHost ownHead.params }
              (blockStatements own) (blockStatements inner) ↔
            LeavesNames plan (head.bases ≠ [] ∧ newHead.bases = []) ownHead (blockStatements own))))
        ((blockStatements body).filter isConstructor) prepared := by
  obtain ⟨newHead, newBody, prepared, generated, rfl, hbases, hg, hall⟩ :=
    constructors_hydrateClass h
  refine ⟨newHead, newBody, prepared, generated, rfl, hg, hall.imp fun old new hprepares => ?_⟩
  obtain ⟨ownHead, own, inner, first, rest, kept, rfl, rfl, hkeeps, hblock, hspliced, -⟩ :=
    opensWithBlock_of_prepares hp.newline hprepares
  rw [hbases, ← propext losesBases_iff]
  exact ⟨ownHead, own, inner, rfl, rfl, fun hr => hygienic_iff_of_opens hp hr hkeeps hblock hspliced⟩

/-- An expression with no inner scope reads what its parts read. -/
theorem not_reads_of_parts {e : Expr} {nested : Bool} (hi : e.innerParts = [])
    (hn : e ≠ .name x) (hp : ∀ part ∈ e.ownParts, ¬ part.Reads x nested) : ¬ e.Reads x nested := by
  intro h
  cases h with
  | here => exact hn rfl
  | own hpart h => exact hp _ hpart h
  | inner hpart => exact absurd (hi ▸ hpart) List.not_mem_nil

theorem not_binds_cardLines (x : String) : ∀ s ∈ cardLines, ¬ s.Binds x := by
  have hcall {e : Expr} (h : ¬ e.Binds x) : ¬ (Expr.call e .empty .empty [] .empty).Binds x :=
    Expr.not_binds_of_calls h (List.forall_mem_nil _) ⟨_, _, [], _, rfl, rfl⟩
  have htarget (name : String) : ¬ TargetBinds x (ofSelf name) := by
    simp [TargetBinds, ofSelf, Expr.targetParts, Expr.places, Expr.ownParts, Expr.not_binds_name]
  have hexpr {e : Expr} (h : ¬ e.Binds x) : ¬ (Small.expr e).Binds x := by
    simpa [Small.Binds, Small.names, Small.targets, Small.exprs, Small.values] using h
  refine List.forall_mem_cons.mpr ⟨?_, List.forall_mem_cons.mpr ⟨?_, List.forall_mem_singleton.mpr ?_⟩⟩
  · exact (binds_line_iff rfl).not.mpr (hexpr Expr.not_binds_string)
  · exact (binds_line_iff rfl).not.mpr
      (hexpr (hcall (Expr.not_binds_attribute (hcall Expr.not_binds_name))))
  · rw [binds_line_iff rfl, binds_assign_iff]
    simp [Expr.not_binds_name, htarget]

theorem not_reads_cardLines (nested : Bool) : ∀ s ∈ cardLines, ¬ s.Reads hostName nested := by
  have hname (name : String) (h : name ≠ hostName) : ¬ (Expr.name name).Reads hostName nested :=
    not_reads_of_parts rfl (fun he => h (Expr.name.inj he)) (List.forall_mem_nil _)
  have hattribute {e : Expr} {dot : Around} {attr : String} (h : ¬ e.Reads hostName nested) :
      ¬ (Expr.attribute e dot attr).Reads hostName nested :=
    not_reads_of_parts rfl nofun (List.forall_mem_singleton.mpr h)
  have hcall {e : Expr} (h : ¬ e.Reads hostName nested) :
      ¬ (Expr.call e .empty .empty [] .empty).Reads hostName nested :=
    not_reads_of_parts rfl nofun (List.forall_mem_singleton.mpr h)
  have hexpr {e : Expr} (h : ¬ e.Reads hostName nested) : ¬ (Small.expr e).Reads hostName nested := by
    simpa [Small.Reads, Small.typeNames, Small.exprs, Small.values, Small.targets] using h
  refine List.forall_mem_cons.mpr ⟨?_, List.forall_mem_cons.mpr ⟨?_, List.forall_mem_singleton.mpr ?_⟩⟩
  · exact (reads_line_iff rfl).not.mpr
      (hexpr (not_reads_of_parts rfl nofun (List.forall_mem_nil _)))
  · exact (reads_line_iff rfl).not.mpr (hexpr (hcall (hattribute (hcall (hname _ (by decide))))))
  · have hnone := hname "None" (by decide)
    have hself := hname "self" (by decide)
    rw [reads_line_iff rfl]
    simp [Small.Reads, Small.typeNames, Small.exprs, Small.values, Small.targets, ofSelf,
      Expr.targetParts, Expr.places, Expr.ownParts, hnone, hself]

theorem ne_hostName_of_mem_cardRoots : ∀ root ∈ helperRoots cardPlan, root ≠ hostName := by
  decide

/-- The card has no name of a helper and does not read the host. -/
theorem leavesNames_card (dropsSuper : Prop) :
    LeavesNames cardPlan dropsSuper cardConstructor cardLines where
  parameters := by decide
  added _ root hroot := ⟨ne_hostName_of_mem_cardRoots root hroot, nofun⟩
  bindings := fun root _ ⟨s, hs, _, hb⟩ => absurd hb (not_binds_cardLines root s hs)
  host := fun _ ⟨_, _, s, hs, nested, h⟩ => not_reads_cardLines nested s hs h

theorem constructors_hygienic_iff_of_card :
    PlainlyNamed cardPlan ∧ ∃ newHead newBody old own inner generated,
      hydrateClass cardPlan cardHead cardBody = .ok (.class_ newHead newBody) ∧
      (blockStatements cardBody).filter isConstructor = [.func old own] ∧
      (blockStatements newBody).filter isConstructor =
        .func { old with params := insertHost old.params } inner :: generated ∧
      Hygienic cardPlan old { old with params := insertHost old.params } (blockStatements own)
        (blockStatements inner) := by
  obtain ⟨t, ht⟩ := exists_hydrated_card
  obtain ⟨newHead, newBody, prepared, generated, rfl, hg, hall⟩ :=
    constructors_hygienic_iff plainlyNamed_cardPlan ht
  obtain ⟨_, rest, ⟨old, own, inner, hold, rfl, hiff⟩, hrest, rfl⟩ :=
    List.forall₂_cons_left_iff.mp hall
  obtain ⟨rfl, rfl⟩ := Stmt.func.inj hold
  exact ⟨plainlyNamed_cardPlan, newHead, newBody, _, _, inner, rest ++ generated, ht, rfl, hg,
    (hiff (by decide)).mpr (leavesNames_card _)⟩

end Hydration.Transform
