import Hydration.Proofs.ConstructorBodies

/-! Assignments to the element of a component. A constructor still assigns to it where an event has its
name, and where the old constructor does so in another way than by a line of its own. -/

namespace Hydration.Syntax

mutual

/-- The places that a target assigns to, at any depth of its brackets. -/
def Expr.places : Expr → List Expr
  | .paren _ inner _ => inner.places
  | .tuple members => placesOfMembers members
  | .list _ members _ => placesOfMembers members
  | .starred _ value => value.places
  | e => [e]

def placesOfMembers : List Member → List Expr
  | [] => []
  | .item value _ :: rest => value.places ++ placesOfMembers rest
  | _ :: rest => placesOfMembers rest

end

def Expr.Targets (P : Expr → Prop) (e : Expr) : Prop := ∃ place ∈ e.places, P place

variable {P : Expr → Prop}

/-- A small statement assigns to a place. An annotation does so if it has a value. -/
def Small.Assigns (P : Expr → Prop) : Small → Prop
  | .assign targets _ => ∃ t ∈ targets, t.target.Targets P
  | .annAssign target _ _ (some _) => target.Targets P
  | .augAssign target _ _ _ => target.Targets P
  | _ => False

/-- The head of a loop or of a block assigns to a place. -/
def ClauseHead.Assigns (P : Expr → Prop) : ClauseHead → Prop
  | .for_ _ _ target _ _ => target.Targets P
  | .with_ _ _ _ items => ∃ item ∈ items, ∃ target ∈ item.target, target.2.Targets P
  | _ => False

/-- A statement assigns to a place at any depth, functions and classes apart. -/
inductive Stmt.Assigns (P : Expr → Prop) : Stmt → Prop where
  | line {line : Line} {entry : Entry} (he : entry ∈ line.entries) (h : entry.stmt.Assigns P) :
      Assigns P (.line line)
  | head {clauses : List Clause} {clause : Clause} (hc : clause ∈ clauses)
      (h : clause.head.Assigns P) : Assigns P (.compound clauses)
  | body {clauses : List Clause} {clause : Clause} {s : Stmt} (hc : clause ∈ clauses)
      (hs : s ∈ Transform.blockStatements clause.body) (h : Assigns P s) :
      Assigns P (.compound clauses)

/-- A small statement assigns to a place in another way than as one of its targets. -/
def Small.AssignsWithin (P : Expr → Prop) : Small → Prop
  | .assign targets _ => ∃ t ∈ targets, ¬ P t.target ∧ t.target.Targets P
  | .annAssign target _ _ (some _) => ¬ P target ∧ target.Targets P
  | .augAssign target _ _ _ => target.Targets P
  | _ => False

/-- A statement assigns to a place in another way than by an assignment on a line of its own that has
the place among its targets. -/
inductive Stmt.AssignsWithin (P : Expr → Prop) : Stmt → Prop where
  | lone {line : Line} {small : Small} {semi : Option Around} (hl : line.entries = [⟨small, semi⟩])
      (h : small.AssignsWithin P) : AssignsWithin P (.line line)
  | shared {line : Line} (hl : line.entries.length ≠ 1) (h : (Stmt.line line).Assigns P) :
      AssignsWithin P (.line line)
  | compound {clauses : List Clause} (h : (Stmt.compound clauses).Assigns P) :
      AssignsWithin P (.compound clauses)

section Lines

variable {line : Line} {small : Small} {semi : Option Around}

theorem assigns_line_iff (hl : line.entries = [⟨small, semi⟩]) :
    (Stmt.line line).Assigns P ↔ small.Assigns P :=
  calc (Stmt.line line).Assigns P
    _ ↔ ∃ entry ∈ line.entries, entry.stmt.Assigns P :=
      ⟨fun | .line he h => ⟨_, he, h⟩, fun ⟨_, he, h⟩ => .line he h⟩
    _ ↔ small.Assigns P := exists_entry_iff hl

theorem assignsWithin_line_iff (hl : line.entries = [⟨small, semi⟩]) :
    (Stmt.line line).AssignsWithin P ↔ small.AssignsWithin P := by
  constructor
  · intro h
    cases h with
    | lone hl' h =>
      rw [hl, List.cons.injEq, Entry.mk.injEq] at hl'
      exact hl'.1.1 ▸ h
    | shared hl' => exact absurd (by rw [hl]; rfl) hl'
  · exact fun h => .lone hl h

/-- What is no target itself is assigned to within a target only. -/
theorem assigns_iff_assignsWithin (small : Small)
    (ha : ¬ ∃ target colon typing value, small = .annAssign target colon typing value ∧ P target)
    (ht : ¬ ∃ targets value, small = .assign targets value ∧ ∃ t ∈ targets, P t.target) :
    small.Assigns P ↔ small.AssignsWithin P := by
  cases small with
  | assign targets value =>
    have hn : ∀ t ∈ targets, ¬ P t.target := fun t hm hp => ht ⟨_, _, rfl, t, hm, hp⟩
    exact exists_congr fun t => and_congr_right fun hm => (and_iff_right (hn t hm)).symm
  | annAssign target colon typing value =>
    have hn : ¬ P target := fun hp => ha ⟨_, _, _, _, rfl, hp⟩
    cases value with
    | none => exact Iff.rfl
    | some value => exact (and_iff_right hn).symm
  | _ => exact Iff.rfl

end Lines

end Hydration.Syntax

namespace Hydration.Transform

open Syntax

section Fates

variable {receiver name : String} {dropsSuper : Prop} {s t : Stmt}

theorem not_assigns_of_onlyPasses {P : Expr → Prop} (h : s.OnlyPasses) : ¬ s.Assigns P := by
  obtain ⟨line, rfl, hpass⟩ := h
  intro ha
  cases ha with
  | line he h =>
    rw [hpass _ he] at h
    exact h

/-- A statement that is left out assigns to the element by its own targets only. -/
theorem not_assignsWithin_of_leftOut (h : Fate receiver (some name) dropsSuper s none) :
    ¬ s.AssignsWithin (Expr.IsMember receiver name) := by
  cases h with
  | pass h =>
    obtain ⟨line, rfl, hpass⟩ := h
    intro hw
    cases hw with
    | lone hl hw =>
      obtain rfl : _ = Small.pass := hpass _ (hl ▸ List.mem_singleton.mpr rfl)
      exact hw
    | shared _ ha => exact not_assigns_of_onlyPasses ⟨line, rfl, hpass⟩ ha
  | super _ h =>
    obtain ⟨line, small, semi, rfl, hl, value, rfl, -⟩ := h
    rw [assignsWithin_line_iff hl]
    exact id
  | @annotated line target typing colon value semi other hm hl ht =>
    obtain rfl := Option.some.inj hm
    rw [assignsWithin_line_iff hl]
    cases value with
    | none => exact id
    | some value => exact fun h => h.1 ht
  | assigned hm hl ht =>
    obtain rfl := Option.some.inj hm
    rw [assignsWithin_line_iff hl]
    rintro ⟨t, hmem, hn, -⟩
    exact hn (ht t hmem)

theorem assigns_iff_of_kept (h : Fate receiver (some name) dropsSuper s (some t)) :
    t.Assigns (Expr.IsMember receiver name) ↔ s.AssignsWithin (Expr.IsMember receiver name) := by
  cases h with
  | chained hm hl =>
    obtain rfl := Option.some.inj hm
    rw [assignsWithin_line_iff hl, assigns_line_iff rfl]
    simp [Small.Assigns, Small.AssignsWithin, and_assoc]
  | kept hp hs ha =>
    have ha := ha name rfl
    cases s with
    | line line =>
      by_cases hone : line.entries.length = 1
      · obtain ⟨⟨small, semi⟩, hl⟩ := List.length_eq_one_iff.mp hone
        rw [assigns_line_iff hl, assignsWithin_line_iff hl]
        rw [lone_line hl, not_or] at ha
        refine assigns_iff_assignsWithin small ha.1 ?_
        rintro ⟨targets, value, he, hmem⟩
        exact ha.2 ⟨targets, value, he, .inr hmem⟩
      · exact ⟨fun h => .shared hone h, fun h => by
          cases h with
          | lone hl => exact absurd (by rw [hl]; rfl) hone
          | shared _ h => exact h⟩
    | compound clauses =>
      exact ⟨fun h => .compound h, fun h => by cases h with | compound h => exact h⟩
    | func head inner => exact ⟨nofun, nofun⟩
    | class_ head inner => exact ⟨nofun, nofun⟩

/-- The element is assigned to in what is kept when it is within the old statements. -/
theorem exists_assigns_iff {old kept : List Stmt}
    (h : Keeps receiver (some name) dropsSuper old kept) :
    (∃ t ∈ kept, t.Assigns (Expr.IsMember receiver name)) ↔
      ∃ s ∈ old, s.AssignsWithin (Expr.IsMember receiver name) :=
  h.exists_mem_iff (fun _ => not_assignsWithin_of_leftOut) fun _ _ => assigns_iff_of_kept

end Fates

section Block

variable {receiver name attr : String} {path : List String} {args : List Expr} {s : Stmt}

theorem not_assigns_of_isCall {P : Expr → Prop} (h : s.IsLineOf (Small.IsCall path args)) :
    ¬ s.Assigns P := by
  obtain ⟨leading, small, tail, rfl, call, func, rfl, -⟩ := h
  rw [assigns_line_iff rfl]
  exact id

theorem isMember_attribute_iff {dot : Around} :
    (Expr.attribute (.name receiver) dot attr).IsMember receiver name ↔ attr = name := by
  simp [Expr.IsMember, Expr.IsAttributeOf, Expr.IsName, Expr.core]

theorem assigns_iff_of_assignsCall (h : s.IsLineOf (Small.AssignsCall receiver attr path args)) :
    s.Assigns (Expr.IsMember receiver name) ↔ attr = name := by
  obtain ⟨leading, small, tail, rfl, target, equal, call, func, rfl, ⟨dot, rfl⟩, -⟩ := h
  have hmember : (Expr.attribute (.name receiver) dot attr).IsMember receiver name ↔ attr = name :=
    isMember_attribute_iff
  rw [assigns_line_iff rfl, ← hmember]
  simp [Small.Assigns, Expr.Targets, Expr.places]

/-- The names that go into the block are names, so it is read as it is meant. -/
structure PlainlyNamed (plan : Plan) : Prop where
  register : IsPlainDotted plan.helpers.register
  createEvent : IsPlainDotted plan.helpers.createEvent
  emitters : ∀ e ∈ plan.component.events, IsPlainName e.emitter
  newline : plan.style.newline ∈ ["\n", "\r\n", "\r"]

/-- The block assigns to the attributes of the events and to nothing else. -/
theorem exists_assigns_block_iff {plan : Plan} {first : Stmt} {rest : List Stmt}
    (hp : PlainlyNamed plan) (hr : IsPlainName receiver) (h : Bootstraps plan receiver first rest) :
    (∃ s ∈ first :: rest, s.Assigns (Expr.IsMember receiver name)) ↔
      ∃ e ∈ plan.component.events, e.emitter = name := by
  rw [List.exists_mem_cons_iff, or_iff_right (not_assigns_of_isCall (h.registers hr hp.register))]
  have hcreates := h.creates hr hp.createEvent
  have hemitters := hp.emitters
  clear h
  generalize plan.component.events = events at hcreates hemitters
  induction hcreates with
  | nil => simp
  | cons hs _ ih =>
    obtain ⟨he, hemitters⟩ := List.forall_mem_cons.mp hemitters
    have hrest := ih hemitters
    rw [List.exists_mem_cons_iff, List.exists_mem_cons_iff, assigns_iff_of_assignsCall (hs he)]
    exact or_congr_right hrest

end Block

theorem Spliced.exists_mem_iff {block kept new : List Stmt} {P : Stmt → Prop}
    (h : Spliced block kept new) : (∃ s ∈ new, P s) ↔ (∃ s ∈ block, P s) ∨ ∃ s ∈ kept, P s := by
  cases h with
  | @behind first rest =>
    simp only [List.exists_mem_cons_iff, List.mem_append, or_and_right, exists_or]
    exact or_left_comm
  | front => simp only [List.mem_append, or_and_right, exists_or]

/-- The element of the receiver is assigned to somewhere in the constructor. -/
def AssignsElement (name : String) : Stmt → Prop
  | .func head body => ∃ s ∈ blockStatements body,
      s.Assigns (Expr.IsMember (receiverOf head.params) name)
  | _ => False

theorem receiverOf_insertHost (params : Params) :
    receiverOf (insertHost params) = receiverOf params := by
  obtain ⟨posonly, slash, plain, star, kwonly, kwarg⟩ := params
  unfold insertHost
  split_ifs
  · rfl
  · cases posonly with
    | nil => contradiction
    | cons receiver posonly => rfl
  · cases posonly with
    | nil => cases plain <;> rfl
    | cons receiver posonly => contradiction

/-- A constructor of the hydrated class assigns to the element when an event has its name, or when the
old constructor assigns to it in another way than by an assignment on a line of its own that has it
among its targets. -/
theorem element_assigned_iff {plan : Plan} {head : ClassHead} {body : Suite} {t : Stmt} {name : String}
    (hp : PlainlyNamed plan) (hm : name ∈ plan.component.elementMember)
    (h : hydrateClass plan head body = .ok t) :
    ∃ newHead newBody prepared generated, t = .class_ newHead newBody ∧
      (blockStatements newBody).filter isConstructor = prepared ++ generated ∧
      List.Forall₂ (fun old new => ∃ ownHead own, old = .func ownHead own ∧
        (IsPlainName (receiverOf ownHead.params) → (AssignsElement name new ↔
          (∃ e ∈ plan.component.events, e.emitter = name) ∨
          ∃ s ∈ blockStatements own,
            s.AssignsWithin (Expr.IsMember (receiverOf ownHead.params) name))))
        ((blockStatements body).filter isConstructor) prepared := by
  obtain ⟨newHead, newBody, prepared, generated, rfl, -, hg, hall⟩ := constructors_hydrateClass h
  refine ⟨newHead, newBody, prepared, generated, rfl, hg, hall.imp fun old new hprepares => ?_⟩
  obtain ⟨ownHead, own, inner, first, rest, kept, rfl, rfl, hkeeps, hblock, hspliced, -⟩ :=
    opensWithBlock_of_prepares hp.newline hprepares
  refine ⟨ownHead, own, rfl, fun hr => ?_⟩
  rw [hm] at hkeeps
  rw [AssignsElement, receiverOf_insertHost, hspliced.exists_mem_iff,
    exists_assigns_block_iff hp hr hblock, exists_assigns_iff hkeeps]

theorem plainlyNamed_cardPlan : PlainlyNamed cardPlan where
  register := by decide
  createEvent := by decide
  emitters := by decide
  newline := by decide

/-- The card gives its event an emitter, and its chained assignment loses the element. -/
theorem element_assigned_iff_of_card :
    PlainlyNamed cardPlan ∧ "el" ∈ cardPlan.component.elementMember ∧
    ∃ newHead newBody new generated,
      hydrateClass cardPlan cardHead cardBody = .ok (.class_ newHead newBody) ∧
      (blockStatements newBody).filter isConstructor = new :: generated ∧
      ¬ AssignsElement "el" new := by
  have hm : "el" ∈ cardPlan.component.elementMember := by decide
  obtain ⟨t, ht⟩ := exists_hydrated_card
  obtain ⟨newHead, newBody, prepared, generated, rfl, hg, hall⟩ :=
    element_assigned_iff plainlyNamed_cardPlan hm ht
  obtain ⟨new, rest, ⟨ownHead, own, hown, hiff⟩, hrest, rfl⟩ := List.forall₂_cons_left_iff.mp hall
  obtain ⟨rfl, rfl⟩ := Stmt.func.inj hown
  refine ⟨plainlyNamed_cardPlan, hm, newHead, newBody, new, rest ++ generated, ht, hg, fun ha => ?_⟩
  rcases (hiff (by decide)).mp ha with hevent | ⟨s, hs, hwithin⟩
  · exact absurd hevent (by decide)
  · simp only [blockStatements, cardLines, List.mem_cons, List.not_mem_nil, or_false] at hs
    rcases hs with rfl | rfl | rfl
    · exact (assignsWithin_line_iff rfl).mp hwithin
    · exact (assignsWithin_line_iff rfl).mp hwithin
    · obtain ⟨t, htarget, hn, htargets⟩ := (assignsWithin_line_iff rfl).mp hwithin
      simp only [List.mem_cons, List.not_mem_nil, or_false] at htarget
      rcases htarget with rfl | rfl
      all_goals
        obtain ⟨place, hplace, h⟩ := htargets
        obtain rfl := List.mem_singleton.mp hplace
        exact hn h

end Hydration.Transform
