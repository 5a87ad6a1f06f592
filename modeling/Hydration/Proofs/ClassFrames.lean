import Hydration.Proofs.ConstructorBodies
import Hydration.Proofs.Definitions

/-! Frames of classes. Of its head, a hydrated class loses the bases and decorators that are listed. The
members of the old class that are not replaced stay in order, its constructors stay where they stand,
and the generated members stand behind them, but for a constructor where the class has none. -/

namespace Hydration.Syntax

/-- A dotted name is listed, or its last segment is. -/
def Expr.IsListed (names : List String) (e : Expr) : Prop :=
  ∃ path last, e.IsPath (path ++ [last]) ∧
    (".".intercalate (path ++ [last]) ∈ names ∨ last ∈ names)

def Member.IsListed (names : List String) (base : Member) : Prop :=
  ∃ value, base.value? = some value ∧ value.IsListed names

/-- The decorator is listed, or it is a call of what is listed. -/
def Decorator.IsListed (names : List String) (d : Decorator) : Prop :=
  d.value.IsListed names ∨ d.value.IsCallOf (Expr.IsListed names)

/-- A function with one of the names, or a lone annotation of one without a value. -/
def Stmt.Provides (P : String → Prop) (s : Stmt) : Prop :=
  (∃ head body, s = .func head body ∧ P head.name) ∨
    s.Lone fun small => ∃ target colon typing name,
      small = .annAssign target colon typing none ∧ target.IsName name ∧ P name

end Hydration.Syntax

namespace Hydration.Transform

open Syntax

section Head

variable {names : List String} {e : Expr}

theorem isListed_iff : isListed names e = true ↔ e.IsListed names := by
  unfold isListed
  constructor
  · intro h
    split at h
    · cases h
    · rename_i hne
      have hp := Expr.isPath_segments hne
      obtain ⟨path, last, hs⟩ := (List.eq_nil_or_concat' _).resolve_left hne
      refine ⟨path, last, hs ▸ hp, ?_⟩
      simpa [hs, lastSegment] using h
  · rintro ⟨path, last, hp, h⟩
    rw [hp.segments_eq]
    split
    · rename_i hs
      exact absurd hs hp.ne_nil
    · simpa [lastSegment] using h

theorem isListedBase_iff {base : Member} : isListedBase names base = true ↔ base.IsListed names := by
  unfold isListedBase Member.IsListed
  split
  · rename_i value hv
    simp [hv, isListed_iff]
  · rename_i hv
    simp [hv]

theorem isListed_decoratorTarget_iff {d : Decorator} :
    isListed names (decoratorTarget d.value) = true ↔ d.IsListed names := by
  rw [isListed_iff, Decorator.IsListed, Expr.IsCallOf, decoratorTarget]
  split
  · rename_i func gap before args after hcall
    -- A call has no dotted name of its own.
    have hn : ¬ d.value.IsListed names := by
      rintro ⟨path, last, hp, -⟩
      have hs : [] = path ++ [last] := by
        rw [← hp.segments_eq, ← Expr.segments_core, hcall, Expr.segments] <;> simp
      exact hp.ne_nil hs.symm
    simp [hcall, hn]
  · rename_i hcall
    have hn : ¬ ∃ func gap before args after,
        d.value.core = .call func gap before args after ∧ func.IsListed names := by
      rintro ⟨_, _, _, _, _, he, -⟩
      exact hcall _ _ _ _ _ he
    rw [or_iff_left hn]

instance : DecidablePred (Member.IsListed names) := fun _ => decidable_of_iff _ isListedBase_iff

instance : DecidablePred (Decorator.IsListed names) :=
  fun _ => decidable_of_iff _ isListed_decoratorTarget_iff

/-- Bases and decorators that are not listed stay in order, and nothing else changes but the comma
behind the last base and the brackets around the bases. -/
structure FramesHead (plan : Plan) (old new : ClassHead) : Prop where
  name : new.name = old.name
  keywords : new.keywords = old.keywords
  bases : new.bases.map (Member.withComma none) =
    (old.bases.filter fun base => ¬ base.IsListed plan.clientBases).map (Member.withComma none)
  decorators : new.decorators =
    old.decorators.filter fun d => ¬ d.IsListed plan.bootstrapDecorators
  others : new = { old with bases := new.bases, parens := new.parens, decorators := new.decorators }

theorem map_withComma_dropLastComma (bases : List Member) :
    (dropLastComma bases).map (Member.withComma none) = bases.map (Member.withComma none) := by
  have hlast (base : Member) : (base.withComma none).withComma none = base.withComma none := by
    cases base <;> rfl
  fun_induction dropLastComma bases with
  | case1 => rfl
  | case2 last => rw [List.map_singleton, List.map_singleton, hlast]
  | case3 base rest hrest ih => rw [List.map_cons, List.map_cons, ih]

theorem framesHead (plan : Plan) (head : ClassHead) :
    FramesHead plan head
      (dropDecorators plan.bootstrapDecorators (dropBases plan.clientBases head)) := by
  have hkept : (head.bases.filter fun base => !isListedBase plan.clientBases base) =
      head.bases.filter fun base => ¬ base.IsListed plan.clientBases := by
    refine List.filter_congr fun base _ => ?_
    simp [← isListedBase_iff]
  have hdecorators : (head.decorators.filter fun d =>
        !isListed plan.bootstrapDecorators (decoratorTarget d.value)) =
      head.decorators.filter fun d => ¬ d.IsListed plan.bootstrapDecorators := by
    refine List.filter_congr fun d _ => ?_
    simp [← isListed_decoratorTarget_iff]
  have hbases : ∃ bases parens, dropBases plan.clientBases head = { head with bases, parens } ∧
      bases.map (Member.withComma none) =
        (head.bases.filter fun base => ¬ base.IsListed plan.clientBases).map
          (Member.withComma none) := by
    rw [← hkept]
    unfold dropBases
    dsimp only
    split_ifs with hall _ hnone
    · exact ⟨_, _, rfl, by rw [List.length_filter_eq_length_iff.mp hall |> List.filter_eq_self.mpr]⟩
    · exact ⟨_, _, rfl, by rw [List.isEmpty_iff.mp hnone]⟩
    · exact ⟨_, _, rfl, map_withComma_dropLastComma _⟩
    · exact ⟨_, _, rfl, rfl⟩
  obtain ⟨bases, parens, hdrop, hmap⟩ := hbases
  rw [hdrop]
  exact ⟨rfl, rfl, hmap, hdecorators, rfl⟩

end Head

/-- The names that the hydrated class gives a meaning of its own. -/
def Replaces (plan : Plan) (name : String) : Prop :=
  (∃ e ∈ plan.component.events, e.emitter = name) ∨ name ∈ plan.component.elementMember

def Remains (plan : Plan) (s : Stmt) : Prop :=
  isConstructor s = false ∧ ¬ s.OnlyPasses ∧ ¬ s.Provides (Replaces plan)

section Remains

variable {plan : Plan} {dropSuper : Bool} {s t : Stmt} {body : List Stmt}

theorem mem_replacedNames_iff {name : String} :
    name ∈ replacedNames plan.component ↔ Replaces plan name := by
  simp [replacedNames, Replaces]

theorem boundName?_eq_some_iff {e : Expr} {name : String} :
    boundName? e = some name ↔ e.IsName name := by
  unfold boundName? Expr.IsName
  split <;> simp_all

theorem providesMember_iff : providesMember (replacedNames plan.component) s = true ↔
    s.Provides (Replaces plan) := by
  have hnames (name : String) :
      (replacedNames plan.component).contains name = true ↔ Replaces plan name := by
    rw [List.contains_iff_mem, mem_replacedNames_iff]
  unfold providesMember Stmt.Provides
  split
  · rename_i head body
    have hlone : ¬ (Stmt.func head body).Lone fun small => ∃ target colon typing name,
        small = .annAssign target colon typing none ∧ target.IsName name ∧ Replaces plan name := by
      rintro ⟨line, small, semi, he, -⟩
      cases he
    rw [or_iff_left hlone, hnames]
    simp
  · rename_i leading target colon typing semi tail
    rw [lone_line rfl, or_iff_right (by rintro ⟨head, body, he, -⟩; cases he)]
    simp only [Small.annAssign.injEq]
    cases hname : boundName? target with
    | none =>
      have hn (name : String) : ¬ target.IsName name := fun h => by
        rw [boundName?_eq_some_iff.mpr h] at hname
        cases hname
      simp [hn]
    | some name =>
      have hn (other : String) : target.IsName other ↔ name = other := by
        rw [← boundName?_eq_some_iff, hname, Option.some.injEq]
      simp [hn, mem_replacedNames_iff]
  · rename_i hfunc hline
    refine iff_of_false Bool.false_ne_true ?_
    rintro (⟨head, body, rfl, -⟩ | ⟨⟨leading, entries, tail⟩, small, semi, rfl, he, target, colon,
      typing, name, rfl, -⟩)
    · exact hfunc _ _ rfl
    · obtain rfl := he
      exact hline _ _ _ _ _ _ rfl

theorem remains_iff : Remains plan s ↔ isConstructor s = false ∧ isLeftOut plan s = false := by
  rw [Remains, isLeftOut, Bool.or_eq_false_iff, ← isPassLine_iff, ← providesMember_iff,
    Bool.not_eq_true, Bool.not_eq_true, and_comm (a := isPassLine s = false)]

instance : DecidablePred (Remains plan) := fun _ => decidable_of_iff _ remains_iff.symm

end Remains

/-- What a statement that is not left out becomes. A constructor opens with the block, and another
member gets at most a blank line. -/
inductive Stands (plan : Plan) (dropsSuper : Prop) : Stmt → Stmt → Prop where
  | opened {s t : Stmt} (hc : isConstructor s = true) (h : OpensWithBlock plan dropsSuper s t) :
      Stands plan dropsSuper s t
  | same {s : Stmt} (h : Remains plan s) : Stands plan dropsSuper s s
  | apart {s : Stmt} (h : Remains plan s) (hl : s.leading = []) :
      Stands plan dropsSuper s (s.withLeading [blankLine])

theorem isConstructor_withLeading (s : Stmt) (leading : List EmptyLine) :
    isConstructor (s.withLeading leading) = isConstructor s := by
  cases s with
  | compound clauses => cases clauses <;> rfl
  | _ => rfl

theorem Stands.isConstructor_eq {plan : Plan} {dropsSuper : Prop} {s t : Stmt}
    (h : Stands plan dropsSuper s t) : isConstructor t = isConstructor s := by
  cases h with
  | opened hc h =>
    obtain ⟨head, body, inner, -, -, -, rfl, rfl, -⟩ := h
    rfl
  | same h => rfl
  | apart h hl => exact isConstructor_withLeading s _

/-- At most one statement gets a blank line. -/
inductive GainsBlank : List Stmt → List Stmt → Prop where
  | nowhere (statements : List Stmt) : GainsBlank statements statements
  | once (front : List Stmt) {s : Stmt} (back : List Stmt) (h : s.leading = []) :
      GainsBlank (front ++ s :: back) (front ++ s.withLeading [blankLine] :: back)

/-- The members of a hydrated class, with the generated ones apart. A constructor is among these if the
old class has none, and stands behind the lines that start what remains of it. -/
structure FramesBody (plan : Plan) (dropsSuper : Prop) (old front constructor back getter : List Stmt)
    (metadata : Stmt) : Prop where
  members : List.Forall₂ (Stands plan dropsSuper)
    (old.filter fun s => isConstructor s = true ∨ Remains plan s) (front ++ back)
  kept : GainsBlank (old.filter (Remains plan)) ((front ++ back).filter fun s => !isConstructor s)
  given : (∃ s ∈ old, isConstructor s = true) → front = [] ∧ constructor = []
  created : (∀ s ∈ old, isConstructor s = false) →
    front = (old.filter (Remains plan)).takeWhile isLine ∧
      ∃ c, constructor = [c] ∧ c.IsFunction [] (· = "__init__")
  element : ∀ name ∈ plan.component.elementMember, ∃ g, getter = [g] ∧
    g.IsFunction ["property"] fun id => IsPlainName name → id = name
  noElement : plan.component.elementMember = none → getter = []
  metadata : metadata.IsFunction ["staticmethod"] (· = "cmp_meta")

section Body

variable {plan : Plan} {dropSuper : Bool} {s t : Stmt} {body : List Stmt}

theorem isFunction_withBlank {decorators : List String} {P : String → Prop}
    (h : s.IsFunction decorators P) : (withBlank s).IsFunction decorators P := by
  obtain ⟨head, body, rfl, hd, hP⟩ := h
  unfold withBlank
  split
  · exact ⟨{ head with leading := [blankLine] }, body, rfl, hd, hP⟩
  · exact ⟨head, body, rfl, hd, hP⟩

theorem gainsBlank_withBlank (front back : List Stmt) (s : Stmt) :
    GainsBlank (front ++ s :: back) (front ++ withBlank s :: back) := by
  unfold withBlank
  split
  · rename_i h
    exact .once front back (List.isEmpty_iff.mp h)
  · exact .nowhere _

theorem GainsBlank.stands {dropsSuper : Prop} {new : List Stmt} (h : GainsBlank body new)
    (hbody : ∀ s ∈ body, Remains plan s) : List.Forall₂ (Stands plan dropsSuper) body new := by
  have hsame (part : List Stmt) (hpart : part ⊆ body) :
      List.Forall₂ (Stands plan dropsSuper) part part :=
    List.forall₂_same.mpr fun s hs => .same (hbody s (hpart hs))
  cases h with
  | nowhere => exact hsame _ (List.Subset.refl _)
  | @once front s back hl =>
    refine List.rel_append (hsame front (List.subset_append_left _ _)) ?_
    refine .cons (.apart (hbody s (by simp)) hl) (hsame back ?_)
    exact fun s hs => List.mem_append_right _ (List.mem_cons_of_mem _ hs)

/-- Without constructors, no statement that gets a blank line is one. -/
theorem GainsBlank.filter_eq_self {new : List Stmt} (h : GainsBlank body new)
    (hbody : ∀ s ∈ body, isConstructor s = false) : (new.filter fun s => !isConstructor s) = new := by
  refine List.filter_eq_self.mpr fun s hs => ?_
  cases h with
  | nowhere => rw [hbody s hs, Bool.not_false]
  | @once front s' back hl =>
    rcases List.mem_append.mp hs with hs | hs
    · rw [hbody s (List.mem_append_left _ hs), Bool.not_false]
    · rcases List.mem_cons.mp hs with rfl | hs
      · rw [isConstructor_withLeading, hbody s' (by simp), Bool.not_false]
      · rw [hbody s (List.mem_append_right _ (List.mem_cons_of_mem _ hs)), Bool.not_false]

theorem members_flatten (hn : plan.style.newline ∈ ["\n", "\r\n", "\r"]) {parts : List (List Stmt)}
    (h : List.Forall₂ (HydratesTo plan dropSuper) body parts) :
    List.Forall₂ (Stands plan (dropSuper = true))
      (body.filter fun s => isConstructor s = true ∨ Remains plan s) parts.flatten := by
  induction h with
  | nil => exact .nil
  | @cons s part body parts hs _ ih =>
    rw [List.flatten_cons]
    cases hs with
    | @prepared head inner t hname ht =>
      have hc : isConstructor (.func head inner) = true := isConstructor_iff.mpr ⟨_, _, rfl, hname⟩
      rw [List.filter_cons_of_pos (by simp [hc])]
      exact .cons (.opened hc (opensWithBlock_of_prepares hn ⟨head, inner, rfl, ht⟩)) ih
    | leftOut hc hl =>
      rw [List.filter_cons_of_neg (by simp [hc, remains_iff, hl])]
      exact ih
    | stays hc hl =>
      have hr : Remains plan s := remains_iff.mpr ⟨hc, hl⟩
      rw [List.filter_cons_of_pos (by simp [hr])]
      exact .cons (.same hr) ih

theorem kept_flatten {parts : List (List Stmt)}
    (h : List.Forall₂ (HydratesTo plan dropSuper) body parts) :
    (parts.flatten.filter fun s => !isConstructor s) = body.filter (Remains plan) := by
  induction h with
  | nil => rfl
  | @cons s part body parts hs _ ih =>
    rw [List.flatten_cons, List.filter_append, ih]
    cases hs with
    | @prepared head inner t hname ht =>
      have hc : isConstructor (.func head inner) = true := isConstructor_iff.mpr ⟨_, _, rfl, hname⟩
      rw [List.filter_cons_of_neg (by simp [isConstructor_prepareConstructor hname ht]),
        List.filter_cons_of_neg (by simp [remains_iff, hc])]
      rfl
    | leftOut hc hl =>
      rw [List.filter_cons_of_neg (by simp [remains_iff, hl])]
      rfl
    | stays hc hl =>
      rw [List.filter_cons_of_pos (by simp [hc]),
        List.filter_cons_of_pos (by simp [remains_iff, hc, hl])]
      rfl

theorem insertConstructor_eq (constructor : Stmt) (members : List Stmt) :
    ∃ c back, (c = constructor ∨ c = withBlank constructor) ∧
      insertConstructor constructor members = members.takeWhile isLine ++ [c] ++ back ∧
      GainsBlank members (members.takeWhile isLine ++ back) := by
  have hsplit := List.takeWhile_append_dropWhile (p := isLine) (l := members)
  have hc : (if (members.takeWhile isLine).isEmpty then constructor else withBlank constructor) =
        constructor ∨
      (if (members.takeWhile isLine).isEmpty then constructor else withBlank constructor) =
        withBlank constructor := by
    split
    · exact .inl rfl
    · exact .inr rfl
  unfold insertConstructor
  cases hd : members.dropWhile isLine with
  | nil =>
    refine ⟨_, [], hc, by simp, ?_⟩
    rw [hd] at hsplit
    rw [hsplit]
    exact .nowhere members
  | cons next rest =>
    refine ⟨_, withBlank next :: rest, hc, by simp, ?_⟩
    rw [hd] at hsplit
    have hg := gainsBlank_withBlank (members.takeWhile isLine) rest next
    rwa [hsplit] at hg

/-- Where no old member is a constructor, the new ones are those that remain. -/
theorem flatten_eq_of_not_any {parts : List (List Stmt)}
    (h : List.Forall₂ (HydratesTo plan dropSuper) body parts) (hc : ¬ body.any isConstructor = true) :
    parts.flatten = body.filter (Remains plan) := by
  rw [← kept_flatten h, eq_comm, List.filter_eq_self]
  intro t ht
  rw [not_isConstructor_flatten h hc t ht, Bool.not_false]

theorem isFunction_created {constructor c : Stmt} (h : newConstructor plan = .ok constructor)
    (hc : c = constructor ∨ c = withBlank constructor) : c.IsFunction [] (· = "__init__") := by
  rcases hc with rfl | rfl
  · exact isFunction_newConstructor h
  · exact isFunction_withBlank (isFunction_newConstructor h)

theorem isFunction_elementMembers (hn : plan.style.newline ∈ ["\n", "\r\n", "\r"]) {getter : List Stmt}
    (h : elementMembers plan = .ok getter) :
    (∀ name ∈ plan.component.elementMember, ∃ g, getter = [g] ∧
      g.IsFunction ["property"] fun id => IsPlainName name → id = name) ∧
    (plan.component.elementMember = none → getter = []) := by
  rcases elementMembers_eq_ok.mp h with ⟨hnone, rfl⟩ | ⟨name, g, hname, hg, rfl⟩
  · refine ⟨fun name hm => ?_, fun _ => rfl⟩
    rw [hnone] at hm
    cases hm
  · refine ⟨fun other hm => ⟨_, rfl, ?_⟩, fun hnone => ?_⟩
    · obtain rfl := Option.some.inj (hname.symm.trans hm)
      exact isFunction_withBlank (isFunction_elementGetter hn hg)
    · rw [hname] at hnone
      cases hnone

theorem framesBody_hydrateBody {new : List Stmt} (hn : plan.style.newline ∈ ["\n", "\r\n", "\r"])
    (h : hydrateBody plan dropSuper body = .ok new) :
    ∃ front constructor back getter metadata,
      new = front ++ constructor ++ back ++ getter ++ [metadata] ∧
      FramesBody plan (dropSuper = true) body front constructor back getter metadata := by
  obtain ⟨parts, members, getter, method, hparts, hm, he, hmeta, rfl⟩ := hydrateBody_eq_ok h
  obtain ⟨helement, hnoElement⟩ := isFunction_elementMembers hn he
  have hmetadata := isFunction_withBlank (isFunction_metadataMethod hn hmeta)
  rcases addConstructor_eq_ok.mp hm with ⟨hc, rfl⟩ | ⟨hc, constructor, hnew, rfl⟩
  · refine ⟨[], [], _, getter, _, rfl, members_flatten hn hparts, ?_, fun _ => ⟨rfl, rfl⟩, ?_, helement,
      hnoElement, hmetadata⟩
    · rw [List.nil_append, kept_flatten hparts]
      exact .nowhere _
    · intro hnone
      obtain ⟨s, hs, hsc⟩ := List.any_eq_true.mp hc
      rw [hnone s hs] at hsc
      cases hsc
  · have hnone (s : Stmt) (hs : s ∈ body) : isConstructor s = false :=
      Bool.eq_false_iff.mpr fun hsc => hc (List.any_eq_true.mpr ⟨s, hs, hsc⟩)
    have hold : (body.filter fun s => isConstructor s = true ∨ Remains plan s) =
        body.filter (Remains plan) :=
      List.filter_congr fun s hs => by simp [hnone s hs]
    have hremains (s : Stmt) (hs : s ∈ body.filter (Remains plan)) : Remains plan s := by
      simpa using (List.mem_filter.mp hs).2
    obtain ⟨c, back, hcreated, hinsert, hgains⟩ := insertConstructor_eq constructor parts.flatten
    rw [flatten_eq_of_not_any hparts hc] at hinsert hgains ⊢
    refine ⟨_, [c], back, getter, _, by rw [hinsert], ?_, ?_, ?_, ?_, helement, hnoElement, hmetadata⟩
    · rw [hold]
      exact hgains.stands hremains
    · rw [hgains.filter_eq_self fun s hs => (hremains s hs).1]
      exact hgains
    · rintro ⟨s, hs, hsc⟩
      rw [hnone s hs] at hsc
      cases hsc
    · exact fun _ => ⟨rfl, c, rfl, isFunction_created hnew hcreated⟩

/-- Only what is listed or replaced leaves a class, and the generated members stand apart from the
others. -/
theorem hydrated_class_framed {head : ClassHead} {body : Suite}
    (hn : plan.style.newline ∈ ["\n", "\r\n", "\r"]) (h : hydrateClass plan head body = .ok t) :
    ∃ newHead newBody front constructor back getter metadata, t = .class_ newHead newBody ∧
      FramesHead plan head newHead ∧
      blockStatements newBody = front ++ constructor ++ back ++ getter ++ [metadata] ∧
      FramesBody plan (head.bases ≠ [] ∧ newHead.bases = []) (blockStatements body) front constructor
        back getter metadata := by
  simp only [hydrateClass, bind_eq_ok] at h
  obtain ⟨new, hnew, he⟩ := h
  obtain rfl := Except.ok.inj he
  obtain ⟨front, constructor, back, getter, metadata, hsplit, hframes⟩ := framesBody_hydrateBody hn hnew
  refine ⟨_, _, front, constructor, back, getter, metadata, rfl, framesHead plan head, ?_, ?_⟩
  · rw [blockStatements_withStatements, hsplit]
  · rwa [propext losesBases_iff] at hframes

end Body

def assignedMember : Stmt := .line { entries := [⟨.assign [⟨.name "x", {}⟩] (.number "1"), none⟩] }

/-- The event of the card, as an annotation. -/
def eventMember : Stmt :=
  .line { entries := [⟨.annAssign (.name "opened") {} (.name "T") none, none⟩] }

def methodMember : Stmt := .func { name := "run" } (.inline .space [⟨.pass, none⟩] {})

def framedBody : Suite := .block {} none [assignedMember, eventMember, methodMember] []

theorem exists_hydrated_framed : ∃ t, hydrateClass cardPlan cardHead framedBody = .ok t := by
  have hok : (hydrateClass cardPlan cardHead framedBody).toOption.isSome = true := by decide +kernel
  obtain ⟨t, ht⟩ := Option.isSome_iff_exists.mp hok
  exact ⟨t, toOption_eq_some.mp ht⟩

/-- The assignment stays in front of the new constructor and the method behind it, where the method
gets at most a blank line. The event and the base are gone. -/
theorem hydrated_class_framed_of_method :
    cardPlan.style.newline ∈ ["\n", "\r\n", "\r"] ∧
    ∃ newHead newBody constructor run getter metadata,
      hydrateClass cardPlan cardHead framedBody = .ok (.class_ newHead newBody) ∧
      FramesHead cardPlan cardHead newHead ∧ newHead.bases = [] ∧
      blockStatements newBody = [assignedMember, constructor, run, getter, metadata] ∧
      (run = methodMember ∨ run = methodMember.withLeading [blankLine]) ∧
      constructor.IsFunction [] (· = "__init__") ∧ getter.IsFunction ["property"] (· = "el") ∧
      metadata.IsFunction ["staticmethod"] (· = "cmp_meta") := by
  have hn : cardPlan.style.newline ∈ ["\n", "\r\n", "\r"] := by decide
  obtain ⟨t, ht⟩ := exists_hydrated_framed
  obtain ⟨newHead, newBody, front, constructor, back, getter, metadata, rfl, hhead, hsplit, hbody⟩ :=
    hydrated_class_framed hn ht
  have hbases := hhead.bases
  rw [show (cardHead.bases.filter fun base => ¬ base.IsListed cardPlan.clientBases) = [] by decide,
    List.map_nil, List.map_eq_nil_iff] at hbases
  have hnone : ∀ s ∈ blockStatements framedBody, isConstructor s = false := by
    simp [framedBody, blockStatements, assignedMember, eventMember, methodMember, isConstructor]
  have hremains : (blockStatements framedBody).filter
      (fun s => isConstructor s = true ∨ Remains cardPlan s) = [assignedMember, methodMember] := rfl
  obtain ⟨hfront, c, rfl, hc⟩ := hbody.created hnone
  obtain rfl : front = [assignedMember] := hfront
  obtain ⟨g, rfl, hg⟩ := hbody.element "el" rfl
  -- Behind the new constructor stands what becomes of the method.
  have hmembers := hbody.members
  rw [hremains, List.singleton_append, List.forall₂_cons] at hmembers
  obtain ⟨run, rest, hrun, hrest, rfl⟩ := List.forall₂_cons_left_iff.mp hmembers.2
  obtain rfl := List.forall₂_nil_left_iff.mp hrest
  refine ⟨hn, newHead, newBody, c, run, g, metadata, ht, hhead, hbases, hsplit, ?_, hc, ?_,
    hbody.metadata⟩
  · cases hrun with
    | opened hconstructor => cases hconstructor
    | same => exact .inl rfl
    | apart => exact .inr rfl
  · obtain ⟨head, body, rfl, hdecorators, hname⟩ := hg
    exact ⟨head, body, rfl, hdecorators, hname (by decide)⟩

end Hydration.Transform
