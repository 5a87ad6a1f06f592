import Hydration.Proofs.Signatures

/-! Members of a hydrated class. Each statement of the old body is prepared if it is a constructor, and
otherwise stays or is left out. The generated members stand between or behind them. -/

namespace Hydration.Transform

open Syntax

variable {plan : Plan} {dropSuper : Bool} {s t : Stmt} {body new members : List Stmt}

theorem isConstructor_iff : isConstructor s = true ↔
    ∃ head inner, s = .func head inner ∧ head.name = "__init__" := by
  cases s <;> simp [isConstructor]

theorem isConstructor_prepareConstructor {head : FuncHead} {inner : Suite}
    (hname : head.name = "__init__") (h : prepareConstructor plan dropSuper head inner = .ok t) :
    isConstructor t = true := by
  obtain ⟨start, -, -, rfl⟩ := prepareConstructor_eq_ok.mp h
  exact isConstructor_iff.mpr ⟨_, _, rfl, hname⟩

/-- A member that is not a constructor stays or is left out. -/
def isLeftOut (plan : Plan) (s : Stmt) : Bool :=
  providesMember (replacedNames plan.component) s || isPassLine s

/-- What becomes of a member. -/
inductive HydratesTo (plan : Plan) (dropSuper : Bool) : Stmt → List Stmt → Prop where
  | prepared {head : FuncHead} {inner : Suite} {t : Stmt} (hname : head.name = "__init__")
      (h : prepareConstructor plan dropSuper head inner = .ok t) :
      HydratesTo plan dropSuper (.func head inner) [t]
  | leftOut {s : Stmt} (hc : isConstructor s = false) (h : isLeftOut plan s = true) :
      HydratesTo plan dropSuper s []
  | stays {s : Stmt} (hc : isConstructor s = false) (h : isLeftOut plan s = false) :
      HydratesTo plan dropSuper s [s]

theorem hydrateMember_constructor {head : FuncHead} {inner : Suite} (hname : head.name = "__init__") :
    hydrateMember plan dropSuper (.func head inner) = .ok members ↔
      ∃ t, prepareConstructor plan dropSuper head inner = .ok t ∧ members = [t] := by
  simp only [hydrateMember, hname, beq_self_eq_true, if_true, bind_pure_eq_ok]

theorem hydrateMember_of_not_isConstructor (h : isConstructor s = false) :
    hydrateMember plan dropSuper s = .ok (if isLeftOut plan s then [] else [s]) := by
  cases s with
  | func head inner =>
    have hpass : isPassLine (.func head inner) = false := rfl
    have hname : ¬ (head.name == "__init__") = true := Bool.eq_false_iff.mp h
    rw [isLeftOut, hpass, Bool.or_false, hydrateMember, if_neg hname]
  | _ => rfl

theorem hydratesTo_of_hydrateMember (h : hydrateMember plan dropSuper s = .ok members) :
    HydratesTo plan dropSuper s members := by
  cases hc : isConstructor s with
  | true =>
    obtain ⟨head, inner, rfl, hname⟩ := isConstructor_iff.mp hc
    obtain ⟨t, ht, rfl⟩ := (hydrateMember_constructor hname).mp h
    exact .prepared hname ht
  | false =>
    obtain rfl := Except.ok.inj ((hydrateMember_of_not_isConstructor hc).symm.trans h)
    split
    · rename_i hl
      exact .leftOut hc hl
    · rename_i hl
      exact .stays hc (Bool.not_eq_true _ ▸ hl)

/-- A constructor is put in where there is none. -/
theorem addConstructor_eq_ok : addConstructor plan body members = .ok new ↔
    (body.any isConstructor = true ∧ new = members) ∨
      (¬ body.any isConstructor = true ∧
        ∃ c, newConstructor plan = .ok c ∧ new = insertConstructor c members) := by
  unfold addConstructor
  split
  · rename_i hc
    simp [hc, eq_comm]
  · rename_i hc
    rw [bind_pure_eq_ok]
    simp [hc]

theorem elementMembers_eq_ok {element : List Stmt} : elementMembers plan = .ok element ↔
    (plan.component.elementMember = none ∧ element = []) ∨
      ∃ name getter, plan.component.elementMember = some name ∧
        elementGetter plan name = .ok getter ∧ element = [withBlank getter] := by
  unfold elementMembers
  split
  · rename_i name hname
    rw [bind_pure_eq_ok]
    simp [hname]
  · rename_i hnone
    simp [hnone, eq_comm]

/-- The members that the old ones become, one list for each of them. -/
theorem hydrateBody_eq_ok (h : hydrateBody plan dropSuper body = .ok new) :
    ∃ parts members element metadata, List.Forall₂ (HydratesTo plan dropSuper) body parts ∧
      addConstructor plan body parts.flatten = .ok members ∧ elementMembers plan = .ok element ∧
      metadataMethod plan = .ok metadata ∧ new = members ++ element ++ [withBlank metadata] := by
  simp only [hydrateBody, bind_eq_ok] at h
  obtain ⟨parts, hp, members, hm, element, he, metadata, hmeta, h⟩ := h
  refine ⟨parts, members, element, metadata, ?_, hm, he, hmeta, (Except.ok.inj h).symm⟩
  exact (mapM_eq_ok.mp hp).imp fun _ _ => hydratesTo_of_hydrateMember

def Prepares (plan : Plan) (dropSuper : Bool) (old new : Stmt) : Prop :=
  ∃ head inner, old = .func head inner ∧ prepareConstructor plan dropSuper head inner = .ok new

/-- The prepared constructors stand where the old ones stood. -/
theorem constructors_flatten {parts : List (List Stmt)}
    (h : List.Forall₂ (HydratesTo plan dropSuper) body parts) :
    List.Forall₂ (Prepares plan dropSuper) (body.filter isConstructor)
      (parts.flatten.filter isConstructor) := by
  induction h with
  | nil => exact .nil
  | @cons s part body parts hs _ ih =>
    rw [List.flatten_cons, List.filter_append]
    cases hs with
    | @prepared head inner t hname ht =>
      have hold : isConstructor (.func head inner) = true := isConstructor_iff.mpr ⟨_, _, rfl, hname⟩
      have hnew := isConstructor_prepareConstructor hname ht
      rw [List.filter_cons_of_pos hold, List.filter_cons_of_pos hnew]
      exact .cons ⟨head, inner, rfl, ht⟩ ih
    | leftOut hc hl =>
      rw [List.filter_cons_of_neg (by simp [hc])]
      exact ih
    | stays hc hl =>
      rw [List.filter_cons_of_neg (by simp [hc]), List.filter_cons_of_neg (by simp [hc])]
      exact ih

theorem filter_isConstructor_eq_nil (h : ¬ body.any isConstructor = true) :
    body.filter isConstructor = [] :=
  List.filter_eq_nil_iff.mpr fun s hs hc => h (List.any_eq_true.mpr ⟨s, hs, hc⟩)

theorem not_isConstructor_flatten {parts : List (List Stmt)}
    (h : List.Forall₂ (HydratesTo plan dropSuper) body parts) (hnone : ¬ body.any isConstructor = true) :
    ∀ t ∈ parts.flatten, isConstructor t = false := by
  have hold := constructors_flatten h
  rw [filter_isConstructor_eq_nil hnone, List.forall₂_nil_left_iff, List.filter_eq_nil_iff] at hold
  exact fun t ht => Bool.eq_false_iff.mpr (hold t ht)

/-- No generated member stands in front of them. -/
theorem constructors_hydrateBody (h : hydrateBody plan dropSuper body = .ok new) :
    ∃ prepared generated, new.filter isConstructor = prepared ++ generated ∧
      List.Forall₂ (Prepares plan dropSuper) (body.filter isConstructor) prepared := by
  obtain ⟨parts, members, element, metadata, hparts, hm, -, -, rfl⟩ := hydrateBody_eq_ok h
  have hprepared := constructors_flatten hparts
  rcases addConstructor_eq_ok.mp hm with ⟨-, rfl⟩ | ⟨hc, -⟩
  · refine ⟨_, (element ++ [withBlank metadata]).filter isConstructor, ?_, hprepared⟩
    rw [List.append_assoc, List.filter_append]
  · refine ⟨[], _, rfl, ?_⟩
    rw [filter_isConstructor_eq_nil hc]
    exact .nil

theorem exists_mapM_eq_ok_iff {α β ε : Type} {f : α → Except ε β} {as : List α} :
    (∃ bs, as.mapM f = .ok bs) ↔ ∀ a ∈ as, ∃ b, f a = .ok b := by
  simp only [mapM_eq_ok]
  induction as with
  | nil => simp
  | cons a as ih =>
    rw [List.forall_mem_cons, ← ih]
    constructor
    · rintro ⟨bs, hbs⟩
      obtain ⟨b, rest, hb, hrest, rfl⟩ := List.forall₂_cons_left_iff.mp hbs
      exact ⟨⟨b, hb⟩, rest, hrest⟩
    · rintro ⟨⟨b, hb⟩, rest, hrest⟩
      exact ⟨b :: rest, .cons hb hrest⟩

theorem exists_addConstructor_iff : (∃ new, addConstructor plan body members = .ok new) ↔
    (body.any isConstructor = true ∨ ∃ c, newConstructor plan = .ok c) := by
  simp only [addConstructor_eq_ok]
  by_cases hc : body.any isConstructor = true
  · exact iff_of_true ⟨_, .inl ⟨hc, rfl⟩⟩ (.inl hc)
  · simp [hc, exists_comm (α := List Stmt)]

theorem exists_hydrateBody_iff : (∃ new, hydrateBody plan dropSuper body = .ok new) ↔
    (∃ parts, body.mapM (hydrateMember plan dropSuper) = .ok parts) ∧
      (body.any isConstructor = true ∨ ∃ c, newConstructor plan = .ok c) ∧
      (∃ element, elementMembers plan = .ok element) ∧ ∃ metadata, metadataMethod plan = .ok metadata := by
  simp only [hydrateBody, bind_eq_ok]
  constructor
  · rintro ⟨new, parts, hparts, members, hm, element, he, metadata, hmeta, -⟩
    exact ⟨⟨parts, hparts⟩, exists_addConstructor_iff.mp ⟨members, hm⟩, ⟨element, he⟩, metadata, hmeta⟩
  · rintro ⟨⟨parts, hparts⟩, hc, ⟨element, he⟩, metadata, hmeta⟩
    obtain ⟨members, hm⟩ := exists_addConstructor_iff.mpr hc
    exact ⟨_, parts, hparts, members, hm, element, he, metadata, hmeta, rfl⟩

theorem hydrateClass_eq_ok {head : ClassHead} {body : Suite} : hydrateClass plan head body = .ok t ↔
    ∃ new, hydrateBody plan (losesBases plan head) (blockStatements body) = .ok new ∧
      t = .class_ (dropDecorators plan.bootstrapDecorators (dropBases plan.clientBases head))
        (withStatements new body) :=
  bind_pure_eq_ok

theorem exists_hydrateClass_iff {head : ClassHead} {body : Suite} :
    (∃ t, hydrateClass plan head body = .ok t) ↔
    ∃ new, hydrateBody plan (losesBases plan head) (blockStatements body) = .ok new := by
  simp only [hydrateClass_eq_ok]
  constructor
  · rintro ⟨t, new, hnew, -⟩
    exact ⟨new, hnew⟩
  · rintro ⟨new, hnew⟩
    exact ⟨_, new, hnew, rfl⟩

theorem blockStatements_withStatements (statements : List Stmt) (body : Suite) :
    blockStatements (withStatements statements body) = statements := by
  cases body <;> rfl

/-- The constructors of a class come first among those of the hydrated class, in order. -/
theorem constructors_hydrateClass {head : ClassHead} {body : Suite}
    (h : hydrateClass plan head body = .ok t) :
    ∃ newHead newBody prepared generated, t = .class_ newHead newBody ∧
      newHead.bases = (dropBases plan.clientBases head).bases ∧
      (blockStatements newBody).filter isConstructor = prepared ++ generated ∧
      List.Forall₂ (Prepares plan (losesBases plan head)) ((blockStatements body).filter isConstructor)
        prepared := by
  obtain ⟨new, hnew, rfl⟩ := hydrateClass_eq_ok.mp h
  obtain ⟨prepared, generated, hg, hprepared⟩ := constructors_hydrateBody hnew
  refine ⟨_, _, prepared, generated, rfl, rfl, ?_, hprepared⟩
  rw [blockStatements_withStatements]
  exact hg

def cardPlan : Plan where
  component := { tag := "p-a", className := "A", sourcePath := "a.py"
                 events := [{ name := "opened" }], elementRef := some "el" }
  clientBases := ["HTMLElement"]

def cardHead : ClassHead := { name := "A", bases := [.item (.name "HTMLElement") none] }

/-- The attribute of `self` with a name. -/
def ofSelf (name : String) : Expr := .attribute (.name "self") {} name

def cardConstructor : FuncHead := { name := "__init__", params := { params := [{ name := "self" }] } }

/-- A text, the call of the constructor above, and `self.mirror = self.el = None`. -/
def cardLines : List Stmt :=
  [.line { entries := [⟨.expr (.string "'doc'"), none⟩] },
    .line { entries := [⟨.expr (.call (.attribute (.call (.name "super") .empty .empty [] .empty) {}
      "__init__") .empty .empty [] .empty), none⟩] },
    .line { entries := [⟨.assign [⟨ofSelf "mirror", {}⟩, ⟨ofSelf "el", {}⟩] (.name "None"), none⟩] }]

def cardBody : Suite := .block {} none [.func cardConstructor (.block {} none cardLines [])] []

theorem exists_hydrated_card : ∃ t, hydrateClass cardPlan cardHead cardBody = .ok t := by
  have hok : (hydrateClass cardPlan cardHead cardBody).toOption.isSome = true := by decide +kernel
  obtain ⟨t, ht⟩ := Option.isSome_iff_exists.mp hok
  exact ⟨t, toOption_eq_some.mp ht⟩

end Hydration.Transform
