import Hydration.Proofs.ClassFrames
import Hydration.Proofs.GeneratedMembers

/-! Constructors in the scope of a class. A class also binds those that stand in the clauses of compound
statements. They are kept as they are, while the constructors among the members of a hydrated class take
the host and hold the block. -/

namespace Hydration.Transform

open Syntax

/-- A constructor that running a statement of a class body may bind: the statement itself, or one in a
clause of it at any depth. -/
inductive Binds (c : Stmt) : Stmt → Prop where
  | itself (h : isConstructor c = true) : Binds c c
  | within {clauses : List Clause} {clause : Clause} {s : Stmt} (hc : clause ∈ clauses)
      (hs : s ∈ blockStatements clause.body) (h : Binds c s) : Binds c (.compound clauses)

/-- A statement among these binds the constructor in one of its clauses. -/
def BindsWithin (c : Stmt) (body : List Stmt) : Prop :=
  ∃ s ∈ body, isConstructor s = false ∧ Binds c s

def TakesHost (params : Params) : Prop :=
  ∃ p ∈ params.posonly ++ params.params ++ params.kwonly, p.name = hostName

/-- A function that takes the host and holds the block for its receiver. -/
def Bootstrapped (plan : Plan) (c : Stmt) : Prop :=
  ∃ head body front block back, c = .func head body ∧ TakesHost head.params ∧
    blockStatements body = front ++ block ++ back ∧ IsBlock plan (receiverOf head.params) block

/-- The receivers of the constructors among the members are names. -/
def PlainReceivers (body : List Stmt) : Prop :=
  ∀ head inner, .func head inner ∈ body → head.name = "__init__" → IsPlainName (receiverOf head.params)

section Binding

variable {c s : Stmt} {body new : List Stmt} {plan : Plan} {dropSuper : Bool}

theorem Binds.isConstructor (h : Binds c s) : isConstructor c = true := by
  induction h with
  | itself h => exact h
  | within _ _ _ ih => exact ih

theorem binds_compound_iff {clauses : List Clause} : Binds c (.compound clauses) ↔
    ∃ clause ∈ clauses, ∃ s ∈ blockStatements clause.body, Binds c s := by
  constructor
  · intro h
    cases h with
    | itself h => cases h
    | within hc hs h => exact ⟨_, hc, _, hs, h⟩
  · rintro ⟨clause, hc, s, hs, h⟩
    exact .within hc hs h

theorem Binds.eq_compound (h : Binds c s) (hs : Transform.isConstructor s = false) :
    ∃ clauses, s = .compound clauses := by
  cases h with
  | itself h => rw [h] at hs; cases hs
  | within => exact ⟨_, rfl⟩

theorem Binds.eq_of_isConstructor (h : Binds c s) (hs : Transform.isConstructor s = true) : c = s := by
  cases h with
  | itself => rfl
  | within => cases hs

theorem binds_withLeading (hs : Transform.isConstructor s = false) (leading : List EmptyLine) :
    Binds c (s.withLeading leading) ↔ Binds c s := by
  cases s with
  | compound clauses =>
    cases clauses with
    | nil => exact Iff.rfl
    | cons first clauses =>
      obtain ⟨lines, head, beforeColon, inner⟩ := first
      rw [Stmt.withLeading, binds_compound_iff, binds_compound_iff, List.exists_mem_cons_iff,
        List.exists_mem_cons_iff]
      rfl
  | _ =>
    have hnew := (isConstructor_withLeading _ leading).trans hs
    refine iff_of_false (fun h => ?_) (fun h => ?_)
    · obtain ⟨clauses, he⟩ := h.eq_compound hnew
      cases he
    · obtain ⟨clauses, he⟩ := h.eq_compound hs
      cases he

theorem bindsWithin_append {front back : List Stmt} :
    BindsWithin c (front ++ back) ↔ BindsWithin c front ∨ BindsWithin c back := by
  simp only [BindsWithin, List.mem_append, or_and_right, exists_or]

theorem bindsWithin_cons : BindsWithin c (s :: body) ↔
    (Transform.isConstructor s = false ∧ Binds c s) ∨ BindsWithin c body :=
  List.exists_mem_cons_iff ..

theorem GainsBlank.bindsWithin_iff (h : GainsBlank body new) :
    BindsWithin c new ↔ BindsWithin c body := by
  cases h with
  | nowhere => exact Iff.rfl
  | @once front s back =>
    rw [bindsWithin_append, bindsWithin_append, bindsWithin_cons, bindsWithin_cons,
      isConstructor_withLeading]
    refine or_congr_right (or_congr_left (and_congr_right fun hs => ?_))
    exact binds_withLeading hs _

theorem remains_compound (plan : Plan) (clauses : List Clause) : Remains plan (.compound clauses) :=
  remains_iff.mpr ⟨rfl, rfl⟩

/-- What stands in a clause is neither left out nor added. -/
theorem bindsWithin_flatten {parts : List (List Stmt)}
    (h : List.Forall₂ (HydratesTo plan dropSuper) body parts) :
    BindsWithin c parts.flatten ↔ BindsWithin c body := by
  have hfilter (stmts : List Stmt) :
      BindsWithin c stmts ↔ BindsWithin c (stmts.filter fun s => !Transform.isConstructor s) := by
    simp only [BindsWithin, List.mem_filter, Bool.not_eq_true', and_assoc, and_self_left]
  rw [hfilter, kept_flatten h]
  constructor
  · rintro ⟨s, hs, hsc, hb⟩
    exact ⟨s, (List.mem_filter.mp hs).1, hsc, hb⟩
  · rintro ⟨s, hs, hsc, hb⟩
    obtain ⟨clauses, rfl⟩ := hb.eq_compound hsc
    exact ⟨_, List.mem_filter.mpr ⟨hs, by simpa using remains_compound plan clauses⟩, hsc, hb⟩

end Binding

section Bootstrapped

variable {plan : Plan} {dropSuper : Bool} {dropsSuper : Prop} {c s t : Stmt} {params : Params}
  {body : List Stmt} {name : String}

theorem takesHost_insertHost (params : Params) : TakesHost (insertHost params) := by
  unfold insertHost
  split_ifs with htakes hposonly
  · obtain ⟨p, hp, hname⟩ := List.any_eq_true.mp htakes
    exact ⟨p, hp, beq_iff_eq.mp hname⟩
  · exact ⟨hostParam, by simp, rfl⟩
  · split
    · exact ⟨hostParam, by simp, rfl⟩
    · exact ⟨hostParam, by simp, rfl⟩

theorem Spliced.exists_split {block kept new : List Stmt} (h : Spliced block kept new) :
    ∃ front back, new = front ++ block ++ back := by
  cases h with
  | @behind first rest => exact ⟨[first], rest, by simp⟩
  | front => exact ⟨[], kept, by simp⟩

theorem bootstrapped_of_opens (hp : PlainlyNamed plan) (h : OpensWithBlock plan dropsSuper s t)
    (hr : ∀ head inner, s = .func head inner → IsPlainName (receiverOf head.params)) :
    Bootstrapped plan t := by
  obtain ⟨head, old, inner, first, rest, kept, rfl, rfl, -, hblock, hspliced, -⟩ := h
  obtain ⟨front, back, hbody⟩ := hspliced.exists_split
  refine ⟨_, inner, front, first :: rest, back, rfl, takesHost_insertHost _, hbody, ?_⟩
  rw [receiverOf_insertHost]
  exact isBlock_of_bootstraps hp (hr head old rfl) hblock

theorem Bootstrapped.withBlank (h : Bootstrapped plan c) : Bootstrapped plan (withBlank c) := by
  obtain ⟨head, inner, front, block, back, rfl, htakes, hbody, hblock⟩ := h
  unfold Transform.withBlank
  split
  · exact ⟨_, inner, front, block, back, rfl, htakes, hbody, hblock⟩
  · exact ⟨_, inner, front, block, back, rfl, htakes, hbody, hblock⟩

theorem takesHost_iff {names : List String} (h : params.OnlyNames names) :
    TakesHost params ↔ hostName ∈ names := by
  rw [TakesHost, h.posonly, h.kwonly, ← h.names]
  simp

theorem receiverOf_onlyNames {names : List String} (h : params.OnlyNames (name :: names)) :
    receiverOf params = name := by
  obtain ⟨hposonly, hnames, -⟩ := h
  unfold receiverOf
  rw [hposonly, List.nil_append]
  cases hps : params.params with
  | nil => simp [hps] at hnames
  | cons p ps =>
    rw [hps, List.map_cons] at hnames
    exact (List.cons.inj hnames).1

theorem bootstrapped_newConstructor (hp : PlainlyWritten plan) (h : newConstructor plan = .ok c) :
    Bootstrapped plan c := by
  obtain ⟨head, inner, rfl, -, -, hparams, hblock⟩ := defines_newConstructor hp.toPlainlyNamed hp.indent h
  refine ⟨head, inner, [], blockStatements inner, [], rfl, ?_, by simp, ?_⟩
  · rw [takesHost_iff hparams]
    decide
  · rw [receiverOf_onlyNames hparams]
    exact hblock

theorem PlainReceivers.tail (h : PlainReceivers (s :: body)) : PlainReceivers body :=
  fun head inner hm => h head inner (List.mem_cons_of_mem s hm)

theorem bootstrapped_of_mem_flatten (hp : PlainlyNamed plan) (hr : PlainReceivers body)
    {parts : List (List Stmt)} (h : List.Forall₂ (HydratesTo plan dropSuper) body parts) :
    ∀ t ∈ parts.flatten, isConstructor t = true → Bootstrapped plan t := by
  induction h with
  | nil => exact fun t ht => absurd ht List.not_mem_nil
  | @cons s part body parts hs _ ih =>
    intro t ht hc
    rw [List.flatten_cons, List.mem_append] at ht
    refine ht.elim (fun ht => ?_) fun ht => ih hr.tail t ht hc
    cases hs with
    | @prepared head inner t' hname hprepare =>
      obtain rfl := List.mem_singleton.mp ht
      refine bootstrapped_of_opens hp (opensWithBlock_of_prepares hp.newline ⟨head, inner, rfl, hprepare⟩) ?_
      rintro head' inner' he
      obtain ⟨rfl, rfl⟩ := Stmt.func.inj he
      exact hr head inner List.mem_cons_self hname
    | leftOut => cases ht
    | stays hother =>
      obtain rfl := List.mem_singleton.mp ht
      rw [hother] at hc
      cases hc

theorem exists_isConstructor_flatten {parts : List (List Stmt)}
    (h : List.Forall₂ (HydratesTo plan dropSuper) body parts) (hc : body.any isConstructor = true) :
    ∃ t ∈ parts.flatten, isConstructor t = true := by
  have hprepared := constructors_flatten h
  obtain ⟨s, hs, hsc⟩ := List.any_eq_true.mp hc
  have hne : parts.flatten.filter isConstructor ≠ [] := by
    intro hnil
    rw [hnil, List.forall₂_nil_right_iff] at hprepared
    exact absurd (List.mem_filter.mpr ⟨hs, hsc⟩) (hprepared ▸ List.not_mem_nil)
  obtain ⟨t, ht⟩ := List.exists_mem_of_ne_nil _ hne
  exact ⟨t, (List.mem_filter.mp ht).1, (List.mem_filter.mp ht).2⟩

theorem isConstructor_withBlank (s : Stmt) : isConstructor (withBlank s) = isConstructor s := by
  unfold withBlank
  split
  · exact isConstructor_withLeading s _
  · rfl

/-- A constructor that is put in holds the block, also behind a blank line. -/
theorem bootstrapped_created {constructor : Stmt} (hp : PlainlyWritten plan)
    (h : newConstructor plan = .ok constructor) (hc : c = constructor ∨ c = withBlank constructor) :
    Bootstrapped plan c ∧ isConstructor c = true := by
  have hboot := bootstrapped_newConstructor hp h
  obtain ⟨head, inner, rfl, -, hname⟩ := isFunction_newConstructor h
  have hconstructor : isConstructor (.func head inner) = true :=
    isConstructor_iff.mpr ⟨head, inner, rfl, hname⟩
  rcases hc with rfl | rfl
  · exact ⟨hboot, hconstructor⟩
  · exact ⟨hboot.withBlank, (isConstructor_withBlank _).trans hconstructor⟩

/-- The members that are made of the old ones, with a constructor where there was none. -/
theorem constructors_addConstructor (hp : PlainlyWritten plan) (hr : PlainReceivers body)
    {parts : List (List Stmt)} {members : List Stmt}
    (h : List.Forall₂ (HydratesTo plan dropSuper) body parts)
    (hm : addConstructor plan body parts.flatten = .ok members) :
    (∀ t ∈ members, isConstructor t = true → Bootstrapped plan t) ∧
      (∃ t ∈ members, isConstructor t = true) ∧
      ∀ c, BindsWithin c members ↔ BindsWithin c body := by
  rcases addConstructor_eq_ok.mp hm with ⟨hany, rfl⟩ | ⟨hany, constructor, hnew, rfl⟩
  · exact ⟨bootstrapped_of_mem_flatten hp.toPlainlyNamed hr h, exists_isConstructor_flatten h hany,
      fun c => bindsWithin_flatten h⟩
  · obtain ⟨c, back, hcreated, hinsert, hgains⟩ := insertConstructor_eq constructor parts.flatten
    have hc := bootstrapped_created hp hnew hcreated
    have hnone : ∀ t ∈ parts.flatten.takeWhile isLine ++ back, isConstructor t = false := by
      have hself := hgains.filter_eq_self (not_isConstructor_flatten h hany)
      exact fun t ht => by simpa using List.filter_eq_self.mp hself t ht
    rw [hinsert]
    refine ⟨fun t ht htc => ?_, ⟨c, by simp, hc.2⟩, fun d => ?_⟩
    · by_cases htc' : t = c
      · exact htc' ▸ hc.1
      · have hother := hnone t (by simpa [htc'] using ht)
        rw [hother] at htc
        cases htc
    · have hskip : BindsWithin d [c] ↔ False := by simp [hc.2, BindsWithin]
      rw [bindsWithin_append, bindsWithin_append, hskip, or_false, ← bindsWithin_append,
        hgains.bindsWithin_iff, bindsWithin_flatten h]

/-- The property for the element takes no host, also where it is named like a constructor. -/
theorem element_cases (hp : PlainlyWritten plan) {element : List Stmt}
    (h : elementMembers plan = .ok element) :
    (∀ g ∈ element, ∃ head inner, g = .func head inner ∧ head.name ∈ plan.component.elementMember ∧
      ¬ TakesHost head.params) ∧ ∀ name ∈ plan.component.elementMember,
        ∃ g ∈ element, ∃ head inner, g = .func head inner ∧ head.name = name := by
  rcases elementMembers_eq_ok.mp h with ⟨hnone, rfl⟩ | ⟨name, getter, hname, hg, rfl⟩
  · refine ⟨List.forall_mem_nil _, fun name hn => ?_⟩
    rw [hnone] at hn
    cases hn
  · have hdefines := defines_withBlank (defines_elementGetter hp (hp.member name hname) hg)
    generalize withBlank getter = g at hdefines
    obtain ⟨head, inner, rfl, -, rfl, hparams, -⟩ := hdefines
    have hhost : ¬ TakesHost head.params := by
      rw [takesHost_iff hparams]
      decide
    refine ⟨fun g hg => ?_, fun name hn => ?_⟩
    · obtain rfl := List.mem_singleton.mp hg
      exact ⟨_, inner, rfl, hname, hhost⟩
    · obtain rfl := Option.some.inj (hname.symm.trans hn)
      exact ⟨_, List.mem_singleton_self _, _, inner, rfl, rfl⟩

theorem not_bindsWithin_of_forall_func (h : ∀ s ∈ body, ∃ head inner, s = .func head inner) :
    ¬ BindsWithin c body := by
  rintro ⟨s, hs, hsc, hb⟩
  obtain ⟨head, inner, rfl⟩ := h s hs
  obtain ⟨clauses, he⟩ := hb.eq_compound hsc
  cases he

/-- A body binds what its constructors are, and what its other statements bind. -/
theorem exists_binds_iff : (∃ s ∈ body, Binds c s) ↔
    (c ∈ body ∧ isConstructor c = true) ∨ BindsWithin c body := by
  constructor
  · rintro ⟨s, hs, hb⟩
    cases hsc : isConstructor s with
    | true =>
      obtain rfl := hb.eq_of_isConstructor hsc
      exact .inl ⟨hs, hsc⟩
    | false => exact .inr ⟨s, hs, hsc, hb⟩
  · rintro (⟨hc, h⟩ | ⟨s, hs, -, hb⟩)
    · exact ⟨c, hc, .itself h⟩
    · exact ⟨s, hs, hb⟩

end Bootstrapped

section Class

variable {plan : Plan} {head : ClassHead} {body : Suite} {c t : Stmt} {members element : List Stmt}
  {metadata : Stmt}

theorem not_bootstrapped_of_element (hp : PlainlyWritten plan) (h : elementMembers plan = .ok element)
    (hc : c ∈ element) : ¬ Bootstrapped plan c := by
  rintro ⟨head, inner, front, block, back, rfl, htakes, -⟩
  obtain ⟨head', inner', he, -, hhost⟩ := (element_cases hp h).1 _ hc
  obtain ⟨rfl, rfl⟩ := Stmt.func.inj he
  exact hhost htakes

/-- What a hydrated class binds: the constructors among its members, the property for the element where
it is named like one, and what the members bind in their clauses. -/
theorem exists_binds_hydrated_iff (hp : PlainlyWritten plan) (helement : elementMembers plan = .ok element)
    (hmeta : metadata.IsFunction ["staticmethod"] (· = "cmp_meta")) :
    (∃ s ∈ members ++ element ++ [metadata], Binds c s) ↔
      ((c ∈ members ∨ c ∈ element) ∧ isConstructor c = true) ∨ BindsWithin c members := by
  obtain ⟨head, inner, rfl, -, hname⟩ := hmeta
  have hmetadata : isConstructor (.func head inner) = false := by simp [isConstructor, hname]
  have hfunctions : ∀ s ∈ element ++ [Stmt.func head inner], ∃ head inner, s = .func head inner := by
    intro s hs
    rcases List.mem_append.mp hs with hs | hs
    · obtain ⟨head, inner, he, -⟩ := (element_cases hp helement).1 s hs
      exact ⟨head, inner, he⟩
    · exact ⟨head, inner, List.mem_singleton.mp hs⟩
  rw [exists_binds_iff, List.append_assoc, bindsWithin_append,
    or_iff_left (not_bindsWithin_of_forall_func hfunctions)]
  refine or_congr_left (and_congr_left fun hcc => ?_)
  have hne : c ≠ .func head inner := by
    rintro rfl
    rw [hmetadata] at hcc
    cases hcc
  simp only [List.mem_append, List.mem_singleton, hne, or_false]

/-- A hydrated class has a constructor among its members that takes the host and holds the block. All
that the class may bind do so when those in the clauses of the old one did, and when the element is not
named like a constructor. -/
theorem constructors_bootstrapped_iff (hp : PlainlyWritten plan)
    (hr : PlainReceivers (blockStatements body)) (h : hydrateClass plan head body = .ok t) :
    ∃ newHead newBody, t = .class_ newHead newBody ∧
      (∃ c ∈ blockStatements newBody, isConstructor c = true ∧ Bootstrapped plan c) ∧
      ((∀ c, (∃ s ∈ blockStatements newBody, Binds c s) → Bootstrapped plan c) ↔
        (∀ c, BindsWithin c (blockStatements body) → Bootstrapped plan c) ∧
          "__init__" ∉ plan.component.elementMember) := by
  simp only [hydrateClass, bind_eq_ok] at h
  obtain ⟨new, hnew, he⟩ := h
  obtain rfl := Except.ok.inj he
  obtain ⟨parts, members, element, metadata, hparts, hm, helement, hmeta, rfl⟩ := hydrateBody_eq_ok hnew
  obtain ⟨hall, ⟨first, hfirst, hfc⟩, hwithin⟩ := constructors_addConstructor hp hr hparts hm
  have hmetadata := isFunction_withBlank (isFunction_metadataMethod hp.newline hmeta)
  refine ⟨_, _, rfl, ?_⟩
  rw [blockStatements_withStatements]
  refine ⟨⟨first, by simp [hfirst], hfc, hall first hfirst hfc⟩, fun hnew => ⟨fun c hc => ?_, fun hinit => ?_⟩,
    fun hold c hc => ?_⟩
  · exact hnew c ((exists_binds_hydrated_iff hp helement hmetadata).mpr (.inr ((hwithin c).mpr hc)))
  · obtain ⟨g, hg, ownHead, own, rfl, hname⟩ := (element_cases hp helement).2 _ hinit
    refine not_bootstrapped_of_element hp helement hg (hnew _ ?_)
    refine (exists_binds_hydrated_iff hp helement hmetadata).mpr (.inl ⟨.inr hg, ?_⟩)
    exact isConstructor_iff.mpr ⟨ownHead, own, rfl, hname⟩
  · rcases (exists_binds_hydrated_iff hp helement hmetadata).mp hc with ⟨hm | hg, hcc⟩ | hin
    · exact hall c hm hcc
    · obtain ⟨ownHead, own, rfl, hname, -⟩ := (element_cases hp helement).1 c hg
      obtain ⟨ownHead', own', he, hinit⟩ := isConstructor_iff.mp hcc
      obtain ⟨rfl, rfl⟩ := Stmt.func.inj he
      exact absurd (hinit ▸ hname) hold.2
    · exact hold.1 c ((hwithin c).mp hin)

end Class

theorem plainlyWritten_cardPlan : PlainlyWritten cardPlan where
  toPlainlyNamed := plainlyNamed_cardPlan
  element := by decide
  member := by decide
  indent := by decide

/-- The card has no constructor in a clause, so all of them are prepared. -/
theorem constructors_bootstrapped_of_card :
    PlainlyWritten cardPlan ∧ PlainReceivers (blockStatements cardBody) ∧ ∃ newHead newBody,
      hydrateClass cardPlan cardHead cardBody = .ok (.class_ newHead newBody) ∧
      ∀ c, (∃ s ∈ blockStatements newBody, Binds c s) → Bootstrapped cardPlan c := by
  have hr : PlainReceivers (blockStatements cardBody) := by
    intro head inner hm _
    obtain ⟨rfl, rfl⟩ := Stmt.func.inj (List.mem_singleton.mp hm)
    decide
  obtain ⟨t, ht⟩ := exists_hydrated_card
  obtain ⟨newHead, newBody, rfl, -, hiff⟩ := constructors_bootstrapped_iff plainlyWritten_cardPlan hr ht
  refine ⟨plainlyWritten_cardPlan, hr, newHead, newBody, ht, hiff.mpr ⟨?_, by decide⟩⟩
  rintro c ⟨s, hs, hsc, -⟩
  obtain rfl := List.mem_singleton.mp hs
  cases hsc

end Hydration.Transform
