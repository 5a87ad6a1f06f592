import Hydration.Proofs.ClassFrames
import Hydration.Proofs.WrittenComments

/-! Comments of a hydrated class. Those of what is dropped, left out or replaced go with it. The others stay
in order, but for those around a suite on the line of its clause, around the bases when all are dropped, and
around the comma of the last base when a base is dropped. -/

namespace Hydration.Syntax

section Lists

variable {body front back : List Stmt} {s : Stmt}

theorem commentsOfStmts_eq_flatMap (body : List Stmt) :
    commentsOfStmts body = body.flatMap Stmt.comments := by
  induction body with
  | nil => rfl
  | cons s body ih => rw [commentsOfStmts, ih, List.flatMap_cons]

theorem commentsOfStmts_append :
    commentsOfStmts (front ++ back) = commentsOfStmts front ++ commentsOfStmts back := by
  simp only [commentsOfStmts_eq_flatMap, List.flatMap_append]

theorem commentsOfStmts_cons : commentsOfStmts (s :: body) = s.comments ++ commentsOfStmts body := rfl

theorem commentsOfMembers_append (front back : List Member) :
    commentsOfMembers (front ++ back) = commentsOfMembers front ++ commentsOfMembers back := by
  induction front with
  | nil => rfl
  | cons member front ih => cases member <;> simp [commentsOfMembers, ih]

/-- Without its comma, a member has lost the comments around this. -/
theorem commentsOfMembers_singleton (member : Member) : commentsOfMembers [member] =
    commentsOfMembers [member.withComma none] ++ commentsOfMark member.comma := by
  cases member <;> simp [commentsOfMembers, commentsOfMark, Member.withComma, Member.comma]

theorem comments_withLeading {leading : List EmptyLine}
    (h : commentsOfLines leading = commentsOfLines s.leading) :
    (s.withLeading leading).comments = s.comments := by
  cases s with
  | line line => simp only [Stmt.withLeading, Stmt.comments, Line.comments, h, Stmt.leading]
  | func head body => simp only [Stmt.withLeading, Stmt.comments, FuncHead.comments, h, Stmt.leading]
  | class_ head body =>
    have henclosed : ({ head with leading } : ClassHead).enclosed = head.enclosed := rfl
    simp only [Stmt.withLeading, Stmt.comments, ClassHead.comments, henclosed, h, Stmt.leading]
  | compound clauses =>
    cases clauses with
    | nil => rfl
    | cons clause clauses =>
      obtain ⟨lines, head, beforeColon, body⟩ := clause
      simp only [Stmt.withLeading, Clause.withLeading, Stmt.comments, commentsOfClauses, h, Stmt.leading,
        Clause.leading]

/-- A blank line has no comment. -/
theorem comments_withBlank (s : Stmt) : (Transform.withBlank s).comments = s.comments := by
  unfold Transform.withBlank
  split
  · rename_i hleading
    exact comments_withLeading (by rw [List.isEmpty_iff.mp hleading]; rfl)
  · rfl

end Lists

/-- The comments of a suite of which some statements stay, with what these have themselves. Those around the
statements on the line of a clause go with them. -/
def Suite.remaining (stays : Stmt → Option (List String)) : Suite → List String
  | .block header _ body footer =>
    header.comments ++ (body.filterMap stays).flatten ++ commentsOfLines footer
  | .inline gap entries tail =>
    match stays (.line { entries }) with
    | some comments => gap.comments ++ comments ++ tail.comments
    | none => []

/-- The comments around statements that stay on the line of a clause. -/
def Suite.around (stays : Stmt → Option (List String)) : Suite → List String
  | .block .. => []
  | .inline gap entries tail =>
    match stays (.line { entries }) with
    | some _ => gap.comments ++ tail.comments
    | none => []

end Hydration.Syntax

namespace Hydration.Transform

open Syntax

/-- What a constructor has of comments, those of its statements that are left out or lose targets apart. -/
def constructorStays (plan : Plan) (dropSuper : Bool) (head : FuncHead) (s : Stmt) :
    Option (List String) :=
  (fateOf (receiverOf head.params) plan.component.elementMember dropSuper s).map Stmt.comments

/-- The comments of a member that stays. -/
def memberStays (plan : Plan) (dropSuper : Bool) (s : Stmt) : Option (List String) :=
  match s with
  | .func head inner =>
    if head.name = "__init__" then
      some (head.comments ++ inner.remaining (constructorStays plan dropSuper head))
    else if isLeftOut plan s then none else some s.comments
  | _ => if isLeftOut plan s then none else some s.comments

/-- The comments around the statements of a constructor on its own line. -/
def memberLoses (plan : Plan) (dropSuper : Bool) (s : Stmt) : List String :=
  match s with
  | .func head inner =>
    if head.name = "__init__" then inner.around (constructorStays plan dropSuper head) else []
  | _ => []

/-- The comments of a head without the bases and decorators that are listed. -/
def remainingOfHead (plan : Plan) (head : ClassHead) : List String :=
  { head with
    bases := head.bases.filter fun base => ¬ base.IsListed plan.clientBases
    decorators := head.decorators.filter fun d => ¬ d.IsListed plan.bootstrapDecorators }.comments

/-- Where bases are dropped and no keywords stand behind them, the comments in the brackets when no base is
left, and those around the comma of the last one that is. -/
def lostOfHead (plan : Plan) (head : ClassHead) : List String :=
  let kept := head.bases.filter fun base => ¬ base.IsListed plan.clientBases
  if kept.length = head.bases.length then []
  else match head.keywords, kept.getLast? with
    | [], none => head.opening ++ head.closing
    | [], some last => commentsOfMark last.comma
    | _ :: _, _ => []

/-- The comments of a class, those of what is dropped, left out or replaced apart. -/
def remainingComments (plan : Plan) (head : ClassHead) (body : Suite) : List String :=
  remainingOfHead plan head ++ body.remaining (memberStays plan (losesBases plan head))

/-- The comments of these that the hydrated class does not have. -/
def lostComments (plan : Plan) (head : ClassHead) (body : Suite) : List String :=
  lostOfHead plan head ++ body.around (memberStays plan (losesBases plan head)) ++
    (blockStatements body).flatMap (memberLoses plan (losesBases plan head))

/-- A statement that is read from a text of its own for a class with these members. -/
inductive IsGenerated (plan : Plan) (body : List Stmt) (s : Stmt) : Prop where
  | start {head : FuncHead} {inner : Suite} {start : List Stmt} (hm : .func head inner ∈ body)
      (hname : head.name = "__init__") (h : bootstrap plan (receiverOf head.params) = .ok start)
      (hs : s ∈ start) : IsGenerated plan body s
  | constructor (h : newConstructor plan = .ok s) : IsGenerated plan body s
  | element {name : String} (hn : name ∈ plan.component.elementMember)
      (h : elementGetter plan name = .ok s) : IsGenerated plan body s
  | metadata (h : metadataMethod plan = .ok s) : IsGenerated plan body s

/-- All but so many of the old comments are among the new ones, in order, and there are no others where
none are added. -/
def Accounts (quiet : Prop) (old : List String) (lost : Nat) (new : List String) : Prop :=
  ∃ survivors : List String, survivors.Sublist old ∧ survivors.Sublist new ∧
    survivors.length + lost = old.length ∧ (quiet → survivors = new)

section Accounts

variable {quiet : Prop} {old old' new new' front back added : List String} {n m : Nat}

theorem Accounts.same (comments : List String) : Accounts quiet comments 0 comments :=
  ⟨comments, List.Sublist.refl _, List.Sublist.refl _, rfl, fun _ => rfl⟩

theorem Accounts.lost (comments : List String) : Accounts quiet comments comments.length [] :=
  ⟨[], List.nil_sublist _, List.nil_sublist _, Nat.zero_add _, fun _ => rfl⟩

theorem Accounts.append (h : Accounts quiet old n new) (h' : Accounts quiet old' m new') :
    Accounts quiet (old ++ old') (n + m) (new ++ new') := by
  obtain ⟨survivors, hold, hnew, hlength, hquiet⟩ := h
  obtain ⟨survivors', hold', hnew', hlength', hquiet'⟩ := h'
  refine ⟨survivors ++ survivors', hold.append hold', hnew.append hnew', ?_, fun hq => ?_⟩
  · rw [List.length_append, List.length_append]
    omega
  · rw [hquiet hq, hquiet' hq]

theorem Accounts.within (h : Accounts quiet old n new) (front back : List String) :
    Accounts quiet (front ++ old ++ back) n (front ++ new ++ back) := by
  have hall : Accounts quiet (front ++ old ++ back) (0 + n + 0) (front ++ new ++ back) :=
    ((Accounts.same front).append h).append (Accounts.same back)
  rwa [Nat.zero_add, Nat.add_zero] at hall

theorem Accounts.insert (h : Accounts quiet old n (front ++ back)) (ha : quiet → added = []) :
    Accounts quiet old n (front ++ added ++ back) := by
  obtain ⟨survivors, hold, hnew, hlength, hquiet⟩ := h
  refine ⟨survivors, hold, hnew.trans ?_, hlength, fun hq => ?_⟩
  · rw [List.append_assoc]
    exact (List.Sublist.refl front).append (List.sublist_append_right added back)
  · rw [hquiet hq, ha hq, List.append_nil]

theorem Accounts.behind (h : Accounts quiet old n front) (ha : quiet → added = []) :
    Accounts quiet old n (front ++ added) := by
  have hall : Accounts quiet old n (front ++ added ++ []) :=
    Accounts.insert (by rwa [List.append_nil]) ha
  rwa [List.append_nil] at hall

theorem Accounts.sublist (h : Accounts quiet old 0 new) : old.Sublist new := by
  obtain ⟨survivors, hold, hnew, hlength, -⟩ := h
  exact hold.eq_of_length hlength ▸ hnew

theorem Accounts.eq_zero (h : Accounts quiet old n new) (hq : quiet) (hs : old.Sublist new) :
    n = 0 := by
  obtain ⟨survivors, -, -, hlength, hquiet⟩ := h
  have hle := hs.length_le
  rw [← hquiet hq] at hle
  omega

end Accounts

section Head

variable {plan : Plan} {quiet : Prop} {names : List String} {head : ClassHead}

theorem dropLastComma_append (front : List Member) (last : Member) :
    dropLastComma (front ++ [last]) = front ++ [last.withComma none] := by
  induction front with
  | nil => rfl
  | cons base front ih =>
    rw [List.cons_append, dropLastComma, ih, List.cons_append]
    exact List.append_ne_nil_of_right_ne_nil _ (List.cons_ne_nil _ _)

theorem accounts_dropLastComma (front : List Member) (last : Member) :
    Accounts quiet (commentsOfMembers (front ++ [last])) (commentsOfMark last.comma).length
      (commentsOfMembers (dropLastComma (front ++ [last]))) := by
  have h : Accounts quiet (commentsOfMembers (front ++ [last.withComma none]) ++ commentsOfMark last.comma)
      (0 + (commentsOfMark last.comma).length)
      (commentsOfMembers (front ++ [last.withComma none]) ++ []) :=
    (Accounts.same _).append (Accounts.lost _)
  rwa [Nat.zero_add, List.append_nil, commentsOfMembers_append, List.append_assoc,
    ← commentsOfMembers_singleton, ← commentsOfMembers_append, ← commentsOfMembers_append,
    ← dropLastComma_append] at h

theorem accounts_dropBases (plan : Plan) (head : ClassHead) :
    Accounts quiet ({ head with
        bases := head.bases.filter fun base => ¬ base.IsListed plan.clientBases } : ClassHead).enclosed
      (lostOfHead plan head).length (dropBases plan.clientBases head).enclosed := by
  have hkept : (head.bases.filter fun base => !isListedBase plan.clientBases base) =
      head.bases.filter fun base => ¬ base.IsListed plan.clientBases := by
    refine List.filter_congr fun base _ => ?_
    simp [← isListedBase_iff]
  unfold dropBases lostOfHead
  dsimp only
  rw [hkept]
  generalize hk : (head.bases.filter fun base => ¬ base.IsListed plan.clientBases) = kept
  split_ifs with hall hkeywords hnone
  · rw [← hk, List.filter_eq_self.mpr]
    · exact Accounts.same _
    · exact List.length_filter_eq_length_iff.mp (hk ▸ hall)
  · rw [List.isEmpty_iff.mp hkeywords, List.isEmpty_iff.mp hnone]
    have hold : ({ head with bases := [], keywords := [] } : ClassHead).enclosed =
        head.opening ++ head.closing := by
      rw [ClassHead.enclosed, List.nil_append, commentsOfMembers, List.append_nil]
      rfl
    exact hold ▸ Accounts.lost _
  · rw [List.isEmpty_iff.mp hkeywords]
    have hne : kept ≠ [] := fun hnil => hnone (List.isEmpty_iff.mpr hnil)
    obtain ⟨front, last, rfl⟩ := (List.eq_nil_or_concat' kept).resolve_left hne
    simp only [List.getLast?_concat]
    have hbases (bases : List Member) : ({ head with bases, keywords := [] } : ClassHead).enclosed =
        head.opening ++ commentsOfMembers bases ++ head.closing := by
      rw [ClassHead.enclosed, List.append_nil]
      rfl
    rw [hbases, hbases]
    exact (accounts_dropLastComma front last).within _ _
  · cases hwords : head.keywords with
    | nil => exact absurd (List.isEmpty_iff.mpr hwords) hkeywords
    | cons keyword keywords => exact Accounts.same _

/-- What of the comments of a head the head of the hydrated class has. -/
theorem accounts_head (plan : Plan) (head : ClassHead) :
    Accounts quiet (remainingOfHead plan head) (lostOfHead plan head).length
      (dropDecorators plan.bootstrapDecorators (dropBases plan.clientBases head)).comments := by
  have hframes := framesHead plan head
  have henclosed : (dropDecorators plan.bootstrapDecorators (dropBases plan.clientBases head)).enclosed =
      (dropBases plan.clientBases head).enclosed := rfl
  have hdecorators := hframes.decorators
  have hleading := congrArg ClassHead.leading hframes.others
  have hafter := congrArg ClassHead.afterDecorators hframes.others
  have hgap := congrArg ClassHead.gap hframes.others
  have hname := congrArg ClassHead.afterName hframes.others
  have htypes := congrArg ClassHead.typeParams hframes.others
  have hcolon := congrArg ClassHead.beforeColon hframes.others
  dsimp only at hleading hafter hgap hname htypes hcolon
  simp only [ClassHead.comments, hleading, hafter, hgap, hname, htypes, hcolon, hdecorators, henclosed]
  exact (accounts_dropBases plan head).within _ _

end Head

section Body

variable {plan : Plan} {dropSuper : Bool} {quiet : Prop} {s t : Stmt} {body kept start members new : List Stmt}
  {inner : Suite} {stays : Stmt → Option (List String)} {n : Nat} {head : FuncHead}

/-- What of the comments of a suite its block has, when its statements have as many of theirs. -/
theorem accounts_suite
    (h : Accounts quiet ((blockStatements inner).filterMap stays).flatten n (commentsOfStmts new)) :
    Accounts quiet (inner.remaining stays) ((inner.around stays).length + n)
      (withStatements new inner).comments := by
  cases inner with
  | block header indent body footer =>
    rw [withStatements, Suite.comments, Suite.remaining, Suite.around, List.length_nil, Nat.zero_add]
    exact h.within _ _
  | inline gap entries tail =>
    have hnew : (withStatements new (.inline gap entries tail)).comments = commentsOfStmts new := by
      rw [withStatements, Suite.comments]
      exact List.append_nil _
    rw [hnew]
    rw [blockStatements] at h
    cases hs : stays (.line { entries }) with
    | none =>
      rw [List.filterMap_cons_none hs] at h
      simp only [Suite.remaining, Suite.around, hs, List.length_nil, Nat.zero_add]
      exact h
    | some comments =>
      rw [List.filterMap_cons_some hs, List.filterMap_nil, List.flatten_singleton] at h
      have hall := ((Accounts.lost gap.comments).append h).append (Accounts.lost tail.comments)
      rw [List.nil_append, List.append_nil] at hall
      simp only [Suite.remaining, Suite.around, hs, List.length_append]
      rwa [Nat.add_right_comm]

theorem params_comments_insertHost (params : Params) :
    (insertHost params).comments = params.comments := by
  obtain ⟨posonly, slash, plain, star, kwonly, kwarg⟩ := params
  have hhost : hostParam.comments = [] := rfl
  unfold insertHost
  split_ifs
  · rfl
  · simp [Params.comments, hhost]
  · cases plain with
    | nil => rfl
    | cons receiver plain => simp [Params.comments, hhost]

/-- The block adds its own comments to those of what stays. -/
theorem accounts_spliceBootstrap (hq : quiet → ∀ s ∈ start, s.comments = []) (kept : List Stmt) :
    Accounts quiet (commentsOfStmts kept) 0 (commentsOfStmts (spliceBootstrap start kept)) := by
  have hadded : quiet → commentsOfStmts start = [] := by
    intro h
    rw [commentsOfStmts_eq_flatMap, List.flatMap_eq_nil_iff]
    exact hq h
  have hspliced := spliced_spliceBootstrap start kept
  generalize spliceBootstrap start kept = new at hspliced
  cases hspliced with
  | @behind first rest =>
    rw [commentsOfStmts_cons, commentsOfStmts_cons, commentsOfStmts_append, ← List.append_assoc]
    exact (Accounts.same _).insert hadded
  | front =>
    have h : Accounts quiet (commentsOfStmts kept) 0 ([] ++ commentsOfStmts start ++ commentsOfStmts kept) :=
      Accounts.insert (Accounts.same (commentsOfStmts kept)) hadded
    rwa [List.nil_append, ← commentsOfStmts_append] at h

theorem accounts_prepareConstructor (hname : head.name = "__init__")
    (hq : quiet → ∀ s, IsGenerated plan [.func head inner] s → s.comments = [])
    (h : prepareConstructor plan dropSuper head inner = .ok t) :
    Accounts quiet (head.comments ++ inner.remaining (constructorStays plan dropSuper head))
      (inner.around (constructorStays plan dropSuper head)).length t.comments := by
  obtain ⟨start, hstart, -, rfl⟩ := prepareConstructor_eq_ok.mp h
  have hhead : ({ head with params := insertHost head.params } : FuncHead).comments = head.comments := by
    simp only [FuncHead.comments, params_comments_insertHost]
  rw [Stmt.comments, hhead]
  have hkept : ((blockStatements inner).filterMap (constructorStays plan dropSuper head)).flatten =
      commentsOfStmts (keptStatements plan.component (receiverOf head.params) dropSuper
        (blockStatements inner)) := by
    rw [keptStatements_eq, commentsOfStmts_eq_flatMap, List.flatMap_def, List.map_filterMap]
    rfl
  have hquiet : quiet → ∀ s ∈ start, s.comments = [] :=
    fun h s hs => hq h s (.start (List.mem_singleton_self _) hname hstart hs)
  have hsplice := accounts_spliceBootstrap hquiet
    (keptStatements plan.component (receiverOf head.params) dropSuper (blockStatements inner))
  rw [← hkept] at hsplice
  have hall := (accounts_suite hsplice).within head.comments []
  rwa [List.append_nil, List.append_nil] at hall

theorem IsGenerated.mono {body' : List Stmt} (h : IsGenerated plan body s) (hb : body ⊆ body') :
    IsGenerated plan body' s := by
  cases h with
  | start hm hname h hs => exact .start (hb hm) hname h hs
  | constructor h => exact .constructor h
  | element hn h => exact .element hn h
  | metadata h => exact .metadata h

theorem memberStays_of_not_isConstructor (h : isConstructor s = false) :
    memberStays plan dropSuper s = if isLeftOut plan s then none else some s.comments := by
  cases s with
  | func head inner =>
    have hname : ¬ head.name = "__init__" := fun he => by simp [isConstructor, he] at h
    rw [memberStays, if_neg hname]
  | _ => rfl

theorem memberLoses_of_not_isConstructor (h : isConstructor s = false) :
    memberLoses plan dropSuper s = [] := by
  cases s with
  | func head inner =>
    have hname : ¬ head.name = "__init__" := fun he => by simp [isConstructor, he] at h
    rw [memberLoses, if_neg hname]
  | _ => rfl

theorem accounts_member (hq : quiet → ∀ t, IsGenerated plan [s] t → t.comments = [])
    (h : HydratesTo plan dropSuper s members) :
    Accounts quiet (memberStays plan dropSuper s).toList.flatten (memberLoses plan dropSuper s).length
      (commentsOfStmts members) := by
  cases h with
  | @prepared head inner t hname h =>
    rw [memberStays, if_pos hname, memberLoses, if_pos hname, Option.toList_some, List.flatten_singleton,
      commentsOfStmts_cons, commentsOfStmts, List.append_nil]
    exact accounts_prepareConstructor hname hq h
  | leftOut hc h =>
    rw [memberStays_of_not_isConstructor hc, memberLoses_of_not_isConstructor hc, if_pos h]
    exact Accounts.same []
  | stays hc h =>
    rw [memberStays_of_not_isConstructor hc, memberLoses_of_not_isConstructor hc, h, if_neg Bool.false_ne_true,
      Option.toList_some, List.flatten_singleton, commentsOfStmts_cons, commentsOfStmts, List.append_nil]
    exact Accounts.same _

theorem accounts_members (hq : quiet → ∀ s, IsGenerated plan body s → s.comments = [])
    {parts : List (List Stmt)} (h : List.Forall₂ (HydratesTo plan dropSuper) body parts) :
    Accounts quiet (body.filterMap (memberStays plan dropSuper)).flatten
      (body.flatMap (memberLoses plan dropSuper)).length (commentsOfStmts parts.flatten) := by
  induction h with
  | nil => exact Accounts.same []
  | @cons s part body parts hs _ ih =>
    have hcons : ((s :: body).filterMap (memberStays plan dropSuper)).flatten =
        (memberStays plan dropSuper s).toList.flatten ++
          (body.filterMap (memberStays plan dropSuper)).flatten := by
      cases hm : memberStays plan dropSuper s with
      | none => rw [List.filterMap_cons_none hm]; rfl
      | some comments =>
        rw [List.filterMap_cons_some hm, List.flatten_cons, Option.toList_some, List.flatten_singleton]
    rw [hcons, List.flatMap_cons, List.length_append, List.flatten_cons, commentsOfStmts_append]
    refine (accounts_member (fun h t ht => ?_) hs).append (ih fun h t ht => ?_)
    · exact hq h t (ht.mono (List.cons_subset_cons s (List.nil_subset body)))
    · exact hq h t (ht.mono (List.subset_cons_self s body))

theorem GainsBlank.comments_eq (h : GainsBlank body new) : commentsOfStmts new = commentsOfStmts body := by
  cases h with
  | nowhere => rfl
  | @once front s back hl =>
    rw [commentsOfStmts_append, commentsOfStmts_append, commentsOfStmts_cons, commentsOfStmts_cons,
      comments_withLeading (by rw [hl]; rfl)]

theorem accounts_addConstructor {old : List String}
    (hq : quiet → ∀ s, IsGenerated plan body s → s.comments = [])
    (h : addConstructor plan body members = .ok new) (ha : Accounts quiet old n (commentsOfStmts members)) :
    Accounts quiet old n (commentsOfStmts new) := by
  rcases addConstructor_eq_ok.mp h with ⟨-, rfl⟩ | ⟨-, constructor, hnew, rfl⟩
  · exact ha
  · obtain ⟨c, back, hc, hinsert, hgains⟩ := insertConstructor_eq constructor members
    have hcomments : c.comments = constructor.comments := by
      rcases hc with rfl | rfl
      · rfl
      · exact comments_withBlank constructor
    rw [← hgains.comments_eq, commentsOfStmts_append] at ha
    rw [hinsert, commentsOfStmts_append, commentsOfStmts_append]
    refine ha.insert fun h => ?_
    rw [commentsOfStmts_cons, commentsOfStmts, List.append_nil, hcomments]
    exact hq h constructor (.constructor hnew)

/-- The members of a class and those that are generated account for the comments of the old ones. -/
theorem accounts_hydrateBody (hq : quiet → ∀ s, IsGenerated plan body s → s.comments = [])
    (h : hydrateBody plan dropSuper body = .ok new) :
    Accounts quiet (body.filterMap (memberStays plan dropSuper)).flatten
      (body.flatMap (memberLoses plan dropSuper)).length (commentsOfStmts new) := by
  obtain ⟨parts, members, element, metadata, hparts, hm, helement, hmeta, rfl⟩ := hydrateBody_eq_ok h
  have hmembers := accounts_addConstructor hq hm (accounts_members hq hparts)
  rw [commentsOfStmts_append, commentsOfStmts_append]
  refine (hmembers.behind fun hquiet => ?_).behind fun hquiet => ?_
  · rcases elementMembers_eq_ok.mp helement with ⟨-, rfl⟩ | ⟨name, getter, hname, hg, rfl⟩
    · rfl
    · rw [commentsOfStmts_cons, commentsOfStmts, List.append_nil, comments_withBlank]
      exact hq hquiet getter (.element hname hg)
  · rw [commentsOfStmts_cons, commentsOfStmts, List.append_nil, comments_withBlank]
    exact hq hquiet metadata (.metadata hmeta)

end Body

section Class

variable {plan : Plan} {head : ClassHead} {body : Suite} {t : Stmt}

theorem accounts_hydrateClass {quiet : Prop}
    (hq : quiet → ∀ s, IsGenerated plan (blockStatements body) s → s.comments = [])
    (h : hydrateClass plan head body = .ok t) :
    Accounts quiet (remainingComments plan head body) (lostComments plan head body).length t.comments := by
  obtain ⟨new, hnew, rfl⟩ := hydrateClass_eq_ok.mp h
  rw [Stmt.comments, lostComments, List.append_assoc, List.length_append, List.length_append]
  exact (accounts_head plan head).append (accounts_suite (accounts_hydrateBody hq hnew))

/-- The comments that do not belong to what is dropped, left out or replaced are in the hydrated class and in
what is written of it, in order, when none of them is lost. When one is lost and no generated statement has a
comment, the hydrated class does not have them all. -/
theorem comments_survive_iff (h : hydrateClass plan head body = .ok t) :
    (lostComments plan head body = [] →
      (remainingComments plan head body).Sublist t.comments ∧
        ∀ place, Occur (remainingComments plan head body) (t.render place)) ∧
    ((∀ s, IsGenerated plan (blockStatements body) s → s.comments = []) →
      (remainingComments plan head body).Sublist t.comments → lostComments plan head body = []) := by
  constructor
  · intro hnone
    have ha : Accounts False _ _ _ := accounts_hydrateClass False.elim h
    rw [hnone] at ha
    exact ⟨ha.sublist, fun place => (t.comments_occur place).sublist ha.sublist⟩
  · intro hq hs
    exact List.length_eq_zero_iff.mp ((accounts_hydrateClass id h).eq_zero hq hs)

end Class

/-- The card with a comment above it, one behind its colon and one below its members. -/
def notedHead : ClassHead := { cardHead with leading := [{ comment := some "# card" }] }

def notedBody : Suite :=
  .block { comment := some "# open" } none (blockStatements cardBody) [{ comment := some "# end" }]

theorem exists_hydrated_noted_card : ∃ t, hydrateClass cardPlan notedHead notedBody = .ok t := by
  have hbases : losesBases cardPlan notedHead = losesBases cardPlan cardHead := by decide +kernel
  have hbody : blockStatements notedBody = blockStatements cardBody := by rw [notedBody, blockStatements]
  rw [exists_hydrateClass_iff, hbases, hbody, ← exists_hydrateClass_iff]
  exact exists_hydrated_card

/-- A plan for a class without events and without an element. -/
def barePlan : Plan where
  component := { tag := "p-a", className := "A", sourcePath := "a.py" }

def bareHead : ClassHead := { name := "A" }

/-- The members `x = 1` with a comment, on the line of their class. -/
def inlineBody : Suite :=
  .inline .space [⟨.assign [⟨.name "x", {}⟩] (.number "1"), none⟩] { comment := some "# one" }

theorem comments_newConstructor_bare :
    (newConstructor barePlan).toOption.map Stmt.comments = some [] := by decide +kernel

theorem comments_metadataMethod_bare :
    (metadataMethod barePlan).toOption.map Stmt.comments = some [] := by decide +kernel

theorem exists_hydrated_inline : ∃ t, hydrateClass barePlan bareHead inlineBody = .ok t := by
  obtain ⟨c, hc, -⟩ := Option.map_eq_some_iff.mp comments_newConstructor_bare
  obtain ⟨metadata, hmeta, -⟩ := Option.map_eq_some_iff.mp comments_metadataMethod_bare
  rw [exists_hydrateClass_iff, exists_hydrateBody_iff, exists_mapM_eq_ok_iff]
  refine ⟨fun s hs => ?_, .inr ⟨c, toOption_eq_some.mp hc⟩, ⟨[], rfl⟩, metadata, toOption_eq_some.mp hmeta⟩
  obtain rfl := List.mem_singleton.mp hs
  exact ⟨_, rfl⟩

theorem comments_eq_nil_of_toOption {result : Except Error Stmt} {s : Stmt}
    (hc : result.toOption.map Stmt.comments = some []) (h : result = .ok s) : s.comments = [] := by
  subst h
  exact Option.some.inj hc

/-- The statements that are generated for these members are without comments. -/
theorem comments_generated_inline {s : Stmt} (h : IsGenerated barePlan (blockStatements inlineBody) s) :
    s.comments = [] := by
  cases h with
  | start hm hname h hs => cases List.mem_singleton.mp hm
  | constructor h => exact comments_eq_nil_of_toOption comments_newConstructor_bare h
  | element hn h => cases hn
  | metadata h => exact comments_eq_nil_of_toOption comments_metadataMethod_bare h

/-- The comments of a block stay, and the one behind a statement on the line of its class is lost. -/
theorem comments_survive_of_card :
    (∃ t, hydrateClass cardPlan notedHead notedBody = .ok t ∧
      ∀ place, Occur ["# card", "# open", "# end"] (t.render place)) ∧
    ∃ t, hydrateClass barePlan bareHead inlineBody = .ok t ∧
      remainingComments barePlan bareHead inlineBody = ["# one"] ∧ ¬ ["# one"].Sublist t.comments := by
  have hnoted : remainingComments cardPlan notedHead notedBody = ["# card", "# open", "# end"] := by
    decide +kernel
  have hkept : lostComments cardPlan notedHead notedBody = [] := by decide +kernel
  have hinline : remainingComments barePlan bareHead inlineBody = ["# one"] := by decide +kernel
  have hlost : lostComments barePlan bareHead inlineBody ≠ [] := by decide +kernel
  obtain ⟨t, ht⟩ := exists_hydrated_noted_card
  obtain ⟨s, hs⟩ := exists_hydrated_inline
  refine ⟨⟨t, ht, ?_⟩, s, hs, hinline, fun hsub => hlost ?_⟩
  · rw [← hnoted]
    exact ((comments_survive_iff ht).1 hkept).2
  · exact (comments_survive_iff hs).2 (fun _ => comments_generated_inline) (hinline.symm ▸ hsub)

end Hydration.Transform
