import Hydration.Proofs.SharedLines

/-! Members that share lines. The hydrated class, without its layout, is what the class without its layout
becomes, where each member of a shared line that stays would stay by itself and each constructor is such
that its lines may be taken apart. -/

namespace Hydration.Transform

open Syntax

/-- No member and no statement of a constructor is treated otherwise for the line that it shares. -/
structure LayoutFree (plan : Plan) (dropsSuper : Prop) (body : List Stmt) : Prop where
  members : ∀ line, .line line ∈ body → line.Shared → Remains plan (.line line) →
    ∀ entry ∈ line.entries, Remains plan entry.stmt.alone
  constructors : ∀ head inner, .func head inner ∈ body → head.name = "__init__" →
    Separable (receiverOf head.params) plan.component.elementMember dropsSuper (blockStatements inner)

section Members

variable {plan : Plan} {dropSuper : Bool} {s t : Stmt} {line : Line} {small : Small}
  {semi : Option Around} {head : FuncHead} {inner : Suite} {body members : List Stmt}

/-- What the layout leaves of what a member becomes. -/
def spreadMember (plan : Plan) (dropSuper : Bool) (s : Stmt) : List Stmt :=
  spreadAll ((hydrateMember plan dropSuper s).toOption.getD [])

theorem spreadMember_eq (h : hydrateMember plan dropSuper s = .ok members) :
    spreadMember plan dropSuper s = spreadAll members := by
  rw [spreadMember, h]
  rfl

theorem spreadMember_of_not_isConstructor (h : isConstructor s = false) :
    spreadMember plan dropSuper s = if isLeftOut plan s then [] else s.spread := by
  rw [spreadMember_eq (hydrateMember_of_not_isConstructor h)]
  split
  · rfl
  · exact spreadAll_singleton

theorem isLeftOut_lone (h : line.entries = [⟨small, semi⟩]) :
    isLeftOut plan (.line line) = isLeftOut plan small.alone := by
  obtain ⟨leading, entries, tail⟩ := line
  obtain rfl := h
  have hprovides (names : List String) : providesMember names (.line ⟨leading, [⟨small, semi⟩], tail⟩) =
      providesMember names small.alone := by
    cases small with
    | annAssign target colon typing value => cases value <;> rfl
    | _ => rfl
  rw [isLeftOut, isLeftOut, hprovides]
  rfl

theorem isLeftOut_shared (h : line.Shared) :
    isLeftOut plan (.line line) = isPassLine (.line line) := by
  have hprovides : providesMember (replacedNames plan.component) (.line line) = false := by
    refine Bool.eq_false_iff.mpr fun hp => ?_
    rcases providesMember_iff.mp hp with ⟨head, inner, he, -⟩ | hlone
    · cases he
    · exact not_lone_of_shared h hlone
  rw [isLeftOut, hprovides, Bool.false_or]

theorem spreadMember_line (line : Line) : spreadMember plan dropSuper (.line line) =
    if isLeftOut plan (.line line) then [] else spreadEntries line.entries :=
  spreadMember_of_not_isConstructor rfl

theorem spreadMember_alone (small : Small) : spreadMember plan dropSuper small.alone =
    if isLeftOut plan small.alone then [] else [small.alone] :=
  spreadMember_of_not_isConstructor rfl

theorem actsOnLines_spreadMember : ActsOnLines (spreadMember plan dropSuper) where
  lone := by
    intro line small semi hl
    rw [spreadMember_line, spreadMember_alone, isLeftOut_lone hl, hl]
    rfl
  shared := by
    intro line hs
    rw [spreadMember_line, isLeftOut_shared hs]
    split
    · rename_i hpass
      obtain ⟨own, he, hall⟩ := isPassLine_iff.mp hpass
      obtain rfl := Stmt.line.inj he
      refine .inr ⟨rfl, fun entry hentry => ?_⟩
      rw [hall entry hentry, spreadMember_alone, if_pos]
      exact Bool.or_true _
    · exact .inl rfl
  alone := by
    intro small
    rw [spreadMember_alone]
    split <;> simp

/-- A member that is no line and no constructor has no layout that counts. -/
theorem flatMap_spreadMember (hl : isLine s = false) (hc : isConstructor s = false) :
    s.spread.flatMap (spreadMember plan dropSuper) = spreadMember plan dropSuper s := by
  have hspread : ∃ t, s.spread = [t] ∧ isConstructor t = false ∧ isLeftOut plan t = isLeftOut plan s := by
    cases s with
    | line line => cases hl
    | func head inner => exact ⟨_, rfl, hc, rfl⟩
    | _ => exact ⟨_, rfl, rfl, rfl⟩
  obtain ⟨t, ht, htc, hleft⟩ := hspread
  rw [ht, List.flatMap_singleton, spreadMember_of_not_isConstructor hc,
    spreadMember_of_not_isConstructor htc, hleft, ht, spread_of_mem_spread (ht ▸ List.mem_singleton_self t)]

theorem remains_alone_iff : Remains plan small.alone ↔
    spreadMember plan dropSuper small.alone = [small.alone] := by
  have hc : isConstructor small.alone = false := rfl
  rw [remains_iff, spreadMember_alone, and_iff_right hc]
  cases isLeftOut plan small.alone <;> simp

theorem members_iff (line : Line) :
    spreadMember plan dropSuper (.line line) =
        (Stmt.line line).spread.flatMap (spreadMember plan dropSuper) ↔
      (line.Shared → Remains plan (.line line) →
        ∀ entry ∈ line.entries, Remains plan entry.stmt.alone) := by
  rw [actsOnLines_spreadMember.eq_iff]
  refine forall_congr' fun hs => imp_congr ?_ (forall₂_congr fun entry _ => remains_alone_iff.symm)
  have hc : isConstructor (.line line) = false := rfl
  rw [remains_iff, and_iff_right hc, spreadMember_line]
  split
  · rename_i hleft
    simp [hleft]
  · rename_i hleft
    refine iff_of_true (fun hnil => hleft ?_) (Bool.eq_false_iff.mpr hleft)
    rw [spreadEntries, List.map_eq_nil_iff] at hnil
    rw [isLeftOut_shared hs, isPassLine, hnil, List.all_nil]

theorem spread_func (head : FuncHead) (inner : Suite) :
    (Stmt.func head inner).spread = [.func { head with leading := [] } inner.spread] := by
  rw [Stmt.spread]

/-- The instance is registered by a call, so a block does not start with a text. -/
theorem exists_spread_start {receiver : String} {start : List Stmt} (hp : PlainlyNamed plan)
    (hr : IsPlainName receiver) (h : bootstrap plan receiver = .ok start) :
    ∃ first rest, spreadAll start = first :: rest ∧ ¬ first.Lone Small.IsText := by
  obtain ⟨first, rest, rfl, hblock⟩ := bootstraps_of_bootstrap hp.newline h
  obtain ⟨leading, small, tail, rfl, hcall⟩ := hblock.registers hr hp.register
  refine ⟨small.alone, spreadAll rest, rfl, fun hlone => ?_⟩
  obtain ⟨call, func, rfl, -, gap, before, args, after, rfl, -⟩ := hcall
  obtain ⟨value, he, htext⟩ := lone_alone.mp hlone
  obtain rfl := Small.expr.inj he
  rcases htext with ⟨text, hcore⟩ | ⟨left, between, right, hcore⟩
  · cases hcore
  · cases hcore

/-- A constructor is prepared if it is without its layout, and the layout makes no difference where its
lines may be taken apart. -/
theorem spread_prepareConstructor (hp : PlainlyNamed plan) (hr : IsPlainName (receiverOf head.params))
    (h : prepareConstructor plan dropSuper head inner = .ok t) :
    ∃ t', prepareConstructor plan dropSuper { head with leading := [] } inner.spread = .ok t' ∧
      (t.spread = t'.spread ↔ Separable (receiverOf head.params) plan.component.elementMember
        (dropSuper = true) (blockStatements inner)) := by
  obtain ⟨start, hstart, hd, rfl⟩ := prepareConstructor_eq_ok.mp h
  refine ⟨_, prepareConstructor_eq_ok.mpr ⟨start, hstart, hd, rfl⟩, ?_⟩
  obtain ⟨first, rest, hspread, hfirst⟩ := exists_spread_start hp hr hstart
  rw [spread_func, spread_func, spread_withStatements, spread_withStatements, blockStatements_spread,
    ← spreadAll_splice_iff hspread hfirst]
  simp

theorem exists_prepareConstructor_iff : (∃ t, prepareConstructor plan dropSuper head inner = .ok t) ↔
    (∃ start, bootstrap plan (receiverOf head.params) = .ok start) ∧
      DefaultsLast (insertHost head.params).positional := by
  simp only [prepareConstructor_eq_ok]
  constructor
  · rintro ⟨t, start, hstart, hd, -⟩
    exact ⟨⟨start, hstart⟩, hd⟩
  · rintro ⟨⟨start, hstart⟩, hd⟩
    exact ⟨_, start, hstart, hd, rfl⟩

theorem isConstructor_of_mem_spread (h : t ∈ s.spread) : isConstructor t = isConstructor s := by
  cases s with
  | line line =>
    obtain ⟨entry, -, rfl⟩ := List.mem_map.mp h
    rfl
  | _ =>
    obtain rfl := List.mem_singleton.mp h
    rfl

/-- A member is accepted if it is without its layout. -/
theorem exists_hydrateMember_spread_iff (s : Stmt) :
    (∀ t ∈ s.spread, ∃ members, hydrateMember plan dropSuper t = .ok members) ↔
      ∃ members, hydrateMember plan dropSuper s = .ok members := by
  cases hc : isConstructor s with
  | true =>
    obtain ⟨head, inner, rfl, hname⟩ := isConstructor_iff.mp hc
    have hok (head : FuncHead) (inner : Suite) (hname : head.name = "__init__") :
        (∃ members, hydrateMember plan dropSuper (.func head inner) = .ok members) ↔
          ∃ t, prepareConstructor plan dropSuper head inner = .ok t := by
      simp only [hydrateMember_constructor hname]
      rw [exists_comm]
      simp
    have hname' : ({ head with leading := [] } : FuncHead).name = "__init__" := hname
    rw [spread_func, List.forall_mem_singleton, hok _ _ hname, hok _ _ hname',
      exists_prepareConstructor_iff, exists_prepareConstructor_iff]
  | false =>
    refine iff_of_true (fun t ht => ?_) ⟨_, hydrateMember_of_not_isConstructor hc⟩
    exact ⟨_, hydrateMember_of_not_isConstructor ((isConstructor_of_mem_spread ht).trans hc)⟩

theorem spreadMember_constructor (hname : head.name = "__init__")
    (h : prepareConstructor plan dropSuper head inner = .ok t) :
    spreadMember plan dropSuper (.func head inner) = t.spread := by
  rw [spreadMember_eq ((hydrateMember_constructor hname).mpr ⟨t, h, rfl⟩), spreadAll_singleton]

theorem spreadMember_constructor_iff (hp : PlainlyNamed plan) (hr : IsPlainName (receiverOf head.params))
    (hname : head.name = "__init__") (h : prepareConstructor plan dropSuper head inner = .ok t) :
    spreadMember plan dropSuper (.func head inner) =
        (Stmt.func head inner).spread.flatMap (spreadMember plan dropSuper) ↔
      Separable (receiverOf head.params) plan.component.elementMember (dropSuper = true)
        (blockStatements inner) := by
  obtain ⟨t', ht', hiff⟩ := spread_prepareConstructor hp hr h
  have hname' : ({ head with leading := [] } : FuncHead).name = "__init__" := hname
  rw [spread_func, List.flatMap_singleton, spreadMember_constructor hname h,
    spreadMember_constructor hname' ht', hiff]

theorem length_flatMap_spreadMember (hl : isLine s = false)
    (hok : ∃ members, hydrateMember plan dropSuper s = .ok members) :
    (s.spread.flatMap (spreadMember plan dropSuper)).length ≤ (spreadMember plan dropSuper s).length := by
  cases hc : isConstructor s with
  | true =>
    have hone {head : FuncHead} {inner : Suite} (hname : head.name = "__init__")
        (hok : ∃ members, hydrateMember plan dropSuper (.func head inner) = .ok members) :
        (spreadMember plan dropSuper (.func head inner)).length = 1 := by
      obtain ⟨members, hm⟩ := hok
      obtain ⟨t, ht, -⟩ := (hydrateMember_constructor hname).mp hm
      obtain ⟨start, -, -, rfl⟩ := prepareConstructor_eq_ok.mp ht
      rw [spreadMember_constructor hname ht, spread_func, List.length_singleton]
    obtain ⟨head, inner, rfl, hname⟩ := isConstructor_iff.mp hc
    have hname' : ({ head with leading := [] } : FuncHead).name = "__init__" := hname
    have hspread := (exists_hydrateMember_spread_iff _).mpr hok
    rw [spread_func, List.forall_mem_singleton] at hspread
    rw [spread_func, List.flatMap_singleton, hone hname hok, hone hname' hspread]
  | false => rw [flatMap_spreadMember hl hc]

/-- Taken apart after or before, the members become the same if they are free of their layout. -/
theorem flatMap_spreadMember_iff (hp : PlainlyNamed plan) (hr : PlainReceivers body)
    (hok : ∀ s ∈ body, ∃ members, hydrateMember plan dropSuper s = .ok members) :
    body.flatMap (spreadMember plan dropSuper) =
        (spreadAll body).flatMap (spreadMember plan dropSuper) ↔
      LayoutFree plan (dropSuper = true) body := by
  have hconstructor {head : FuncHead} {inner : Suite} (hs : .func head inner ∈ body)
      (hname : head.name = "__init__") :
      spreadMember plan dropSuper (.func head inner) =
          (Stmt.func head inner).spread.flatMap (spreadMember plan dropSuper) ↔
        Separable (receiverOf head.params) plan.component.elementMember (dropSuper = true)
          (blockStatements inner) := by
    obtain ⟨members, hm⟩ := hok _ hs
    obtain ⟨t, ht, -⟩ := (hydrateMember_constructor hname).mp hm
    exact spreadMember_constructor_iff hp (hr head inner hs hname) hname ht
  rw [actsOnLines_spreadMember.flatMap_eq_iff fun s hs hl => length_flatMap_spreadMember hl (hok s hs)]
  constructor
  · intro h
    exact ⟨fun line hs => (members_iff line).mp (h _ hs),
      fun head inner hs hname => (hconstructor hs hname).mp (h _ hs)⟩
  · rintro ⟨hmembers, hconstructors⟩ s hs
    cases hl : isLine s with
    | true =>
      obtain ⟨line, rfl⟩ := exists_line_of_isLine hl
      exact (members_iff line).mpr (hmembers line hs)
    | false =>
      cases hc : isConstructor s with
      | true =>
        obtain ⟨head, inner, rfl, hname⟩ := isConstructor_iff.mp hc
        exact (hconstructor hs hname).mpr (hconstructors head inner hs hname)
      | false => exact (flatMap_spreadMember hl hc).symm

theorem spreadAll_flatten {parts : List (List Stmt)}
    (h : body.mapM (hydrateMember plan dropSuper) = .ok parts) :
    spreadAll parts.flatten = body.flatMap (spreadMember plan dropSuper) := by
  have hall := mapM_eq_ok.mp h
  clear h
  induction hall with
  | nil => rfl
  | cons hs _ ih => rw [List.flatten_cons, spreadAll_append, List.flatMap_cons, spreadMember_eq hs, ih]

theorem exists_mapM_spread_iff (body : List Stmt) :
    (∃ parts, (spreadAll body).mapM (hydrateMember plan dropSuper) = .ok parts) ↔
      ∃ parts, body.mapM (hydrateMember plan dropSuper) = .ok parts := by
  rw [exists_mapM_eq_ok_iff, exists_mapM_eq_ok_iff, spreadAll_eq_flatMap]
  simp only [List.mem_flatMap]
  constructor
  · exact fun h s hs => (exists_hydrateMember_spread_iff s).mp fun t ht => h t ⟨s, hs, ht⟩
  · rintro h t ⟨s, hs, ht⟩
    exact (exists_hydrateMember_spread_iff s).mpr (h s hs) t ht

theorem any_isConstructor_spreadAll (body : List Stmt) :
    (spreadAll body).any isConstructor = body.any isConstructor := by
  rw [spreadAll_eq_flatMap, List.any_flatMap]
  congr 1
  funext s
  rw [Bool.eq_iff_iff, List.any_eq_true]
  constructor
  · rintro ⟨t, ht, hc⟩
    rwa [← isConstructor_of_mem_spread ht]
  · intro hc
    obtain ⟨head, inner, rfl, hname⟩ := isConstructor_iff.mp hc
    rw [spread_func]
    exact ⟨_, List.mem_singleton_self _, hc⟩

theorem spreadAll_insertConstructor (c : Stmt) (members : List Stmt) :
    spreadAll (insertConstructor c members) = (spreadAll members).takeWhile isLine ++ c.spread ++
      (spreadAll members).dropWhile isLine := by
  have hc : (if (members.takeWhile isLine).isEmpty then c else withBlank c).spread = c.spread := by
    split
    · rfl
    · exact spread_withBlank c
  rw [(takeWhile_spreadAll members).1, (takeWhile_spreadAll members).2]
  unfold insertConstructor
  cases members.dropWhile isLine with
  | nil => rw [spreadAll_append, spreadAll_singleton, hc, spreadAll, List.append_nil]
  | cons next rest =>
    rw [spreadAll_append, spreadAll, spreadAll, spreadAll, hc, spread_withBlank, List.append_assoc]

/-- A constructor that is put in does not hide whether the members are the same. -/
theorem spreadAll_addConstructor_iff {members' new new' : List Stmt}
    (h : addConstructor plan body members = .ok new)
    (h' : addConstructor plan (spreadAll body) members' = .ok new') :
    spreadAll new = spreadAll new' ↔ spreadAll members = spreadAll members' := by
  rw [addConstructor_eq_ok, any_isConstructor_spreadAll] at h'
  rcases addConstructor_eq_ok.mp h with ⟨hc, rfl⟩ | ⟨hc, c, hnew, rfl⟩
  · obtain ⟨-, rfl⟩ := h'.resolve_right fun hn => hn.1 hc
    exact Iff.rfl
  · obtain ⟨-, c', hnew', rfl⟩ := h'.resolve_left fun hn => hc hn.1
    obtain rfl := Except.ok.inj (hnew.symm.trans hnew')
    obtain ⟨head, inner, rfl, -, -⟩ := isFunction_newConstructor hnew
    rw [spreadAll_insertConstructor, spreadAll_insertConstructor, spread_func, List.append_assoc,
      List.append_assoc, List.singleton_append, List.singleton_append]
    exact ⟨fun he => takeWhile_insert_inj rfl he, fun he => by rw [he]⟩

theorem spreadAll_hydrateBody_iff {new new' : List Stmt} (hp : PlainlyNamed plan) (hr : PlainReceivers body)
    (h : hydrateBody plan dropSuper body = .ok new)
    (h' : hydrateBody plan dropSuper (spreadAll body) = .ok new') :
    spreadAll new = spreadAll new' ↔ LayoutFree plan (dropSuper = true) body := by
  simp only [hydrateBody, bind_eq_ok] at h h'
  obtain ⟨parts, hparts, members, hm, element, he, metadata, hmeta, h⟩ := h
  obtain ⟨parts', hparts', members', hm', element', he', metadata', hmeta', h'⟩ := h'
  obtain rfl := Except.ok.inj (he.symm.trans he')
  obtain rfl := Except.ok.inj (hmeta.symm.trans hmeta')
  obtain rfl := Except.ok.inj h
  obtain rfl := Except.ok.inj h'
  have happend (members : List Stmt) : spreadAll (members ++ element ++ [withBlank metadata]) =
      spreadAll members ++ spreadAll (element ++ [withBlank metadata]) := by
    rw [List.append_assoc, spreadAll_append]
  rw [happend, happend, List.append_left_inj, spreadAll_addConstructor_iff hm hm',
    spreadAll_flatten hparts, spreadAll_flatten hparts', flatMap_spreadMember_iff hp hr]
  exact exists_mapM_eq_ok_iff.mp ⟨parts, hparts⟩

end Members

section Class

variable {plan : Plan} {head : ClassHead} {body : Suite} {t t' : Stmt}

theorem losesBases_withoutLeading (head : ClassHead) :
    losesBases plan { head with leading := [] } = losesBases plan head := by
  unfold losesBases dropBases
  dsimp only
  split_ifs <;> rfl

theorem framed_withoutLeading (plan : Plan) (head : ClassHead) :
    { dropDecorators plan.bootstrapDecorators (dropBases plan.clientBases { head with leading := [] }) with
      leading := [] } =
    { dropDecorators plan.bootstrapDecorators (dropBases plan.clientBases head) with leading := [] } := by
  unfold dropDecorators dropBases
  dsimp only
  split_ifs <;> rfl

/-- A class is accepted if it is without its layout. What it becomes has, without its layout, the members
that it has when it is taken apart before, in the case that it is free of its layout. -/
theorem hydrated_layout_free_iff (head : ClassHead) (hp : PlainlyNamed plan)
    (hr : PlainReceivers (blockStatements body)) :
    ((∃ t, hydrateClass plan { head with leading := [] } body.spread = .ok t) ↔
      ∃ t, hydrateClass plan head body = .ok t) ∧
    ∀ t t', hydrateClass plan head body = .ok t →
      hydrateClass plan { head with leading := [] } body.spread = .ok t' →
      (t.spread = t'.spread ↔ LayoutFree plan
        (head.bases ≠ [] ∧ (dropBases plan.clientBases head).bases = []) (blockStatements body)) := by
  constructor
  · rw [exists_hydrateClass_iff, exists_hydrateClass_iff, losesBases_withoutLeading,
      blockStatements_spread, exists_hydrateBody_iff, exists_hydrateBody_iff, exists_mapM_spread_iff,
      any_isConstructor_spreadAll]
  · intro t t' h h'
    simp only [hydrateClass, bind_eq_ok] at h h'
    obtain ⟨new, hnew, h⟩ := h
    obtain ⟨new', hnew', h'⟩ := h'
    obtain rfl := Except.ok.inj h
    obtain rfl := Except.ok.inj h'
    rw [losesBases_withoutLeading, blockStatements_spread] at hnew'
    rw [← propext losesBases_iff, ← spreadAll_hydrateBody_iff hp hr hnew hnew', Stmt.spread, Stmt.spread,
      spread_withStatements, spread_withStatements, framed_withoutLeading]
    simp

end Class

def superCall : Small :=
  .expr (.call (.attribute (.call (.name "super") .empty .empty [] .empty) {} "__init__") .empty .empty
    [] .empty)

/-- The member line `x = 1; y = 2` and a constructor on the line `super().__init__(); self.x = 1`. -/
def sharedBody : Suite :=
  .block {} none
    [.line { entries := [⟨.assign [⟨.name "x", {}⟩] (.number "1"), some {}⟩,
        ⟨.assign [⟨.name "y", {}⟩] (.number "2"), none⟩] },
      .func cardConstructor (.inline .space
        [⟨superCall, some {}⟩, ⟨.assign [⟨ofSelf "x", {}⟩] (.number "1"), none⟩] {})] []

def plainHead : ClassHead := { name := "A" }

theorem plainReceivers_sharedBody : PlainReceivers (blockStatements sharedBody) := by
  intro head inner hm _
  simp only [sharedBody, blockStatements, List.mem_cons, List.not_mem_nil, or_false, reduceCtorEq,
    false_or, Stmt.func.injEq] at hm
  obtain ⟨rfl, -⟩ := hm
  decide

theorem exists_hydrated_shared (head : ClassHead) (h : head ∈ [cardHead, plainHead]) :
    ∃ t, hydrateClass cardPlan head sharedBody = .ok t := by
  have hok : ∀ head ∈ [cardHead, plainHead],
      (hydrateClass cardPlan head sharedBody).toOption.isSome = true := by decide +kernel
  obtain ⟨t, ht⟩ := Option.isSome_iff_exists.mp (hok head h)
  exact ⟨t, toOption_eq_some.mp ht⟩

/-- Where the call of the constructor above is kept, no line of the class counts. -/
theorem layoutFree_sharedBody {dropsSuper : Prop} (h : ¬ dropsSuper) :
    LayoutFree cardPlan dropsSuper (blockStatements sharedBody) := by
  obtain rfl : dropsSuper = (false = true) := by simp [h]
  constructor
  · intro line hline _ _
    simp only [sharedBody, blockStatements, List.mem_cons, List.not_mem_nil, or_false,
      reduceCtorEq, Stmt.line.injEq] at hline
    subst hline
    decide
  · intro head inner hm _
    simp only [sharedBody, blockStatements, List.mem_cons, List.not_mem_nil, or_false, reduceCtorEq,
      false_or, Stmt.func.injEq] at hm
    obtain ⟨rfl, rfl⟩ := hm
    constructor
    · intro line hline _ _ entry hentry
      obtain rfl := Stmt.line.inj (List.mem_singleton.mp hline)
      simp only [List.mem_cons, List.not_mem_nil, or_false] at hentry
      rcases hentry with rfl | rfl <;> exact fate_iff.mpr rfl
    · rintro kept hkept ⟨line, first, second, others, rest, rfl, hentries, value, hvalue, htext⟩
      obtain ⟨hline, -⟩ := List.cons.inj (keeps_iff.mp hkept)
      obtain rfl := Stmt.line.inj hline
      obtain ⟨rfl, -⟩ := List.cons.inj hentries
      obtain rfl := Small.expr.inj hvalue
      rcases htext with ⟨text, hcore⟩ | ⟨left, gap, right, hcore⟩ <;> cases hcore

/-- Where it is left out, it is left out on a line of its own alone. -/
theorem not_layoutFree_sharedBody {dropsSuper : Prop} (h : dropsSuper) :
    ¬ LayoutFree cardPlan dropsSuper (blockStatements sharedBody) := by
  obtain rfl : dropsSuper = (true = true) := by simp [h]
  intro hfree
  have hm : .func cardConstructor (.inline .space
      [⟨superCall, some {}⟩, ⟨.assign [⟨ofSelf "x", {}⟩] (.number "1"), none⟩] {}) ∈
      blockStatements sharedBody := by
    rw [sharedBody, blockStatements]
    exact List.mem_cons_of_mem _ List.mem_cons_self
  have hshared : (2 : Nat) ≠ 1 := by decide
  have hfate := (hfree.constructors _ _ hm rfl).lines _ (List.mem_singleton.mpr rfl) hshared
    ⟨_, fate_iff.mpr rfl⟩ _ List.mem_cons_self
  have hnone : fateOf "self" cardPlan.component.elementMember true superCall.alone = none := rfl
  have hsome := fate_iff.mp hfate
  exact absurd (hnone.symm.trans hsome) (by simp)

/-- The class has lines that are shared and a suite on the line of its constructor. Without bases it
becomes the same when it is taken apart before; where its base is dropped, it does not. -/
theorem hydrated_layout_free_of_shared :
    PlainlyNamed cardPlan ∧ PlainReceivers (blockStatements sharedBody) ∧
    (blockStatements sharedBody.spread).length = 3 ∧ (blockStatements sharedBody).length = 2 ∧
    (∃ t t', hydrateClass cardPlan plainHead sharedBody = .ok t ∧
      hydrateClass cardPlan plainHead sharedBody.spread = .ok t' ∧ t.spread = t'.spread) ∧
    ∃ t t', hydrateClass cardPlan cardHead sharedBody = .ok t ∧
      hydrateClass cardPlan cardHead sharedBody.spread = .ok t' ∧ t.spread ≠ t'.spread := by
  refine ⟨plainlyNamed_cardPlan, plainReceivers_sharedBody, rfl, rfl, ?_, ?_⟩
  · obtain ⟨t, ht⟩ := exists_hydrated_shared plainHead (by simp)
    obtain ⟨hok, hiff⟩ := hydrated_layout_free_iff plainHead plainlyNamed_cardPlan
      plainReceivers_sharedBody
    obtain ⟨t', ht'⟩ := hok.mpr ⟨t, ht⟩
    exact ⟨t, t', ht, ht', (hiff t t' ht ht').mpr (layoutFree_sharedBody fun h => h.1 rfl)⟩
  · obtain ⟨t, ht⟩ := exists_hydrated_shared cardHead (by simp)
    obtain ⟨hok, hiff⟩ := hydrated_layout_free_iff cardHead plainlyNamed_cardPlan
      plainReceivers_sharedBody
    obtain ⟨t', ht'⟩ := hok.mpr ⟨t, ht⟩
    have hloses : losesBases cardPlan cardHead = true := by decide
    exact ⟨t, t', ht, ht', fun he =>
      not_layoutFree_sharedBody (losesBases_iff.mp hloses) ((hiff t t' ht ht').mp he)⟩

end Hydration.Transform
