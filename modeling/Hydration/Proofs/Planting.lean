import Hydration.Proofs.ClassBodies
import Hydration.Proofs.Commuting
import Hydration.Proofs.Generated

/-! Hydration plants no class. What a class is given beside its own statements declares none, so in
a module that was read, the hydrated form of a class has no other located classes inside it than the
class had. -/

namespace Hydration.Transform

open Syntax Imports

section Bodies

variable {index : Index} {file : String}

theorem unlocated_of_classless (locate : Locate) {body : List Stmt} (h : Classless body) :
    Unlocated locate body := by
  intro p s hs
  have hn := h p s hs
  cases s with
  | class_ head body => exact hn.elim
  | _ => rfl

theorem unlocated_singleton {locate : Locate} {s : Stmt} :
    Unlocated locate [s] ↔ locatedStmt locate s = none ∧ Unlocated locate s.children :=
  everywhere_singleton

theorem unlocated_iff_singletons {locate : Locate} {body : List Stmt} :
    Unlocated locate body ↔ ∀ s ∈ body, Unlocated locate [s] :=
  everywhere_iff_singletons

theorem unlocated_append {locate : Locate} {front back : List Stmt} :
    Unlocated locate (front ++ back) ↔ Unlocated locate front ∧ Unlocated locate back := by
  rw [unlocated_iff, List.forall_mem_append, ← unlocated_iff, ← unlocated_iff]

theorem unlocated_cons {locate : Locate} {s : Stmt} {body : List Stmt} :
    Unlocated locate (s :: body) ↔ Unlocated locate [s] ∧ Unlocated locate body :=
  @unlocated_append locate [s] body

theorem unlocated_line (locate : Locate) (line : Line) : Unlocated locate [.line line] :=
  unlocated_singleton.mpr ⟨rfl, everywhere_nil _⟩

theorem unlocated_withBlank {s : Stmt} (h : Unlocated (locateIn index file) [s]) :
    Unlocated (locateIn index file) [withBlank s] := by
  unfold withBlank
  split
  · obtain ⟨hn, hc⟩ := unlocated_singleton.mp h
    refine unlocated_singleton.mpr ⟨?_, s.children_withLeading _ ▸ hc⟩
    cases s with
    | class_ head body => exact hn
    | compound clauses => cases clauses <;> rfl
    | _ => rfl
  · exact h

theorem unlocated_blockStatements {locate : Locate} {body : Suite}
    (h : Unlocated locate body.stmts) : Unlocated locate (blockStatements body) := by
  cases body with
  | block header indent body footer => exact h
  | inline gap entries tail => exact unlocated_line locate _

theorem stmts_withStatements (statements : List Stmt) (body : Suite) :
    (withStatements statements body).stmts = statements := by
  cases body <;> rfl

end Bodies

section Constructors

variable {locate : Locate} {plan : Plan}

theorem dropAssignment_eq_some {receiver member : String} {s t : Stmt}
    (h : dropAssignment receiver member s = some t) : t = s ∨ ∃ line, t = .line line := by
  unfold dropAssignment at h
  split at h
  · split at h
    · split at h
      · simp at h
      · exact .inl (Option.some.inj h).symm
    · split at h
      · simp at h
      · exact .inr ⟨_, (Option.some.inj h).symm⟩
    · exact .inl (Option.some.inj h).symm
  · exact .inl (Option.some.inj h).symm

theorem mem_of_keptStatements {cmp : Component} {receiver : String} {dropSuper : Bool}
    {body : List Stmt} {t : Stmt} (h : t ∈ keptStatements cmp receiver dropSuper body) :
    t ∈ body ∨ ∃ line, t = .line line := by
  unfold keptStatements at h
  dsimp only at h
  split at h
  · obtain ⟨s, hs, ht⟩ := List.mem_filterMap.mp h
    rcases dropAssignment_eq_some ht with rfl | hline
    · exact .inl (List.mem_of_mem_filter (List.mem_of_mem_filter hs))
    · exact .inr hline
  · exact .inl (List.mem_of_mem_filter (List.mem_of_mem_filter h))

theorem unlocated_keptStatements {cmp : Component} {receiver : String} {dropSuper : Bool}
    {body : List Stmt} (h : Unlocated locate body) :
    Unlocated locate (keptStatements cmp receiver dropSuper body) := by
  refine unlocated_iff_singletons.mpr fun t ht => ?_
  rcases mem_of_keptStatements ht with hs | ⟨line, rfl⟩
  · exact unlocated_iff_singletons.mp h t hs
  · exact unlocated_line locate line

theorem unlocated_spliceBootstrap {start body : List Stmt} (hs : Unlocated locate start)
    (hb : Unlocated locate body) : Unlocated locate (spliceBootstrap start body) := by
  unfold spliceBootstrap
  split
  · obtain ⟨hfirst, hrest⟩ := unlocated_cons.mp hb
    split
    · exact unlocated_cons.mpr ⟨hfirst, unlocated_append.mpr ⟨hs, hrest⟩⟩
    · exact unlocated_append.mpr ⟨hs, hb⟩
  · exact hs

theorem isIdentifier_receiverOf {params : Params} (h : ParamsNamed params) :
    Text.isIdentifier (receiverOf params) = true := by
  unfold receiverOf
  split
  · decide
  · rename_i receiver rest hp
    exact h receiver (hp ▸ List.mem_cons_self)

theorem classless_bootstrap {receiver : String} {statements : List Stmt} (hp : plan.WellNamed)
    (hr : Text.isIdentifier receiver = true) (h : bootstrap plan receiver = .ok statements) :
    Classless statements := by
  refine everywhere_iff_singletons.mpr fun s hs => ?_
  obtain ⟨line, hl, hline⟩ := exists_of_mem_mapM h hs
  refine Harmless.classless ?_ hline
  rw [String.toList_append]
  exact (hp.harmless_startLines hr line hl).append hp.harmless_newline

theorem unlocated_prepareConstructor {dropSuper : Bool} {head : FuncHead} {body : Suite} {t : Stmt}
    (hp : plan.WellNamed) (hn : ParamsNamed head.params) (hu : Unlocated locate body.stmts)
    (h : prepareConstructor plan dropSuper head body = .ok t) : Unlocated locate [t] := by
  simp only [prepareConstructor, bind_eq_ok, mapError_eq_ok] at h
  obtain ⟨start, hs, params, -, h⟩ := h
  obtain rfl := Except.ok.inj h
  have hstart := unlocated_of_classless locate (classless_bootstrap hp (isIdentifier_receiverOf hn) hs)
  refine unlocated_singleton.mpr ⟨rfl, ?_⟩
  rw [Stmt.children, stmts_withStatements]
  exact unlocated_spliceBootstrap hstart (unlocated_keptStatements (unlocated_blockStatements hu))

end Constructors

section Classes

variable {index : Index} {file : String} {plan : Plan}

theorem unlocated_of_hydratesTo {dropSuper : Bool} {s : Stmt} {members : List Stmt}
    (hp : plan.WellNamed) (hn : HeadNamed s) (hu : Unlocated (locateIn index file) [s])
    (h : HydratesTo plan dropSuper s members) : Unlocated (locateIn index file) members := by
  cases h with
  | prepared hname ht => exact unlocated_prepareConstructor hp hn (unlocated_singleton.mp hu).2 ht
  | leftOut => exact everywhere_nil _
  | stays => exact hu

theorem unlocated_insertConstructor {constructor : Stmt} {members : List Stmt}
    (hc : Unlocated (locateIn index file) [constructor])
    (hm : Unlocated (locateIn index file) members) :
    Unlocated (locateIn index file) (insertConstructor constructor members) := by
  rw [← members.takeWhile_append_dropWhile, unlocated_append] at hm
  obtain ⟨hlines, hrest⟩ := hm
  have hset : Unlocated (locateIn index file)
      [if (members.takeWhile isLine).isEmpty then constructor else withBlank constructor] := by
    split
    · exact hc
    · exact unlocated_withBlank hc
  unfold insertConstructor
  dsimp only
  split
  · exact unlocated_append.mpr ⟨hlines, hset⟩
  · rename_i next rest heq
    rw [heq] at hrest
    obtain ⟨hnext, hrest⟩ := unlocated_cons.mp hrest
    refine unlocated_append.mpr ⟨hlines, unlocated_cons.mpr ⟨hset, ?_⟩⟩
    exact unlocated_cons.mpr ⟨unlocated_withBlank hnext, hrest⟩

theorem unlocated_addConstructor {body members new : List Stmt} (hp : plan.WellNamed)
    (hm : Unlocated (locateIn index file) members) (h : addConstructor plan body members = .ok new) :
    Unlocated (locateIn index file) new := by
  rcases addConstructor_eq_ok.mp h with ⟨-, rfl⟩ | ⟨-, constructor, hc, rfl⟩
  · exact hm
  · exact unlocated_insertConstructor
      (unlocated_of_classless _ (hp.harmless_constructorText.classless hc)) hm

theorem unlocated_elementMembers {members : List Stmt} (hp : plan.WellNamed)
    (h : elementMembers plan = .ok members) : Unlocated (locateIn index file) members := by
  rcases elementMembers_eq_ok.mp h with ⟨-, rfl⟩ | ⟨name, getter, hname, hg, rfl⟩
  · exact everywhere_nil _
  · exact unlocated_withBlank
      (unlocated_of_classless _ ((hp.harmless_elementText hname).classless hg))

/-- The body of a hydrated class has no located class, where the body of the class had none. -/
theorem unlocated_hydrateBody {dropSuper : Bool} {body new : List Stmt} (hp : plan.WellNamed)
    (hn : ∀ s ∈ body, HeadNamed s) (hu : Unlocated (locateIn index file) body)
    (h : hydrateBody plan dropSuper body = .ok new) : Unlocated (locateIn index file) new := by
  obtain ⟨kept, members, element, metadata, hk, hm, he, hmeta, rfl⟩ := hydrateBody_eq_ok h
  have hkept : Unlocated (locateIn index file) kept.flatten := by
    refine unlocated_iff_singletons.mpr fun t ht => ?_
    obtain ⟨part, hpart, htpart⟩ := List.mem_flatten.mp ht
    obtain ⟨s, hs, hspart⟩ := forall₂_exists hk hpart
    have hus := unlocated_iff_singletons.mp hu s hs
    exact unlocated_iff_singletons.mp (unlocated_of_hydratesTo hp (hn s hs) hus hspart) t htpart
  have hmetadata := unlocated_of_classless (locateIn index file)
    (hp.harmless_metadataText.classless hmeta)
  exact unlocated_append.mpr ⟨unlocated_append.mpr ⟨unlocated_addConstructor hp hkept hm,
    unlocated_elementMembers hp he⟩, unlocated_withBlank hmetadata⟩

theorem headNamed_blockStatements {body : Suite} (h : Everywhere HeadNamed body.stmts) :
    ∀ s ∈ blockStatements body, HeadNamed s := by
  intro s hs
  cases body with
  | block header indent body footer => exact (everywhere_iff.mp h s hs).1
  | inline gap entries tail =>
    obtain rfl := List.mem_singleton.mp hs
    trivial

theorem unlocated_hydrateClass {head : ClassHead} {body : Suite} {t : Stmt} (hp : plan.WellNamed)
    (hn : Everywhere HeadNamed body.stmts) (hu : Unlocated (locateIn index file) body.stmts)
    (h : hydrateClass plan head body = .ok t) : Unlocated (locateIn index file) t.children := by
  obtain ⟨members, hm, rfl⟩ := hydrateClass_eq_ok.mp h
  rw [Stmt.children, stmts_withStatements]
  exact unlocated_hydrateBody hp (headNamed_blockStatements hn) (unlocated_blockStatements hu) hm

end Classes

section Plans

variable {options : Options} {index : Index} {context : Context} {m : Module} {text : String}

theorem mem_foldl_distinct {names seen : List String} {name : String}
    (h : name ∈ seen ∨ name ∈ names) :
    name ∈ names.foldl (fun names name => if names.contains name then names else names ++ [name])
      seen := by
  induction names generalizing seen with
  | nil => exact h.resolve_right List.not_mem_nil
  | cons first names ih =>
    rw [List.foldl_cons]
    apply ih
    rw [List.mem_cons] at h
    split
    · rename_i hc
      rw [List.contains_iff_mem] at hc
      rcases h with h | rfl | h
      · exact .inl h
      · exact .inl hc
      · exact .inr h
    · rw [List.mem_append, List.mem_singleton]
      tauto

theorem isDotted_referenceTo {supplied : Supplied} (hm : WellNamed m)
    (h : supply options.format (helperSpecifiers options) m = .ok supplied) {name : String}
    (hn : name ∈ coreHelpers) : IsDotted (referenceTo options supplied.references name) := by
  have hid : ∀ helper ∈ coreHelpers, Text.isIdentifier helper = true := by decide
  have hmem : (⟨options.runtimeModule, name⟩ : Specifier) ∈ helperSpecifiers options :=
    List.mem_map_of_mem (mem_foldl_distinct (.inr (List.mem_append_right _ hn)))
  obtain ⟨text, htext⟩ := exists_suppliedText options.format (scanScope m) hmem
  rw [referenceTo, lookup_supplied hm (nodup_helperSpecifiers options) h htext]
  exact isDotted_of_suppliedText hm h (hid name hn) htext

theorem firstLineEnd_mem (cs : List Char) : firstLineEnd cs ∈ ["\n", "\r\n", "\r"] := by
  fun_induction firstLineEnd cs with
  | case1 => decide
  | case2 => decide
  | case3 c rest _ hc =>
    rw [isLineEndChar, Bool.or_eq_true, beq_iff_eq, beq_iff_eq] at hc
    rcases hc with rfl | rfl <;> decide
  | case4 c rest _ _ ih => exact ih

theorem newline_parse (h : Module.parse text = .ok m) :
    m.style.newline ∈ ["\n", "\r\n", "\r"] := by
  simp only [Module.parse, bind_eq_ok, Prod.exists] at h
  obtain ⟨source, hsource, body, last, -, -, -, h⟩ := h
  have hstyle : source.style.newline ∈ ["\n", "\r\n", "\r"] := by
    unfold lexText at hsource
    split at hsource
    · simp at hsource
    · obtain rfl := Except.ok.inj hsource
      exact firstLineEnd_mem _
  split at h <;> obtain rfl := Except.ok.inj h <;> exact hstyle

theorem isBlankText_of_isPlainIndent {indent : String} (h : isPlainIndent indent = true) :
    IsBlankText indent.toList := by
  rw [isPlainIndent, Bool.and_eq_true, List.all_eq_true] at h
  intro c hc
  have hblank := h.2 c hc
  rw [Bool.or_eq_true, beq_iff_eq, beq_iff_eq] at hblank
  rcases hblank with rfl | rfl <;> rfl

theorem wellNamed_planFor {supplied : Supplied} {component : Component}
    (h : Module.parse text = .ok m) (hi : isPlainIndent m.style.indent = true)
    (hs : supply options.format (helperSpecifiers options) m = .ok supplied)
    (hc : ∀ name ∈ replacedNames component, Text.isIdentifier name = true) :
    (planFor options (helpersOf options supplied.references) m.style component).WellNamed where
  register := isDotted_referenceTo (wellNamed_parse h) hs (by decide)
  createEvent := isDotted_referenceTo (wellNamed_parse h) hs (by decide)
  element := isDotted_referenceTo (wellNamed_parse h) hs (by decide)
  members := hc
  newline := newline_parse h
  indent := isBlankText_of_isPlainIndent hi

/-- Hydrating a module that was read puts no located class into another one, if the names that
stand for events and the element are names. -/
theorem not_plants (h : Module.parse text = .ok m) (ha : Apart (locateIn index context.file) m.body)
    (hn : ∀ x ∈ locatedClasses index context.file m, ∀ name ∈ replacedNames x.component,
      Text.isIdentifier name = true) : ¬ Plants index context m := by
  rintro ⟨hi, supplied, hs, hplants⟩
  refine hplants fun x hx t ht => ?_
  obtain ⟨p, hp, -, -⟩ := mem_locatedInAll_iff.mp hx
  refine unlocated_hydrateClass (wellNamed_planFor h hi hs (hn x hx)) ?_ ?_ ht
  · exact (headNamed_parse h).below hp
  · exact apart_iff_outermost.mp ha x hx

/-- In a module that was read, it takes a name that is no identifier to plant a class. -/
theorem exists_of_plants (h : Module.parse text = .ok m)
    (ha : Apart (locateIn index context.file) m.body) (hp : Plants index context m) :
    ∃ x ∈ locatedClasses index context.file m,
      ∃ name ∈ replacedNames x.component, Text.isIdentifier name = false := by
  by_contra hn
  refine not_plants h ha (fun x hx name hname => ?_) hp
  by_contra hid
  exact hn ⟨x, hx, name, hname, Bool.eq_false_iff.mpr hid⟩

end Plans

end Hydration.Transform
