import Hydration.Proofs.ClassBodies
import Hydration.Proofs.Reporting

/-! Calls of constructors. A call fills the parameters by position and then by name. Main statement:
a prepared constructor takes the host right behind the receiver, and every other argument of a call
goes where it went before. -/

namespace Hydration.Syntax

structure CallArguments (α : Type) where
  positional : List α
  keywords : List (String × α) := []
deriving DecidableEq

/-- What a call binds: to each parameter its argument, or none where it has its default, and what is
left over by position and by name. -/
structure Bindings (α : Type) where
  slots : List (String × Option α)
  rest : List α
  extra : List (String × α)
deriving DecidableEq

/-- Fills parameters by position as long as there are arguments, and then by name. None of them takes
two arguments, and one without a default takes one. -/
def fill {α : Type} (keywords : List (String × α)) :
    List Param → List α → Option (List (String × Option α))
  | [], _ => some []
  | p :: params, a :: args =>
    match keywords.lookup p.name with
    | some _ => none
    | none => (fill keywords params args).map ((p.name, some a) :: ·)
  | p :: params, [] =>
    match keywords.lookup p.name with
    | some a => (fill keywords params []).map ((p.name, some a) :: ·)
    | none =>
      if p.default.isSome then (fill keywords params []).map ((p.name, none) :: ·) else none

namespace Params

/-- An argument can be given to one of the parameters by this name. -/
def hasKeyword (params : Params) (name : String) : Bool :=
  (params.params ++ params.kwonly).any fun p => p.name == name

/-- The arguments that a call gives to the parameters that take one. -/
def slots? {α : Type} (params : Params) (call : CallArguments α) :
    Option (List (String × Option α)) := do
  let only ← fill [] params.posonly call.positional
  let plain ← fill call.keywords params.params (call.positional.drop params.posonly.length)
  let named ← fill call.keywords params.kwonly []
  return only ++ plain ++ named

/-- Binds the arguments of a call, if the signature allows the call. What is left over has to be
gathered by a parameter. -/
def bind? {α : Type} (params : Params) (call : CallArguments α) : Option (Bindings α) :=
  let rest := call.positional.drop params.positional.length
  let extra := call.keywords.filter fun x => !params.hasKeyword x.1
  if (rest.isEmpty || params.rest?.isSome) && (extra.isEmpty || params.kwarg.isSome) then
    (params.slots? call).map fun slots => ⟨slots, rest, extra⟩
  else none

/-- The signature without the parameters of a name. -/
def without (name : String) (params : Params) : Params :=
  { params with
    posonly := params.posonly.filter fun p => p.name != name
    params := params.params.filter fun p => p.name != name
    star := params.star.filter fun
      | .param p => p.name != name
      | .mark _ => true
    kwonly := params.kwonly.filter fun p => p.name != name
    kwarg := params.kwarg.filter fun p => p.name != name }

theorem without_of_not_mem {name : String} {params : Params} (h : name ∉ params.names) :
    params.without name = params := by
  have hkeep : ∀ p ∈ params.all, (p.name != name) = true := fun p hp =>
    bne_iff_ne.mpr fun he => h (he ▸ List.mem_map_of_mem hp)
  obtain ⟨posonly, slash, plain, star, kwonly, kwarg⟩ := params
  simp only [all, positional, List.forall_mem_append] at hkeep
  obtain ⟨⟨⟨⟨hposonly, hplain⟩, hstar⟩, hkwonly⟩, hkwarg⟩ := hkeep
  simp only [without, List.filter_eq_self.mpr hposonly, List.filter_eq_self.mpr hplain,
    List.filter_eq_self.mpr hkwonly, mk.injEq, true_and]
  refine ⟨?_, ?_⟩
  · cases star with
    | none => rfl
    | some star =>
      cases star with
      | mark comma => rfl
      | param p => simpa [rest?] using hstar
  · cases kwarg with
    | none => rfl
    | some p => simpa using hkwarg

end Params

end Hydration.Syntax

namespace Hydration.Transform

open Syntax

section Host

variable {params : Params} {receiver : Param} {rest : List Param}

/-- A receiver that no parameter by position only follows stands alone before the slash, or can be
given by name. -/
theorem receiver_cases (hp : params.positional = receiver :: rest) (ho : params.posonly.length ≤ 1) :
    (params.posonly = [receiver] ∧ params.params = rest) ∨
      (params.posonly = [] ∧ params.params = receiver :: rest) := by
  cases hf : params.posonly with
  | nil => exact .inr ⟨rfl, by rwa [Params.positional, hf] at hp⟩
  | cons first posonly =>
    rw [hf, List.length_cons] at ho
    obtain rfl : posonly = [] := List.length_eq_zero_iff.mp (Nat.le_zero.mp (Nat.le_of_succ_le_succ ho))
    rw [Params.positional, hf] at hp
    obtain ⟨rfl, rfl⟩ := List.cons.inj hp
    exact .inl ⟨rfl, rfl⟩

/-- The host stands right behind such a receiver. -/
theorem ahead_eq (hp : params.positional = receiver :: rest) (ho : params.posonly.length ≤ 1) :
    ahead params = [receiver] ∧ behind params = rest := by
  rcases receiver_cases hp ho with ⟨hf, hr⟩ | ⟨hf, hr⟩ <;> simp [ahead, behind, hf, hr]

/-- The host is a parameter that can be given by name, and no other becomes one. -/
theorem hasKeyword_insertHost (hn : ¬ params.Takes hostName) (hp : params.positional ≠ [])
    {name : String} (hname : name ≠ hostName) :
    (insertHost params).hasKeyword name = params.hasKeyword name := by
  have hhost : (hostParam.name == name) = false := beq_eq_false_iff_ne.mpr hname.symm
  by_cases ho : params.posonly = []
  · obtain ⟨receiver, rest, hr⟩ := exists_receiver ho hp
    simp [insertHost_of_receiver hn ho hr, Params.hasKeyword, hr, hhost]
  · simp [insertHost_of_posonly hn ho, Params.hasKeyword, hhost]

/-- A parameter that is not given by name takes the next argument. -/
theorem fill_cons {α : Type} {keywords : List (String × α)} {p : Param}
    (hk : keywords.lookup p.name = none) (rest : List Param) (a : α) (args : List α) :
    fill keywords (p :: rest) (a :: args) =
      (fill keywords rest args).map ((p.name, some a) :: ·) := by
  rw [fill, hk]

/-- The first parameter takes the first argument, or none may be given to it. -/
theorem fill_eq_some_cons {α : Type} {keywords : List (String × α)} {p : Param} {rest : List Param}
    {a : α} {args : List α} {slots : List (String × Option α)}
    (h : fill keywords (p :: rest) (a :: args) = some slots) :
    ∃ tail, fill keywords rest args = some tail ∧ slots = (p.name, some a) :: tail := by
  rw [fill] at h
  split at h
  · cases h
  · obtain ⟨tail, ht, rfl⟩ := Option.map_eq_some_iff.mp h
    exact ⟨tail, ht, rfl⟩

/-- The host takes the argument behind that of the receiver. -/
theorem fill_receiver_host {α : Type} {keywords : List (String × α)}
    (hk : keywords.lookup hostName = none) (receiver : Param) (rest : List Param) (self host : α)
    (args : List α) :
    fill keywords (receiver :: hostParam :: rest) (self :: host :: args) =
      (fill keywords (receiver :: rest) (self :: args)).map (·.insertIdx 1 (hostName, some host)) := by
  have hhost : keywords.lookup hostParam.name = none := hk
  cases hr : keywords.lookup receiver.name with
  | some a => simp only [fill, hr, Option.map_none]
  | none =>
    rw [fill_cons hr, fill_cons hr, fill_cons hhost, Option.map_map, Option.map_map]
    rfl

theorem slots?_insertHost (hn : ¬ params.Takes hostName) (hp : params.positional = receiver :: rest)
    (ho : params.posonly.length ≤ 1) {α : Type} (self host : α) (args : List α)
    {keywords : List (String × α)} (hk : keywords.lookup hostName = none) :
    (insertHost params).slots? ⟨self :: host :: args, keywords⟩ =
      (params.slots? ⟨self :: args, keywords⟩).map (·.insertIdx 1 (hostName, some host)) := by
  rcases receiver_cases hp ho with ⟨hf, hr⟩ | ⟨hf, hr⟩
  · -- The receiver is filled by position only, the host with the parameters behind the slash.
    have hfirst (args : List α) :
        fill [] [receiver] (self :: args) = some [(receiver.name, some self)] := rfl
    have hhost : keywords.lookup hostParam.name = none := hk
    rw [insertHost_of_posonly hn (by simp [hf])]
    cases hs : fill keywords rest args <;> cases hw : fill keywords params.kwonly [] <;>
      simp [Params.slots?, hf, hr, hfirst, fill_cons hhost, hs, hw,
        show hostParam.name = hostName from rfl]
  · have hnone (args : List α) : fill [] [] args = some [] := rfl
    have hlong := fill_receiver_host hk receiver rest self host args
    rw [insertHost_of_receiver hn hf hr]
    cases hs : fill keywords (receiver :: rest) (self :: args) with
    | none => simp [Params.slots?, hf, hr, hlong, hnone, hs]
    | some slots =>
      obtain ⟨tail, -, rfl⟩ := fill_eq_some_cons hs
      cases hw : fill keywords params.kwonly [] <;>
        simp [Params.slots?, hf, hr, hlong, hnone, hs, hw]

/-- Where the host is not given by name, a call that has it right behind the receiver binds it to its
parameter, and all else as the call without it. -/
theorem bind?_insertHost (hn : ¬ params.Takes hostName) (hp : params.positional = receiver :: rest)
    (ho : params.posonly.length ≤ 1) {α : Type} (self host : α) (args : List α)
    {keywords : List (String × α)} (hk : keywords.lookup hostName = none) :
    (insertHost params).bind? ⟨self :: host :: args, keywords⟩ =
      (params.bind? ⟨self :: args, keywords⟩).map fun bindings =>
        { bindings with slots := bindings.slots.insertIdx 1 (hostName, some host) } := by
  have hpos : params.positional ≠ [] := by simp [hp]
  have hextra : (keywords.filter fun x => !(insertHost params).hasKeyword x.1) =
      keywords.filter fun x => !params.hasKeyword x.1 := by
    refine List.filter_congr fun x hx => ?_
    have hne : hostName ≠ x.1 := bne_iff_ne.mp (List.lookup_eq_none_iff.mp hk x hx)
    rw [hasKeyword_insertHost hn hpos hne.symm]
  have hrest : (self :: host :: args).drop (insertHost params).positional.length =
      (self :: args).drop params.positional.length := by
    obtain ⟨hahead, hbehind⟩ := ahead_eq hp ho
    rw [positional_insertHost hn hpos, hahead, hbehind, hp]
    rfl
  obtain ⟨hs, hkw, hw⟩ := others_insertHost params
  simp only [Params.bind?, hextra, hrest, hs, hw, slots?_insertHost hn hp ho self host args hk]
  split
  · rw [Option.map_map, Option.map_map]
    rfl
  · rfl

/-- Without the host the new signature is the old one. -/
theorem without_insertHost (hn : hostName ∉ params.names) (hp : params.positional ≠ []) :
    (insertHost params).without hostName = params := by
  have ht : ¬ params.Takes hostName := mt hostName_mem_names hn
  have hdrop (before behind : List Param) :
      ((before ++ hostParam :: behind).filter fun p => p.name != hostName) =
        (before ++ behind).filter fun p => p.name != hostName := by
    rw [List.filter_append, List.filter_cons_of_neg (by decide), List.filter_append]
  have hsame : (insertHost params).without hostName = params.without hostName := by
    by_cases ho : params.posonly = []
    · obtain ⟨receiver, rest, hr⟩ := exists_receiver ho hp
      rw [insertHost_of_receiver ht ho hr]
      have hone := hdrop [receiver] rest
      simpa [Params.without, hr] using hone
    · rw [insertHost_of_posonly ht ho]
      simpa [Params.without] using hdrop [] params.params
  rw [hsame, Params.without_of_not_mem hn]

/-- A call that gives the host by name as well is refused. -/
theorem bind?_insertHost_of_keyword (hn : ¬ params.Takes hostName)
    (hp : params.positional = receiver :: rest) (ho : params.posonly.length ≤ 1) {α : Type}
    (self host : α) (args : List α) {keywords : List (String × α)}
    (hk : keywords.lookup hostName ≠ none) :
    (insertHost params).bind? ⟨self :: host :: args, keywords⟩ = none := by
  obtain ⟨given, hk⟩ := Option.ne_none_iff_exists'.mp hk
  have hhost (rest : List Param) : fill keywords (hostParam :: rest) (host :: args) = none := by
    rw [fill, show keywords.lookup hostParam.name = some given from hk]
  have hslots : (insertHost params).slots? ⟨self :: host :: args, keywords⟩ = none := by
    rcases receiver_cases hp ho with ⟨hf, hr⟩ | ⟨hf, hr⟩
    · rw [insertHost_of_posonly hn (by simp [hf])]
      simp [Params.slots?, hf, hhost]
    · have hrec : fill keywords (receiver :: hostParam :: rest) (self :: host :: args) = none := by
        by_contra hs
        obtain ⟨slots, hs⟩ := Option.ne_none_iff_exists'.mp hs
        obtain ⟨tail, ht, -⟩ := fill_eq_some_cons hs
        rw [hhost] at ht
        cases ht
      rw [insertHost_of_receiver hn hf hr]
      simp [Params.slots?, hf, hrec]
  simp only [Params.bind?, hslots, Option.map_none, ite_self]

end Host

/-- The new signature takes the host as its second parameter by position, and is the old one
otherwise. -/
structure HandsOver (old new : Params) : Prop where
  second : (new.positional[1]?).map (·.name) = some hostName
  binds : ∀ {α : Type} (self host : α) (args : List α) (keywords : List (String × α)),
    keywords.lookup hostName = none →
    new.bind? ⟨self :: host :: args, keywords⟩ =
      (old.bind? ⟨self :: args, keywords⟩).map fun bindings =>
        { bindings with slots := bindings.slots.insertIdx 1 (hostName, some host) }
  refuses : ∀ {α : Type} (self host : α) (args : List α) (keywords : List (String × α)),
    keywords.lookup hostName ≠ none → new.bind? ⟨self :: host :: args, keywords⟩ = none
  restores : hostName ∉ old.names → new.without hostName = old

theorem handsOver_insertHost {params : Params} {receiver : Param} {rest : List Param}
    (hn : ¬ params.Takes hostName) (hp : params.positional = receiver :: rest)
    (ho : params.posonly.length ≤ 1) : HandsOver params (insertHost params) := by
  have hne : params.positional ≠ [] := by simp [hp]
  constructor
  · obtain ⟨hahead, -⟩ := ahead_eq hp ho
    rw [positional_insertHost hn hne, hahead]
    rfl
  · exact fun self host args _ hk => bind?_insertHost hn hp ho self host args hk
  · exact fun self host args _ hk => bind?_insertHost_of_keyword hn hp ho self host args hk
  · exact fun hfree => without_insertHost hfree hne

def constructorHead? : Stmt → Option FuncHead
  | .func head _ => if head.name == "__init__" then some head else none
  | _ => none

/-- The heads of the constructors that stand in a body, in order. -/
def constructorHeads (body : List Stmt) : List FuncHead := body.filterMap constructorHead?

def withHost (head : FuncHead) : FuncHead := { head with params := insertHost head.params }

theorem isConstructor_eq (s : Stmt) : isConstructor s = (constructorHead? s).isSome := by
  cases s with
  | func head body => by_cases h : head.name == "__init__" <;> simp [isConstructor, constructorHead?, h]
  | _ => rfl

theorem constructorHeads_filter (body : List Stmt) :
    constructorHeads (body.filter isConstructor) = constructorHeads body := by
  rw [constructorHeads, constructorHeads, List.filterMap_filter]
  refine List.filterMap_congr fun s _ => ?_
  rw [isConstructor_eq]
  cases constructorHead? s <;> rfl

section Class

variable {plan : Plan} {dropSuper : Bool}

theorem constructorHead?_of_prepares {old new : Stmt} (h : Prepares plan dropSuper old new) :
    constructorHead? new = (constructorHead? old).map withHost := by
  obtain ⟨head, inner, rfl, h⟩ := h
  obtain ⟨start, -, -, rfl⟩ := prepareConstructor_eq_ok.mp h
  cases hi : head.name == "__init__" <;> simp [constructorHead?, hi, withHost]

/-- Constructor by constructor, the heads stay in order. -/
theorem constructorHeads_of_prepares {old new : List Stmt}
    (h : List.Forall₂ (Prepares plan dropSuper) old new) :
    constructorHeads new = (constructorHeads old).map withHost := by
  induction h with
  | nil => rfl
  | @cons s t old new hs _ ih =>
    rw [constructorHeads, List.filterMap_cons, constructorHead?_of_prepares hs, constructorHeads,
      List.filterMap_cons]
    cases constructorHead? s with
    | none => exact ih
    | some head => exact congrArg (withHost head :: ·) ih

/-- Where a body has constructors, they become the first constructors of the new body. -/
theorem constructorHeads_hydrateBody {body new : List Stmt}
    (h : hydrateBody plan dropSuper body = .ok new) :
    ∃ generated, constructorHeads new = (constructorHeads body).map withHost ++ generated := by
  obtain ⟨prepared, generated, hg, hprepared⟩ := constructors_hydrateBody h
  refine ⟨constructorHeads generated, ?_⟩
  rw [← constructorHeads_filter new, hg, ← constructorHeads_filter body,
    ← constructorHeads_of_prepares hprepared]
  exact List.filterMap_append

/-- The heads of the constructors of a class, in order. -/
def constructorsOf : Stmt → List FuncHead
  | .class_ _ body => constructorHeads (blockStatements body)
  | _ => []

theorem constructorsOf_hydrateClass {head : ClassHead} {body : Suite} {t : Stmt}
    (h : hydrateClass plan head body = .ok t) :
    ∃ generated,
      constructorsOf t = (constructorsOf (.class_ head body)).map withHost ++ generated := by
  obtain ⟨members, hm, rfl⟩ := hydrateClass_eq_ok.mp h
  obtain ⟨generated, hg⟩ := constructorHeads_hydrateBody hm
  refine ⟨generated, hg ▸ ?_⟩
  cases body <;> rfl

end Class

/-- What becomes of the constructors of a located class, in order. One that takes the host already
keeps its signature. Any other that has a receiver takes the host behind it, unless another parameter
that is given by position only follows the receiver. -/
theorem constructors_take_host {index : Index} {context : Context} {m result : Module}
    {diagnostics : List Diagnostic} (h : hydrateModule index context m = .ok (result, diagnostics))
    {p : List Nat} {s : Stmt} {component : Component} (hp : stmtAt m.body p = some s)
    (hl : locatedStmt (locateIn index context.file) s = some component)
    (hc : ClearAbove (locateIn index context.file) m.body p) :
    ∃ q t generated, stmtAt result.body q = some t ∧
      constructorsOf t = (constructorsOf s).map withHost ++ generated ∧
      ∀ f ∈ constructorsOf s,
        (f.params.Takes hostName → (withHost f).params = f.params) ∧
        (¬ f.params.Takes hostName → f.params.positional ≠ [] → f.params.posonly.length ≤ 1 →
          HandsOver f.params (withHost f).params) := by
  cases s with
  | class_ head body =>
    cases (selective_iff h result).mpr rfl with
    | untouched hu => exact absurd (hu p _ hp) (by simp [hl])
    | @hydrated supplied statements new hn hs hm hr =>
      obtain ⟨t, ht, hnew⟩ := hr.replaced p head body component hp hl hc
      obtain ⟨q, hq⟩ := stmtAt_insertAt (Imports.headerIndex m.body) statements hnew
      obtain ⟨generated, hg⟩ := constructorsOf_hydrateClass ht
      refine ⟨q, t, generated, hq, hg, fun f _ => ⟨fun hf => insertHost_of_takes hf, ?_⟩⟩
      intro hf hne ho
      obtain ⟨receiver, rest, he⟩ := List.exists_cons_of_ne_nil hne
      exact handsOver_insertHost hf he ho
  | _ => simp [locatedStmt] at hl

/-- The class `A` with one constructor. -/
def constructedModule (params : Params) : Module :=
  { body := [.class_ { name := "A" } (.block {} none
      [.func { name := "__init__", params } (.inline .space [{ stmt := .pass }] {})] [])] }

/-- The signature `(self, /, size)`. -/
def barredParams : Params :=
  { posonly := [{ name := "self" }], slash := some {}, params := [{ name := "size" }] }

theorem constructors_take_host_of_barred :
    ∃ result diagnostics q t generated f,
      hydrateModule (Index.ofComponents [usedComponent]) { file := "a.py" }
        (constructedModule barredParams) = .ok (result, diagnostics) ∧
      stmtAt result.body q = some t ∧ constructorsOf t = f :: generated ∧
      HandsOver barredParams f.params ∧
      f.params.bind? ⟨[0, 1, 2], []⟩ =
        some ⟨[("self", some 0), ("host_ref", some 1), ("size", some 2)], [], []⟩ := by
  have hok : (hydrateModule (Index.ofComponents [usedComponent]) { file := "a.py" }
      (constructedModule barredParams)).toOption.isSome = true := by decide +kernel
  obtain ⟨⟨result, diagnostics⟩, h⟩ := Option.isSome_iff_exists.mp hok
  have h := toOption_eq_some.mp h
  have hl : locatedStmt (locateIn (Index.ofComponents [usedComponent]) "a.py")
      (.class_ { name := "A" } (.block {} none [.func { name := "__init__", params := barredParams }
        (.inline .space [{ stmt := .pass }] {})] [])) = some usedComponent := by decide
  obtain ⟨q, t, generated, hq, ht, hf⟩ :=
    constructors_take_host h rfl hl (clearAbove_singleton _ _ 0)
  have hn : ¬ barredParams.Takes hostName := by
    rw [← any_single_iff]
    decide
  have hands := (hf _ (List.mem_singleton.mpr rfl)).2 hn (List.cons_ne_nil _ _) (Nat.le_refl 1)
  refine ⟨result, diagnostics, q, t, generated, _, h, hq, ht, hands, ?_⟩
  exact hands.binds 0 1 [2] [] rfl

/-- The signature `(self, *, host_ref)`. -/
def namedParams : Params :=
  { params := [{ name := "self" }], star := some (.mark {}), kwonly := [{ name := "host_ref" }] }

/-- A constructor that takes the host by name keeps it there, so it is not the second parameter by
position, and a call that passes it behind the receiver is refused. -/
theorem host_kept_by_name :
    ((hydrateModule (Index.ofComponents [usedComponent]) { file := "a.py" }
      (constructedModule namedParams)).toOption.map fun r =>
        (r.1.body.flatMap constructorsOf).map fun f =>
          (f.params.positional.map (·.name), f.params.bind? ⟨[0, 1], []⟩)) =
      some [(["self"], none)] := by
  decide +kernel

end Hydration.Transform
