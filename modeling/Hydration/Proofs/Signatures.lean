import Hydration.Proofs.Success
import Hydration.Transform.Class
import Mathlib.Data.List.Nodup

/-! Signatures of constructors. The host is put behind the receiver, or behind the last parameter that
can be given by position only. Main statement: when the prepared constructor is there, and when its
signature is again one that the language accepts. -/

namespace Hydration.Syntax

namespace Params

/-- The parameters that can be given by position. -/
def positional (params : Params) : List Param := params.posonly ++ params.params

/-- The parameters that are filled by one argument each. -/
def single (params : Params) : List Param := params.positional ++ params.kwonly

/-- The parameter that takes the arguments by position that are left over. -/
def rest? (params : Params) : Option Param :=
  match params.star with
  | some (.param p) => some p
  | _ => none

def all (params : Params) : List Param :=
  params.positional ++ params.rest?.toList ++ params.kwonly ++ params.kwarg.toList

def names (params : Params) : List String := params.all.map (·.name)

/-- One of the parameters that are filled by one argument has the name. -/
def Takes (params : Params) (name : String) : Prop := ∃ p ∈ params.single, p.name = name

end Params

/-- Behind a parameter with a default all have one. -/
def DefaultsLast (params : List Param) : Prop :=
  params.Pairwise fun p q => p.default.isSome = true → q.default.isSome = true

/-- What the language asks of a signature: no name stands twice, and defaults come last. -/
structure Params.Accepted (params : Params) : Prop where
  distinct : params.names.Nodup
  defaultsLast : DefaultsLast params.positional

end Hydration.Syntax

namespace Hydration.Transform

open Syntax

theorem defaultsAreLast_iff {params : List Param} :
    defaultsAreLast params = true ↔ DefaultsLast params := by
  induction params with
  | nil => simp [defaultsAreLast, DefaultsLast]
  | cons p params ih =>
    rw [DefaultsLast, List.pairwise_cons, ← DefaultsLast]
    by_cases hp : p.default.isSome = true
    · -- All others have a default, so whatever stands behind one of them has.
      have hall (h : ∀ q ∈ params, q.default.isSome = true) : DefaultsLast params :=
        List.pairwise_of_forall_mem_list fun _ _ q hq _ => h q hq
      simp only [defaultsAreLast, hp, if_true, List.all_eq_true, forall_const]
      exact ⟨fun h => ⟨h, hall h⟩, And.left⟩
    · simp [defaultsAreLast, hp, ih]

/-- The parameters that the host comes to stand behind. -/
def ahead (params : Params) : List Param :=
  if params.posonly = [] then params.params.take 1 else params.posonly

/-- The parameters by position that come to stand behind the host. -/
def behind (params : Params) : List Param :=
  if params.posonly = [] then params.params.drop 1 else params.params

section Host

variable {params : Params} {receiver : Param} {rest : List Param}

theorem ahead_append_behind (params : Params) : ahead params ++ behind params = params.positional := by
  unfold ahead behind Params.positional
  split
  · rename_i h
    rw [h, List.take_append_drop, List.nil_append]
  · rfl

theorem any_single_iff {name : String} :
    ((params.posonly ++ params.params ++ params.kwonly).any fun p => p.name == name) = true ↔
      params.Takes name := by
  rw [List.any_eq_true, Params.Takes, Params.single, Params.positional]
  simp only [beq_iff_eq]

theorem insertHost_of_takes (h : params.Takes hostName) : insertHost params = params := by
  rw [insertHost, if_pos (any_single_iff.mpr h)]

theorem insertHost_of_posonly (h : ¬ params.Takes hostName) (ho : params.posonly ≠ []) :
    insertHost params = { params with params := hostParam :: params.params } := by
  rw [insertHost, if_neg (mt any_single_iff.mp h), if_pos (by simpa using ho)]

theorem insertHost_of_receiver (h : ¬ params.Takes hostName) (ho : params.posonly = [])
    (hr : params.params = receiver :: rest) :
    insertHost params = { params with params := receiver :: hostParam :: rest } := by
  rw [insertHost, if_neg (mt any_single_iff.mp h), if_neg (by simp [ho]), hr]

/-- A signature without a receiver is given one. -/
theorem insertHost_of_none (h : ¬ params.Takes hostName) (hp : params.positional = []) :
    insertHost params = { params with params := [{ name := "self" }, hostParam] } := by
  obtain ⟨ho, hr⟩ := List.append_eq_nil_iff.mp hp
  rw [insertHost, if_neg (mt any_single_iff.mp h), if_neg (by simp [ho]), hr]

theorem exists_receiver (ho : params.posonly = []) (hp : params.positional ≠ []) :
    ∃ receiver rest, params.params = receiver :: rest := by
  rw [Params.positional, ho, List.nil_append] at hp
  exact List.exists_cons_of_ne_nil hp

/-- The host is inserted among the parameters by position. -/
theorem positional_insertHost (h : ¬ params.Takes hostName) (hp : params.positional ≠ []) :
    (insertHost params).positional = ahead params ++ hostParam :: behind params := by
  by_cases ho : params.posonly = []
  · obtain ⟨receiver, rest, hr⟩ := exists_receiver ho hp
    rw [insertHost_of_receiver h ho hr]
    simp [Params.positional, ahead, behind, ho, hr]
  · rw [insertHost_of_posonly h ho]
    simp [Params.positional, ahead, behind, ho]

theorem positional_insertHost_of_none (h : ¬ params.Takes hostName) (hp : params.positional = []) :
    (insertHost params).positional = [{ name := "self" }, hostParam] := by
  rw [insertHost_of_none h hp, Params.positional, (List.append_eq_nil_iff.mp hp).1]
  rfl

/-- All other parameters stay as they are. -/
theorem others_insertHost (params : Params) :
    (insertHost params).rest? = params.rest? ∧ (insertHost params).kwonly = params.kwonly ∧
      (insertHost params).kwarg = params.kwarg := by
  unfold insertHost
  split
  · exact ⟨rfl, rfl, rfl⟩
  · split
    · exact ⟨rfl, rfl, rfl⟩
    · split <;> exact ⟨rfl, rfl, rfl⟩

/-- The signature without a host has one name less. -/
theorem names_insertHost (h : ¬ params.Takes hostName) (hp : params.positional ≠ []) :
    (insertHost params).names.Perm (hostName :: params.names) := by
  obtain ⟨hs, hk, hw⟩ := others_insertHost params
  rw [Params.names, Params.names, Params.all, Params.all, hs, hk, hw, positional_insertHost h hp,
    ← ahead_append_behind params]
  simp only [List.map_append, List.map_cons, List.append_assoc]
  exact List.perm_middle

theorem names_insertHost_of_none (h : ¬ params.Takes hostName) (hp : params.positional = []) :
    (insertHost params).names = "self" :: hostName :: params.names := by
  obtain ⟨hs, hk, hw⟩ := others_insertHost params
  rw [Params.names, Params.names, Params.all, Params.all, hs, hk, hw,
    positional_insertHost_of_none h hp, hp]
  rfl

theorem hostName_mem_names (h : params.Takes hostName) : hostName ∈ params.names := by
  obtain ⟨p, hp, hn⟩ := h
  refine List.mem_map.mpr ⟨p, ?_, hn⟩
  simp only [Params.single, Params.all, List.mem_append] at hp ⊢
  tauto

theorem receiverOf_mem_names (hp : params.positional ≠ []) : receiverOf params ∈ params.names := by
  obtain ⟨receiver, rest, he⟩ := List.exists_cons_of_ne_nil hp
  have hr : receiverOf params = receiver.name := by
    rw [receiverOf, ← Params.positional, he]
  rw [hr, Params.names, Params.all, he]
  simp

end Host

/-- What a signature must be for the host to find a place in it. -/
structure FitsHost (params : Params) : Prop where
  /-- Where the host has its place already, there is a receiver. -/
  receiver : params.Takes hostName → receiverOf params ∈ params.names
  /-- The name of the host is free, also among the parameters that gather arguments. -/
  free : ¬ params.Takes hostName → hostName ∉ params.names
  /-- What the host comes to stand behind has no default. -/
  plain : ¬ params.Takes hostName → ∀ p ∈ ahead params, p.default.isSome = false
  /-- So is the name of the receiver, if there is none. -/
  selfFree : ¬ params.Takes hostName → params.positional = [] → "self" ∉ params.names

section Accepted

variable {params : Params}

/-- Defaults still come last when all that the host comes to stand behind has none. -/
theorem defaultsLast_insertHost_iff (ha : params.Accepted) :
    DefaultsLast (insertHost params).positional ↔
      (¬ params.Takes hostName → ∀ p ∈ ahead params, p.default.isSome = false) := by
  by_cases ht : params.Takes hostName
  · simp [insertHost_of_takes ht, ha.defaultsLast, ht]
  · have hold := ha.defaultsLast
    by_cases hp : params.positional = []
    · have hnone : ahead params = [] :=
        (List.append_eq_nil_iff.mp ((ahead_append_behind params).trans hp)).1
      simp [positional_insertHost_of_none ht hp, hnone, DefaultsLast, hostParam]
    · rw [← ahead_append_behind, DefaultsLast, List.pairwise_append] at hold
      obtain ⟨hfront, hback, hcross⟩ := hold
      rw [positional_insertHost ht hp, DefaultsLast, List.pairwise_append, List.pairwise_cons]
      simp only [hfront, hback, true_and, List.forall_mem_cons, hostParam, ht, not_false_eq_true,
        forall_const, Option.isSome_none, Bool.false_eq_true, imp_false, false_imp_iff, implies_true,
        Bool.not_eq_true]
      exact ⟨fun h p hp => (h p hp).1, fun h p hp => ⟨h p hp, hcross p hp⟩⟩

/-- A signature that has taken the host is accepted when the host fits into it. -/
theorem accepted_insertHost_iff (ha : params.Accepted) :
    ((insertHost params).Accepted ∧ (insertHost params).names.count hostName = 1 ∧
      receiverOf params ∈ (insertHost params).names) ↔ FitsHost params := by
  have hplain := defaultsLast_insertHost_iff ha
  by_cases ht : params.Takes hostName
  · have hone : params.names.count hostName = 1 :=
      List.count_eq_one_of_mem ha.distinct (hostName_mem_names ht)
    rw [insertHost_of_takes ht]
    exact ⟨fun h => ⟨fun _ => h.2.2, absurd ht, absurd ht, absurd ht⟩,
      fun h => ⟨ha, hone, h.receiver ht⟩⟩
  by_cases hp : params.positional = []
  · have hnames := names_insertHost_of_none ht hp
    have hr : receiverOf params = "self" := by rw [receiverOf, ← Params.positional, hp]
    constructor
    · rintro ⟨hok, -, -⟩
      have hd := hok.distinct
      rw [hnames, List.nodup_cons, List.nodup_cons] at hd
      exact ⟨(absurd · ht), fun _ => hd.2.1, hplain.mp hok.defaultsLast,
        fun _ _ hs => hd.1 (List.mem_cons_of_mem _ hs)⟩
    · intro h
      have hfree := h.free ht
      have hself : "self" ∉ hostName :: params.names :=
        List.not_mem_cons_of_ne_of_not_mem (by decide) (h.selfFree ht hp)
      refine ⟨⟨?_, hplain.mpr h.plain⟩, ?_, ?_⟩
      · rw [hnames]
        exact List.nodup_cons.mpr ⟨hself, List.nodup_cons.mpr ⟨hfree, ha.distinct⟩⟩
      · rw [hnames, List.count_cons_of_ne (by decide), List.count_cons_self,
          List.count_eq_zero_of_not_mem hfree]
      · rw [hnames, hr]
        exact List.mem_cons_self
  · have hnames := names_insertHost ht hp
    have hr : receiverOf params ∈ (insertHost params).names :=
      hnames.mem_iff.mpr (List.mem_cons_of_mem _ (receiverOf_mem_names hp))
    constructor
    · rintro ⟨hok, -, -⟩
      have hd := hnames.nodup_iff.mp hok.distinct
      exact ⟨(absurd · ht), fun _ => (List.nodup_cons.mp hd).1, hplain.mp hok.defaultsLast,
        fun _ he => absurd he hp⟩
    · intro h
      have hfree := h.free ht
      refine ⟨⟨?_, hplain.mpr h.plain⟩, ?_, hr⟩
      · exact hnames.nodup_iff.mpr (List.nodup_cons.mpr ⟨hfree, ha.distinct⟩)
      · rw [hnames.count_eq, List.count_cons_self, List.count_eq_zero_of_not_mem hfree]

theorem prepareConstructor_eq_ok {plan : Plan} {dropSuper : Bool} {head : FuncHead} {body : Suite}
    {t : Stmt} :
    prepareConstructor plan dropSuper head body = .ok t ↔
      ∃ start, bootstrap plan (receiverOf head.params) = .ok start ∧
        DefaultsLast (insertHost head.params).positional ∧
        t = .func { head with params := insertHost head.params }
          (withStatements (spliceBootstrap start (keptStatements plan.component
            (receiverOf head.params) dropSuper (blockStatements body))) body) := by
  have hcheck : ∀ params, (checkParams (insertHost head.params)).mapError ReadError.tree = .ok params ↔
      DefaultsLast (insertHost head.params).positional ∧ insertHost head.params = params := by
    intro params
    rw [mapError_eq_ok, checkParams, ← Params.positional, ← defaultsAreLast_iff]
    split <;> simp_all
  simp only [prepareConstructor, bind_eq_ok, hcheck]
  constructor
  · rintro ⟨start, hs, params, ⟨hd, rfl⟩, h⟩
    exact ⟨start, hs, hd, (Except.ok.inj h).symm⟩
  · rintro ⟨start, hs, hd, rfl⟩
    exact ⟨start, hs, _, ⟨hd, rfl⟩, rfl⟩

/-- The constructor with an accepted signature is prepared, and its new signature is accepted, holds
the host once and has the receiver, when the statements that it starts with can be read and the host
fits into the signature. -/
theorem prepared_accepted_iff {head : FuncHead} (ha : head.params.Accepted) (plan : Plan)
    (dropSuper : Bool) (body : Suite) :
    (∃ own inner, prepareConstructor plan dropSuper head body = .ok (.func own inner) ∧
      own.params.Accepted ∧ own.params.names.count hostName = 1 ∧
      receiverOf head.params ∈ own.params.names ∧ hostName ∈ own.params.names) ↔
    (∃ start, bootstrap plan (receiverOf head.params) = .ok start) ∧ FitsHost head.params := by
  rw [← accepted_insertHost_iff ha]
  constructor
  · rintro ⟨own, inner, h, haccepted, hone, hr, -⟩
    obtain ⟨start, hs, -, he⟩ := prepareConstructor_eq_ok.mp h
    obtain ⟨rfl, -⟩ := Stmt.func.inj he
    exact ⟨⟨start, hs⟩, haccepted, hone, hr⟩
  · rintro ⟨⟨start, hs⟩, haccepted, hone, hr⟩
    have hh : hostName ∈ (insertHost head.params).names :=
      List.count_pos_iff.mp (hone ▸ Nat.one_pos)
    exact ⟨_, _, prepareConstructor_eq_ok.mpr ⟨start, hs, haccepted.defaultsLast, rfl⟩, haccepted,
      hone, hr, hh⟩

end Accepted

def sizedParams : List Param :=
  [{ name := "self" }, { name := "size", default := some ({}, .number "1") }]

/-- The constructor `def __init__(self, size=1): pass`, or with a slash behind its parameters. -/
def sizedHead (slash : Bool) : FuncHead where
  name := "__init__"
  params := if slash then { posonly := sizedParams } else { params := sizedParams }

def sizedPlan : Plan where
  component := { tag := "p", className := "P", sourcePath := "p.py" }

theorem accepted_sizedHead (slash : Bool) : (sizedHead slash).params.Accepted := by
  cases slash <;> exact ⟨by decide, by unfold DefaultsLast; decide⟩

/-- The host finds a place behind a receiver, but not behind a default. -/
theorem prepared_accepted_iff_of_sized :
    (∀ slash, (sizedHead slash).params.Accepted) ∧
    (∃ own inner, prepareConstructor sizedPlan false (sizedHead false) (.inline .space [⟨.pass, none⟩] {}) =
      .ok (.func own inner) ∧ own.params.Accepted ∧ own.params.names.count hostName = 1 ∧
      receiverOf (sizedHead false).params ∈ own.params.names ∧ hostName ∈ own.params.names) ∧
    ¬ ∃ own inner, prepareConstructor sizedPlan false (sizedHead true) (.inline .space [⟨.pass, none⟩] {}) =
      .ok (.func own inner) ∧ own.params.Accepted ∧ own.params.names.count hostName = 1 ∧
      receiverOf (sizedHead true).params ∈ own.params.names ∧ hostName ∈ own.params.names := by
  have hstart : ∃ start, bootstrap sizedPlan (receiverOf (sizedHead false).params) = .ok start := by
    have h : (bootstrap sizedPlan "self").toOption.isSome = true := by decide +kernel
    obtain ⟨start, hs⟩ := Option.isSome_iff_exists.mp h
    exact ⟨start, toOption_eq_some.mp hs⟩
  have hfree (slash : Bool) : ¬ (sizedHead slash).params.Takes hostName := by
    rw [← any_single_iff]
    cases slash <;> decide
  refine ⟨accepted_sizedHead, ?_, fun h => ?_⟩
  · exact (prepared_accepted_iff (accepted_sizedHead false) _ _ _).mpr ⟨hstart,
      (absurd · (hfree false)), fun _ => by decide, fun _ => by decide, fun _ => by decide⟩
  · have hfits := ((prepared_accepted_iff (accepted_sizedHead true) _ _ _).mp h).2
    exact absurd (hfits.plain (hfree true)) (by decide)

end Hydration.Transform
