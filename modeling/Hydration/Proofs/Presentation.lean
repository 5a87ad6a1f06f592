import Hydration.Proofs.Compiling

/-! The way components are presented. In which order they are listed and how their paths are spelled
makes no difference to a module: the same classes are hydrated with the same result, and only the
order and the wording of the warnings can differ. -/

namespace Hydration

/-- The component with its path in normal form. Components have one normal form if they differ in
nothing but the spelling of one path. -/
def Component.normal (cmp : Component) : Component :=
  { cmp with sourcePath := Path.normalize cmp.sourcePath }

/-- The options for a module that has a name of its own. -/
def Options.under (options : Options) (file : String) : Options :=
  { options with fileName := some file }

namespace Index

theorem insert_of_not_mem {entries : List ((String × String) × Component)} {key : String × String}
    {cmp : Component} (h : key ∉ entries.map Prod.fst) :
    insert entries key cmp = entries ++ [(key, cmp)] := by
  induction entries with
  | nil => rfl
  | cons entry entries ih =>
    obtain ⟨k, c⟩ := entry
    rw [List.map_cons, List.mem_cons, not_or] at h
    simp [insert, Ne.symm h.1, ih h.2]

/-- Components of different keys are listed as they came. -/
theorem entries_ofComponents {components : List Component} (h : (components.map keyOf).Nodup) :
    (ofComponents components).entries = components.map fun cmp => (keyOf cmp, cmp) := by
  have go (entries : List ((String × String) × Component))
      (hd : (entries.map Prod.fst ++ components.map keyOf).Nodup) :
      components.foldl (fun entries cmp => insert entries (keyOf cmp) cmp) entries =
        entries ++ components.map fun cmp => (keyOf cmp, cmp) := by
    clear h
    induction components generalizing entries with
    | nil => simp
    | cons cmp components ih =>
      have hfresh : keyOf cmp ∉ entries.map Prod.fst := by
        intro hm
        rw [List.nodup_append] at hd
        exact hd.2.2 _ hm _ List.mem_cons_self rfl
      rw [List.foldl_cons, insert_of_not_mem hfresh, ih _ (by simpa using hd)]
      simp
  exact go [] (by simpa using h)

section Rearranged

variable {components others : List Component} {file other : String}

theorem map_keyOf (components : List Component) :
    components.map keyOf =
      (components.map Component.normal).map fun cmp => (cmp.sourcePath, cmp.className) := by
  rw [List.map_map]
  rfl

theorem nodup_keys_of_perm (hk : (components.map keyOf).Nodup)
    (hc : (components.map Component.normal).Perm (others.map Component.normal)) :
    (others.map keyOf).Nodup := by
  rw [map_keyOf] at hk ⊢
  exact (hc.map _).nodup_iff.mp hk

/-- Each of several components of different keys is found under its own key. -/
theorem get?_eq_some_iff_mem {name : String} {cmp : Component} (hk : (components.map keyOf).Nodup) :
    (ofComponents components).get? file name = some cmp ↔
      cmp ∈ components ∧ keyOf cmp = (Path.normalize file, name) := by
  rw [get?, lookup_eq_some_iff_mem (keyed_ofComponents components).nodup, entries_ofComponents hk,
    List.mem_map]
  constructor
  · rintro ⟨c, hc, he⟩
    obtain ⟨hkey, rfl⟩ := Prod.mk.inj he
    exact ⟨hc, hkey⟩
  · rintro ⟨hc, hkey⟩
    exact ⟨cmp, hc, Prod.ext hkey rfl⟩

theorem map_normal_get?_eq_some_iff {name : String} {cmp : Component}
    (hk : (components.map keyOf).Nodup) :
    ((ofComponents components).get? file name).map Component.normal = some cmp ↔
      cmp ∈ components.map Component.normal ∧
        (cmp.sourcePath, cmp.className) = (Path.normalize file, name) := by
  simp only [Option.map_eq_some_iff, get?_eq_some_iff_mem hk, List.mem_map]
  constructor
  · rintro ⟨c, ⟨hc, hkey⟩, rfl⟩
    exact ⟨⟨c, hc, rfl⟩, hkey⟩
  · rintro ⟨⟨c, hc, rfl⟩, hkey⟩
    exact ⟨c, ⟨hc, hkey⟩, rfl⟩

/-- Of components of different keys the same one is found, however they are presented. -/
theorem map_normal_get?_congr (hf : Path.normalize file = Path.normalize other)
    (hk : (components.map keyOf).Nodup)
    (hc : (components.map Component.normal).Perm (others.map Component.normal)) (name : String) :
    ((ofComponents components).get? file name).map Component.normal =
      ((ofComponents others).get? other name).map Component.normal := by
  refine Option.ext fun cmp => ?_
  rw [map_normal_get?_eq_some_iff hk, map_normal_get?_eq_some_iff (nodup_keys_of_perm hk hc), hf,
    hc.mem_iff]

theorem toList_ofComponents (hk : (components.map keyOf).Nodup) :
    (ofComponents components).toList = components := by
  rw [toList, entries_ofComponents hk, List.map_map]
  exact List.map_id _

theorem map_normal_ofFile (hk : (components.map keyOf).Nodup) :
    ((ofComponents components).ofFile file).map Component.normal =
      (components.map Component.normal).filter (·.sourcePath == Path.normalize file) := by
  rw [ofFile, entries_ofComponents hk, List.filter_map, List.map_map, List.map_map, List.filter_map]
  rfl

theorem map_normal_ofFile_perm (hf : Path.normalize file = Path.normalize other)
    (hk : (components.map keyOf).Nodup)
    (hc : (components.map Component.normal).Perm (others.map Component.normal)) :
    (((ofComponents components).ofFile file).map Component.normal).Perm
      (((ofComponents others).ofFile other).map Component.normal) := by
  rw [map_normal_ofFile hk, map_normal_ofFile (nodup_keys_of_perm hk hc), hf]
  exact hc.filter _

end Rearranged

end Index

namespace Transform

open Syntax Imports

section Walks

variable (locate : Locate) (view : Component → Component)

mutual

theorem locatedIn_map (s : Stmt) :
    locatedIn (fun head => (locate head).map view) s =
      (locatedIn locate s).map fun x => { x with component := view x.component } := by
  cases s with
  | line l => rfl
  | func head body => exact locatedInSuite_map body
  | class_ head body =>
    cases h : locate head with
    | none => simp only [locatedIn, h, Option.map_none, locatedInSuite_map body]
    | some component => simp [locatedIn, h]
  | compound clauses => exact locatedInClauses_map clauses

theorem locatedInSuite_map (s : Suite) :
    locatedInSuite (fun head => (locate head).map view) s =
      (locatedInSuite locate s).map fun x => { x with component := view x.component } := by
  cases s with
  | block header indent body footer => exact locatedInAll_map body
  | inline gap entries tail => rfl

theorem locatedInClauses_map (clauses : List Clause) :
    locatedInClauses (fun head => (locate head).map view) clauses =
      (locatedInClauses locate clauses).map fun x => { x with component := view x.component } := by
  cases clauses with
  | nil => rfl
  | cons clause clauses =>
    obtain ⟨leading, head, gap, body⟩ := clause
    simp only [locatedInClauses, locatedInSuite_map body, locatedInClauses_map clauses,
      List.map_append]

theorem locatedInAll_map (body : List Stmt) :
    locatedInAll (fun head => (locate head).map view) body =
      (locatedInAll locate body).map fun x => { x with component := view x.component } := by
  cases body with
  | nil => rfl
  | cons s body => simp only [locatedInAll, locatedIn_map s, locatedInAll_map body, List.map_append]

end

variable (replace : Replace)

mutual

theorem replaceIn_map (s : Stmt) :
    replaceIn (fun head => (locate head).map view) replace s =
      replaceIn locate (fun component => replace (view component)) s := by
  cases s with
  | line l => rfl
  | func head body => simp only [replaceIn, replaceInSuite_map body]
  | class_ head body =>
    cases h : locate head with
    | none => simp only [replaceIn, h, Option.map_none, replaceInSuite_map body]
    | some component => simp only [replaceIn, h, Option.map_some]
  | compound clauses => simp only [replaceIn, replaceInClauses_map clauses]

theorem replaceInSuite_map (s : Suite) :
    replaceInSuite (fun head => (locate head).map view) replace s =
      replaceInSuite locate (fun component => replace (view component)) s := by
  cases s with
  | block header indent body footer => simp only [replaceInSuite, replaceInAll_map body]
  | inline gap entries tail => rfl

theorem replaceInClauses_map (clauses : List Clause) :
    replaceInClauses (fun head => (locate head).map view) replace clauses =
      replaceInClauses locate (fun component => replace (view component)) clauses := by
  cases clauses with
  | nil => rfl
  | cons clause clauses =>
    obtain ⟨leading, head, gap, body⟩ := clause
    simp only [replaceInClauses, replaceInSuite_map body, replaceInClauses_map clauses]

theorem replaceInAll_map (body : List Stmt) :
    replaceInAll (fun head => (locate head).map view) replace body =
      replaceInAll locate (fun component => replace (view component)) body := by
  cases body with
  | nil => rfl
  | cons s body => simp only [replaceInAll, replaceIn_map s, replaceInAll_map body]

end

end Walks

/-- A class is hydrated without regard to the path of its component. -/
theorem replaceClass_normal (options : Options) (helpers : Helpers) (style : Style)
    (component : Component) :
    replaceClass options helpers style component.normal =
      replaceClass options helpers style component := rfl

/-- Two indexes find the same under the names of two files, up to the spelling of paths. -/
structure Agree (index : Index) (file : String) (others : Index) (other : String) : Prop where
  get? : ∀ name, (index.get? file name).map Component.normal =
    (others.get? other name).map Component.normal
  ofFile : ((index.ofFile file).map Component.normal).Perm
    ((others.ofFile other).map Component.normal)
  size : index.toList.length = others.toList.length

theorem agree_ofComponents {components rearranged : List Component} {file other : String}
    (hf : Path.normalize file = Path.normalize other) (hk : (components.map Index.keyOf).Nodup)
    (hc : (components.map Component.normal).Perm (rearranged.map Component.normal)) :
    Agree (.ofComponents components) file (.ofComponents rearranged) other where
  get? := Index.map_normal_get?_congr hf hk hc
  ofFile := Index.map_normal_ofFile_perm hf hk hc
  size := by
    rw [Index.toList_ofComponents hk, Index.toList_ofComponents (Index.nodup_keys_of_perm hk hc)]
    simpa using hc.length_eq

def contextUnder (options : Options) (file : String) : Context :=
  { options := options.under file, file }

theorem map_category_unused (context : Context) (index : Index) (found : List String) :
    (unusedComponents context index found).map (·.category) =
      List.replicate (unusedComponents context index found).length .hydrate := by
  rw [List.eq_replicate_iff, List.length_map]
  refine ⟨rfl, fun category hc => ?_⟩
  obtain ⟨d, hd, rfl⟩ := List.mem_map.mp hc
  rcases List.mem_append.mp hd with hd | hd
  · obtain ⟨cmp, -, rfl⟩ := List.mem_map.mp hd
    rfl
  · split at hd
    · obtain ⟨cmp, -, rfl⟩ := List.mem_map.mp hd
      rfl
    · exact absurd hd List.not_mem_nil

theorem length_unused (context : Context) (index : Index) (found : List String) :
    (unusedComponents context index found).length =
      ((index.ofFile context.file).filter fun cmp => !found.contains cmp.className).length +
        bif (index.ofFile context.file).isEmpty then index.toList.length else 0 := by
  rw [unusedComponents, List.length_append, List.length_map]
  cases (index.ofFile context.file).isEmpty <;> simp

namespace Agree

variable {index others : Index} {file other : String} {m : Module}

theorem locateIn_eq (h : Agree index file others other) :
    (fun head => (locateIn index file head).map Component.normal) =
      fun head => (locateIn others other head).map Component.normal :=
  funext fun head => h.get? head.name

theorem names_eq (h : Agree index file others other) :
    (locatedClasses index file m).map (·.component.className) =
      (locatedClasses others other m).map (·.component.className) := by
  have hl := congrArg (fun locate => (locatedInAll locate m.body).map (·.component.className))
    h.locateIn_eq
  simp only [locatedInAll_map, List.map_map] at hl
  exact hl

theorem replaceClasses_eq (h : Agree index file others other) (options : Options)
    (helpers : Helpers) (m : Module) :
    replaceClasses index (contextUnder options file) helpers m =
      replaceClasses others (contextUnder options other) helpers m := by
  have hr : replaceInAll (locateIn index file) (replaceClass options helpers m.style) m.body =
      replaceInAll (locateIn others other) (replaceClass options helpers m.style) m.body := by
    have hh := congrArg (fun locate => replaceInAll locate (replaceClass options helpers m.style)
      m.body) h.locateIn_eq
    simp only [replaceInAll_map, replaceClass_normal] at hh
    exact hh
  exact congrArg (fun body : Except ReadError (List Stmt) => do
    checkIndent m.style
    let body ← body.mapError .read
    return { m with body }) hr

theorem categories_unused (h : Agree index file others other) (options : Options)
    (found : List String) :
    (unusedComponents (contextUnder options file) index found).map (·.category) =
      (unusedComponents (contextUnder options other) others found).map (·.category) := by
  have hmissing : ((index.ofFile file).filter fun cmp => !found.contains cmp.className).length =
      ((others.ofFile other).filter fun cmp => !found.contains cmp.className).length := by
    have hp := (h.ofFile.filter fun cmp => !found.contains cmp.className).length_eq
    simp only [List.filter_map, List.length_map] at hp
    exact hp
  have hempty : (index.ofFile file).isEmpty = (others.ofFile other).isEmpty := by
    have hl := h.ofFile.length_eq
    simp only [List.length_map] at hl
    rw [Bool.eq_iff_iff, List.isEmpty_iff_length_eq_zero, List.isEmpty_iff_length_eq_zero, hl]
  rw [map_category_unused, map_category_unused, length_unused, length_unused]
  simp only [contextUnder, hmissing, hempty, h.size]

/-- Up to what its warnings say, a pass gives the same for both indexes. -/
theorem hydrateModule_eq (h : Agree index file others other) (options : Options) (m : Module) :
    (hydrateModule index (contextUnder options file) m).map
        (fun result => (result.1, result.2.map (·.category))) =
      (hydrateModule others (contextUnder options other) m).map
        fun result => (result.1, result.2.map (·.category)) := by
  have hnames := h.names_eq (m := m)
  have hunused := (h.categories_unused options
    ((locatedClasses index file m).map (·.component.className))).trans (by rw [hnames])
  have hempty : (locatedClasses index file m).isEmpty = (locatedClasses others other m).isEmpty := by
    have hl := congrArg List.isEmpty hnames
    simpa only [List.isEmpty_map] using hl
  cases he : (locatedClasses others other m).isEmpty with
  | true =>
    rw [he] at hempty
    simp only [hydrateModule, contextUnder, hempty, he, if_true] at hunused ⊢
    simp only [pure, Except.pure, Except.map, hunused]
  | false =>
    rw [he] at hempty
    simp only [hydrateModule, contextUnder, hempty, he, Bool.false_eq_true, if_false] at hunused ⊢
    -- Both take the same helpers, as the name of the module does not bear on them.
    change ((supply options.format (helperSpecifiers options) m).mapError _ >>= _).map _ =
      ((supply options.format (helperSpecifiers options) m).mapError _ >>= _).map _
    cases supply options.format (helperSpecifiers options) m with
    | error e => rfl
    | ok supplied =>
      have hsame := h.replaceClasses_eq options (helpersOf options supplied.references) supplied.module
      change (replaceClasses index _ (helpersOf options supplied.references) supplied.module >>=
        _).map _ = (replaceClasses others _ (helpersOf options supplied.references)
          supplied.module >>= _).map _
      simp only [contextUnder] at hsame
      rw [hsame]
      cases replaceClasses others _ (helpersOf options supplied.references) supplied.module with
      | error e => rfl
      | ok hydrated =>
        simp only [bind, Except.bind, pure, Except.pure, Except.map, List.map_append, hunused]
        simp only [importWarnings, List.map_map]
        rfl

end Agree

end Transform

open Transform

/-- What a compilation comes to, with nothing left of its diagnostics but their categories. -/
def Output.gist (output : Output) : Option String × List Category :=
  (output.text, output.diagnostics.map (·.category))

theorem requestOf_under (text : String) (components : List Component) (options : Options)
    {file : String} (hf : file ≠ "") :
    requestOf text components (options.under file) =
      { text, options := options.under file, index := .ofComponents components, file := some file } := by
  have hn : named? (some file) = some file := named?_eq_some_iff.mpr ⟨rfl, hf⟩
  simp [requestOf, fileOf, Options.under, hn]

theorem contextOf_under (options : Options) {file : String} (hf : file ≠ "") :
    contextOf (options.under file) (some file) = contextUnder options file := by
  have hn : named? (some file) = some file := named?_eq_some_iff.mpr ⟨rfl, hf⟩
  simp [contextOf, contextUnder, hn]

theorem gist_compile (text : String) (components : List Component) (options : Options)
    {file : String} (hf : file ≠ "") :
    (Compiler.standard (requestOf text components (options.under file))).outcome.map Output.gist =
      (do
        let m ← readModule options text
        let result ← (hydrateModule (.ofComponents components) (contextUnder options file) m).map
          fun result => (result.1, result.2.map (·.category))
        return (some result.1.render, result.2)) := by
  rw [compile_eq, requestOf_under text components options hf, contextOf_under options hf]
  change Except.map _ (readModule options text >>= _) = _
  cases readModule options text with
  | error e => rfl
  | ok m =>
    change Except.map _ (hydrateModule _ _ m >>= _) = _
    simp only [bind, Except.bind]
    cases hydrateModule (.ofComponents components) (contextUnder options file) m <;> rfl

section Replies

variable {build : Build} {file other : Option String} {reply answer : Reply}

theorem Reply.categories_reported
    (h : reply.outcome.map Output.gist = answer.outcome.map Output.gist) :
    (reply.reported file).map (·.category) = (answer.reported other).map (·.category) := by
  cases hr : reply.outcome <;> cases ha : answer.outcome <;>
    simp_all [Except.map, Reply.reported, Output.gist, Failure.diagnostic_build]

theorem Reply.text_congr (h : reply.outcome.map Output.gist = answer.outcome.map Output.gist) :
    reply.text = answer.text := by
  cases hr : reply.outcome <;> cases ha : answer.outcome <;>
    simp_all [Except.map, Reply.text, Output.gist]

/-- Warnings alone keep no text back. -/
theorem Build.settle_text_of_warnings
    (h : ∀ output, reply.outcome = .ok output → ∀ d ∈ output.diagnostics, d.severity = .warning) :
    (build.settle file reply).2 =
      if build.sink.hasErrors || (build.abort || reply.abort) then none else reply.text := by
  refine Option.ext fun text => ?_
  rw [Build.settle_text_iff]
  cases hr : reply.outcome with
  | error failure => simp [Reply.text, hr]
  | ok output =>
    have hs := hasErrors_extend_of_warnings (h output hr) build.sink
    simp only [Reply.reported, hr, hs]
    by_cases he : build.sink.hasErrors = true <;>
      by_cases ha : (build.abort || reply.abort) = true <;> simp [he, ha]

end Replies

/-- A module comes out the same however its components are presented. Two lists hold the same
components, with different keys, but in any order and with paths that are spelled in any way, and
the module has a name in one spelling or another. Then both compilations fail with the same failure,
or both succeed with the same text and as many diagnostics of each category; and in any build both
give the same text and leave as many diagnostics of each category behind. -/
theorem presentation_independent (text : String) (options : Options) {file other : String}
    {components rearranged : List Component} (hf : file ≠ "") (ho : other ≠ "")
    (hp : Path.normalize file = Path.normalize other)
    (hk : (components.map Index.keyOf).Nodup)
    (hc : (components.map Component.normal).Perm (rearranged.map Component.normal)) :
    (Compiler.standard (requestOf text components (options.under file))).outcome.map Output.gist =
      (Compiler.standard (requestOf text rearranged (options.under other))).outcome.map Output.gist ∧
    ∀ build : Build,
      (build.transform text components (options.under file)).2 =
        (build.transform text rearranged (options.under other)).2 ∧
      (build.transform text components (options.under file)).1.sink.items.map (·.category) =
        (build.transform text rearranged (options.under other)).1.sink.items.map (·.category) := by
  have hgist : (Compiler.standard
      (requestOf text components (options.under file))).outcome.map Output.gist =
      (Compiler.standard
        (requestOf text rearranged (options.under other))).outcome.map Output.gist := by
    rw [gist_compile text components options hf, gist_compile text rearranged options ho]
    simp only [(agree_ofComponents hp hk hc).hydrateModule_eq options]
  refine ⟨hgist, fun build => ?_⟩
  rw [Build.transform_eq, Build.transform_eq]
  by_cases ha : build.abort = true
  · simp [ha]
  · rw [if_neg ha, if_neg ha, Build.settle_text_of_warnings fun _ => warning_of_compile,
      Build.settle_text_of_warnings fun _ => warning_of_compile, Reply.text_congr hgist]
    refine ⟨rfl, ?_⟩
    rw [Build.settle_sink, Build.settle_sink]
    simp only [Sink.extend, List.map_append]
    rw [Reply.categories_reported hgist]

def ownComponent : Component := { tag := "a-a", className := "A", sourcePath := "src/a.py" }

def foreignComponent : Component := { tag := "b-b", className := "B", sourcePath := "lib/b.py" }

/-- The same two components the other way round, their paths spelled in another way. -/
def respelled : List Component :=
  [{ foreignComponent with sourcePath := "lib\\b.py" },
    { ownComponent with sourcePath := "./src/../src/a.py" }]

/-- A class is hydrated, whether its component comes first or last and under which path. -/
theorem presentation_independent_of_respelled :
    "src/a.py" ≠ "" ∧ "src//a.py" ≠ "" ∧ Path.normalize "src/a.py" = Path.normalize "src//a.py" ∧
    ([ownComponent, foreignComponent].map Index.keyOf).Nodup ∧
    ([ownComponent, foreignComponent].map Component.normal).Perm (respelled.map Component.normal) ∧
    ∃ hydrated,
      (({} : Build).transform "class A: pass\n" [ownComponent, foreignComponent]
        (({} : Options).under "src/a.py")).2 = some hydrated ∧
      (({} : Build).transform "class A: pass\n" respelled
        (({} : Options).under "src//a.py")).2 = some hydrated := by
  have hp : Path.normalize "src/a.py" = Path.normalize "src//a.py" := by decide +kernel
  have hk : ([ownComponent, foreignComponent].map Index.keyOf).Nodup := by decide +kernel
  have hc : ([ownComponent, foreignComponent].map Component.normal).Perm
      (respelled.map Component.normal) := by decide +kernel
  obtain ⟨-, hbuild⟩ := presentation_independent "class A: pass\n" {} (by decide) (by decide) hp hk hc
  have hsome : (({} : Build).transform "class A: pass\n" [ownComponent, foreignComponent]
      (({} : Options).under "src/a.py")).2.isSome = true := by decide +kernel
  obtain ⟨hydrated, hh⟩ := Option.isSome_iff_exists.mp hsome
  exact ⟨by decide, by decide, hp, hk, hc, hydrated, hh, (hbuild {}).1 ▸ hh⟩

end Hydration
