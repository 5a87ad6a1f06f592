import Hydration.Proofs.Compiling
import Hydration.Proofs.MetadataTable
import Hydration.Proofs.Planting

/-! What becomes of each component. One that is meant for the module is put to use, and then its tag
is told by the metadata of a hydrated class, or a warning names it. Only a component whose class is
claimed by a later one under another tag goes unmentioned. -/

namespace Hydration.Transform

open Syntax

/-- The class ends in a method that returns a literal, and in the value of that stands the tag. -/
def TellsTag (tag : String) (stmt : Stmt) : Prop :=
  ∃ head body members method, stmt = .class_ head body ∧
    blockStatements body = members ++ [method] ∧
    method.Defines ["staticmethod"] "cmp_meta" [] (Satisfy [Stmt.IsLineOf (Small.Returns fun e =>
      ∃ entries, e.literal? = some (.table entries) ∧
        entries.lookup "tag_name" = some (.text tag))])

theorem lookup_tag_metadata (cmp : Component) :
    ∃ entries, metadata cmp = .table entries ∧ entries.lookup "tag_name" = some (.text cmp.tag) :=
  ⟨_, rfl, rfl⟩

/-- A hydrated class tells the tag of its component. -/
theorem tellsTag_hydrateClass {plan : Plan} {head : ClassHead} {body : Suite} {t : Stmt}
    (hn : plan.style.newline ∈ ["\n", "\r\n", "\r"])
    (hi : isPlainIndent plan.style.indent = true) (h : hydrateClass plan head body = .ok t) :
    TellsTag plan.component.tag t := by
  obtain ⟨new, hnew, h⟩ := bind_eq_ok.mp h
  obtain rfl := Except.ok.inj h
  obtain ⟨parts, members, element, method, -, -, -, hmethod, rfl⟩ := hydrateBody_eq_ok hnew
  refine ⟨_, _, members ++ element, withBlank method, rfl, by rw [blockStatements_withStatements], ?_⟩
  refine defines_withBlank (defines_mono (defines_metadataMethod hn hi (keyed_metadata _) hmethod) ?_)
  intro block hblock
  obtain ⟨stmt, rest, ⟨leading, small, tail, rfl, gap, value, rfl, hvalue⟩, hrest, rfl⟩ :=
    List.forall₂_cons_left_iff.mp hblock
  obtain ⟨entries, hentries, htag⟩ := lookup_tag_metadata plan.component
  exact .cons ⟨leading, _, tail, rfl, gap, value, rfl, entries, hentries ▸ hvalue, htag⟩ hrest

/-- A class that the module declares under the name of the component stands in the result as it is
hydrated, and its metadata tell the tag of the component. -/
def Represented (m result : Module) (component : Component) : Prop :=
  ∃ p head body plan q t, stmtAt m.body p = some (.class_ head body) ∧
    head.name = component.className ∧ hydrateClass plan head body = .ok t ∧
    stmtAt result.body q = some t ∧ TellsTag component.tag t

/-- Classes are hydrated only in a module whose indentation generated members can follow. -/
theorem isPlainIndent_of_uses {index : Index} {context : Context} {m result : Module}
    {diagnostics : List Diagnostic} {component : Component}
    (h : hydrateModule index context m = .ok (result, diagnostics))
    (hu : Uses index context m result component) : isPlainIndent m.style.indent = true := by
  have hlocated : ¬ Unlocated (locateIn index context.file) m.body := by
    obtain ⟨p, head, body, -, -, -, hp, -, hc, -⟩ := hu
    exact fun hn => absurd (hn p _ hp) (by simp [locatedStmt, hc])
  obtain ⟨supplied, -, hi, -⟩ := (hydrates_iff_of_located hlocated).mp ⟨diagnostics, h⟩
  exact hi

theorem represented_of_uses {index : Index} {context : Context} {m result : Module}
    {diagnostics : List Diagnostic} {component : Component} (hkeyed : index.Keyed)
    (hn : m.style.newline ∈ ["\n", "\r\n", "\r"])
    (h : hydrateModule index context m = .ok (result, diagnostics))
    (hu : Uses index context m result component) : Represented m result component := by
  have hi := isPlainIndent_of_uses h hu
  obtain ⟨p, head, body, supplied, t, q, hp, -, hc, -, ht, hq⟩ := hu
  obtain ⟨-, hname⟩ := hkeyed.get?_eq_some_iff.mp hc
  exact ⟨p, head, body, _, q, t, hp, hname.symm, ht, hq, tellsTag_hydrateClass hn hi ht⟩

theorem missing_mem_diagnostics {index : Index} {context : Context} {m result : Module}
    {diagnostics : List Diagnostic} (h : hydrateModule index context m = .ok (result, diagnostics))
    {component : Component} (hc : component ∈ index.ofFile context.file)
    (hn : component.className ∉
      (locatedClasses index context.file m).map (·.component.className)) :
    missingClass context component ∈ diagnostics := by
  obtain ⟨warnings, rfl, -, -⟩ := diagnostics_of_pass h
  refine List.mem_append_left _ (List.mem_append_left _ (List.mem_map_of_mem ?_))
  exact List.mem_filter.mpr ⟨hc, by simpa using hn⟩

/-- The diagnostic is a warning that names the tag. -/
def WarnsOf (tag : String) (d : Diagnostic) : Prop :=
  d.severity = .warning ∧ tag.toList <:+: d.message.toList

theorem warnsOf_missingClass (context : Context) (component : Component) :
    WarnsOf component.tag (missingClass context component) := by
  have hreports := reportsMissing_missingClass context component
  refine ⟨hreports.severity_eq, ?_⟩
  rw [hreports.message_eq]
  simp only [String.toList_append, List.append_assoc]
  exact List.infix_append' ..

/-- A component of the index that is meant for the file is represented or named by a warning. -/
theorem represented_or_warned {index : Index} {context : Context} {m result : Module}
    {diagnostics : List Diagnostic} {component : Component} (hkeyed : index.Keyed)
    (hn : m.style.newline ∈ ["\n", "\r\n", "\r"])
    (h : hydrateModule index context m = .ok (result, diagnostics))
    (hc : component ∈ index.ofFile context.file) :
    Represented m result component ∨ ∃ d ∈ diagnostics, WarnsOf component.tag d := by
  by_cases hf : component.className ∈
      (locatedClasses index context.file m).map (·.component.className)
  · exact .inl (represented_of_uses hkeyed hn h ((uses_iff_found hkeyed h hc).mpr hf))
  · exact .inr ⟨_, missing_mem_diagnostics h hc hf, warnsOf_missingClass context component⟩

/-- The last component of the same path and class comes later and has another tag. -/
def Superseded (components : List Component) (component : Component) : Prop :=
  ∃ front last back, components = front ++ last :: back ∧
    Index.keyOf last = Index.keyOf component ∧
    (∀ other ∈ back, Index.keyOf other ≠ Index.keyOf component) ∧ last.tag ≠ component.tag

theorem exists_unsuperseded {components : List Component} {component : Component} {file : String}
    (hm : component ∈ components) (hs : ¬ Superseded components component)
    (hf : Path.normalize component.sourcePath = Path.normalize file) :
    ∃ last ∈ (Index.ofComponents components).ofFile file,
      last.className = component.className ∧ last.tag = component.tag := by
  obtain ⟨last, hl⟩ := Index.exists_get?_of_mem hm hf
  obtain ⟨hlast, hname⟩ := (Index.keyed_ofComponents components).get?_eq_some_iff.mp hl
  obtain ⟨hkey, front, back, hc, hback⟩ := Index.get?_eq_some_iff_last.mp hl
  have hown : Index.keyOf component = (Path.normalize file, component.className) := by
    rw [Index.keyOf, hf]
  rw [← hown] at hkey hback
  refine ⟨last, hlast, hname, ?_⟩
  by_contra ht
  exact hs ⟨front, last, back, hc, hkey, hback, ht⟩

theorem parse_of_readModule {options : Options} {text : String} {m : Module}
    (h : readModule options text = .ok m) : Module.parse text = .ok m := by
  simp only [readModule, bind_eq_ok, mapError_eq_ok] at h
  obtain ⟨-, -, h⟩ := h
  exact h

/-- When a text comes out, each component that is meant for the module is represented in it by its
own tag, or named by a warning that the sink has grown by; unless a later component of the same
class, under another tag, has taken its place. -/
theorem accounted_for {build : Build} {text written : String} {components : List Component}
    {options : Options}
    (h : (build.transform text components options).2 = some written) :
    let context := contextOf options (fileOf options components)
    ∃ m result diagnostics, readModule options text = .ok m ∧ written = result.render ∧
      (build.transform text components options).1.sink.items = build.sink.items ++ diagnostics ∧
      ∀ component ∈ components,
        Path.normalize component.sourcePath = Path.normalize context.file →
        ¬ Superseded components component →
        Represented m result component ∨ ∃ d ∈ diagnostics, WarnsOf component.tag d := by
  intro context
  obtain ⟨m, result, diagnostics, hm, hr, hw, hsink⟩ := Build.transform_eq_some h
  have hn := newline_parse (parse_of_readModule hm)
  refine ⟨m, result, diagnostics, hm, hw, by rw [hsink]; rfl, ?_⟩
  intro component hc hf hs
  obtain ⟨last, hlast, hname, htag⟩ := exists_unsuperseded hc hs hf
  rcases represented_or_warned (Index.keyed_ofComponents components) hn hr hlast with hrep | hwarn
  · obtain ⟨p, head, body, plan, q, t, hp, hhead, ht, hq, htells⟩ := hrep
    exact .inl ⟨p, head, body, plan, q, t, hp, hname ▸ hhead, ht, hq, htag ▸ htells⟩
  · rw [htag] at hwarn
    exact .inr hwarn

def superseded : Component := { tag := "q-", className := "Q", sourcePath := "q.py" }

def supersedes : Component := { tag := "q", className := "Q", sourcePath := "./q.py" }

def undeclared : Component := { tag := "x", className := "X", sourcePath := "q.py" }

/-- Two tags stand for one class name, and the module has no such class. The only diagnostic names
the second tag; of the first one nothing is heard. -/
theorem superseded_unmentioned :
    classNameOfTag superseded.tag = superseded.className ∧
    classNameOfTag supersedes.tag = supersedes.className ∧
    Path.normalize superseded.sourcePath =
      Path.normalize (contextOf {} (fileOf {} [superseded, supersedes])).file ∧
    (({} : Build).transform "x\n" [superseded, supersedes] {}).2 = some "x\n" ∧
    (({} : Build).transform "x\n" [superseded, supersedes] {}).1.sink.items.map (·.message) =
      ["Component 'q' expects class 'Q', which is not declared in this module"] ∧
    ¬ superseded.tag.toList <:+:
      "Component 'q' expects class 'Q', which is not declared in this module".toList := by
  refine ⟨?_, ?_, ?_, ?_, ?_, ?_⟩ <;> decide +kernel

theorem not_superseded_supersedes :
    ¬ Superseded [superseded, supersedes, undeclared] supersedes := by
  rintro ⟨front, last, back, hc, hkey, hback, ht⟩
  have hget : (Index.ofComponents [superseded, supersedes, undeclared]).get? supersedes.sourcePath
      supersedes.className = some last :=
    Index.get?_eq_some_iff_last.mpr ⟨hkey, front, back, hc, hback⟩
  have hown : (Index.ofComponents [superseded, supersedes, undeclared]).get? supersedes.sourcePath
      supersedes.className = some supersedes := by decide +kernel
  exact ht (by rw [Option.some.inj (hget.symm.trans hown)])

/-- Of the components for one class the last one is represented, and the component without a class
is named by a warning. -/
theorem accounted_for_of_shared_class :
    ¬ Superseded [superseded, supersedes, undeclared] supersedes ∧
    ∃ written m result,
      (({} : Build).transform "class Q: 0\n" [superseded, supersedes, undeclared] {}).2 =
        some written ∧
      written = result.render ∧ Represented m result supersedes ∧
      (({} : Build).transform "class Q: 0\n" [superseded, supersedes, undeclared] {}).1.sink.items.map
        (·.message) = ["Component 'x' expects class 'X', which is not declared in this module"] := by
  have hp : Path.normalize supersedes.sourcePath = Path.normalize
      (contextOf {} (fileOf {} [superseded, supersedes, undeclared])).file := by decide +kernel
  -- One evaluation tells both that a text comes out and what the sink holds.
  have hrun : (fun r : Build × Option String => (r.2.isSome, r.1.sink.items.map (·.message)))
      (({} : Build).transform "class Q: 0\n" [superseded, supersedes, undeclared] {}) =
      (true, ["Component 'x' expects class 'X', which is not declared in this module"]) := by
    decide +kernel
  obtain ⟨hsome, hitems⟩ := Prod.mk.inj hrun
  obtain ⟨written, hw⟩ := Option.isSome_iff_exists.mp hsome
  obtain ⟨m, result, diagnostics, -, hr, hsink, hall⟩ := accounted_for hw
  refine ⟨not_superseded_supersedes, written, m, result, hw, hr, ?_, hitems⟩
  refine (hall supersedes (by simp) hp not_superseded_supersedes).resolve_right ?_
  rintro ⟨d, hd, -, htag⟩
  -- The one message speaks of another tag.
  have hmessage : d.message ∈
      ["Component 'x' expects class 'X', which is not declared in this module"] := by
    rw [← hitems, hsink]
    exact List.mem_map_of_mem (List.mem_append_right _ hd)
  rw [List.mem_singleton.mp hmessage] at htag
  exact absurd htag (by decide +kernel)

end Hydration.Transform
