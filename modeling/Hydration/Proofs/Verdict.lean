import Hydration.Proofs.Containment

/-! What a run comes to when its results have places of their own and can be written. A path with a null
character ends it before anything is written, and a message that is no markup ends it where it is to be
shown. Otherwise its code tells whether a module could not be opened or failed, its report lists the
errors of opening before what the jobs recorded, and it writes the modules before the first that fails,
but none at all when one of them could not be opened. -/

namespace Hydration

open Hydration.Path Disk

section Modules

variable {disk : Disk} {options : Options} {folder : Option Location} {groups : List Group}

theorem sublist_results (groups : List Group) :
    ((groups.filterMap (Group.result? disk options folder)).map Prod.fst).Sublist
      (groups.map (Group.destination folder)) := by
  induction groups with
  | nil => exact .refl _
  | cons g groups ih =>
    cases ht : g.text? disk options with
    | none =>
      rw [List.filterMap_cons_none (by simp [Group.result?, ht]), List.map_cons]
      exact ih.cons _
    | some text =>
      have hr : g.result? disk options folder = some (g.destination folder, text) := by
        simp [Group.result?, ht]
      rw [List.filterMap_cons_some hr, List.map_cons, List.map_cons]
      exact ih.cons_cons _

/-- What is written keeps the order of the modules, so destinations that differ stay apart. -/
theorem sublist_resultsOf (options : Options) (folder : Option Location)
    (hp : ∀ g ∈ groups, g.file.Proper) :
    ((CommandLine.resultsOf disk options folder groups).map Prod.fst).Sublist
      (groups.map (Group.destination folder)) := by
  by_cases hu : ∃ g ∈ groups, g.Unread disk
  · simp [CommandLine.resultsOf, CommandLine.deliveries, CommandLine.answered_of_unread _ hu]
  · simp only [not_exists, not_and] at hu
    rw [CommandLine.resultsOf_of_read hp hu]
    exact (sublist_results _).trans ((List.takeWhile_sublist _).map _)

end Modules

namespace CommandLine

section Writing

variable {disk : Disk} {options : Options} {folder : Option Location} {groups : List Group}

/-- The folder of a file that was read stands. -/
theorem find_parent_of_read {l : Location} {bytes : List UInt8} (ha : l.isAbsolute = true)
    (h : disk.read l = .ok bytes) : disk.find l.parent = .ok .folder := by
  obtain ⟨hw, hf⟩ := read_eq_ok_iff.mp h
  obtain ⟨slashes, parts⟩ := l
  rcases List.eq_nil_or_concat parts with rfl | ⟨above, segment, rfl⟩
  · have hroot : disk.place { slashes, parts := [] } = [] := by simp [place, ha]
    rw [hroot, file?_eq_some_iff] at hf
    exact absurd hf (by simp [node?])
  · rw [List.concat_eq_append] at hw
    rw [Location.parent, List.concat_eq_append, List.dropLast_concat]
    exact find_parent_of_walk (l := { slashes, parts := above }) hw

theorem exists_written_resultsOf (options : Options) (hp : ∀ g ∈ groups, g.file.Proper)
    (ha : ∀ g ∈ groups, g.file.isAbsolute = true)
    (hw : ∀ g ∈ groups, Writable disk (g.destination folder)) :
    ∃ after, Written disk (resultsOf disk options folder groups) after := by
  have hall : ∀ x ∈ resultsOf disk options folder groups, ∃ g ∈ groups,
      (g.job? disk).isSome = true ∧ x.1 = g.destination folder := by
    intro x hx
    obtain ⟨g, hg, hl⟩ := (mem_resultsOf_iff options folder hp).mp hx
    obtain ⟨job, -, hjob, -⟩ := hg.transformed
    exact ⟨g, hg.mem, by simp [hjob], hl⟩
  cases folder with
  | some folder =>
    refine exists_written_of_folder folder fun x hx => ?_
    obtain ⟨g, hg, -, hl⟩ := hall x hx
    rw [hl]
    exact ⟨parent_outputPlace (hp g hg) _, hw g hg⟩
  | none =>
    refine exists_written_of_ready fun x hx => ?_
    obtain ⟨g, hg, hjob, hl⟩ := hall x hx
    rw [hl]
    have hparent : (g.destination none).parent = g.file.parent := parent_outputPlace (hp g hg) none
    have hfolder : disk.find (g.destination none).parent = .ok .folder := by
      rw [hparent]
      obtain ⟨bytes, hread⟩ := Group.exists_read_of_job? hjob
      exact find_parent_of_read (ha g hg) hread
    exact ⟨(exists_of_writable (hw g hg)).1, hfolder, ready_of_writable (hw g hg) hfolder⟩

end Writing

section Outcome

variable {arguments : Arguments} {disk last : Disk} {settings : Settings} {groups : List Group}

/-- What a run shows and gives back when its results can be written and all is shown. -/
theorem run_perform_of_written (hv : arguments.verbose = false) (hh : disk.here.Proper)
    (h : Reaches arguments disk settings groups) (hd : ∀ g ∈ groups, g.Decodable disk)
    (hw : Written disk (resultsOf disk settings.options (folderOf arguments) groups) last)
    (ht : TellsAll arguments disk settings.options groups) :
    ∃ events,
      run (perform arguments) disk =
        (finish events (if (answersOf disk settings.options groups).1.hasErrors then 1 else 0), last) ∧
      tablesOf events = if diagnosticsOf disk settings.options groups = [] then []
        else [reportTable (diagnosticsOf disk settings.options groups)] := by
  obtain ⟨loaded, hloaded, hrun⟩ := run_perform_eq h hv
  rw [settleModules] at hrun
  by_cases hempty : groups = []
  · subst hempty
    cases hw
    have hshows : Shows false [nothingEvent arguments] :=
      shows_cons.mpr ⟨(fault?_say (by decide) _).mpr (ht.nothing rfl), shows_nil⟩
    rw [if_pos rfl, run_conclude_of_shows hshows] at hrun
    refine ⟨_, hrun, ?_⟩
    rw [tablesOf_append, hloaded]
    rfl
  · have hp : ∀ g ∈ groups, g.file.Proper := fun g hg => h.proper hh hg
    obtain ⟨events, hhydrate, htables⟩ :=
      run_hydrateGroups_of_written hd hw ((audible_iff hp).mpr ht.toTold)
    rw [if_neg hempty, hhydrate] at hrun
    refine ⟨_, hrun, ?_⟩
    rw [tablesOf_append, hloaded]
    exact htables

/-- What a run comes to that writes its results and shows all that there is to say. Its code is one when
some module could not be opened or its compilation fails, and otherwise zero. It writes the text of a
module just when all modules could be opened, no module up to it fails and the text is not empty; no
other file changes. One table at most is shown: first an error for each module that could not be opened
and then what each of the others records, in the order of the groups. -/
structure Concludes (arguments : Arguments) (disk : Disk) (options : Options) (groups : List Group)
    (outcome : Outcome) (after : Disk) : Prop where
  failed : (∃ g ∈ groups, g.Unread disk ∨ g.Fails disk options) → outcome.result = .ok 1
  clean : (∀ g ∈ groups, ¬ g.Unread disk ∧ ¬ g.Fails disk options) → outcome.result = .ok 0
  results : ∃ results, Written disk results after ∧ ∀ l text, (l, text) ∈ results ↔
    ∃ g, Delivers disk options groups g text ∧ l = g.destination (folderOf arguments)
  written : ∀ g text, Delivers disk options groups g text →
    after.read (g.destination (folderOf arguments)) = .ok (Text.encode text)
  kept : ∀ p, (∀ g text, Delivers disk options groups g text →
    disk.place (g.destination (folderOf arguments)) ≠ p) → after.file? p = disk.file? p
  report : if diagnosticsOf disk options groups = [] then tablesOf outcome.events = []
    else ∃ table, tablesOf outcome.events = [table] ∧
      Tabulates (diagnosticsOf disk options groups) table

theorem concludes_of_tellsAll (hv : arguments.verbose = false) (hh : disk.here.Proper)
    (h : Reaches arguments disk settings groups) (hd : ∀ g ∈ groups, g.Decodable disk)
    (hn : (groups.map fun g => disk.place (g.destination (folderOf arguments))).Nodup)
    (hw : Written disk (resultsOf disk settings.options (folderOf arguments) groups) last)
    (ht : TellsAll arguments disk settings.options groups) :
    Concludes arguments disk settings.options groups (run (perform arguments) disk).1
      (run (perform arguments) disk).2 := by
  have hp : ∀ g ∈ groups, g.file.Proper := fun g hg => h.proper hh hg
  have hmem (l : Location) (text : String) :
      (l, text) ∈ resultsOf disk settings.options (folderOf arguments) groups ↔
        ∃ g, Delivers disk settings.options groups g text ∧ l = g.destination (folderOf arguments) :=
    mem_resultsOf_iff settings.options (folderOf arguments) hp
  have hnodup : ((resultsOf disk settings.options (folderOf arguments) groups).map
      fun x => disk.place x.1).Nodup := by
    have hsub := (@sublist_resultsOf disk groups settings.options (folderOf arguments) hp).map
      disk.place
    rw [List.map_map, List.map_map] at hsub
    exact hn.sublist hsub
  obtain ⟨events, hrun, htables⟩ := run_perform_of_written hv hh h hd hw ht
  rw [hrun]
  refine ⟨fun hf => ?_, fun hf => ?_, ⟨_, hw, hmem⟩, fun g text hg => ?_, fun p hfree => ?_, ?_⟩
  · exact congrArg Except.ok (if_pos (hasErrors_answersOf.mpr hf))
  · refine congrArg Except.ok (if_neg fun he => ?_)
    obtain ⟨g, hg, hbad⟩ := hasErrors_answersOf.mp he
    exact hbad.elim (hf g hg).1 (hf g hg).2
  · have hm := (hmem _ text).mpr ⟨g, hg, rfl⟩
    exact hw.read hm (lastText_of_nodup hnodup hm)
  · have hnone : lastText disk.place p
        (resultsOf disk settings.options (folderOf arguments) groups) = none := by
      refine lastText_eq_none_iff.mpr fun x hx => ?_
      obtain ⟨g, hg, hl⟩ := (hmem x.1 x.2).mp hx
      exact hl ▸ hfree g x.2 hg
    rw [hw.file?, hnone]
    rfl
  · split
    · rename_i hnil
      exact htables.trans (if_pos hnil)
    · rename_i hnil
      exact ⟨_, htables.trans (if_neg hnil), tabulates_iff.mpr rfl⟩

end Outcome

theorem loads_broken : Loads (sampleArguments none) (sampleDisk "1\n" "(") sampleSettings
    (Location.ofText "m") [firstComponent, secondComponent] :=
  ⟨⟨.folder, by decide, toOption_eq_some.mp (by decide)⟩, rfl, openManifest_sampleDisk _ _⟩

theorem fails_broken : secondGroup.Fails (sampleDisk "1\n" "(") sampleSettings.options :=
  not_not.mp (mt Group.clean_iff.mpr (by decide +kernel))

theorem delivers_broken : Delivers (sampleDisk "1\n" "(") sampleSettings.options
    [firstGroup, secondGroup] firstGroup "1\n" := by
  have htext : firstGroup.text? (sampleDisk "1\n" "(") sampleSettings.options = some "1\n" := by
    decide +kernel
  have hclean : ¬ firstGroup.Fails (sampleDisk "1\n" "(") sampleSettings.options :=
    Group.clean_iff.mp (by decide +kernel)
  obtain ⟨htransformed, hfilled⟩ := Group.text?_eq_some_iff.mp htext
  refine ⟨⟨fun g hg => ?_, ⟨[], [secondGroup], rfl, by simpa using hclean⟩, htransformed⟩, hfilled⟩
  rw [← Group.unread?_isSome_iff]
  revert g
  decide +kernel

/-- Neither the paths nor the diagnostics of these modules hold a bracket. -/
theorem tellsAll_broken : TellsAll (sampleArguments none) (sampleDisk "1\n" "(") sampleSettings.options
    [firstGroup, secondGroup] where
  emptied g hg := by
    have h : ∀ g ∈ [firstGroup, secondGroup],
        '[' ∉ s!"Engine produced no output for {g.file.toText}".toList := by decide +kernel
    exact Markup.renders_of_not_mem (h g hg.mem)
  written g text hg := by
    have h : ∀ g ∈ [firstGroup, secondGroup], (Markup.render (Terminal.announce .success
        (hydratedMessage g.file.toText (g.destination (folderOf (sampleArguments none))))
          ).message.toList).toOption.isSome = true := by decide +kernel
    exact Markup.renders_of_isSome (h g hg.mem)
  report d hd row hrow cell hcell := by
    have h : ∀ d ∈ diagnosticsOf (sampleDisk "1\n" "(") sampleSettings.options
        [firstGroup, secondGroup], ∀ cell ∈ diagnosticRow d,
          (Markup.render cell.toList).toOption.isSome = true := by decide +kernel
    obtain rfl := rowOf_iff.mp hrow
    exact Markup.renders_of_isSome (h d hd cell hcell)
  nothing h := by simp at h

/-- A manifest beside a folder whose path reads as a closing tag. -/
def taggedDisk (manifest : String) : Disk where
  nodes := [(["m"], .file (Text.encode manifest)), (["x["], .folder), (["x[", "y]"], .folder)]

theorem loads_taggedDisk {manifest path : String} {components : List Component}
    (hp : (taggedDisk manifest).look (Location.ofText path) = some .folder)
    (hs : (run (loadSettings (choicesOf { sampleArguments none with path }) (Location.ofText path))
      (taggedDisk manifest)).1.toOption = some sampleSettings)
    (ho : (run (openManifest (Location.ofText "m")) (taggedDisk manifest)).1.toOption =
      some components) :
    Loads { sampleArguments none with path } (taggedDisk manifest) sampleSettings
      (Location.ofText "m") components :=
  ⟨⟨.folder, hp, toOption_eq_some.mp hs⟩, rfl, toOption_eq_some.mp ho⟩

theorem loads_null : Loads { sampleArguments none with path := "." }
    (taggedDisk "\x7b\"components\":[\x7b\"tag_name\":\"p\",\"source_path\":\"\\u0000\"\x7d]\x7d")
    sampleSettings (Location.ofText "m") [{ firstComponent with sourcePath := "\x00" }] :=
  loads_taggedDisk (by decide +kernel) (by decide +kernel) (by decide +kernel)

theorem loads_tagged : Loads { sampleArguments none with path := "x[/y]" }
    (taggedDisk "\x7b\"components\":[]\x7d") sampleSettings (Location.ofText "m") [] :=
  loads_taggedDisk (by decide +kernel) (by decide +kernel) (by decide +kernel)

end CommandLine

end Hydration
