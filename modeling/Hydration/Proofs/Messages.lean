import Hydration.Proofs.Destinations

/-! What a run over its modules has to say, and what it takes to show that: a warning for each module
that comes out empty, a record for each that is written, and a row of the report for each diagnostic. -/

namespace Hydration

open Hydration.Path Disk

/-- The run gets to the module, and its compilation gives a text: all modules could be opened, and none
up to it fails. -/
structure Compiles (disk : Disk) (options : Options) (groups : List Group) (g : Group)
    (text : String) : Prop where
  opened : ∀ other ∈ groups, ¬ other.Unread disk
  ahead : ∃ front back, groups = front ++ g :: back ∧
    ∀ other ∈ front ++ [g], ¬ other.Fails disk options
  transformed : ∃ job output, g.job? disk = some job ∧
    (job.reply options).outcome = .ok output ∧ output.text = some text

/-- The text is written, as it is not empty. -/
structure Delivers (disk : Disk) (options : Options) (groups : List Group) (g : Group)
    (text : String) : Prop extends Compiles disk options groups g text where
  filled : text ≠ ""

section Modules

variable {disk : Disk} {options : Options} {folder : Option Location} {groups : List Group}
  {g : Group} {text : String} {l : Location}

theorem Group.text?_eq_some_iff :
    g.text? disk options = some text ↔
      (∃ job output, g.job? disk = some job ∧ (job.reply options).outcome = .ok output ∧
        output.text = some text) ∧ text ≠ "" := by
  cases hj : g.job? disk with
  | none => simp [Group.text?, hj]
  | some job => simp [Group.text?, hj, Job.alone_text_iff]

theorem mem_takeWhile_clean_iff :
    g ∈ groups.takeWhile (Group.clean disk options) ↔
      ∃ front back, groups = front ++ g :: back ∧
        ∀ other ∈ front ++ [g], ¬ other.Fails disk options := by
  constructor
  · intro h
    obtain ⟨front, back, he⟩ := List.append_of_mem h
    refine ⟨front, back ++ groups.dropWhile (Group.clean disk options), ?_, fun other ho => ?_⟩
    · rw [← List.cons_append, ← List.append_assoc, ← he, List.takeWhile_append_dropWhile]
    · have hmem : other ∈ groups.takeWhile (Group.clean disk options) := by
        rw [he, List.append_cons]
        exact List.mem_append_left back ho
      exact Group.clean_iff.mp (List.mem_takeWhile_imp hmem)
  · rintro ⟨front, back, rfl, hclean⟩
    have hpos : ∀ other ∈ front ++ [g], other.clean disk options = true :=
      fun other ho => Group.clean_iff.mpr (hclean other ho)
    rw [List.append_cons, List.takeWhile_append_of_pos hpos]
    simp

theorem Compiles.mem (h : Compiles disk options groups g text) : g ∈ groups := by
  obtain ⟨front, back, rfl, -⟩ := h.ahead
  simp

theorem Compiles.not_fails (h : Compiles disk options groups g text) : ¬ g.Fails disk options := by
  obtain ⟨front, back, -, hclean⟩ := h.ahead
  exact hclean g (by simp)

/-- What follows from the modules that are answered follows from those that deliver a text. -/
theorem mem_answered_iff {β : Type} {f : Job → String → β} {own : Group → String → β} {b : β}
    (hf : ∀ g ∈ groups, ∀ job, g.job? disk = some job → f job = own g) :
    b ∈ CommandLine.answered f ((CommandLine.jobsOf disk groups).zip
        (CommandLine.answersOf disk options groups).2) ↔
      ∃ g text, Delivers disk options groups g text ∧ b = own g text := by
  by_cases hu : ∃ g ∈ groups, g.Unread disk
  · rw [CommandLine.answered_of_unread f hu]
    refine iff_of_false List.not_mem_nil ?_
    rintro ⟨g, text, hg, -⟩
    obtain ⟨other, ho, hunread⟩ := hu
    exact hg.opened other ho hunread
  · simp only [not_exists, not_and] at hu
    rw [CommandLine.answered_of_read hf hu, List.mem_filterMap]
    constructor
    · rintro ⟨g, hg, hr⟩
      obtain ⟨text, ht, rfl⟩ := Option.map_eq_some_iff.mp hr
      obtain ⟨htransformed, hfilled⟩ := Group.text?_eq_some_iff.mp ht
      exact ⟨g, text, ⟨⟨hu, mem_takeWhile_clean_iff.mp hg, htransformed⟩, hfilled⟩, rfl⟩
    · rintro ⟨g, text, hg, rfl⟩
      have ht := Group.text?_eq_some_iff.mpr ⟨hg.transformed, hg.filled⟩
      exact ⟨g, mem_takeWhile_clean_iff.mpr hg.ahead, by simp [ht]⟩

/-- What a run writes are the texts of the modules that deliver one. -/
theorem mem_resultsOf_iff (options : Options) (folder : Option Location)
    (hp : ∀ g ∈ groups, g.file.Proper) :
    (l, text) ∈ CommandLine.resultsOf disk options folder groups ↔
      ∃ g, Delivers disk options groups g text ∧ l = g.destination folder := by
  rw [CommandLine.resultsOf, CommandLine.deliveries]
  refine (mem_answered_iff fun g hg _ => CommandLine.delivery_of_job? (hp g hg)).trans ?_
  simp only [Prod.mk.injEq]
  constructor
  · rintro ⟨g, own, hg, rfl, rfl⟩
    exact ⟨g, hg, rfl⟩
  · rintro ⟨g, hg, rfl⟩
    exact ⟨g, text, hg, rfl, rfl⟩

/-- A record of success for each of them. -/
theorem mem_announcementsOf_iff (options : Options) (folder : Option Location)
    (hp : ∀ g ∈ groups, g.file.Proper) {event : CommandLine.Event} :
    event ∈ CommandLine.announcementsOf disk options folder groups ↔
      ∃ g text, Delivers disk options groups g text ∧ event = CommandLine.writtenEvent folder g := by
  rw [CommandLine.announcementsOf, CommandLine.announcements]
  refine mem_answered_iff fun g hg job hjob => ?_
  rw [CommandLine.sourceOf_of_job? (hp g hg) hjob, Group.file_of_job? hjob]
  rfl

end Modules

section Records

variable {options : Options} {build : Build} {job : Job} {jobs : List Job} {r : Record}

/-- The record is shown without being asked for. -/
def Record.Loud (r : Record) : Prop := Level.info.rank ≤ r.level.rank

theorem Record.not_loud_debug {r : Record} (h : r.level = .debug) : ¬ r.Loud := by
  rw [Record.Loud, h]
  decide

theorem level_hydrationRecords (index : Index) (context : Transform.Context) (m : Syntax.Module) :
    ∀ r ∈ hydrationRecords index context m, r.level = .debug := by
  intro r hr
  unfold hydrationRecords at hr
  dsimp only at hr
  split at hr
  · simp at hr
  · split at hr
    · simp at hr
    · rcases List.mem_append.mp hr with hr | hr
      · unfold injectionRecords at hr
        dsimp only at hr
        split at hr
        · simp at hr
        · rw [List.mem_singleton.mp hr]
      · split at hr
        · unfold classRecords at hr
          dsimp only at hr
          rcases List.mem_append.mp hr with hr | hr
          · obtain ⟨cls, -, rfl⟩ := List.mem_map.mp hr
            rfl
          · split at hr
            · rw [List.mem_singleton.mp hr]
            · simp at hr
        · simp at hr

/-- What a compilation notes down is for those who ask for it. -/
theorem not_loud_of_reply (options : Options) (job : Job) :
    ∀ r ∈ (job.reply options).records, ¬ r.Loud := by
  intro r hr
  refine Record.not_loud_debug ?_
  change r ∈ stageRecords .. at hr
  unfold stageRecords at hr
  dsimp only at hr
  split at hr
  · simp at hr
  · rcases List.mem_append.mp hr with hr | hr
    · unfold passRecords at hr
      rcases List.mem_append.mp hr with hr | hr
      · exact level_hydrationRecords (job.request options).index _ _ r hr
      · split at hr <;> simp [passRecords] at hr
    · split at hr
      · rw [List.mem_singleton.mp hr]
      · simp at hr

/-- The warning that a module came out empty. -/
def emptyWarning (file : Option String) : Record :=
  let label := file.getD "None"
  ⟨.warning, s!"Engine produced no output for {label}"⟩

/-- The output of the job is empty. -/
def Job.Empties (options : Options) (job : Job) : Prop :=
  ∃ output, (job.reply options).outcome = .ok output ∧ named? output.text = none

/-- A job that empties its module leaves a warning, unless an error is known. -/
theorem mem_records_runJob_iff (ha : build.abort = false) (hr : r.Loud) :
    r ∈ (build.runJob options job).1.records ↔ r ∈ build.records ∨
      (build.runJob options job).1.hasErrors = false ∧ job.Empties options ∧
        r = emptyWarning (job.request options).file := by
  have hquiet := mt (not_loud_of_reply options job r) (not_not.mpr hr)
  have hdebug {message : String} : r ≠ ⟨.debug, message⟩ := by
    rintro rfl
    exact Record.not_loud_debug rfl hr
  rw [Build.runJob_of_running ha]
  cases ho : (job.reply options).outcome with
  | error failure =>
    have hnone : ¬ job.Empties options := by
      rintro ⟨output, h, -⟩
      cases ho.symm.trans h
    simp [Build.settle_of_error ho, Build.catchFailure, Build.note, Build.report, Build.hear, hquiet,
      hnone, hdebug]
  | ok output =>
    have hempties : job.Empties options ↔ named? output.text = none := by simp [Job.Empties, ho]
    have habort : (job.reply options).abort = false := rfl
    rw [Build.settle_of_ok ho, hempties]
    unfold Build.accept
    dsimp only
    split
    · rename_i he
      simp only [he]
      simp [Build.report, Build.hear, hquiet]
    · split
      · rename_i h
        simp [Build.report, Build.hear, ha, habort] at h
      · rename_i he _
        cases hn : named? output.text with
        | some text => simp [Build.report, Build.hear, hquiet]
        | none =>
          have hclean : (build.sink.extend output.diagnostics).hasErrors = false := by
            simpa [Build.hasErrors, Build.report, Build.hear] using he
          simp [Build.report, Build.hear, Build.note, Build.hasErrors, hquiet, emptyWarning, hclean]

theorem Job.clean_of_empties (h : job.Empties options) : job.clean options = true := by
  obtain ⟨output, ho, -⟩ := h
  refine Job.clean_iff.mpr fun herrs => ?_
  obtain ⟨failure, hf⟩ := Job.errs_iff.mp herrs
  cases ho.symm.trans hf

theorem Build.hasErrors_runJob_iff (ha : build.abort = false) :
    (build.runJob options job).1.hasErrors = false ↔
      build.hasErrors = false ∧ job.clean options = true := by
  have herrs := @Sink.hasErrors_extend_iff build.sink (job.block options)
  rw [Build.hasErrors, Build.runJob_sink ha, Job.clean_iff, ← Bool.not_eq_true, herrs, not_or,
    Bool.not_eq_true]
  rfl

/-- Jobs leave such warnings up to the first that records an error, as long as none was known before. -/
theorem mem_records_runJobs_iff (ha : build.abort = false) (hr : r.Loud) :
    r ∈ (build.runJobs options jobs).1.records ↔ r ∈ build.records ∨
      build.hasErrors = false ∧ ∃ job ∈ jobs.takeWhile (Job.clean options),
        job.Empties options ∧ r = emptyWarning (job.request options).file := by
  induction jobs generalizing build with
  | nil => simp [Build.runJobs]
  | cons job jobs ih =>
    rw [Build.runJobs_cons]
    refine (ih (Build.runJob_abort options job ha)).trans ?_
    rw [mem_records_runJob_iff ha hr, Build.hasErrors_runJob_iff ha]
    by_cases hc : job.clean options = true
    · simp only [hc, and_true, List.takeWhile_cons_of_pos hc, List.mem_cons, exists_eq_or_imp]
      tauto
    · have hnone : ¬ job.Empties options := mt Job.clean_of_empties hc
      simp [hc, hnone, List.takeWhile_cons_of_neg hc]

end Records

namespace CommandLine

section Warnings

variable {disk : Disk} {options : Options} {groups : List Group} {r : Record}

theorem named?_eq_none_iff {text : String} : named? (some text) = none ↔ text = "" := by
  simp [named?]

/-- The request for a module is one for its file. -/
theorem file_request_of_job? {g : Group} {job : Job} (hj : g.job? disk = some job) (options : Options) :
    (job.request options).file = some g.file.toText := by
  have hfile : named? job.file = some g.file.toText :=
    named?_eq_some_iff.mpr ⟨Group.file_of_job? hj, g.file.toText_ne_empty⟩
  have hnamed : named? (some g.file.toText) = some g.file.toText :=
    named?_eq_some_iff.mpr ⟨rfl, g.file.toText_ne_empty⟩
  simp [Job.request, requestOf, Job.options, fileOf, hfile, hnamed]

/-- The output of a compilation that succeeds is a text. -/
theorem empties_iff {job : Job} : job.Empties options ↔
    ∃ output, (job.reply options).outcome = .ok output ∧ output.text = some "" := by
  refine exists_congr fun output => and_congr_right fun ho => ?_
  obtain ⟨m, result, -, -, ht⟩ := compile_eq_ok ho
  rw [ht, named?_eq_none_iff, Option.some.injEq]

theorem mem_records_answersOf_iff (hr : r.Loud) :
    r ∈ (answersOf disk options groups).1.records ↔
      ∃ g, Compiles disk options groups g "" ∧ r = emptyWarning (some g.file.toText) := by
  have herrs : (({} : Build).report (groups.filterMap (Group.unread? disk))).hasErrors = false ↔
      ∀ g ∈ groups, ¬ g.Unread disk := by
    rw [← Bool.not_eq_true, Build.hasErrors, Build.report, Sink.hasErrors_extend_iff]
    simp only [← Group.unread?_isSome_iff, List.mem_filterMap]
    constructor
    · intro h g hg hu
      obtain ⟨d, hd⟩ := Option.isSome_iff_exists.mp hu
      exact h (.inr ⟨d, ⟨g, hg, hd⟩, Group.isError_of_unread? hd⟩)
    · rintro h (he | ⟨d, ⟨g, hg, hd⟩, -⟩)
      · simp [Sink.hasErrors] at he
      · exact h g hg (by simp [hd])
  have hrecords : (({} : Build).report (groups.filterMap (Group.unread? disk))).records = [] := rfl
  rw [answersOf, mem_records_runJobs_iff rfl hr, hrecords, herrs, takeWhile_jobsOf,
    or_iff_right List.not_mem_nil]
  constructor
  · rintro ⟨hu, job, hm, hempties, rfl⟩
    obtain ⟨g, hg, hj⟩ := List.mem_filterMap.mp hm
    obtain ⟨output, ho, ht⟩ := empties_iff.mp hempties
    exact ⟨g, ⟨hu, mem_takeWhile_clean_iff.mp hg, job, output, hj, ho, ht⟩,
      by rw [file_request_of_job? hj]⟩
  · rintro ⟨g, hg, rfl⟩
    obtain ⟨job, output, hj, ho, ht⟩ := hg.transformed
    refine ⟨hg.opened, job, List.mem_filterMap.mpr ⟨g, mem_takeWhile_clean_iff.mpr hg.ahead, hj⟩,
      empties_iff.mpr ⟨output, ho, ht⟩, by rw [file_request_of_job? hj]⟩

end Warnings

/-- The severity of a diagnostic in its style. -/
def severityCell : Severity → String
  | .error => "[diag.error]error[/diag.error]"
  | .warning => "[diag.warning]warning[/diag.warning]"

def categoryCell : Category → String
  | .build => "build"
  | .hydrate => "hydrate"
  | .imports => "imports"

/-- Where a diagnostic is: the last part of the path of its file, and the line if it is known. -/
inductive PlacedAt (d : Diagnostic) : String → Prop
  | nowhere (h : ∀ file, d.file = some file → (Location.ofText file).name = "") : PlacedAt d ""
  | file {file : String} (h : d.file = some file) (hn : (Location.ofText file).name ≠ "")
      (hl : d.line = none) : PlacedAt d (Location.ofText file).name
  | line {file : String} {line : Int} (h : d.file = some file)
      (hn : (Location.ofText file).name ≠ "") (hl : d.line = some line) :
      PlacedAt d ((Location.ofText file).name ++ ":" ++ toString line)

/-- The row of a diagnostic. What it says is shown as it is, so its brackets are escaped. -/
def RowOf (d : Diagnostic) (row : List String) : Prop :=
  ∃ place, PlacedAt d place ∧
    row = [severityCell d.severity, categoryCell d.category, place, Markup.escape d.message]

/-- The table of a report: a row for each diagnostic, in their order. -/
structure Tabulates (diagnostics : List Diagnostic) (table : Table) : Prop where
  title : table.title = "Hydration Report"
  columns : table.columns = ["Level", "Category", "File", "Message"]
  rows : List.Forall₂ RowOf diagnostics table.rows

/-- All that a run over the modules has to say is markup that renders. -/
structure Told (disk : Disk) (options : Options) (folder : Option Location) (groups : List Group) :
    Prop where
  emptied : ∀ g, Compiles disk options groups g "" →
    Markup.Renders s!"Engine produced no output for {g.file.toText}"
  written : ∀ g text, Delivers disk options groups g text → Tells .success
    s!"Hydrated: [path]{g.file.toText}[/path] -> [path]{(g.destination folder).toText}[/path]"
  report : ∀ d ∈ groups.filterMap (Group.unread? disk) ++
      (groups.filterMap (Group.job? disk)).flatMap (Job.block options),
    ∀ row, RowOf d row → ∀ cell ∈ row, Markup.Renders cell

section Report

variable {d : Diagnostic} {row : List String} {diagnostics : List Diagnostic} {table : Table}

theorem diagnosticFile_eq (d : Diagnostic) :
    diagnosticFile d = (d.file.map fun file => (Location.ofText file).name).getD "" := by
  unfold diagnosticFile
  cases d.file with
  | none => rfl
  | some file =>
    by_cases hf : file = ""
    · subst hf
      decide
    · rw [named?_eq_some_iff.mpr ⟨rfl, hf⟩]

theorem placedAt_iff {place : String} : PlacedAt d place ↔ place = diagnosticPlace d := by
  rw [diagnosticPlace, diagnosticFile_eq]
  constructor
  · rintro (h | ⟨h, hn, hl⟩ | ⟨h, hn, hl⟩)
    · have hempty : (d.file.map fun file => (Location.ofText file).name).getD "" = "" := by
        cases hf : d.file with
        | none => rfl
        | some file => exact h file hf
      rw [hempty]
      cases d.line <;> rfl
    · simp [h, hl]
    · simp [h, hl, hn, toString]
  · rintro rfl
    cases hf : d.file with
    | none =>
      have hplace : PlacedAt d "" := .nowhere (by simp [hf])
      cases d.line <;> simpa using hplace
    | some file =>
      by_cases hn : (Location.ofText file).name = ""
      · have hplace : PlacedAt d "" := .nowhere (by simp [hf, hn])
        cases d.line <;> simpa [hn] using hplace
      · cases hl : d.line with
        | none => exact .file hf hn hl
        | some line => simpa [hn, toString] using PlacedAt.line hf hn hl

theorem rowOf_iff : RowOf d row ↔ row = diagnosticRow d := by
  have hseverity : d.severity.markup = severityCell d.severity := by cases d.severity <;> decide
  have hcategory : d.category.label = categoryCell d.category := by cases d.category <;> rfl
  simp [RowOf, diagnosticRow, placedAt_iff, hseverity, hcategory]

theorem tabulates_iff : Tabulates diagnostics table ↔ table = reportTable diagnostics := by
  have hrows (rows : List (List String)) :
      List.Forall₂ RowOf diagnostics rows ↔ rows = diagnostics.map diagnosticRow := by
    induction diagnostics generalizing rows with
    | nil => simp
    | cons d diagnostics ih => simp [List.forall₂_cons_left_iff, rowOf_iff, ih]
  constructor
  · rintro ⟨ht, hc, hr⟩
    obtain ⟨title, columns, rows⟩ := table
    rw [(hrows rows).mp hr] at *
    subst ht hc
    rfl
  · rintro rfl
    exact ⟨rfl, rfl, (hrows _).mpr rfl⟩

theorem shows_report_iff {verbose : Bool} : Shows verbose (report diagnostics) ↔
    ∀ d ∈ diagnostics, ∀ row, RowOf d row → ∀ cell ∈ row, Markup.Renders cell := by
  have hlength : ∀ row ∈ (reportTable diagnostics).rows,
      row.length ≤ (reportTable diagnostics).columns.length := by
    intro row hrow
    obtain ⟨d, -, rfl⟩ := List.mem_map.mp hrow
    exact Nat.le_refl 4
  have htable := @fault?_table verbose (reportTable diagnostics) hlength
  simp only [rowOf_iff, forall_eq]
  rw [reportTable] at htable
  simp only [List.forall_mem_map] at htable
  cases diagnostics with
  | nil => simp [report]
  | cons d diagnostics => simpa [report, reportTable] using htable

end Report

theorem audible_iff {disk : Disk} {settings : Settings} {folder : Option Location}
    {groups : List Group} (hp : ∀ g ∈ groups, g.file.Proper) :
    Audible false disk settings folder groups ↔ Told disk settings.options folder groups := by
  have hrecorded : Shows false (recordedEvents disk settings groups) ↔
      ∀ g, Compiles disk settings.options groups g "" →
        Markup.Renders s!"Engine produced no output for {g.file.toText}" := by
    rw [recordedEvents, shows_cons, and_iff_right (fault?_startedEvent settings _), Shows,
      List.forall_mem_map]
    constructor
    · intro h g hg
      have hloud : (emptyWarning (some g.file.toText)).Loud := by
        change Level.info.rank ≤ Level.warning.rank
        decide
      exact (fault?_record hloud).mp (h _ ((mem_records_answersOf_iff hloud).mpr ⟨g, hg, rfl⟩))
    · intro h r hr
      by_cases hloud : r.Loud
      · obtain ⟨g, hg, rfl⟩ := (mem_records_answersOf_iff hloud).mp hr
        exact (fault?_record hloud).mpr (h g hg)
      · exact fault?_quiet (Nat.lt_of_not_le hloud)
  have hannounced : Shows false (announcementsOf disk settings.options folder groups) ↔
      ∀ g text, Delivers disk settings.options groups g text → Tells .success
        s!"Hydrated: [path]{g.file.toText}[/path] -> [path]{(g.destination folder).toText}[/path]" := by
    simp only [Shows, mem_announcementsOf_iff _ _ hp]
    constructor
    · exact fun h g text hg => (fault?_say (by decide) _).mp (h _ ⟨g, text, hg, rfl⟩)
    · rintro h event ⟨g, text, hg, rfl⟩
      exact (fault?_say (by decide) _).mpr (h g text hg)
  constructor
  · exact fun h => ⟨hrecorded.mp h.recorded, hannounced.mp h.announced, shows_report_iff.mp h.reported⟩
  · exact fun h => ⟨hrecorded.mpr h.emptied, hannounced.mpr h.written, shows_report_iff.mpr h.report⟩

end CommandLine

end Hydration
