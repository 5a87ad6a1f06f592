import Hydration.Proofs.Containment
import Hydration.Proofs.Decoding
import Mathlib.Data.List.Zip

/-! Bytes on their way through a run. A module without a located class is written as its tree is
emitted, whatever the other jobs do meanwhile. Main statement: when the bytes of such a module come
back as they were. -/

namespace Hydration

open Hydration.Path Disk Syntax Transform

section Answers

variable {options : Options} {job : Job}

/-- What a job has come to is its own: it waits, or it has its own request, or what came of this
request. -/
def Progress.Tracks (options : Options) : Progress → Job → Prop
  | .waiting own, job => own = job
  | .compiling request, job => request = job.request options
  | .reported output, job => (job.reply options).outcome = .ok output
  | .cleared output, job => (job.reply options).outcome = .ok output
  | .answered text, job => ∀ own, text = some own →
      ∃ output, (job.reply options).outcome = .ok output ∧ named? output.text = some own

theorem JobStep.tracks {s t : Build × Progress} (h : JobStep options s t)
    (hs : s.2.Tracks options job) : t.2.Tracks options job := by
  cases h with
  | skip => simp [Progress.Tracks]
  | start => exact congrArg (Job.request options) hs
  | fail => simp [Progress.Tracks]
  | report ho =>
    obtain rfl : _ = job.request options := hs
    exact ho
  | veto => simp [Progress.Tracks]
  | clear => exact hs
  | discard => simp [Progress.Tracks]
  | answer => exact fun own ht => ⟨_, hs, ht⟩
  | note => exact hs

theorem BatchStep.tracks {s t : Build × List Progress} (h : BatchStep options s t) {jobs : List Job}
    (hs : List.Forall₂ (Progress.Tracks options) s.2 jobs) :
    List.Forall₂ (Progress.Tracks options) t.2 jobs := by
  cases h with
  | interrupt => exact hs
  | job front back h =>
    obtain ⟨before, behind, rfl, hf, hb⟩ := forall₂_append_left_iff.mp hs
    obtain ⟨own, rest, ho, hr, rfl⟩ := List.forall₂_cons_left_iff.mp hb
    exact forall₂_append_left_iff.mpr ⟨_, _, rfl, hf, .cons (h.tracks ho) hr⟩

/-- Whatever turns the jobs take, the answer of each is none or what came of its request. -/
theorem Batched.tracks {build after : Build} {jobs : List Job} {texts : List (Option String)}
    (h : Batched options build jobs after texts) :
    List.Forall₂ (Progress.Tracks options) (texts.map .answered) jobs := by
  have hrun {s t : Build × List Progress} (h : Relation.ReflTransGen (BatchStep options) s t)
      (hs : List.Forall₂ (Progress.Tracks options) s.2 jobs) :
      List.Forall₂ (Progress.Tracks options) t.2 jobs := by
    induction h with
    | refl => exact hs
    | tail _ step ih => exact step.tracks ih
  exact hrun h (List.forall₂_map_left_iff.mpr (List.forall₂_same.mpr fun job _ => rfl))

theorem Batched.exists_output {build after : Build} {jobs : List Job} {texts : List (Option String)}
    (h : Batched options build jobs after texts) {text : String}
    (hm : (job, some text) ∈ jobs.zip texts) :
    ∃ output, (job.reply options).outcome = .ok output ∧ named? output.text = some text := by
  obtain ⟨-, hall⟩ := List.forall₂_iff_zip.mp (List.forall₂_map_left_iff.mp h.tracks)
  have hm' : (some text, job) ∈ texts.zip jobs := List.zip_swap jobs texts ▸ List.mem_map_of_mem hm
  exact hall hm' text rfl

end Answers

section Text

open Text

theorem not_mem_unifyLineEnds (cs : List Char) : '\r' ∉ unifyLineEnds cs := by
  fun_induction unifyLineEnds cs with
  | case1 rest ih => simpa using ih
  | case2 rest h ih => simpa using ih
  | case3 c rest h h' ih =>
    rw [List.mem_cons, not_or]
    exact ⟨fun hc => h' hc.symm, ih⟩
  | case4 => simp

theorem unifyLineEnds_eq_self_iff {cs : List Char} : unifyLineEnds cs = cs ↔ '\r' ∉ cs := by
  refine ⟨fun h => h ▸ not_mem_unifyLineEnds cs, fun h => ?_⟩
  fun_induction unifyLineEnds cs with
  | case1 rest ih => simp at h
  | case2 rest h' ih => simp at h
  | case3 c rest h' h'' ih => rw [ih (List.not_mem_of_not_mem_cons h)]
  | case4 => rfl

theorem length_unifyLineEnds_le (cs : List Char) : (unifyLineEnds cs).length ≤ cs.length := by
  fun_induction unifyLineEnds cs <;> simp only [List.length_cons, List.length_nil] <;> omega

/-- What is left of a text when it is read, without its mark at the front. -/
theorem unified_eq_self_iff {cs : List Char} :
    dropByteOrderMark (unifyLineEnds cs) = cs ↔ '\r' ∉ cs ∧ cs.head? ≠ some '\ufeff' := by
  rw [← unifyLineEnds_eq_self_iff]
  have hshort := length_unifyLineEnds_le cs
  constructor
  · intro h
    cases hu : unifyLineEnds cs with
    | nil =>
      rw [hu] at h
      simp [← h, dropByteOrderMark]
    | cons c rest =>
      rw [hu] at h hshort
      by_cases hc : c = '\ufeff'
      · subst hc
        -- Without its mark the text is shorter than it was.
        have hlen := congrArg List.length h
        simp only [dropByteOrderMark, List.length_cons] at hlen hshort
        omega
      · have hd : dropByteOrderMark (c :: rest) = c :: rest := by
          unfold dropByteOrderMark
          split
          · simp_all
          · rfl
        rw [← h, hd]
        simpa using hc
  · rintro ⟨hu, hh⟩
    rw [hu]
    unfold dropByteOrderMark
    split
    · simp at hh
    · rfl

end Text

/-- A text as it is read from bytes. -/
def unified (text : String) : String := String.ofList (Text.unifyLineEnds text.toList)

/-- The texts differ at most in their line ends and in a mark at the front. -/
def SameLines (a b : String) : Prop :=
  dropByteOrderMark (Text.unifyLineEnds a.toList) = dropByteOrderMark (Text.unifyLineEnds b.toList)

/-- Such texts are read as one tree. -/
theorem SameLines.parse {a b : String} (h : SameLines a b) :
    Module.parse (unified a) = Module.parse (unified b) := by
  have hchars : dropByteOrderMark (unified a).toList = dropByteOrderMark (unified b).toList := by
    rw [unified, unified, String.toList_ofList, String.toList_ofList, h]
  unfold Module.parse
  rw [hchars]

/-- The module is a text that can be read as a tree, and no class of it is located. -/
structure Group.Untouched (disk : Disk) (g : Group) (bytes : List UInt8) (text : String)
    (m : Module) : Prop where
  read : disk.read g.file = .ok bytes
  decode : Text.decode bytes = .ok text
  parse : Module.parse (unified text) = .ok m
  unlocated : Unlocated (locateIn (Index.ofComponents g.components) g.file.toText) m.body

/-- The job of the module is answered with a text. -/
def Group.Answered (disk : Disk) (groups : List Group) (texts : List (Option String)) (g : Group)
    (text : String) : Prop :=
  ∃ job, g.job? disk = some job ∧ (job, some text) ∈ (CommandLine.jobsOf disk groups).zip texts

section Untouched

variable {disk : Disk} {options : Options} {folder : Option Location} {groups : List Group} {g : Group}
  {bytes : List UInt8} {text : String} {m : Module}

theorem Group.Untouched.job? (h : g.Untouched disk bytes text m) :
    g.job? disk = some ⟨unified text, g.components, some g.file.toText⟩ := by
  simp [Group.job?, h.read, Text.readText, h.decode, Except.map, Except.toOption, unified]

/-- The request for the module is one for its file. -/
theorem Group.Untouched.file_context (h : g.Untouched disk bytes text m) (options : Options) {job : Job}
    (hj : g.job? disk = some job) :
    (contextOf (job.request options).options (job.request options).file).file = g.file.toText := by
  obtain rfl := Option.some.inj (h.job?.symm.trans hj)
  have hfile : named? (some g.file.toText) = some g.file.toText :=
    named?_eq_some_iff.mpr ⟨rfl, g.file.toText_ne_empty⟩
  simp [Job.request, requestOf, Job.options, fileOf, contextOf, hfile]

/-- What comes of the module's request is its tree, emitted. -/
theorem Group.Untouched.emitted (h : g.Untouched disk bytes text m) {job : Job} {output : Output}
    (hj : g.job? disk = some job) (ho : (job.reply options).outcome = .ok output) :
    output.text = some m.render := by
  have hcontext := h.file_context options hj
  obtain ⟨own, result, hm, hr, ht⟩ := compile_eq_ok ho
  obtain rfl := Option.some.inj (h.job?.symm.trans hj)
  have hown : own = m := by
    obtain ⟨-, -, hm⟩ := bind_eq_ok.mp hm
    exact Except.ok.inj ((mapError_eq_ok.mp hm).symm.trans h.parse)
  have hu : Unlocated (locateIn (Index.ofComponents g.components) g.file.toText) own.body :=
    hown ▸ h.unlocated
  rw [← hcontext] at hu
  have hkept := hr.symm.trans (hydrateModule_of_unlocated hu)
  rw [ht, (Prod.mk.inj (Except.ok.inj hkept)).1, hown]

/-- The answer of the job, if there is one, is the emitted tree. -/
theorem Group.Untouched.answer (h : g.Untouched disk bytes text m) {build after : Build}
    {texts : List (Option String)}
    (hb : Batched options build (CommandLine.jobsOf disk groups) after texts) {own : String}
    (ha : g.Answered disk groups texts own) : own = m.render := by
  obtain ⟨job, hj, hm⟩ := ha
  obtain ⟨output, ho, ht⟩ := hb.exists_output hm
  rw [h.emitted hj ho, named?_eq_some_iff] at ht
  exact (Option.some.inj ht.1).symm

/-- The emitted tree has the bytes of the source just if it is the text that they decode to. -/
theorem Group.Untouched.encode_iff (h : g.Untouched disk bytes text m) :
    Text.encode m.render = bytes ↔ m.render = text := by
  rw [← Text.encode_of_decode h.decode, Text.encode_inj]

end Untouched

namespace CommandLine

section Run

variable {disk after : Disk} {options : Options} {folder : Option Location} {groups : List Group}
  {g : Group} {bytes : List UInt8} {text : String} {m : Module}

/-- A result of a run comes from the answer that one of the modules got. -/
theorem mem_resultsOf_iff_answered (hp : ∀ g ∈ groups, g.file.Proper) {l : Location} :
    (l, text) ∈ resultsOf disk options folder groups ↔
      ∃ g ∈ groups, g.Answered disk groups (answersOf disk options groups).2 text ∧
        l = g.destination folder := by
  rw [resultsOf, deliveries, answered, List.mem_filterMap]
  constructor
  · rintro ⟨⟨job, answer⟩, hm, he⟩
    obtain ⟨own, rfl, he⟩ := Option.map_eq_some_iff.mp he
    obtain ⟨rfl, rfl⟩ := Prod.mk.inj he
    obtain ⟨g, hg, hj⟩ := List.mem_filterMap.mp (List.of_mem_zip hm).1
    exact ⟨g, hg, ⟨job, hj, hm⟩, by rw [sourceOf_of_job? (hp g hg) hj, Group.destination]⟩
  · rintro ⟨g, hg, ⟨job, hj, hm⟩, rfl⟩
    refine ⟨(job, some text), hm, ?_⟩
    rw [Option.map_some, sourceOf_of_job? (hp g hg) hj, Group.destination]

/-- Where no other module goes, the emitted tree stands once all results are written. -/
theorem read_of_written (hp : ∀ g ∈ groups, g.file.Proper) (hg : g ∈ groups)
    (h : g.Untouched disk bytes text m)
    (hw : Written disk (resultsOf disk options folder groups) after) {own : String}
    (ha : g.Answered disk groups (answersOf disk options groups).2 own)
    (halone : ∀ other ∈ groups,
      disk.place (other.destination folder) = disk.place (g.destination folder) → other = g) :
    after.read (g.destination folder) = .ok (Text.encode m.render) := by
  have hm : (g.destination folder, own) ∈ resultsOf disk options folder groups :=
    (mem_resultsOf_iff_answered hp).mpr ⟨g, hg, ha, rfl⟩
  have hsome : lastText disk.place (disk.place (g.destination folder))
      (resultsOf disk options folder groups) ≠ none :=
    fun hn => lastText_eq_none_iff.mp hn _ hm rfl
  obtain ⟨last, hl⟩ := Option.ne_none_iff_exists'.mp hsome
  obtain ⟨l, hm', hplace⟩ := exists_of_lastText hl
  obtain ⟨other, ho, hanswer, rfl⟩ := (mem_resultsOf_iff_answered hp).mp hm'
  obtain rfl := halone other ho hplace
  rw [hw.read hm hl, h.answer (batched_runJobs options _ _) hanswer]

/-- The bytes of a module without a located class. Whatever turns the jobs of a run take, a text that
is written for the module has its bytes exactly if the emitted tree is the text that the bytes decode
to; and so has the file that the command leaves, where no other module goes to its place. Of the texts
that differ only in their line ends and a mark at the front, at most one is emitted as it is. Where the
emitter gives back what was read, up to a mark at the front, it is the one that has line feeds only and
no such mark. -/
theorem bytes_preserved_iff {arguments : Arguments} {settings : Settings} (hh : disk.here.Proper)
    (hr : Reaches arguments disk settings groups) (hg : g ∈ groups)
    (h : g.Untouched disk bytes text m) :
    let goal := g.destination (folderOf arguments)
    let opened := ({} : Build).report (groups.filterMap (Group.unread? disk))
    (∀ build texts own before after,
      Batched settings.options opened (jobsOf disk groups) build texts →
      g.Answered disk groups texts own → run (writeModule goal own) before = (.ok (), after) →
      (after.read goal = .ok bytes ↔ m.render = text)) ∧
    (∀ code own, (run (perform arguments) disk).1.result = .ok code →
      g.Answered disk groups (answersOf disk settings.options groups).2 own →
      (∀ other ∈ groups, disk.place (other.destination (folderOf arguments)) = disk.place goal →
        other = g) →
      ((run (perform arguments) disk).2.read goal = .ok bytes ↔ m.render = text)) ∧
    (∀ variant own, SameLines variant text → Module.parse (unified variant) = .ok own →
      own.render = variant → m.render = text → variant = text) ∧
    (m.render.toList = dropByteOrderMark (Text.unifyLineEnds text.toList) →
      (m.render = text ↔ '\r' ∉ text.toList ∧ text.toList.head? ≠ some '\ufeff')) := by
  intro goal opened
  refine ⟨?_, ?_, ?_, ?_⟩
  · intro build texts own before after hb ha hw
    rw [(wrote_of_writeModule hw).read, h.answer hb ha, Except.ok.injEq, h.encode_iff]
  · intro code own hcode ha halone
    have hne : groups ≠ [] := List.ne_nil_of_mem hg
    obtain ⟨-, hw, -⟩ := ends_hydrateGroups_iff.mp (ends_of_ends_perform hr hne ⟨hcode, rfl⟩)
    have hp : ∀ g ∈ groups, g.file.Proper := fun g hg => hr.proper hh hg
    rw [read_of_written hp hg h hw ha halone, Except.ok.injEq, h.encode_iff]
  · intro variant own hsame hparse hvariant htext
    obtain rfl := Except.ok.inj ((hsame.parse.symm.trans hparse).symm.trans h.parse)
    exact hvariant.symm.trans htext
  · intro hemit
    rw [← String.toList_inj, hemit]
    exact unified_eq_self_iff

end Run

/-- The assignment `x = 1`, with line ends as they may be. -/
theorem untouched_assignment (text : String)
    (hd : (Text.decode (Text.encode text)).toOption = some text)
    (hu : unified text = "x = 1\n") :
    ∃ m, loneGroup.Untouched (loneDisk none (Text.encode text)) (Text.encode text) text m ∧
      m.render = "x = 1\n" := by
  have hm : ((Module.parse "x = 1\n").toOption.map fun m => (m.render,
      (locatedInAll (locateIn (Index.ofComponents loneGroup.components) loneGroup.file.toText)
        m.body).isEmpty)) = some ("x = 1\n", true) := by decide +kernel
  obtain ⟨m, hparse, hm⟩ := Option.map_eq_some_iff.mp hm
  obtain ⟨hrender, hempty⟩ := Prod.mk.inj hm
  exact ⟨m, ⟨rfl, toOption_eq_some.mp hd, hu ▸ toOption_eq_some.mp hparse,
    locatedInAll_eq_nil_iff.mp (List.isEmpty_iff.mp hempty)⟩, hrender⟩

/-- A run that ends well leaves a line feed where the source has a carriage return before it. -/
theorem bytes_preserved_iff_of_carriage :
    let disk := loneDisk none (Text.encode "x = 1\r\n")
    let goal := loneGroup.destination (folderOf loneArguments)
    disk.here.Proper ∧ Reaches loneArguments disk sampleSettings [loneGroup] ∧
    (∃ m, loneGroup.Untouched disk (Text.encode "x = 1\r\n") "x = 1\r\n" m) ∧
    (run (perform loneArguments) disk).1.result = .ok 0 ∧
    (run (perform loneArguments) disk).2.read goal ≠ .ok (Text.encode "x = 1\r\n") := by
  intro disk goal
  have hh : disk.here.Proper := proper_here_loneDisk ..
  have hreach : Reaches loneArguments disk sampleSettings [loneGroup] := reaches_loneDisk _
  obtain ⟨m, hm, hrender⟩ := untouched_assignment "x = 1\r\n" (by decide +kernel)
    (by decide +kernel)
  have hrun : (run (perform loneArguments) disk).1.result.toOption = some 0 := by decide +kernel
  have hcode := toOption_eq_some.mp hrun
  have hanswer : loneGroup.Answered disk [loneGroup]
      (answersOf disk sampleSettings.options [loneGroup]).2 "x = 1\n" := by
    have htexts : (answersOf disk sampleSettings.options [loneGroup]).2 = [some "x = 1\n"] := by
      decide +kernel
    refine ⟨_, hm.job?, ?_⟩
    rw [htexts, jobsOf, List.filterMap_cons_some hm.job?]
    exact List.mem_singleton.mpr rfl
  refine ⟨hh, hreach, ⟨m, hm⟩, hcode, fun hread => ?_⟩
  have hiff := (bytes_preserved_iff hh hreach (List.mem_singleton.mpr rfl) hm).2.1 0 "x = 1\n" hcode
    hanswer fun other ho _ => List.mem_singleton.mp ho
  have htext := hrender.symm.trans (hiff.mp hread)
  exact absurd htext (by decide)

end CommandLine

end Hydration
