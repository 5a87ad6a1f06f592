import Hydration.CommandLine.Command
import Hydration.Proofs.Places

/-! What a terminal can show. Only a tag in a message makes it one that cannot be shown, so a text
without an opening bracket always can, escaped or not. A run that shows events before it goes on ends
with a code exactly if all of them can be shown and what follows ends with it. -/

namespace Hydration

namespace Markup

variable {cs : List Char} {text : String}

/-- The message is markup in which every tag that closes a style finds it open. -/
def Renders (message : String) : Prop := ∃ shown, render message.toList = .ok shown

theorem renders_of_isSome {message : String}
    (h : (render message.toList).toOption.isSome = true) : Renders message := by
  obtain ⟨shown, hs⟩ := Option.isSome_iff_exists.mp h
  exact ⟨shown, toOption_eq_some.mp hs⟩

theorem takeTag_of_not_mem (h : '[' ∉ cs) : takeTag cs = none := by
  unfold takeTag
  split
  · simp at h
  · rfl

theorem parts_of_not_mem {fuel position : Nat} {plain : List Char} (h : '[' ∉ cs) :
    ∀ part ∈ parts fuel position plain cs, ∃ content, part = .text content := by
  have hplain (plain : List Char) : ∀ part ∈ plainPart plain, ∃ content, part = .text content := by
    unfold plainPart
    split <;> simp
  fun_induction parts fuel position plain cs with
  | case1 => exact hplain _
  | case2 => exact hplain _
  | case3 fuel position plain cs hne escapes inside rest htag =>
    have hnone : takeTag (cs.drop escapes) = none :=
      takeTag_of_not_mem fun hm => h (List.mem_of_mem_drop hm)
    cases hnone.symm.trans htag
  | case4 fuel position plain cs hne escapes htag size ih =>
    exact ih fun hm => h (List.mem_of_mem_drop hm)

theorem exists_renderParts {stack : List String} {ps : List Part}
    (h : ∀ part ∈ ps, ∃ content, part = .text content) : ∃ shown, renderParts stack ps = .ok shown := by
  induction ps with
  | nil => exact ⟨[], rfl⟩
  | cons part ps ih =>
    obtain ⟨content, rfl⟩ := h part List.mem_cons_self
    obtain ⟨shown, hs⟩ := ih fun part hm => h part (List.mem_cons_of_mem _ hm)
    rw [renderParts, hs]
    exact ⟨_, rfl⟩

theorem renders_of_not_mem (h : '[' ∉ text.toList) : Renders text :=
  exists_renderParts (parts_of_not_mem h)

/-- Escaping puts backslashes in front of brackets, and brackets nowhere else. -/
theorem not_mem_escapeChars (fuel : Nat) (h : '[' ∉ cs) : '[' ∉ escapeChars fuel cs := by
  have hescapes (n : Nat) : '[' ∉ List.replicate n '\\' := by simp [List.mem_replicate]
  fun_induction escapeChars fuel cs with
  | case1 => exact h
  | case2 => exact h
  | case3 fuel cs hne escapes c rest hdrop =>
    exact absurd (List.mem_of_mem_drop (hdrop ▸ List.mem_cons_self)) h
  | case4 fuel cs hne escapes c rest hdrop =>
    exact absurd (List.mem_of_mem_drop (hdrop ▸ List.mem_cons_self)) h
  | case5 fuel cs hne escapes c rest hc hdrop ih =>
    have hmem (d : Char) (hd : d ∈ c :: rest) : d ∈ cs := List.mem_of_mem_drop (hdrop ▸ hd)
    have hrest : '[' ∉ escapeChars fuel rest := ih fun hm => h (hmem _ (List.mem_cons_of_mem _ hm))
    have hne : '[' ≠ c := fun he => h (hmem _ (he ▸ List.mem_cons_self))
    simp only [List.mem_append, List.mem_cons, not_or]
    exact ⟨hescapes _, hne, hrest⟩
  | case6 => exact hescapes _

theorem not_mem_escape (h : '[' ∉ text.toList) : '[' ∉ (escape text).toList := by
  have hchars := not_mem_escapeChars (text.length + 1) h
  rw [escape, String.toList_ofList]
  split
  · simpa using hchars
  · exact hchars

end Markup

theorem bracket_not_mem_nat (n : Nat) : '[' ∉ (toString n).toList := by
  intro h
  rw [Nat.toString_eq_ofList_toDigits, String.toList_ofList] at h
  exact absurd (Nat.isDigit_of_mem_toDigits (by decide) (by decide) h) (by decide)

theorem bracket_not_mem_int (n : Int) : '[' ∉ (toString n).toList := by
  cases n with
  | ofNat n => exact bracket_not_mem_nat n
  | negSucc n =>
    change '[' ∉ ("-" ++ toString (n + 1)).toList
    rw [String.toList_append]
    simpa using bracket_not_mem_nat (n + 1)

namespace CommandLine

open Disk Markup

section Events

variable {verbose : Bool} {events more : List Event} {event : Event}

theorem refusal?_eq_none_iff {text : String} : refusal? text = none ↔ Renders text := by
  unfold refusal? Renders
  cases render text.toList <;> simp

/-- The terminal can show all of the events. -/
def Shows (verbose : Bool) (events : List Event) : Prop :=
  ∀ event ∈ events, event.fault? verbose = none

@[simp] theorem shows_nil : Shows verbose [] := by simp [Shows]

@[simp] theorem shows_cons : Shows verbose (event :: events) ↔
    event.fault? verbose = none ∧ Shows verbose events :=
  List.forall_mem_cons

@[simp] theorem shows_append : Shows verbose (events ++ more) ↔
    Shows verbose events ∧ Shows verbose more :=
  List.forall_mem_append

/-- A record that reaches the level of the run has to render. -/
theorem fault?_record {record : Record} (h : Level.info.rank ≤ record.level.rank) :
    (Event.record record).fault? verbose = none ↔ Renders record.message := by
  simp [Event.fault?, isShown, h, refusal?_eq_none_iff]

/-- One that does not is left out. -/
theorem fault?_quiet {record : Record} (h : record.level.rank < Level.info.rank) :
    (Event.record record).fault? false = none := by
  simp [Event.fault?, isShown, Nat.not_le.mpr h]

/-- The message is shown as one of the level. -/
def Tells (level : Level) (message : String) : Prop :=
  Renders (Terminal.announce level message).message

theorem fault?_say {level : Level} (h : Level.info.rank ≤ level.rank) (message : String) :
    (say level message).fault? verbose = none ↔ Tells level message :=
  fault?_record h

theorem tells_of_not_mem (level : Level) {message : String} (h : '[' ∉ message.toList) :
    Tells level message := by
  have hicon : '[' ∉ (Terminal.icon level).toList := by cases level <;> decide
  refine renders_of_not_mem ?_
  rw [Terminal.announce, String.toList_append, List.mem_append, not_or]
  exact ⟨hicon, h⟩

/-- A table has to render cell by cell. -/
theorem fault?_table {table : Table} (h : ∀ row ∈ table.rows, row.length ≤ table.columns.length) :
    (Event.table table).fault? verbose = none ↔ ∀ row ∈ table.rows, ∀ cell ∈ row, Renders cell := by
  have hcells (cell : String) : cell ∈ table.cells ↔ ∃ row ∈ table.rows, cell ∈ row := by
    simp only [Table.cells, List.mem_flatMap, List.mem_range, List.mem_filterMap]
    constructor
    · rintro ⟨i, -, row, hrow, hcell⟩
      exact ⟨row, hrow, List.mem_of_getElem? hcell⟩
    · rintro ⟨row, hrow, hcell⟩
      obtain ⟨i, hi, hcell⟩ := List.getElem_of_mem hcell
      exact ⟨i, Nat.lt_of_lt_of_le hi (h row hrow), row, hrow, hcell ▸ List.getElem?_eq_getElem hi⟩
  simp only [Event.fault?, isShown, if_true, List.findSome?_eq_none_iff, refusal?_eq_none_iff, hcells,
    forall_exists_index, and_imp]
  exact ⟨fun h row hrow cell hcell => h cell row hrow hcell,
    fun h cell row hrow hcell => h row hrow cell hcell⟩

def tablesOf (events : List Event) : List Table :=
  events.filterMap fun
    | .table table => some table
    | .record _ => none

theorem tablesOf_append (events more : List Event) :
    tablesOf (events ++ more) = tablesOf events ++ tablesOf more := List.filterMap_append

theorem tablesOf_records (records : List Record) : tablesOf (records.map .record) = [] := by
  induction records with
  | nil => rfl
  | cons record records ih => exact ih

end Events

section Runs

variable {verbose : Bool} {events : List Event} {next : StateM Disk Outcome} {disk after : Disk}
  {code : Nat}

theorem run_showThen_of_shows (h : Shows verbose events) (next : StateM Disk Outcome) (disk : Disk) :
    run (showThen verbose events next) disk = (prepend events (run next disk).1, (run next disk).2) := by
  rw [showThen, List.findSome?_eq_none_iff.mpr h]
  rfl

theorem run_conclude_of_shows (h : Shows verbose events) (code : Nat) (disk : Disk) :
    run (conclude verbose events code) disk = (finish events code, disk) := by
  rw [conclude, run_showThen_of_shows h, run_pure]
  simp [prepend, finish]

/-- What cannot be shown ends the run before anything else is done. -/
theorem run_showThen_of_not (h : ¬ Shows verbose events) (next : StateM Disk Outcome) (disk : Disk) :
    ∃ shown e, run (showThen verbose events next) disk = (abandon shown (.markup e), disk) := by
  rw [Shows, ← List.findSome?_eq_none_iff] at h
  obtain ⟨e, he⟩ := Option.ne_none_iff_exists'.mp h
  rw [showThen, he]
  exact ⟨_, e, rfl⟩

/-- The run ends with a code, and leaves a disk behind. -/
def Ends (x : StateM Disk Outcome) (disk : Disk) (code : Nat) (after : Disk) : Prop :=
  (run x disk).1.result = .ok code ∧ (run x disk).2 = after

theorem ends_showThen_iff : Ends (showThen verbose events next) disk code after ↔
    Shows verbose events ∧ Ends next disk code after := by
  by_cases h : Shows verbose events
  · rw [Ends, run_showThen_of_shows h, and_iff_right h]
    rfl
  · obtain ⟨shown, e, hrun⟩ := run_showThen_of_not h next disk
    rw [Ends, hrun]
    simp [abandon, h]

theorem ends_conclude_iff {own : Nat} : Ends (conclude verbose events own) disk code after ↔
    Shows verbose events ∧ code = own ∧ after = disk := by
  rw [conclude, ends_showThen_iff]
  simp [Ends, finish, eq_comm]

/-- The run ends in a message that cannot be shown. -/
def Balks (x : StateM Disk Outcome) (disk : Disk) : Prop :=
  ∃ e, (run x disk).1.result = .error (.markup e)

theorem balks_showThen (h : Shows verbose events → Balks next disk) :
    Balks (showThen verbose events next) disk := by
  by_cases hs : Shows verbose events
  · rw [Balks, run_showThen_of_shows hs]
    exact h hs
  · obtain ⟨shown, e, hrun⟩ := run_showThen_of_not hs next disk
    exact ⟨e, by rw [hrun]; rfl⟩

end Runs

end CommandLine

end Hydration
