import Hydration.Data.Json
import Mathlib.Data.List.Infix
import Mathlib.Data.List.TakeWhile

/-! Numbers with too many digits. Every step of reading leaves an end of what it was given, so a number
that reading stops at stands in the text as a run of digits. -/

namespace Hydration.Json

variable {α β : Type}

/-- More digits in a row than a whole number may have. -/
structure LongRun (n : Nat) (cs : List Char) : Prop where
  long : 4300 < n
  run : ∃ digits, digits <:+: cs ∧ digits.length = n ∧ ∀ c ∈ digits, isDigit c = true

/-- What is left is an end of the text, and a number that reading stops at stands in the text. -/
def Within (cs : List Char) : Reading α → Prop
  | .ok (_, rest) => rest <:+ cs
  | .error (.hugeNumber n) => LongRun n cs
  | .error (.problem ..) => True
  | .error .halfPair => True

theorem Within.mono {cs text : List Char} {reading : Reading α} (h : Within cs reading)
    (hs : cs <:+ text) : Within text reading := by
  match reading with
  | .ok (_, rest) => exact List.IsSuffix.trans h hs
  | .error (.problem ..) => trivial
  | .error .halfPair => trivial
  | .error (.hugeNumber n) =>
    obtain ⟨hlong, digits, hd, hl, hall⟩ := h
    exact ⟨hlong, digits, hd.trans hs.isInfix, hl, hall⟩

theorem within_stopAt (kind : Problem) (left cs : List Char) :
    Within cs (stopAt kind left : Reading α) := trivial

theorem within_error {cs : List Char} {stop : Stop} (h : Within cs (.error stop : Reading α)) :
    Within cs (.error stop : Reading β) := by
  cases stop with
  | halfPair => trivial
  | _ => exact h

theorem dropBlanks_suffix (cs : List Char) : dropBlanks cs <:+ cs := List.dropWhile_suffix _

theorem suffix_of_dropBlanks {cs rest : List Char} {c : Char} (h : dropBlanks cs = c :: rest) :
    rest <:+ cs :=
  (List.suffix_cons c rest).trans (h ▸ dropBlanks_suffix cs)

theorem takeHex_suffix {cs rest : List Char} {n : Nat} (h : takeHex cs = some (n, rest)) :
    rest <:+ cs := by
  unfold takeHex at h
  split at h
  · cases h
  · obtain ⟨n, -, he⟩ := Option.map_eq_some_iff.mp h
    obtain ⟨-, rfl⟩ := Prod.mk.inj he
    exact List.drop_suffix 4 cs

theorem within_codePoint (n : Nat) {cs rest : List Char} (h : rest <:+ cs) :
    Within cs (codePoint n rest) := by
  unfold codePoint
  split
  · trivial
  · exact h

theorem within_takeCodePoint (mark cs : List Char) : Within cs (takeCodePoint mark cs) := by
  unfold takeCodePoint
  split
  · exact within_stopAt _ _ _
  · rename_i high rest hhex
    have hrest := takeHex_suffix hhex
    split
    · rename_i tail
      split
      · split
        · exact within_stopAt _ _ _
        · split
          · exact ((List.drop_suffix 4 tail).trans (List.suffix_append ['\\', 'u'] tail)).trans hrest
          · exact within_codePoint high hrest
      · exact within_codePoint high hrest
    · exact within_codePoint high hrest

theorem within_takeText (start : List Char) (fuel : Nat) (cs done : List Char) :
    Within cs (takeText start fuel cs done) := by
  fun_induction takeText start fuel cs done with
  | case1 => exact within_stopAt _ _ _
  | case2 => exact within_stopAt _ _ _
  | case3 fuel rest done => exact List.suffix_cons '"' rest
  | case4 => exact within_stopAt _ _ _
  | case5 fuel rest done c left hc ih =>
    have hleft : Within rest (.ok (c, left)) := hc ▸ within_takeCodePoint _ _
    exact ih.mono (List.IsSuffix.trans hleft (List.suffix_append ['\\', 'u'] rest))
  | case6 fuel rest done stop hc =>
    have hstop : Within rest (.error stop : Reading Char) := hc ▸ within_takeCodePoint _ _
    exact (within_error hstop).mono (List.suffix_append ['\\', 'u'] rest)
  | case7 fuel first rest done hu c hc ih => exact ih.mono (List.suffix_append ['\\', first] rest)
  | case8 => exact within_stopAt _ _ _
  | case9 => exact within_stopAt _ _ _
  | case10 fuel first rest done _ _ _ _ hc ih => exact ih.mono (List.suffix_cons first rest)

theorem takeDigits_run {cs digits rest : List Char} (h : takeDigits cs = (digits, rest)) :
    digits <:+: cs ∧ rest <:+ cs ∧ ∀ c ∈ digits, isDigit c = true := by
  obtain ⟨rfl, rfl⟩ := Prod.mk.inj h
  exact ⟨(List.takeWhile_prefix _).isInfix, List.dropWhile_suffix _, fun _ => List.mem_takeWhile_imp⟩

theorem takeFraction_suffix {cs fraction rest : List Char}
    (h : takeFraction cs = (fraction, rest)) : rest <:+ cs := by
  unfold takeFraction at h
  split at h
  · split at h
    · obtain ⟨-, rfl⟩ := Prod.mk.inj h
      exact List.suffix_rfl
    · exact (takeDigits_run h).2.1.trans (List.suffix_cons _ _)
  · obtain ⟨-, rfl⟩ := Prod.mk.inj h
    exact List.suffix_rfl

theorem signOf_suffix (cs : List Char) : (signOf cs).2 <:+ cs := by
  unfold signOf
  split
  · exact List.suffix_cons _ _
  · exact List.suffix_cons _ _
  · exact List.suffix_rfl

theorem takeExponent_suffix {cs rest : List Char} {power : Int}
    (h : takeExponent cs = some (power, rest)) : rest <:+ cs := by
  cases cs with
  | nil => cases h
  | cons c cs =>
    rw [takeExponent] at h
    split at h
    · have hsign := signOf_suffix cs
      obtain ⟨negative, body⟩ := signOf cs
      dsimp only at h hsign
      split at h
      · cases h
      · rename_i hdigits
        obtain ⟨-, rfl⟩ := Prod.mk.inj (Option.some.inj h)
        exact ((takeDigits_run hdigits).2.1.trans hsign).trans (List.suffix_cons c cs)
    · cases h

theorem within_takeNumber {cs : List Char} {reading : Reading Data}
    (h : takeNumber cs = some reading) : Within cs reading := by
  unfold takeNumber at h
  split at h
  rename_i negative body hsign
  have hbody : body <:+ cs := by
    split at hsign <;> obtain ⟨-, rfl⟩ := Prod.mk.inj hsign
    · exact List.suffix_cons _ _
    · exact List.suffix_rfl
  refine Within.mono ?_ hbody
  split at h
  rename_i whole rest hwhole
  have hrest : rest <:+ body := by
    split at hwhole
    · obtain ⟨-, rfl⟩ := Prod.mk.inj hwhole
      exact List.suffix_cons _ _
    · exact (takeDigits_run hwhole).2.1
  have hrun (hl : whole.length > 4300) : LongRun whole.length body := by
    split at hwhole
    · obtain ⟨rfl, -⟩ := Prod.mk.inj hwhole
      exact absurd hl (by decide)
    · obtain ⟨hin, -, hall⟩ := takeDigits_run hwhole
      exact ⟨hl, whole, hin, rfl, hall⟩
  split at h
  · cases h
  · split at h
    rename_i fraction left hfraction
    have hleft := (takeFraction_suffix hfraction).trans hrest
    split at h
    · split at h
      · obtain rfl := Option.some.inj h
        exact hrun ‹_›
      · obtain rfl := Option.some.inj h
        exact hleft
    · split at h
      rename_i power last hpower
      obtain rfl := Option.some.inj h
      have hlast : last <:+ left := by
        cases he : takeExponent left with
        | none =>
          obtain ⟨-, rfl⟩ := Prod.mk.inj (by simpa [he] using hpower : (0, left) = (power, last))
          exact List.suffix_rfl
        | some found =>
          obtain rfl : found = (power, last) := by simpa [he] using hpower
          exact takeExponent_suffix he
      exact hlast.trans hleft

theorem takeWord_suffix {cs rest : List Char} {data : Data} (h : takeWord cs = some (data, rest)) :
    rest <:+ cs := by
  obtain ⟨⟨word, value⟩, -, hw⟩ := List.exists_of_findSome?_eq_some h
  obtain ⟨left, hl, he⟩ := Option.map_eq_some_iff.mp hw
  obtain ⟨-, rfl⟩ := Prod.mk.inj he
  unfold dropWord at hl
  split at hl
  · obtain rfl := Option.some.inj hl
    exact List.drop_suffix _ _
  · cases hl

section Step

variable {fuel : Nat}

theorem within_takeValue_succ
    (hitems : ∀ cs done, Within cs (takeItems fuel cs done))
    (hentries : ∀ cs done, Within cs (takeEntries fuel cs done)) (cs : List Char) :
    Within cs (takeValue (fuel + 1) cs) := by
  unfold takeValue
  split
  · rename_i rest
    have htext := within_takeText ('"' :: rest) (rest.length + 1) rest []
    split
    · rename_i text left ht
      rw [ht] at htext
      exact List.IsSuffix.trans htext (List.suffix_cons _ _)
    · rename_i stop ht
      rw [ht] at htext
      exact (within_error htext).mono (List.suffix_cons _ _)
  · rename_i rest
    split
    · rename_i left hl
      exact (suffix_of_dropBlanks hl).trans (List.suffix_cons _ _)
    · exact (hentries _ _).mono ((dropBlanks_suffix rest).trans (List.suffix_cons _ _))
  · rename_i rest
    split
    · rename_i left hl
      exact (suffix_of_dropBlanks hl).trans (List.suffix_cons _ _)
    · exact (hitems _ _).mono ((dropBlanks_suffix rest).trans (List.suffix_cons _ _))
  · split
    · rename_i result hword
      exact takeWord_suffix hword
    · cases hn : takeNumber cs with
      | none => exact within_stopAt _ _ _
      | some reading => exact within_takeNumber hn

theorem within_takeItems_succ (hvalue : ∀ cs, Within cs (takeValue fuel cs))
    (hitems : ∀ cs done, Within cs (takeItems fuel cs done)) (cs : List Char) (done : List Data) :
    Within cs (takeItems (fuel + 1) cs done) := by
  unfold takeItems
  have hitem := hvalue cs
  split
  · rename_i stop hv
    rw [hv] at hitem
    exact within_error hitem
  · rename_i item rest hv
    rw [hv] at hitem
    split
    · rename_i left hl
      exact (suffix_of_dropBlanks hl).trans hitem
    · rename_i left hl
      have hnext := (dropBlanks_suffix left).trans (suffix_of_dropBlanks hl)
      exact (hitems _ _).mono (hnext.trans hitem)
    · exact within_stopAt _ _ _

theorem within_takeEntries_succ (hvalue : ∀ cs, Within cs (takeValue fuel cs))
    (hentries : ∀ cs done, Within cs (takeEntries fuel cs done)) (cs : List Char)
    (done : List (String × Data)) : Within cs (takeEntries (fuel + 1) cs done) := by
  unfold takeEntries
  split
  · rename_i rest
    have hkey := within_takeText ('"' :: rest) (rest.length + 1) rest []
    split
    · rename_i stop ht
      rw [ht] at hkey
      exact (within_error hkey).mono (List.suffix_cons _ _)
    · rename_i key left ht
      rw [ht] at hkey
      have hleft := List.IsSuffix.trans hkey (List.suffix_cons '"' rest)
      split
      · rename_i behind hcolon
        have hstart := (dropBlanks_suffix behind).trans ((suffix_of_dropBlanks hcolon).trans hleft)
        have hentry := (hvalue (dropBlanks behind)).mono hstart
        split
        · rename_i stop hv
          rw [hv] at hentry
          exact within_error hentry
        · rename_i value last hv
          rw [hv] at hentry
          dsimp only
          split
          · rename_i tail hl
            exact (suffix_of_dropBlanks hl).trans hentry
          · rename_i tail hl
            have hnext := (dropBlanks_suffix tail).trans (suffix_of_dropBlanks hl)
            exact (hentries _ _).mono (hnext.trans hentry)
          · exact within_stopAt _ _ _
      · exact within_stopAt _ _ _
  · exact within_stopAt _ _ _

end Step

theorem within_take (fuel : Nat) : (∀ cs, Within cs (takeValue fuel cs)) ∧
    (∀ cs done, Within cs (takeItems fuel cs done)) ∧
    ∀ cs done, Within cs (takeEntries fuel cs done) := by
  induction fuel with
  | zero => exact ⟨fun _ => trivial, fun _ _ => trivial, fun _ _ => trivial⟩
  | succ fuel ih =>
    obtain ⟨hvalue, hitems, hentries⟩ := ih
    exact ⟨within_takeValue_succ hitems hentries, within_takeItems_succ hvalue hitems,
      within_takeEntries_succ hvalue hentries⟩

/-- A text that is refused for a number that is too long holds a run of that many digits. -/
theorem longRun_of_parse {text : String} {n : Nat} (h : parse text = .error (.hugeNumber n)) :
    LongRun n text.toList := by
  have hread : read text.toList = .error (.hugeNumber n) := by
    unfold parse at h
    cases hr : read text.toList with
    | ok data => simp [hr, Except.mapError] at h
    | error stop =>
      cases stop with
      | problem kind left => simp [hr, Except.mapError, locate] at h
      | halfPair => simp [hr, Except.mapError, locate] at h
      | hugeNumber digits =>
        simp only [hr, Except.mapError, locate, Except.error.injEq, JsonError.hugeNumber.injEq] at h
        rw [h]
  unfold read at hread
  split at hread
  · cases hread
  · have hvalue := (within_take (text.toList.length + 1)).1 (dropBlanks text.toList)
    split at hread
    · rename_i stop hv
      rw [hv, Except.error.inj hread] at hvalue
      exact hvalue.mono (dropBlanks_suffix _)
    · split at hread <;> cases hread

end Hydration.Json
