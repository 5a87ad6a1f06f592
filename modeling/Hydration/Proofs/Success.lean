import Mathlib.Data.List.Forall2

/-! Steps that may fail, one after another: when a sequence of them succeeds or fails, and lists that
agree place by place. -/

namespace Hydration

theorem bind_eq_ok {α β ε : Type} {x : Except ε α} {f : α → Except ε β} {b : β} :
    x >>= f = .ok b ↔ ∃ a, x = .ok a ∧ f a = .ok b := by
  cases x with
  | error e => simp [bind, Except.bind]
  | ok a => simp [bind, Except.bind]

theorem bind_pure_eq_ok {α β ε : Type} {x : Except ε α} {f : α → β} {b : β} :
    (x >>= fun a => pure (f a)) = .ok b ↔ ∃ a, x = .ok a ∧ b = f a := by
  cases x with
  | error e => simp [bind, Except.bind]
  | ok a => simp [bind, Except.bind, pure, Except.pure, eq_comm]

theorem bind_eq_error {α β ε : Type} {x : Except ε α} {f : α → Except ε β} {e : ε} :
    x >>= f = .error e ↔ x = .error e ∨ ∃ a, x = .ok a ∧ f a = .error e := by
  cases x with
  | error e' => simp [bind, Except.bind]
  | ok a => simp [bind, Except.bind]

theorem mapError_eq_ok {α ε δ : Type} {x : Except ε α} {f : ε → δ} {a : α} :
    x.mapError f = .ok a ↔ x = .ok a := by
  cases x <;> simp [Except.mapError]

theorem mapError_eq_error {α ε δ : Type} {x : Except ε α} {f : ε → δ} {d : δ} :
    x.mapError f = .error d ↔ ∃ e, x = .error e ∧ f e = d := by
  cases x <;> simp [Except.mapError]

theorem toOption_eq_some {α ε : Type} {x : Except ε α} {a : α} :
    x.toOption = some a ↔ x = .ok a := by
  cases x <;> simp [Except.toOption]

theorem mapM_eq_ok {α β ε : Type} {f : α → Except ε β} {as : List α} {bs : List β} :
    as.mapM f = .ok bs ↔ List.Forall₂ (fun a b => f a = .ok b) as bs := by
  induction as generalizing bs with
  | nil => simp [pure, Except.pure, eq_comm]
  | cons a as ih =>
    simp only [List.mapM_cons, bind_eq_ok, ih, List.forall₂_cons_left_iff]
    constructor
    · rintro ⟨b, hb, rest, hr, he⟩
      exact ⟨b, rest, hb, hr, (Except.ok.inj he).symm⟩
    · rintro ⟨b, rest, hb, hr, rfl⟩
      exact ⟨b, hb, rest, hr, rfl⟩

theorem forall₂_exists {α β : Type} {R : α → β → Prop} {as : List α} {bs : List β}
    (h : List.Forall₂ R as bs) {b : β} (hb : b ∈ bs) : ∃ a ∈ as, R a b := by
  induction h with
  | nil => simp at hb
  | cons hr _ ih =>
    rcases List.mem_cons.mp hb with rfl | hb
    · exact ⟨_, List.mem_cons_self, hr⟩
    · obtain ⟨a, hm, hr⟩ := ih hb
      exact ⟨a, List.mem_cons_of_mem _ hm, hr⟩

/-- Every result of a run over a list comes from one of its elements. -/
theorem exists_of_mem_mapM {α β ε : Type} {f : α → Except ε β} {as : List α} {bs : List β}
    (h : as.mapM f = .ok bs) {b : β} (hb : b ∈ bs) : ∃ a ∈ as, f a = .ok b :=
  forall₂_exists (mapM_eq_ok.mp h) hb

theorem forall₂_append_iff {α β : Type} {R : α → β → Prop} {as bs : List α} {cs ds : List β}
    (h : as.length = cs.length) :
    List.Forall₂ R (as ++ bs) (cs ++ ds) ↔ List.Forall₂ R as cs ∧ List.Forall₂ R bs ds := by
  induction as generalizing cs with
  | nil =>
    have : cs = [] := List.length_eq_zero_iff.mp h.symm
    simp [this]
  | cons a as ih =>
    cases cs with
    | nil => simp at h
    | cons c cs =>
      have hh := ih (by simpa using h : as.length = cs.length)
      simp [hh, and_assoc]

theorem forall₂_append_left_iff {α β : Type} {R : α → β → Prop} {as bs : List α} {cs : List β} :
    List.Forall₂ R (as ++ bs) cs ↔
      ∃ front back, cs = front ++ back ∧ List.Forall₂ R as front ∧ List.Forall₂ R bs back := by
  constructor
  · intro h
    have hl := h.length_eq
    rw [List.length_append] at hl
    have hc : cs.take as.length ++ cs.drop as.length = cs := List.take_append_drop ..
    have hf : as.length = (cs.take as.length).length := by
      rw [List.length_take]
      omega
    rw [← hc, forall₂_append_iff hf] at h
    exact ⟨_, _, hc.symm, h.1, h.2⟩
  · rintro ⟨front, back, rfl, hf, hb⟩
    exact (forall₂_append_iff hf.length_eq).mpr ⟨hf, hb⟩

theorem forall₂_congr_of_mem {α β : Type} {R S : α → β → Prop} {as : List α} {bs : List β}
    (h : ∀ a ∈ as, ∀ b ∈ bs, R a b ↔ S a b) : List.Forall₂ R as bs ↔ List.Forall₂ S as bs := by
  induction as generalizing bs with
  | nil => simp
  | cons a as ih =>
    cases bs with
    | nil => simp
    | cons b bs =>
      have ht : ∀ a ∈ as, ∀ b ∈ bs, R a b ↔ S a b := fun a ha b hb =>
        h a (List.mem_cons_of_mem _ ha) b (List.mem_cons_of_mem _ hb)
      rw [List.forall₂_cons, List.forall₂_cons, ih ht, h a List.mem_cons_self b List.mem_cons_self]

theorem forall₂_comp_iff {α β γ : Type} {R : α → β → Prop} {S : β → γ → Prop} {as : List α}
    {cs : List γ} :
    List.Forall₂ (fun a c => ∃ b, R a b ∧ S b c) as cs ↔
      ∃ bs, List.Forall₂ R as bs ∧ List.Forall₂ S bs cs := by
  constructor
  · intro h
    induction h with
    | nil => exact ⟨[], .nil, .nil⟩
    | cons hac _ ih =>
      obtain ⟨b, hr, hs⟩ := hac
      obtain ⟨bs, hrs, hss⟩ := ih
      exact ⟨b :: bs, .cons hr hrs, .cons hs hss⟩
  · rintro ⟨bs, hr, hs⟩
    induction hr generalizing cs with
    | nil =>
      cases hs
      exact .nil
    | cons hab _ ih =>
      cases hs with
      | cons hbc hs => exact .cons ⟨_, hab, hbc⟩ (ih hs)

theorem forall₂_getElem? {α β : Type} {R : α → β → Prop} {as : List α} {bs : List β}
    (h : List.Forall₂ R as bs) {i : Nat} {a : α} (ha : as[i]? = some a) :
    ∃ b, bs[i]? = some b ∧ R a b := by
  induction h generalizing i with
  | nil => simp at ha
  | cons hr _ ih =>
    cases i with
    | zero =>
      obtain rfl := Option.some.inj ha
      exact ⟨_, rfl, hr⟩
    | succ i => exact ih ha

end Hydration
