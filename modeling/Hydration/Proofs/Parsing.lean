import Hydration.Syntax.Grammar.Expression

/-! What a parser gives, whatever the place it starts from: one lemma for every way in which
parsers are put together. -/

namespace Hydration.Syntax.Parser

variable {α β : Type} {s : Source} {p q : Parser α} {P Q : α → Prop}

theorem ok_of_bind {f : α → Parser β} {place furthest after reached : Nat} {b : β}
    (h : (p >>= f) s place furthest = .ok b after reached) :
    ∃ a next m, p s place furthest = .ok a next m ∧ f a s next m = .ok b after reached := by
  change Parser.bind p f s place furthest = _ at h
  unfold Parser.bind at h
  split at h
  · rename_i a next m ha
    exact ⟨a, next, m, ha, h⟩
  · simp at h

theorem word_eq_ok {test : Word → Bool} {place furthest after reached : Nat} {w : Word}
    (h : word test s place furthest = .ok w after reached) :
    s.words[place]? = some w ∧ test w = true ∧ after = place + 1 := by
  unfold word at h
  split at h
  · rename_i found hf
    split at h
    · rename_i ht
      obtain ⟨rfl, rfl, -⟩ := Outcome.ok.inj h
      exact ⟨hf, ht, rfl⟩
    · simp at h
  · simp at h

theorem place_of_nextGap {place furthest after reached : Nat} {gap : Gap}
    (h : nextGap s place furthest = .ok gap after reached) : after = place := by
  unfold nextGap at h
  obtain ⟨w, next, m, hw, h⟩ := ok_of_bind h
  unfold peek at hw
  split at hw
  · obtain ⟨-, rfl, -⟩ := Outcome.ok.inj hw
    exact (Outcome.ok.inj h).2.1.symm
  · simp at hw

theorem place_of_guardNot {test : Word → Bool} {place furthest after reached : Nat} {u : Unit}
    (h : guardNot (next test) s place furthest = .ok u after reached) : after = place := by
  unfold guardNot at h
  obtain ⟨found, next, m, hn, h⟩ := ok_of_bind h
  obtain ⟨-, rfl, -⟩ := Outcome.ok.inj hn
  split at h
  · simp [Parser.fail] at h
  · exact (Outcome.ok.inj h).2.1.symm

theorem name_eq_ok {place furthest after reached : Nat} {w : Word}
    (h : name s place furthest = .ok w after reached) :
    s.words[place]? = some w ∧ w.kind = .name ∧ after = place + 1 := by
  unfold name at h
  obtain ⟨u, next, m, hu, hk⟩ := ok_of_bind h
  obtain rfl := place_of_guardNot hu
  obtain ⟨hw, hk, ha⟩ := word_eq_ok hk
  exact ⟨hw, beq_iff_eq.mp hk, ha⟩

/-- All that a parser gives on the words of a source has a property. -/
def Yields (s : Source) (p : Parser α) (P : α → Prop) : Prop :=
  ∀ place furthest a after reached, p s place furthest = .ok a after reached → P a

theorem Yields.pure {a : α} (h : P a) : Yields s (Parser.pure a) P := by
  intro place furthest b after reached hb
  obtain ⟨rfl, -, -⟩ := Outcome.ok.inj hb
  exact h

theorem Yields.fail : Yields s (Parser.fail : Parser α) P := by
  intro place furthest b after reached hb
  simp [Parser.fail] at hb

theorem Yields.bind {f : α → Parser β} {R : β → Prop} (hp : Yields s p P)
    (hf : ∀ a, P a → Yields s (f a) R) : Yields s (p >>= f) R := by
  intro place furthest b after reached hb
  obtain ⟨a, next, m, ha, hb⟩ := ok_of_bind hb
  exact hf a (hp _ _ _ _ _ ha) _ _ _ _ _ hb

theorem Yields.andThen {f : α → Parser β} {R : β → Prop} (hf : ∀ a, Yields s (f a) R) :
    Yields s (p >>= f) R :=
  .bind (P := fun _ => True) (fun _ _ _ _ _ _ => trivial) fun a _ => hf a

theorem Yields.orElse (hp : Yields s p P) (hq : Yields s q P) : Yields s (p <|> q) P := by
  intro place furthest b after reached hb
  change Parser.orElse p (fun _ => q) s place furthest = _ at hb
  unfold Parser.orElse at hb
  split at hb
  · rename_i ha
    obtain ⟨rfl, -, -⟩ := Outcome.ok.inj hb
    exact hp _ _ _ _ _ ha
  · exact hq _ _ _ _ _ hb

theorem Yields.optional (hp : Yields s p P) : Yields s (optional p) (fun o => ∀ a ∈ o, P a) := by
  intro place furthest b after reached hb
  unfold Parser.optional at hb
  split at hb
  · rename_i ha
    obtain ⟨rfl, -, -⟩ := Outcome.ok.inj hb
    rintro a ⟨⟩
    exact hp _ _ _ _ _ ha
  · obtain ⟨rfl, -, -⟩ := Outcome.ok.inj hb
    simp

theorem Yields.manyUpTo (hp : Yields s p P) (fuel : Nat) :
    Yields s (manyUpTo p fuel) (fun as => ∀ a ∈ as, P a) := by
  induction fuel with
  | zero => exact .pure (by simp)
  | succ fuel ih =>
    intro place furthest bs after reached hb
    unfold Parser.manyUpTo at hb
    split at hb
    · rename_i a i m ha
      split at hb
      · rename_i as j n has
        obtain ⟨rfl, -, -⟩ := Outcome.ok.inj hb
        intro b hmem
        rcases List.mem_cons.mp hmem with rfl | hmem
        · exact hp _ _ _ _ _ ha
        · exact ih _ _ _ _ _ has b hmem
      · simp at hb
    · obtain ⟨rfl, -, -⟩ := Outcome.ok.inj hb
      simp

theorem Yields.many (hp : Yields s p P) : Yields s (many p) (fun as => ∀ a ∈ as, P a) := by
  intro place furthest as after reached ha
  exact hp.manyUpTo _ _ _ _ _ _ ha

theorem Yields.atLeastOne (hp : Yields s p P) :
    Yields s (atLeastOne p) (fun as => ∀ a ∈ as, P a) := by
  refine .bind hp fun first hf => .bind hp.many fun rest hr => .pure ?_
  simpa [hf] using hr

theorem forall_joinCommas {withComma : Option Around → α → α}
    (hc : ∀ comma a, P a → P (withComma comma a)) {first : α} (hf : P first)
    {rest : List (Around × α)} (hr : ∀ pair ∈ rest, P pair.2) (trailing : Option Around) :
    ∀ a ∈ joinCommas withComma first rest trailing, P a := by
  induction rest generalizing first with
  | nil => simpa [joinCommas] using hc trailing first hf
  | cons pair rest ih =>
    obtain ⟨comma, item⟩ := pair
    have hh := ih (hr (comma, item) List.mem_cons_self) fun pair hp =>
      hr pair (List.mem_cons_of_mem _ hp)
    intro a ha
    rcases List.mem_cons.mp ha with rfl | ha
    · exact hc (some comma) first hf
    · exact hh a ha

theorem Yields.separated {withComma : Option Around → α → α}
    (hc : ∀ comma a, P a → P (withComma comma a)) (hp : Yields s p P) :
    Yields s (separated withComma p) (fun as => ∀ a ∈ as, P a) := by
  refine .bind hp fun first hf => .bind (P := fun rest => ∀ pair ∈ rest, P pair.2) ?_ ?_
  · exact .many (.andThen fun comma => .bind hp fun a ha => .pure ha)
  · intro rest hr
    exact .pure (forall_joinCommas hc hf hr none)

theorem Yields.separatedTrailing {withComma : Option Around → α → α}
    (hc : ∀ comma a, P a → P (withComma comma a)) (hp : Yields s p P) :
    Yields s (separatedTrailing withComma p) (fun as => ∀ a ∈ as, P a) := by
  refine .bind hp fun first hf => .bind (P := fun rest => ∀ pair ∈ rest, P pair.2) ?_ ?_
  · exact .many (.andThen fun comma => .bind hp fun a ha => .pure ha)
  · intro rest hr
    exact .andThen fun trailing => .pure (forall_joinCommas hc hf hr trailing)

end Hydration.Syntax.Parser
