import Hydration.Proofs.Lines
import Hydration.Proofs.Parsing

/-! What parsers read when the words from a place on are known: up to which place a parser reads and
what it gives, that it refuses what stands there, or what it can give at all. -/

namespace Hydration.Syntax.Parser

variable {α β : Type} {s : Source} {p q : Parser α} {f : α → Parser β} {P Q : α → Prop}
  {R : β → Prop} {i j k : Nat} {x y : Lexeme}

/-- From one place to another a parser reads a value with a property. -/
def Reads (s : Source) (p : Parser α) (i j : Nat) (P : α → Prop) : Prop :=
  ∀ m, ∃ a m', p s i m = .ok a j m' ∧ P a

def Refuses (s : Source) (p : Parser α) (i : Nat) : Prop := ∀ m, ∃ m', p s i m = .fail m'

/-- If a parser reads something from a place on, this has a property. -/
def Gives (s : Source) (p : Parser α) (i : Nat) (P : α → Prop) : Prop :=
  ∀ m a j m', p s i m = .ok a j m' → P a

theorem Reads.mono (h : Reads s p i j P) (hp : ∀ a, P a → Q a) : Reads s p i j Q := by
  intro m
  obtain ⟨a, m', ha, hP⟩ := h m
  exact ⟨a, m', ha, hp a hP⟩

theorem Reads.pure {a : α} (h : P a) : Reads s (Parser.pure a) i i P := fun m => ⟨a, m, rfl, h⟩

theorem Reads.bind (hp : Reads s p i j P) (hf : ∀ a, P a → Reads s (f a) j k R) :
    Reads s (p >>= f) i k R := by
  intro m
  obtain ⟨a, m', ha, hP⟩ := hp m
  obtain ⟨b, m'', hb, hR⟩ := hf a hP m'
  refine ⟨b, m'', ?_, hR⟩
  change Parser.bind p f s i m = _
  rw [Parser.bind, ha]
  exact hb

theorem Refuses.fail : Refuses s (Parser.fail : Parser α) i := fun m => ⟨m, rfl⟩

theorem Refuses.bind (hp : Refuses s p i) : Refuses s (p >>= f) i := by
  intro m
  obtain ⟨m', hm⟩ := hp m
  refine ⟨m', ?_⟩
  change Parser.bind p f s i m = _
  rw [Parser.bind, hm]

/-- A parser refuses if what follows its first part does. -/
theorem Reads.refuses (hp : Reads s p i j P) (hf : ∀ a, P a → Refuses s (f a) j) :
    Refuses s (p >>= f) i := by
  intro m
  obtain ⟨a, m', ha, hP⟩ := hp m
  obtain ⟨m'', hm⟩ := hf a hP m'
  refine ⟨m'', ?_⟩
  change Parser.bind p f s i m = _
  rw [Parser.bind, ha]
  exact hm

theorem Reads.first (hp : Reads s p i j P) : Reads s (p <|> q) i j P := by
  intro m
  obtain ⟨a, m', ha, hP⟩ := hp m
  refine ⟨a, m', ?_, hP⟩
  change Parser.orElse p (fun _ => q) s i m = _
  rw [Parser.orElse, ha]

theorem Reads.second (hp : Refuses s p i) (hq : Reads s q i j P) :
    Reads s (p <|> q) i j P := by
  intro m
  obtain ⟨m', hm⟩ := hp m
  obtain ⟨a, m'', ha, hP⟩ := hq m'
  refine ⟨a, m'', ?_, hP⟩
  change Parser.orElse p (fun _ => q) s i m = _
  rw [Parser.orElse, hm]
  exact ha

theorem Refuses.orElse (hp : Refuses s p i) (hq : Refuses s q i) : Refuses s (p <|> q) i := by
  intro m
  obtain ⟨m', hm⟩ := hp m
  obtain ⟨m'', hm'⟩ := hq m'
  refine ⟨m'', ?_⟩
  change Parser.orElse p (fun _ => q) s i m = _
  rw [Parser.orElse, hm]
  exact hm'

theorem Refuses.optional (hp : Refuses s p i) : Reads s (optional p) i i (· = none) := by
  intro m
  obtain ⟨m', hm⟩ := hp m
  refine ⟨none, m', ?_, rfl⟩
  rw [Parser.optional, hm]

theorem Reads.optional (hp : Reads s p i j P) :
    Reads s (optional p) i j (fun o => ∃ a, o = some a ∧ P a) := by
  intro m
  obtain ⟨a, m', ha, hP⟩ := hp m
  refine ⟨some a, m', ?_, a, rfl, hP⟩
  rw [Parser.optional, ha]

theorem Refuses.gives (hp : Refuses s p i) : Gives s p i P := by
  intro m a j m' ha
  obtain ⟨m'', hm⟩ := hp m
  rw [hm] at ha
  cases ha

theorem Gives.pure {a : α} (h : P a) : Gives s (Parser.pure a) i P := by
  intro m b j m' hb
  obtain ⟨rfl, -, -⟩ := Outcome.ok.inj hb
  exact h

theorem Reads.gives (hp : Reads s p i j P) (hf : ∀ a, P a → Gives s (f a) j R) :
    Gives s (p >>= f) i R := by
  intro m b k m' hb
  obtain ⟨a, m'', ha, hP⟩ := hp m
  change Parser.bind p f s i m = _ at hb
  rw [Parser.bind, ha] at hb
  exact hf a hP m'' b k m' hb

/-- A parser that reads a value gives no other. -/
theorem Reads.only (hp : Reads s p i j P) : Gives s p i P := by
  intro m a k m' ha
  obtain ⟨b, m'', hb, hP⟩ := hp m
  rw [hb] at ha
  obtain ⟨rfl, -, -⟩ := Outcome.ok.inj ha
  exact hP

theorem Gives.bind (hp : Gives s p i P) (hf : ∀ a j, P a → Gives s (f a) j R) :
    Gives s (p >>= f) i R := by
  intro m b k m' hb
  obtain ⟨a, j, m'', ha, hb⟩ := ok_of_bind hb
  exact hf a j (hp _ _ _ _ ha) m'' b k m' hb

/-- Whatever the first part reads, what follows gives values with the property. -/
theorem Gives.behind (hf : ∀ a j, Gives s (f a) j R) : Gives s (p >>= f) i R :=
  .bind (P := fun _ => True) (fun _ _ _ _ _ => trivial) fun a j _ => hf a j

theorem Gives.orElse (hp : Gives s p i P) (hq : Gives s q i P) : Gives s (p <|> q) i P := by
  intro m a j m' ha
  change Parser.orElse p (fun _ => q) s i m = _ at ha
  unfold Parser.orElse at ha
  split at ha
  · rename_i hb
    obtain ⟨rfl, -, -⟩ := Outcome.ok.inj ha
    exact hp _ _ _ _ hb
  · exact hq _ _ _ _ ha

/-- Many values up to a place, with enough fuel for the words that are left. -/
def ReadsMany (s : Source) (p : Parser α) (i j : Nat) (P : List α → Prop) : Prop :=
  ∀ fuel, s.words.size < fuel + i → Reads s (manyUpTo p fuel) i j P

theorem Refuses.readsMany {P : List α → Prop} (hp : Refuses s p i) (h : P []) :
    ReadsMany s p i i P := by
  intro fuel _ m
  cases fuel with
  | zero => exact ⟨[], m, rfl, h⟩
  | succ fuel =>
    obtain ⟨m', hm⟩ := hp m
    refine ⟨[], m', ?_, h⟩
    simp only [manyUpTo, hm]

theorem lt_size_of_at (h : s.At i x) : i < s.words.size := by
  by_contra hn
  rw [Source.At, Array.getElem?_eq_none (Nat.le_of_not_lt hn)] at h
  cases h

theorem Reads.readsMany {P : List α → Prop} (hx : s.At i x) (hij : i < j) (hp : Reads s p i j Q)
    (h : ∀ a, Q a → ReadsMany s p j k (fun as => P (a :: as))) : ReadsMany s p i k P := by
  intro fuel hfuel m
  have hi := lt_size_of_at hx
  cases fuel with
  | zero => omega
  | succ fuel =>
    obtain ⟨a, m', ha, hQ⟩ := hp m
    obtain ⟨as, m'', has, hP⟩ := h a hQ fuel (by omega) m'
    refine ⟨a :: as, m'', ?_, hP⟩
    simp only [manyUpTo, ha, has]

theorem ReadsMany.many {P : List α → Prop} (h : ReadsMany s p i j P) : Reads s (many p) i j P := by
  intro m
  exact h _ (by omega) m

theorem Refuses.many (hp : Refuses s p i) : Reads s (many p) i i (· = []) := by
  have h : ReadsMany s p i i (· = []) := hp.readsMany rfl
  exact h.many

/-- Links that are put behind a value up to a place, with enough fuel for the words that are left. -/
def Extends (s : Source) (link : Expr → Parser Expr) (i : Nat) (e : Expr) (j : Nat)
    (P : Expr → Prop) : Prop :=
  ∀ fuel, s.words.size ≤ fuel + i → Reads s (extend link fuel e) i j P

section Extends

variable {link : Expr → Parser Expr} {e : Expr} {P Q : Expr → Prop}

theorem Extends.stop (h : Refuses s (link e) i) (he : P e) : Extends s link i e i P := by
  intro fuel _
  cases fuel with
  | zero => exact .pure he
  | succ fuel =>
    refine h.optional.bind ?_
    rintro _ rfl
    exact .pure he

theorem Extends.step (hx : s.At i x) (hij : i < j) (h : Reads s (link e) i j Q)
    (hnext : ∀ longer, Q longer → Extends s link j longer k P) : Extends s link i e k P := by
  intro fuel hfuel
  have hi := lt_size_of_at hx
  cases fuel with
  | zero => omega
  | succ fuel =>
    refine h.optional.bind ?_
    rintro _ ⟨longer, rfl, hQ⟩
    exact hnext longer hQ fuel (by omega)

end Extends

theorem reads_word {test : Word → Bool} (hx : s.At i x) (h : ∀ w : Word, w.lexeme = x → test w = true) :
    Reads s (word test) i (i + 1) (·.lexeme = x) := by
  intro m
  obtain ⟨w, hw, he⟩ := Option.map_eq_some_iff.mp hx
  refine ⟨w, m, ?_, he⟩
  simp only [word, hw, h w he, if_true]

theorem refuses_word {test : Word → Bool} (hx : s.At i x)
    (h : ∀ w : Word, w.lexeme = x → test w = false) : Refuses s (word test) i := by
  intro m
  obtain ⟨w, hw, he⟩ := Option.map_eq_some_iff.mp hx
  refine ⟨max m (i + 1), ?_⟩
  simp only [word, hw, h w he, Bool.false_eq_true, if_false]

theorem reads_lit {text : String} (hx : s.At i x) (h : x.2 = text) :
    Reads s (lit text) i (i + 1) (·.lexeme = x) := by
  refine reads_word hx ?_
  rintro w rfl
  exact beq_iff_eq.mpr h

theorem refuses_lit {text : String} (hx : s.At i x) (h : x.2 ≠ text) : Refuses s (lit text) i := by
  refine refuses_word hx ?_
  rintro w rfl
  exact beq_eq_false_iff_ne.mpr h

theorem reads_kind {kind : TokenKind} (hx : s.At i x) (h : x.1 = kind) :
    Reads s (Parser.kind kind) i (i + 1) (·.lexeme = x) := by
  refine reads_word hx ?_
  rintro w rfl
  exact beq_iff_eq.mpr h

theorem refuses_kind {kind : TokenKind} (hx : s.At i x) (h : x.1 ≠ kind) :
    Refuses s (Parser.kind kind) i := by
  refine refuses_word hx ?_
  rintro w rfl
  exact beq_eq_false_iff_ne.mpr h

theorem refuses_anyOf {texts : List String} (hx : s.At i x) (h : x.2 ∉ texts) :
    Refuses s (anyOf texts) i := by
  refine refuses_word hx ?_
  rintro w rfl
  exact Bool.eq_false_iff.mpr fun ht => h (List.contains_iff_mem.mp ht)

theorem reads_peek (hx : s.At i x) : Reads s peek i i (·.lexeme = x) := by
  intro m
  obtain ⟨w, hw, he⟩ := Option.map_eq_some_iff.mp hx
  refine ⟨w, m, ?_, he⟩
  simp only [peek, hw]

theorem reads_nextGap (hx : s.At i x) : Reads s nextGap i i (fun _ => True) :=
  (reads_peek hx).bind fun _ _ => .pure trivial

theorem reads_mark {text : String} (hx : s.At i x) (h : x.2 = text) (hy : s.At (i + 1) y) :
    Reads s (mark text) i (i + 1) (fun _ => True) :=
  (reads_lit hx h).bind fun _ _ => (reads_nextGap hy).bind fun _ _ => .pure trivial

theorem refuses_mark {text : String} (hx : s.At i x) (h : x.2 ≠ text) : Refuses s (mark text) i :=
  (refuses_lit hx h).bind

theorem reads_comma {text : String} (hx : s.At i x) (h : x.2 = text) :
    Reads s (comma text) i (i + 1) (fun _ => True) :=
  (reads_lit hx h).bind fun _ _ => .pure trivial

theorem refuses_comma {text : String} (hx : s.At i x) (h : x.2 ≠ text) : Refuses s (comma text) i :=
  (refuses_lit hx h).bind

theorem reads_next {test : Word → Bool} {b : Bool} (hx : s.At i x)
    (h : ∀ w : Word, w.lexeme = x → test w = b) : Reads s (next test) i i (· = b) := by
  intro m
  obtain ⟨w, hw, he⟩ := Option.map_eq_some_iff.mp hx
  refine ⟨_, m, rfl, ?_⟩
  rw [hw, ← h w he]
  rfl

theorem reads_guard {test : Word → Bool} (hx : s.At i x)
    (h : ∀ w : Word, w.lexeme = x → test w = true) :
    Reads s (guard (next test)) i i (fun _ => True) := by
  refine (reads_next hx h).bind ?_
  rintro _ rfl
  exact .pure trivial

theorem refuses_guard {test : Word → Bool} (hx : s.At i x)
    (h : ∀ w : Word, w.lexeme = x → test w = false) : Refuses s (guard (next test)) i := by
  refine (reads_next hx h).refuses ?_
  rintro _ rfl
  exact .fail

theorem reads_guardNot {test : Word → Bool} (hx : s.At i x)
    (h : ∀ w : Word, w.lexeme = x → test w = false) :
    Reads s (guardNot (next test)) i i (fun _ => True) := by
  refine (reads_next hx h).bind ?_
  rintro _ rfl
  exact .pure trivial

theorem refuses_guardNot {test : Word → Bool} (hx : s.At i x)
    (h : ∀ w : Word, w.lexeme = x → test w = true) : Refuses s (guardNot (next test)) i := by
  refine (reads_next hx h).refuses ?_
  rintro _ rfl
  exact .fail

theorem is_of_lexeme {text : String} (h : x.2 = text) (w : Word) (hw : w.lexeme = x) :
    (w.text == text) = true := by
  subst hw
  exact beq_iff_eq.mpr h

theorem is_not_of_lexeme {text : String} (h : x.2 ≠ text) (w : Word) (hw : w.lexeme = x) :
    (w.text == text) = false := by
  subst hw
  exact beq_eq_false_iff_ne.mpr h

theorem not_among_of_lexeme {texts : List String} (h : x.2 ∉ texts) (w : Word) (hw : w.lexeme = x) :
    texts.contains w.text = false := by
  subst hw
  exact Bool.eq_false_iff.mpr fun ht => h (List.contains_iff_mem.mp ht)

theorem among_of_lexeme {texts : List String} (h : x.2 ∈ texts) (w : Word) (hw : w.lexeme = x) :
    texts.contains w.text = true := by
  subst hw
  exact List.contains_iff_mem.mpr h

end Hydration.Syntax.Parser
