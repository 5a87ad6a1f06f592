import Hydration.Proofs.Success
import Hydration.Syntax.Token.Literal

/-! Number and string literals as parts of a text. What is read of a literal and what is left behind it
are the text together, and something is read. -/

namespace Hydration.Syntax

theorem append_of_takeGrouped (isDigit : Char → Bool) (cs : List Char) :
    (takeGrouped isDigit cs).1 ++ (takeGrouped isDigit cs).2 = cs := by
  fun_induction takeGrouped isDigit cs <;> simp_all

theorem append_of_takeDecimals {cs text left : List Char} (h : takeDecimals cs = .ok (text, left)) :
    text ++ left = cs := by
  unfold takeDecimals at h
  split at h
  · rename_i c rest
    have hg := append_of_takeGrouped Char.isDigit rest
    dsimp only at h
    split at h
    · split at h
      · simp at h
      · obtain ⟨rfl, rfl⟩ := Prod.mk.inj (Except.ok.inj h)
        exact congrArg (c :: ·) hg
    · obtain ⟨rfl, rfl⟩ := Prod.mk.inj (Except.ok.inj h)
      rfl
  · obtain ⟨rfl, rfl⟩ := Prod.mk.inj (Except.ok.inj h)
    rfl

theorem append_of_takeImaginary {cs text left : List Char} (h : takeImaginary cs = (text, left)) :
    text ++ left = cs := by
  unfold takeImaginary at h
  split at h <;> (obtain ⟨rfl, rfl⟩ := Prod.mk.inj h; rfl)

theorem append_of_signedExponent {mark : Char} (sign : List Char) {digits text left : List Char}
    (h : (if (digits.head?.map Char.isDigit).getD false then do
        let (taken, left) ← takeDecimals digits
        .ok (mark :: sign ++ taken, left)
      else .ok ([], mark :: (sign ++ digits)) : Except LexError _) = .ok (text, left)) :
    text ++ left = mark :: (sign ++ digits) := by
  split at h
  · obtain ⟨⟨taken, after⟩, ht, h⟩ := bind_eq_ok.mp h
    obtain ⟨rfl, rfl⟩ := Prod.mk.inj (Except.ok.inj h)
    simp [← append_of_takeDecimals ht]
  · obtain ⟨rfl, rfl⟩ := Prod.mk.inj (Except.ok.inj h)
    rfl

theorem append_of_takeExponent {cs text left : List Char} (h : takeExponent cs = .ok (text, left)) :
    text ++ left = cs := by
  unfold takeExponent at h
  dsimp only at h
  split at h
  · split at h
    · exact append_of_signedExponent ['+'] h
    · exact append_of_signedExponent ['-'] h
    · exact append_of_signedExponent [] h
  · split at h
    · exact append_of_signedExponent ['+'] h
    · exact append_of_signedExponent ['-'] h
    · exact append_of_signedExponent [] h
  · obtain ⟨rfl, rfl⟩ := Prod.mk.inj (Except.ok.inj h)
    rfl

theorem append_of_takeFraction {cs text left : List Char} (h : takeFraction cs = .ok (text, left)) :
    text ++ left = cs := by
  unfold takeFraction at h
  obtain ⟨⟨digits, rest⟩, hd, h⟩ := bind_eq_ok.mp h
  obtain ⟨⟨exponent, after⟩, he, h⟩ := bind_eq_ok.mp h
  have hi : (takeImaginary after).1 ++ (takeImaginary after).2 = after :=
    append_of_takeImaginary rfl
  obtain ⟨rfl, rfl⟩ := Prod.mk.inj (Except.ok.inj h)
  rw [← append_of_takeDecimals hd, ← append_of_takeExponent he, List.append_assoc,
    List.append_assoc]
  exact congrArg (fun x => digits ++ (exponent ++ x)) hi

theorem append_of_takeAfterWhole {cs text left : List Char}
    (h : takeAfterWhole cs = .ok (text, left)) : text ++ left = cs := by
  unfold takeAfterWhole at h
  split at h
  · obtain ⟨⟨fraction, after⟩, hf, h⟩ := bind_eq_ok.mp h
    obtain ⟨rfl, rfl⟩ := Prod.mk.inj (Except.ok.inj h)
    rw [← append_of_takeFraction hf]
    rfl
  · obtain ⟨⟨exponent, after⟩, he, h⟩ := bind_eq_ok.mp h
    have hi : (takeImaginary after).1 ++ (takeImaginary after).2 = after :=
      append_of_takeImaginary rfl
    obtain ⟨rfl, rfl⟩ := Prod.mk.inj (Except.ok.inj h)
    rw [← append_of_takeExponent he, List.append_assoc]
    exact congrArg (exponent ++ ·) hi

theorem append_of_takeRadix {mark : Char} {isDigit : Char → Bool} {empty : LexError}
    {bad? : Option (Char → LexError)} {cs text left : List Char}
    (h : takeRadix mark isDigit empty bad? cs = .ok (text, left)) :
    text ++ left = '0' :: mark :: cs := by
  have hg := append_of_takeGrouped isDigit cs
  unfold takeRadix at h
  dsimp only at h
  split at h
  · simp at h
  · split at h
    · simp at h
    · obtain ⟨rfl, rfl⟩ := Prod.mk.inj (Except.ok.inj h)
      exact congrArg ('0' :: mark :: ·) hg

theorem append_of_takeNumber {cs text left : List Char} (h : takeNumber cs = .ok (text, left)) :
    text ++ left = cs := by
  unfold takeNumber at h
  split at h
  iterate 6 exact append_of_takeRadix h
  · rename_i rest _ _ _ _ _ _
    have hz := append_of_takeGrouped (· == '0') rest
    have hd := append_of_takeGrouped Char.isDigit (takeGrouped (· == '0') rest).2
    dsimp only at h
    split at h
    · simp at h
    · obtain ⟨⟨after, last⟩, ha, h⟩ := bind_eq_ok.mp h
      dsimp only at h
      split at h
      · simp at h
      · obtain ⟨rfl, rfl⟩ := Prod.mk.inj (Except.ok.inj h)
        have hl := append_of_takeAfterWhole ha
        rw [← hl] at hd
        rw [← hd] at hz
        simpa using hz
  · obtain ⟨⟨whole, rest⟩, hw, h⟩ := bind_eq_ok.mp h
    obtain ⟨⟨after, last⟩, ha, h⟩ := bind_eq_ok.mp h
    obtain ⟨rfl, rfl⟩ := Prod.mk.inj (Except.ok.inj h)
    rw [← append_of_takeDecimals hw, ← append_of_takeAfterWhole ha, List.append_assoc]

theorem append_of_takeStringBody {quote : Char} {triple : Bool} {closing : Nat}
    {cs text left : List Char} (h : takeStringBody quote triple closing cs = .ok (text, left)) :
    text ++ left = cs := by
  fun_induction takeStringBody quote triple closing cs generalizing text with
  | case1 => simp at h
  | case2 closing rest ih =>
    obtain ⟨⟨body, after⟩, hb, h⟩ := bind_eq_ok.mp h
    obtain ⟨rfl, rfl⟩ := Prod.mk.inj (Except.ok.inj h)
    rw [← ih hb]
    rfl
  | case3 closing c rest _ ih =>
    obtain ⟨⟨body, after⟩, hb, h⟩ := bind_eq_ok.mp h
    obtain ⟨rfl, rfl⟩ := Prod.mk.inj (Except.ok.inj h)
    rw [← ih hb]
    rfl
  | case4 =>
    obtain ⟨rfl, rfl⟩ := Prod.mk.inj (Except.ok.inj h)
    rfl
  | case6 => simp at h
  | _ =>
    rename_i ih
    obtain ⟨⟨body, after⟩, hb, h⟩ := bind_eq_ok.mp h
    obtain ⟨rfl, rfl⟩ := Prod.mk.inj (Except.ok.inj h)
    rw [← ih hb]
    rfl

theorem suffix_of_takeString {c : Char} {cs text left : List Char}
    (h : takeString c (c :: cs) = .ok (text, left)) : left <:+ cs := by
  unfold takeString at h
  split at h
  · obtain ⟨⟨body, after⟩, hb, h⟩ := bind_eq_ok.mp h
    obtain ⟨-, rfl⟩ := Prod.mk.inj (Except.ok.inj h)
    have hs : after <:+ cs.drop 2 := ⟨body, append_of_takeStringBody hb⟩
    exact hs.trans (List.drop_suffix 2 cs)
  · obtain ⟨⟨body, after⟩, hb, h⟩ := bind_eq_ok.mp h
    obtain ⟨-, rfl⟩ := Prod.mk.inj (Except.ok.inj h)
    exact ⟨body, append_of_takeStringBody hb⟩

theorem takeRadix_ne_nil {mark : Char} {isDigit : Char → Bool} {empty : LexError}
    {bad? : Option (Char → LexError)} {cs text left : List Char}
    (h : takeRadix mark isDigit empty bad? cs = .ok (text, left)) : text ≠ [] := by
  unfold takeRadix at h
  dsimp only at h
  split at h
  · simp at h
  · split at h
    · simp at h
    · obtain ⟨rfl, -⟩ := Prod.mk.inj (Except.ok.inj h)
      exact List.cons_ne_nil _ _

theorem takeNumber_ne_nil {c : Char} {cs text left : List Char} (hd : c.isDigit = true)
    (h : takeNumber (c :: cs) = .ok (text, left)) : text ≠ [] := by
  unfold takeNumber at h
  split at h
  iterate 6 exact takeRadix_ne_nil h
  · dsimp only at h
    split at h
    · simp at h
    · obtain ⟨⟨after, last⟩, -, h⟩ := bind_eq_ok.mp h
      dsimp only at h
      split at h
      · simp at h
      · obtain ⟨rfl, -⟩ := Prod.mk.inj (Except.ok.inj h)
        exact List.cons_ne_nil _ _
  · obtain ⟨⟨whole, rest⟩, hw, h⟩ := bind_eq_ok.mp h
    obtain ⟨⟨after, last⟩, -, h⟩ := bind_eq_ok.mp h
    obtain ⟨rfl, -⟩ := Prod.mk.inj (Except.ok.inj h)
    simp only [takeDecimals, hd, if_true] at hw
    split at hw
    · simp at hw
    · obtain ⟨rfl, -⟩ := Prod.mk.inj (Except.ok.inj hw)
      exact List.cons_ne_nil _ _

theorem suffix_of_takeNumber {c : Char} {cs text left : List Char} (hd : c.isDigit = true)
    (h : takeNumber (c :: cs) = .ok (text, left)) : left <:+ cs := by
  obtain ⟨d, digits, rfl⟩ := List.exists_cons_of_ne_nil (takeNumber_ne_nil hd h)
  exact ⟨digits, (List.cons.inj (append_of_takeNumber h)).2⟩

end Hydration.Syntax
