import Hydration.Text.Utf8
import Mathlib.Data.List.Basic
import Mathlib.Data.List.TakeWhile

/-! Bytes that are a text. What decodes to a text is the encoding of this text, so no two sequences of
bytes decode to one text, and the encoding of a text is decoded to it. -/

namespace Hydration.Text

theorem toList_loop (bytes : ByteArray) (i : Nat) (done : List UInt8) :
    ByteArray.toList.loop bytes i done = done.reverse ++ bytes.data.toList.drop i := by
  induction h : bytes.size - i generalizing i done with
  | zero =>
    have hi : bytes.data.toList.length ≤ i := by
      rw [Array.length_toList]
      exact Nat.le_of_sub_eq_zero h
    rw [ByteArray.toList.loop, if_neg (by omega), List.drop_of_length_le hi, List.append_nil]
  | succ n ih =>
    have hsize : i < bytes.data.size := Nat.lt_of_sub_pos (h ▸ Nat.succ_pos n)
    have hi : i < bytes.data.toList.length := by rwa [Array.length_toList]
    have hget : bytes.get! i = bytes.data.toList[i] := by
      rw [Array.getElem_toList]
      exact getElem!_pos bytes.data i hsize
    rw [ByteArray.toList.loop, if_pos (by omega), ih _ _ (by omega), List.drop_eq_getElem_cons hi,
      List.reverse_cons, List.append_assoc, List.singleton_append, hget]

theorem toList_toByteArray (bytes : List UInt8) : bytes.toByteArray.toList = bytes := by
  rw [ByteArray.toList, toList_loop, List.reverse_nil, List.nil_append, List.drop_zero,
    List.toList_data_toByteArray]

theorem encode_ofList (cs : List Char) :
    encode (String.ofList cs) = cs.flatMap String.utf8EncodeChar :=
  toList_toByteArray _

theorem encode_inj {a b : String} : encode a = encode b ↔ a = b := by
  refine ⟨fun h => ?_, fun h => h ▸ rfl⟩
  rw [encode, encode, ByteArray.toList, ByteArray.toList, toList_loop, toList_loop] at h
  exact String.toByteArray_inj.mp (ByteArray.ext (Array.toList_inj.mp h))

theorem utf8EncodeChar_ofNat {n : Nat} (h : n.isValidChar) :
    String.utf8EncodeChar (Char.ofNat n) =
      if n ≤ 127 then [UInt8.ofNat n]
      else if n ≤ 2047 then [UInt8.ofNat (n / 64 % 32 + 192), UInt8.ofNat (n % 64 + 128)]
      else if n ≤ 65535 then
        [UInt8.ofNat (n / 4096 % 16 + 224), UInt8.ofNat (n / 64 % 64 + 128), UInt8.ofNat (n % 64 + 128)]
      else
        [UInt8.ofNat (n / 262144 % 8 + 240), UInt8.ofNat (n / 4096 % 64 + 128),
          UInt8.ofNat (n / 64 % 64 + 128), UInt8.ofNat (n % 64 + 128)] := by
  have hn : (Char.ofNat n).val.toNat = n := by
    rw [Char.ofNat, dif_pos h]
    rfl
  rw [String.utf8EncodeChar, hn]

theorem ofNat_eq {n : Nat} {b : UInt8} (h : n = b.toNat) : UInt8.ofNat n = b := by
  rw [h, UInt8.ofNat_toNat]

section Sequences

variable {a b c d : UInt8}

theorem encode_one (ha : a.toNat < 0x80) : String.utf8EncodeChar (Char.ofNat a.toNat) = [a] := by
  rw [utf8EncodeChar_ofNat (.inl (by omega)), if_pos (by omega), UInt8.ofNat_toNat]

theorem encode_two (ha : 0xC2 ≤ a.toNat) (ha' : a.toNat < 0xE0) (hb : 0x80 ≤ b.toNat)
    (hb' : b.toNat < 0xC0) :
    String.utf8EncodeChar (Char.ofNat (64 * (a.toNat % 32) + b.toNat % 64)) = [a, b] := by
  rw [utf8EncodeChar_ofNat (.inl (by omega)), if_neg (by omega), if_pos (by omega),
    ofNat_eq (b := a) (by omega), ofNat_eq (b := b) (by omega)]

theorem encode_three (ha : 0xE0 ≤ a.toNat) (ha' : a.toNat < 0xF0) (hb : 0x80 ≤ b.toNat)
    (hb' : b.toNat < 0xC0) (hlow : a.toNat = 0xE0 → 0xA0 ≤ b.toNat)
    (hhigh : a.toNat = 0xED → b.toNat < 0xA0) (hc : 0x80 ≤ c.toNat) (hc' : c.toNat < 0xC0) :
    String.utf8EncodeChar
      (Char.ofNat (64 * (64 * (a.toNat % 16) + b.toNat % 64) + c.toNat % 64)) = [a, b, c] := by
  rw [utf8EncodeChar_ofNat (by unfold Nat.isValidChar; omega), if_neg (by omega), if_neg (by omega),
    if_pos (by omega), ofNat_eq (b := a) (by omega), ofNat_eq (b := b) (by omega),
    ofNat_eq (b := c) (by omega)]

theorem encode_four (ha : 0xF0 ≤ a.toNat) (ha' : a.toNat ≤ 0xF4) (hb : 0x80 ≤ b.toNat)
    (hb' : b.toNat < 0xC0) (hlow : a.toNat = 0xF0 → 0x90 ≤ b.toNat)
    (hhigh : a.toNat = 0xF4 → b.toNat < 0x90) (hc : 0x80 ≤ c.toNat) (hc' : c.toNat < 0xC0)
    (hd : 0x80 ≤ d.toNat) (hd' : d.toNat < 0xC0) :
    String.utf8EncodeChar (Char.ofNat
      (64 * (64 * (64 * (a.toNat % 8) + b.toNat % 64) + c.toNat % 64) + d.toNat % 64)) =
        [a, b, c, d] := by
  rw [utf8EncodeChar_ofNat (by unfold Nat.isValidChar; omega), if_neg (by omega), if_neg (by omega),
    if_neg (by omega), ofNat_eq (b := a) (by omega), ofNat_eq (b := b) (by omega),
    ofNat_eq (b := c) (by omega), ofNat_eq (b := d) (by omega)]

end Sequences

/-- What a first byte asks of the bytes behind it. -/
theorem sequenceShape_eq_some {b : UInt8} {count : Nat} {low high : UInt8}
    (h : sequenceShape b = some (count, low, high)) :
    (count = 1 ∧ 0xC2 ≤ b.toNat ∧ b.toNat < 0xE0 ∨ count = 2 ∧ 0xE0 ≤ b.toNat ∧ b.toNat < 0xF0 ∨
      count = 3 ∧ 0xF0 ≤ b.toNat ∧ b.toNat ≤ 0xF4) ∧
    0x80 ≤ low.toNat ∧ high.toNat < 0xC0 ∧ (b.toNat = 0xE0 → 0xA0 ≤ low.toNat) ∧
    (b.toNat = 0xED → high.toNat < 0xA0) ∧ (b.toNat = 0xF0 → 0x90 ≤ low.toNat) ∧
    (b.toNat = 0xF4 → high.toNat < 0x90) := by
  simp only [sequenceShape, Bool.and_eq_true, decide_eq_true_eq, beq_iff_eq, UInt8.le_iff_toNat_le,
    UInt8.lt_iff_toNat_lt, ← UInt8.toNat_inj] at h
  split_ifs at h <;> simp only [Option.some.injEq, Prod.mk.injEq] at h <;>
    obtain ⟨rfl, rfl, rfl⟩ := h <;> simp_all <;> omega

theorem isContinuation_iff {b : UInt8} :
    isContinuation b = true ↔ 0x80 ≤ b.toNat ∧ b.toNat < 0xC0 := by
  rw [isContinuation, Bool.and_eq_true, decide_eq_true_eq, decide_eq_true_eq, UInt8.le_iff_toNat_le,
    UInt8.lt_iff_toNat_lt]
  rfl

/-- All bytes are good only if the second keeps the bounds and the others continue. -/
theorem goodCount_eq_length {low high : UInt8} {tail : List UInt8} {count : Nat} (hc : 0 < count)
    (hl : tail.length ≤ count) (h : goodCount low high tail = count) :
    ∃ second others, tail = second :: others ∧ others.length + 1 = count ∧
      low.toNat ≤ second.toNat ∧ second.toNat ≤ high.toNat ∧
      ∀ b ∈ others, 0x80 ≤ b.toNat ∧ b.toNat < 0xC0 := by
  cases tail with
  | nil =>
    rw [goodCount] at h
    omega
  | cons second others =>
    rw [goodCount] at h
    split at h
    · rename_i hbounds
      rw [Bool.and_eq_true, decide_eq_true_eq, decide_eq_true_eq, UInt8.le_iff_toNat_le,
        UInt8.le_iff_toNat_le] at hbounds
      have htake := (List.takeWhile_prefix isContinuation (l := others)).length_le
      rw [List.length_cons] at hl
      have hall : others.takeWhile isContinuation = others :=
        (List.takeWhile_prefix isContinuation).eq_of_length (by omega)
      refine ⟨second, others, rfl, by rw [hall] at h; exact h, hbounds.1, hbounds.2, fun b hb => ?_⟩
      exact isContinuation_iff.mp (List.takeWhile_eq_self_iff.mp hall b hb)
    · omega

/-- A character that is decoded is what its bytes encode. -/
theorem take_of_decodeOne {position size : Nat} {b : UInt8} {rest : List UInt8} {c : Char}
    (h : decodeOne position b rest = .ok (c, size)) :
    0 < size ∧ (b :: rest).take size = String.utf8EncodeChar c := by
  rw [decodeOne] at h
  split at h
  · rename_i hb
    obtain ⟨rfl, rfl⟩ := Prod.mk.inj (Except.ok.inj h)
    exact ⟨Nat.one_pos, (encode_one (UInt8.lt_iff_toNat_lt.mp hb)).symm⟩
  · split at h
    · cases h
    · rename_i count low high hs
      obtain ⟨hcount, hlow, hhigh, hE0, hED, hF0, hF4⟩ := sequenceShape_eq_some hs
      dsimp only at h
      split at h
      · rename_i hgood
        obtain ⟨rfl, rfl⟩ := Prod.mk.inj (Except.ok.inj h)
        refine ⟨Nat.succ_pos count, ?_⟩
        obtain ⟨second, others, ht, hl, hsl, hsh, hothers⟩ :=
          goodCount_eq_length (by omega) (List.length_take_le ..) hgood
        rw [List.take_succ_cons, ht]
        rcases hcount with ⟨rfl, hb, hb'⟩ | ⟨rfl, hb, hb'⟩ | ⟨rfl, hb, hb'⟩
        · obtain rfl : others = [] := List.length_eq_zero_iff.mp (by omega)
          exact (encode_two hb hb' (by omega) (by omega)).symm
        · obtain ⟨third, rfl⟩ := List.length_eq_one_iff.mp (Nat.succ.inj hl)
          have hthird := hothers third (by simp)
          exact (encode_three hb hb' (by omega) (by omega) (by omega) (by omega) hthird.1 hthird.2).symm
        · obtain ⟨third, fourth, rfl⟩ := List.length_eq_two.mp (Nat.succ.inj hl)
          have hthird := hothers third (by simp)
          have hfourth := hothers fourth (by simp)
          exact (encode_four hb hb' (by omega) (by omega) (by omega) (by omega) hthird.1 hthird.2
            hfourth.1 hfourth.2).symm
      · split at h <;> cases h

theorem flatMap_of_decodeAt {fuel position : Nat} {bytes : List UInt8} {cs : List Char}
    (hl : bytes.length < fuel) (h : decodeAt fuel position bytes = .ok cs) :
    cs.flatMap String.utf8EncodeChar = bytes := by
  -- Each character takes a byte at least, so the fuel lasts to the end.
  induction fuel generalizing position bytes cs with
  | zero => omega
  | succ fuel ih =>
    cases bytes with
    | nil =>
      obtain rfl := Except.ok.inj h
      rfl
    | cons b rest =>
      rw [decodeAt] at h
      cases hone : decodeOne position b rest with
      | error e => simp [hone] at h
      | ok found =>
        obtain ⟨c, size⟩ := found
        obtain ⟨hsize, htake⟩ := take_of_decodeOne hone
        simp only [hone] at h
        cases hrest : decodeAt fuel (position + size) (rest.drop (size - 1)) with
        | error e => simp [hrest] at h
        | ok tail =>
          simp only [hrest, Except.ok.injEq] at h
          subst h
          have hdrop : rest.drop (size - 1) = (b :: rest).drop size := by
            obtain ⟨n, rfl⟩ := Nat.exists_eq_succ_of_ne_zero (Nat.ne_of_gt hsize)
            rfl
          have hlen : (rest.drop (size - 1)).length < fuel := by
            rw [List.length_drop]
            rw [List.length_cons] at hl
            omega
          rw [List.flatMap_cons, ih hlen hrest, ← htake, hdrop, List.take_append_drop]

/-- Decoded bytes are the encoding of the text. -/
theorem encode_of_decode {bytes : List UInt8} {text : String} (h : decode bytes = .ok text) :
    encode text = bytes := by
  unfold decode at h
  cases hd : decodeAt (bytes.length + 1) 0 bytes with
  | error e => simp [hd, Except.map] at h
  | ok cs =>
    simp only [hd, Except.map, Except.ok.injEq] at h
    rw [← h, encode_ofList, flatMap_of_decodeAt (Nat.lt_succ_self _) hd]

theorem sequenceShape_two {b : UInt8} (h : 0xC2 ≤ b.toNat) (h' : b.toNat < 0xE0) :
    ∃ low high, sequenceShape b = some (1, low, high) ∧ low.toNat = 0x80 ∧ high.toNat = 0xBF := by
  simp only [sequenceShape, Bool.and_eq_true, decide_eq_true_eq, beq_iff_eq, UInt8.le_iff_toNat_le,
    UInt8.lt_iff_toNat_lt, ← UInt8.toNat_inj]
  split_ifs <;> simp_all

theorem sequenceShape_three {b : UInt8} (h : 0xE0 ≤ b.toNat) (h' : b.toNat < 0xF0) :
    ∃ low high, sequenceShape b = some (2, low, high) ∧
      low.toNat = (if b.toNat = 0xE0 then 0xA0 else 0x80) ∧
      high.toNat = (if b.toNat = 0xED then 0x9F else 0xBF) := by
  simp only [sequenceShape, Bool.and_eq_true, decide_eq_true_eq, beq_iff_eq, UInt8.le_iff_toNat_le,
    UInt8.lt_iff_toNat_lt, ← UInt8.toNat_inj]
  split_ifs <;> simp_all <;> omega

theorem sequenceShape_four {b : UInt8} (h : 0xF0 ≤ b.toNat) (h' : b.toNat ≤ 0xF4) :
    ∃ low high, sequenceShape b = some (3, low, high) ∧
      low.toNat = (if b.toNat = 0xF0 then 0x90 else 0x80) ∧
      high.toNat = (if b.toNat = 0xF4 then 0x8F else 0xBF) := by
  simp only [sequenceShape, Bool.and_eq_true, decide_eq_true_eq, beq_iff_eq, UInt8.le_iff_toNat_le,
    UInt8.lt_iff_toNat_lt, ← UInt8.toNat_inj]
  split_ifs <;> simp_all <;> omega

theorem goodCount_eq {low high second : UInt8} {others : List UInt8}
    (hlow : low.toNat ≤ second.toNat) (hhigh : second.toNat ≤ high.toNat)
    (ho : ∀ b ∈ others, 0x80 ≤ b.toNat ∧ b.toNat < 0xC0) :
    goodCount low high (second :: others) = others.length + 1 := by
  have hall : others.takeWhile isContinuation = others :=
    List.takeWhile_eq_self_iff.mpr fun b hb => isContinuation_iff.mpr (ho b hb)
  simp [goodCount, UInt8.le_iff_toNat_le, hlow, hhigh, hall]

/-- A first byte with the bytes that it asks for is decoded to one character. -/
theorem decodeOne_of_good {position count : Nat} {a second low high : UInt8} {others rest : List UInt8}
    (ha : 0x80 ≤ a.toNat) (hs : sequenceShape a = some (count, low, high))
    (hl : others.length + 1 = count) (hlow : low.toNat ≤ second.toNat)
    (hhigh : second.toNat ≤ high.toNat) (ho : ∀ b ∈ others, 0x80 ≤ b.toNat ∧ b.toNat < 0xC0) :
    decodeOne position a (second :: others ++ rest) =
      .ok (Char.ofNat (sequenceValue (leadBits count a) (second :: others)), count + 1) := by
  have hfirst : ¬ a < 0x80 := by
    rw [UInt8.lt_iff_toNat_lt]
    exact Nat.not_lt.mpr ha
  have htake : (second :: others ++ rest).take count = second :: others := by
    rw [List.take_append_of_le_length (by simp [hl])]
    exact List.take_of_length_le (by simp [hl])
  have hgood : goodCount low high (second :: others) = count := by
    rw [goodCount_eq hlow hhigh ho, hl]
  rw [decodeOne, if_neg hfirst, hs]
  simp only [htake, hgood, if_true]

theorem toNat_ofNat {k : Nat} (h : k < 256) : (UInt8.ofNat k).toNat = k := UInt8.toNat_ofNat_of_lt' h

section Characters

variable {n : Nat} (position : Nat) (rest : List UInt8)

theorem decodeOne_two (h : 127 < n) (h' : n ≤ 2047) :
    decodeOne position (UInt8.ofNat (n / 64 % 32 + 192)) ([UInt8.ofNat (n % 64 + 128)] ++ rest) =
      .ok (Char.ofNat n, 2) := by
  have ha : (UInt8.ofNat (n / 64 % 32 + 192)).toNat = n / 64 % 32 + 192 := toNat_ofNat (by omega)
  have hb : (UInt8.ofNat (n % 64 + 128)).toNat = n % 64 + 128 := toNat_ofNat (by omega)
  obtain ⟨low, high, hs, hlow, hhigh⟩ :=
    sequenceShape_two (b := UInt8.ofNat (n / 64 % 32 + 192)) (by omega) (by omega)
  rw [decodeOne_of_good (by omega) hs rfl (by omega) (by omega) (by simp)]
  have hvalue : sequenceValue (leadBits 1 (UInt8.ofNat (n / 64 % 32 + 192)))
      [UInt8.ofNat (n % 64 + 128)] = n := by
    simp only [sequenceValue, leadBits, List.foldl_cons, List.foldl_nil, ha, hb]
    change 64 * ((n / 64 % 32 + 192) % 32) + (n % 64 + 128) % 64 = n
    omega
  rw [hvalue]

theorem decodeOne_three (h : 2047 < n) (h' : n ≤ 65535) (hn : n.isValidChar) :
    decodeOne position (UInt8.ofNat (n / 4096 % 16 + 224))
        ([UInt8.ofNat (n / 64 % 64 + 128), UInt8.ofNat (n % 64 + 128)] ++ rest) =
      .ok (Char.ofNat n, 3) := by
  have ha : (UInt8.ofNat (n / 4096 % 16 + 224)).toNat = n / 4096 % 16 + 224 := toNat_ofNat (by omega)
  have hb : (UInt8.ofNat (n / 64 % 64 + 128)).toNat = n / 64 % 64 + 128 := toNat_ofNat (by omega)
  have hc : (UInt8.ofNat (n % 64 + 128)).toNat = n % 64 + 128 := toNat_ofNat (by omega)
  have hsurrogate : n < 0xD800 ∨ 0xDFFF < n := hn.imp_right And.left
  obtain ⟨low, high, hs, hlow, hhigh⟩ :=
    sequenceShape_three (b := UInt8.ofNat (n / 4096 % 16 + 224)) (by omega) (by omega)
  rw [decodeOne_of_good (by omega) hs rfl (by split at hlow <;> omega)
    (by split at hhigh <;> omega) (by simp; omega)]
  have hvalue : sequenceValue (leadBits 2 (UInt8.ofNat (n / 4096 % 16 + 224)))
      [UInt8.ofNat (n / 64 % 64 + 128), UInt8.ofNat (n % 64 + 128)] = n := by
    simp only [sequenceValue, leadBits, List.foldl_cons, List.foldl_nil, ha, hb, hc]
    change 64 * (64 * ((n / 4096 % 16 + 224) % 16) + (n / 64 % 64 + 128) % 64) +
      (n % 64 + 128) % 64 = n
    omega
  rw [hvalue]

theorem decodeOne_four (h : 65535 < n) (h' : n < 0x110000) :
    decodeOne position (UInt8.ofNat (n / 262144 % 8 + 240))
        ([UInt8.ofNat (n / 4096 % 64 + 128), UInt8.ofNat (n / 64 % 64 + 128),
          UInt8.ofNat (n % 64 + 128)] ++ rest) =
      .ok (Char.ofNat n, 4) := by
  have ha : (UInt8.ofNat (n / 262144 % 8 + 240)).toNat = n / 262144 % 8 + 240 :=
    toNat_ofNat (by omega)
  have hb : (UInt8.ofNat (n / 4096 % 64 + 128)).toNat = n / 4096 % 64 + 128 := toNat_ofNat (by omega)
  have hc : (UInt8.ofNat (n / 64 % 64 + 128)).toNat = n / 64 % 64 + 128 := toNat_ofNat (by omega)
  have hd : (UInt8.ofNat (n % 64 + 128)).toNat = n % 64 + 128 := toNat_ofNat (by omega)
  obtain ⟨low, high, hs, hlow, hhigh⟩ :=
    sequenceShape_four (b := UInt8.ofNat (n / 262144 % 8 + 240)) (by omega) (by omega)
  rw [decodeOne_of_good (by omega) hs rfl (by split at hlow <;> omega)
    (by split at hhigh <;> omega) (by simp; omega)]
  have hvalue : sequenceValue (leadBits 3 (UInt8.ofNat (n / 262144 % 8 + 240)))
      [UInt8.ofNat (n / 4096 % 64 + 128), UInt8.ofNat (n / 64 % 64 + 128),
        UInt8.ofNat (n % 64 + 128)] = n := by
    simp only [sequenceValue, leadBits, List.foldl_cons, List.foldl_nil, ha, hb, hc, hd]
    change 64 * (64 * (64 * ((n / 262144 % 8 + 240) % 8) + (n / 4096 % 64 + 128) % 64) +
      (n / 64 % 64 + 128) % 64) + (n % 64 + 128) % 64 = n
    omega
  rw [hvalue]

/-- A character is what is decoded first from its bytes. -/
theorem decodeOne_encode (c : Char) :
    ∃ b tail, String.utf8EncodeChar c = b :: tail ∧
      decodeOne position b (tail ++ rest) = .ok (c, tail.length + 1) := by
  obtain ⟨n, hn, rfl⟩ : ∃ n, n.isValidChar ∧ c = Char.ofNat n :=
    ⟨c.toNat, c.valid, (Char.ofNat_toNat c).symm⟩
  have hbound : n < 0x110000 := by
    rcases hn with h | ⟨-, h⟩ <;> omega
  rw [utf8EncodeChar_ofNat hn]
  split_ifs with h1 h2 h3
  · have hlt : UInt8.ofNat n < 0x80 := by
      rw [UInt8.lt_iff_toNat_lt, toNat_ofNat (by omega)]
      exact Nat.lt_succ_of_le h1
    refine ⟨_, [], rfl, ?_⟩
    rw [decodeOne, if_pos hlt, toNat_ofNat (by omega)]
    rfl
  · exact ⟨_, _, rfl, decodeOne_two position rest (by omega) h2⟩
  · exact ⟨_, _, rfl, decodeOne_three position rest (by omega) h3 hn⟩
  · exact ⟨_, _, rfl, decodeOne_four position rest (by omega) hbound⟩

end Characters

theorem decodeAt_encode {fuel : Nat} (position : Nat) (cs : List Char)
    (hl : (cs.flatMap String.utf8EncodeChar).length < fuel) :
    decodeAt fuel position (cs.flatMap String.utf8EncodeChar) = .ok cs := by
  induction cs generalizing fuel position with
  | nil =>
    cases fuel with
    | zero => rfl
    | succ fuel => rfl
  | cons c cs ih =>
    obtain ⟨b, tail, hc, hone⟩ := decodeOne_encode position (cs.flatMap String.utf8EncodeChar) c
    cases fuel with
    | zero => omega
    | succ fuel =>
      rw [List.flatMap_cons, hc] at hl ⊢
      rw [List.cons_append, List.length_cons, List.length_append] at hl
      have hdrop : (tail ++ cs.flatMap String.utf8EncodeChar).drop tail.length =
          cs.flatMap String.utf8EncodeChar := List.drop_left
      have hlen : (cs.flatMap String.utf8EncodeChar).length < fuel := by omega
      have hrest := ih (position + (tail.length + 1)) hlen
      rw [List.cons_append, decodeAt, hone]
      simp only [Nat.add_sub_cancel, hdrop, hrest]

theorem decode_encode (text : String) : decode (encode text) = .ok text := by
  have hbytes : encode text = text.toList.flatMap String.utf8EncodeChar := by
    rw [← encode_ofList, String.ofList_toList]
  rw [decode, hbytes, decodeAt_encode 0 text.toList (Nat.lt_succ_self _)]
  simp [Except.map]

/-- Decoding gives the text that the bytes encode, if there is one. -/
theorem decode_eq_ok_iff {bytes : List UInt8} {text : String} :
    decode bytes = .ok text ↔ encode text = bytes := by
  constructor
  · exact encode_of_decode
  · rintro rfl
    exact decode_encode text

end Hydration.Text
