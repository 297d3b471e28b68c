import Overseer.Text.Utf8

set_option autoImplicit false

/-! # Text behind text

The bytes of a text are well-formed, so a file that can be read as text still can be after text
has been written at its end: the reader is between two characters where the old bytes end
(`decodeFrom_append`), and every character it meets from there on is whole (`decode_encode`). -/

namespace Overseer.Text

/-- Where bytes without a fault end, the reader starts anew. -/
theorem decodeFrom_append (p : Option Pending) (xs ys : List UInt8)
    (h : none ∉ decodeFrom p xs) :
    decodeFrom p (xs ++ ys) = decodeFrom p xs ++ decodeFrom none ys := by
  induction xs generalizing p with
  | nil =>
    cases p with
    | none => simp [decodeFrom]
    | some q => exact absurd h (by simp [decodeFrom])
  | cons b xs ih =>
    have hcons : ∀ zs, decodeFrom p (b :: zs) =
        (takeByte p b.toNat).1 ++ decodeFrom (takeByte p b.toNat).2 zs := by
      intro zs
      cases p <;> rfl
    rw [hcons, List.mem_append, not_or] at h
    rw [List.cons_append, hcons, hcons, ih _ h.2, List.append_assoc]

/-- A continuation byte inside the bounds that comes before the last one. -/
theorem takeByte_more {missing low high value b : Nat} (hlow : low ≤ b) (hhigh : b ≤ high)
    (hmore : 1 < missing) :
    takeByte (some ⟨missing, low, high, value⟩) b =
      ([], some ⟨missing - 1, 0x80, 0xbf, 64 * value + (b - 0x80)⟩) := by
  simp [takeByte, hlow, hhigh, Nat.not_le.2 hmore]

/-- The last continuation byte. -/
theorem takeByte_last {low high value b : Nat} (hlow : low ≤ b) (hhigh : b ≤ high) :
    takeByte (some ⟨1, low, high, value⟩) b =
      ([some (Char.ofNat (64 * value + (b - 0x80)))], none) := by
  simp [takeByte, hlow, hhigh]

/-- The bytes of a character are read as that character. -/
theorem decode_utf8EncodeChar (c : Char) : decode (String.utf8EncodeChar c) = [some c] := by
  have hc : Char.ofNat c.val.toNat = c := Char.ofNat_toNat c
  have hbyte : ∀ n, n < 256 → (UInt8.ofNat n).toNat = n := by
    intro n hn
    rw [UInt8.toNat_ofNat']
    omega
  have hvalid : c.val.toNat < 0xd800 ∨ 0xdfff < c.val.toNat ∧ c.val.toNat < 0x110000 := c.valid
  rw [decode, String.utf8EncodeChar]
  generalize c.val.toNat = v at hc hvalid ⊢
  split
  · -- one byte
    simp only [decodeFrom, takeByte, beginChar, hbyte v (by omega)]
    rw [if_pos (by omega), hc]
    rfl
  split
  · -- two bytes
    simp only [decodeFrom, hbyte (v / 64 % 32 + 192) (by omega), hbyte (v % 64 + 128) (by omega)]
    have hfirst : takeByte none (v / 64 % 32 + 192) = ([], some ⟨1, 0x80, 0xbf, v / 64⟩) := by
      simp only [takeByte, beginChar]
      rw [if_neg (by omega), if_neg (by omega), if_pos (by omega),
        show v / 64 % 32 + 192 - 0xc0 = v / 64 by omega]
    have hvalue : 64 * (v / 64) + (v % 64 + 128 - 128) = v := by omega
    rw [hfirst, takeByte_last (by omega) (by omega), hvalue, hc]
    rfl
  split
  · -- three bytes; the bounds of the second one leave out overlong forms and surrogates
    simp only [decodeFrom, hbyte (v / 4096 % 16 + 224) (by omega),
      hbyte (v / 64 % 64 + 128) (by omega), hbyte (v % 64 + 128) (by omega)]
    have hfirst : ∃ low high, low ≤ v / 64 % 64 + 128 ∧ v / 64 % 64 + 128 ≤ high ∧
        takeByte none (v / 4096 % 16 + 224) = ([], some ⟨2, low, high, v / 4096⟩) := by
      refine ⟨if v / 4096 % 16 + 224 = 0xe0 then 0xa0 else 0x80,
        if v / 4096 % 16 + 224 = 0xed then 0x9f else 0xbf, ?_, ?_, ?_⟩
      · split <;> omega
      · split <;> omega
      · simp only [takeByte, beginChar]
        rw [if_neg (by omega), if_neg (by omega), if_neg (by omega), if_pos (by omega),
          show v / 4096 % 16 + 224 - 0xe0 = v / 4096 by omega]
    obtain ⟨low, high, hlow, hhigh, hfirst⟩ := hfirst
    have hvalue : 64 * (64 * (v / 4096) + (v / 64 % 64 + 128 - 128)) + (v % 64 + 128 - 128) =
        v := by
      omega
    rw [hfirst, takeByte_more hlow hhigh (by omega), takeByte_last (by omega) (by omega), hvalue,
      hc]
    rfl
  · -- four bytes; the bounds of the second one end with the last code point
    simp only [decodeFrom, hbyte (v / 262144 % 8 + 240) (by omega),
      hbyte (v / 4096 % 64 + 128) (by omega), hbyte (v / 64 % 64 + 128) (by omega),
      hbyte (v % 64 + 128) (by omega)]
    have hfirst : ∃ low high, low ≤ v / 4096 % 64 + 128 ∧ v / 4096 % 64 + 128 ≤ high ∧
        takeByte none (v / 262144 % 8 + 240) = ([], some ⟨3, low, high, v / 262144⟩) := by
      refine ⟨if v / 262144 % 8 + 240 = 0xf0 then 0x90 else 0x80,
        if v / 262144 % 8 + 240 = 0xf4 then 0x8f else 0xbf, ?_, ?_, ?_⟩
      · split <;> omega
      · split <;> omega
      · simp only [takeByte, beginChar]
        rw [if_neg (by omega), if_neg (by omega), if_neg (by omega), if_neg (by omega),
          if_pos (by omega), show v / 262144 % 8 + 240 - 0xf0 = v / 262144 by omega]
    obtain ⟨low, high, hlow, hhigh, hfirst⟩ := hfirst
    have hvalue : 64 * (64 * (64 * (v / 262144) + (v / 4096 % 64 + 128 - 128)) +
        (v / 64 % 64 + 128 - 128)) + (v % 64 + 128 - 128) = v := by
      omega
    rw [hfirst, takeByte_more hlow hhigh (by omega), takeByte_more (by omega) (by omega) (by omega),
      takeByte_last (by omega) (by omega), hvalue, hc]
    rfl

/-- The bytes of a text are read as that text. -/
theorem decode_encode (cs : List Char) : decode (encode cs) = cs.map some := by
  induction cs with
  | nil => rfl
  | cons c cs ih =>
    have hchar := decode_utf8EncodeChar c
    rw [decode] at hchar ih ⊢
    rw [encode, List.flatMap_cons, decodeFrom_append, hchar]
    · exact congrArg _ ih
    · simp [hchar]

/-- A file that can be read as text still can be with more text at its end. -/
theorem isSome_fileText?_append {bytes : List UInt8} (h : (fileText? bytes).isSome)
    (cs : List Char) : (fileText? (bytes ++ encode cs)).isSome := by
  have hmapM : ∀ l : List Decoded, (l.mapM id).isSome ↔ none ∉ l := by
    intro l
    induction l with
    | nil => simp
    | cons d l ih =>
      cases d with
      | none => simp [List.mapM_cons]
      | some c =>
        have htail : none ∉ some c :: l ↔ none ∉ l := by simp
        rw [htail, ← ih, List.mapM_cons]
        cases l.mapM id <;> rfl
  simp only [fileText?, decode?, Option.isSome_map, hmapM] at h ⊢
  rw [decode] at h
  rw [decode, decodeFrom_append none bytes _ h, List.mem_append, not_or]
  refine ⟨h, ?_⟩
  rw [← decode, decode_encode]
  simp

end Overseer.Text
