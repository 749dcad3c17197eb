import Mathlib
import Pyramid.Text.Utf8

/-!
# Reading back what was encoded

The bytes of a text spell that text again (`decode_encode`). The decoder goes byte by byte, and so
does the proof: a leading byte says how many bytes follow and in which range the next one lies
(`lead?_two`, `exists_lead?_three`, `exists_lead?_four`), each byte that follows adds six bits
(`decodeFrom_last`, `decodeFrom_more`), and the bits of one character are its number
(`decodeFrom_encodeChar`).
-/

namespace Pyramid.Utf8

variable {position owed bits : Nat} {low high b : UInt8} {seen bs : List UInt8}

/-! ## One byte -/

/-- The range of a byte, told in numbers. -/
def InRange (low high b : UInt8) : Prop := low.toNat ≤ b.toNat ∧ b.toNat ≤ high.toNat

theorem InRange.guard (h : InRange low high b) :
    (decide (low ≤ b) && decide (b ≤ high)) = true := by
  rw [Bool.and_eq_true, decide_eq_true_eq, decide_eq_true_eq, UInt8.le_iff_toNat_le,
    UInt8.le_iff_toNat_le]
  exact h

theorem decodeFrom_ascii {l : Lead} (hl : lead? b = some l) (h0 : l.following = 0) :
    decodeFrom position 0 0 0 0 [] (b :: bs)
      = (Char.ofNat l.bits :: ·) <$> decodeFrom (position + 1) 0 0 0 0 [] bs := by
  rw [decodeFrom, if_pos rfl, hl]
  exact if_pos h0

theorem decodeFrom_lead {l : Lead} (hl : lead? b = some l) (h0 : l.following ≠ 0) :
    decodeFrom position 0 0 0 0 [] (b :: bs)
      = decodeFrom (position + 1) l.following l.bits l.low l.high [b] bs := by
  rw [decodeFrom, if_pos rfl, hl]
  exact if_neg h0

/-- The last byte of a character ends it. -/
theorem decodeFrom_last (h : InRange low high b) :
    decodeFrom position 1 bits low high seen (b :: bs)
      = (Char.ofNat (bits * 64 + (b.toNat - 0x80)) :: ·)
        <$> decodeFrom (position + 1) 0 0 0 0 [] bs := by
  rw [decodeFrom, if_neg Nat.one_ne_zero, if_pos h.guard]
  exact if_pos rfl

/-- Any other byte that follows leaves one byte less to wait for. -/
theorem decodeFrom_more (h : InRange low high b) :
    decodeFrom position (owed + 2) bits low high seen (b :: bs)
      = decodeFrom (position + 1) (owed + 1) (bits * 64 + (b.toNat - 0x80)) 0x80 0xBF (b :: seen)
          bs := by
  rw [decodeFrom, if_neg (Nat.succ_ne_zero _), if_pos h.guard]
  exact if_neg (by omega)

/-! ## One character -/

theorem toNat_ofNat {n : Nat} (h : n < 256) : (UInt8.ofNat n).toNat = n := by
  rw [UInt8.toNat_ofNat']
  exact Nat.mod_eq_of_lt h

/-- A byte that follows carries six bits. -/
theorem toNat_following (n : Nat) : (UInt8.ofNat (n % 64 + 128)).toNat = n % 64 + 128 :=
  toNat_ofNat (by omega)

theorem inRange_following (n : Nat) : InRange 0x80 0xBF (UInt8.ofNat (n % 64 + 128)) := by
  have h80 : (0x80 : UInt8).toNat = 128 := rfl
  have hBF : (0xBF : UInt8).toNat = 191 := rfl
  unfold InRange
  rw [toNat_following, h80, hBF]
  omega

/-- A character of two bytes is announced by its first five bits. -/
theorem lead?_two {v : Nat} (hlow : 127 < v) (hhigh : v ≤ 2047) :
    lead? (UInt8.ofNat (v / 64 % 32 + 192)) = some ⟨1, v / 64, 0x80, 0xBF⟩ := by
  have hb : (UInt8.ofNat (v / 64 % 32 + 192)).toNat = v / 64 + 192 := by
    rw [toNat_ofNat (by omega)]
    omega
  unfold lead?
  dsimp only
  rw [hb, if_neg (by omega), if_neg (by omega), if_pos (by omega), Nat.add_sub_cancel]

/-- A character of three bytes is announced by its first four bits. The byte behind tells it from a
shorter form and from a surrogate. -/
theorem exists_lead?_three {v : Nat} (hlow : 2047 < v) (hhigh : v ≤ 65535)
    (hvalid : v < 0xD800 ∨ 0xDFFF < v) :
    ∃ low high, lead? (UInt8.ofNat (v / 4096 % 16 + 224)) = some ⟨2, v / 4096, low, high⟩ ∧
      InRange low high (UInt8.ofNat (v / 64 % 64 + 128)) := by
  have hb : (UInt8.ofNat (v / 4096 % 16 + 224)).toNat = v / 4096 + 224 := by
    rw [toNat_ofNat (by omega)]
    omega
  have hnext := toNat_following (v / 64)
  unfold lead? InRange
  dsimp only
  rw [hb, hnext, if_neg (by omega), if_neg (by omega), if_neg (by omega), Nat.add_sub_cancel]
  by_cases hE0 : v / 4096 + 224 = 0xE0
  · rw [if_pos hE0]
    exact ⟨0xA0, 0xBF, rfl, show 160 ≤ _ by omega, show _ ≤ 191 by omega⟩
  · rw [if_neg hE0]
    by_cases hED : v / 4096 + 224 = 0xED
    · rw [if_pos hED]
      exact ⟨0x80, 0x9F, rfl, show 128 ≤ _ by omega, show _ ≤ 159 by omega⟩
    · rw [if_neg hED, if_pos (by omega)]
      exact ⟨0x80, 0xBF, rfl, show 128 ≤ _ by omega, show _ ≤ 191 by omega⟩

/-- A character of four bytes is announced by its first three bits. The byte behind tells it from a
shorter form and from a number that is too large. -/
theorem exists_lead?_four {v : Nat} (hlow : 65535 < v) (hhigh : v < 0x110000) :
    ∃ low high, lead? (UInt8.ofNat (v / 262144 % 8 + 240)) = some ⟨3, v / 262144, low, high⟩ ∧
      InRange low high (UInt8.ofNat (v / 4096 % 64 + 128)) := by
  have hb : (UInt8.ofNat (v / 262144 % 8 + 240)).toNat = v / 262144 + 240 := by
    rw [toNat_ofNat (by omega)]
    omega
  have hnext := toNat_following (v / 4096)
  unfold lead? InRange
  dsimp only
  rw [hb, hnext, if_neg (by omega), if_neg (by omega), if_neg (by omega), if_neg (by omega),
    if_neg (by omega), if_neg (by omega), Nat.add_sub_cancel]
  by_cases hF0 : v / 262144 + 240 = 0xF0
  · rw [if_pos hF0]
    exact ⟨0x90, 0xBF, rfl, show 144 ≤ _ by omega, show _ ≤ 191 by omega⟩
  · rw [if_neg hF0]
    by_cases hF4 : v / 262144 + 240 < 0xF4
    · rw [if_pos hF4]
      exact ⟨0x80, 0xBF, rfl, show 128 ≤ _ by omega, show _ ≤ 191 by omega⟩
    · rw [if_neg hF4, if_pos (by omega)]
      exact ⟨0x80, 0x8F, rfl, show 128 ≤ _ by omega, show _ ≤ 143 by omega⟩

theorem toNat_valid (c : Char) : c.toNat < 0xD800 ∨ 0xDFFF < c.toNat ∧ c.toNat < 0x110000 := c.valid

/-- **The bytes of one character are read as that character.** -/
theorem decodeFrom_encodeChar (c : Char) (position : Nat) (rest : List UInt8) :
    decodeFrom position 0 0 0 0 [] (String.utf8EncodeChar c ++ rest)
      = (c :: ·) <$>
        decodeFrom (position + (String.utf8EncodeChar c).length) 0 0 0 0 [] rest := by
  have hvalid := toNat_valid c
  have hchar : ∀ {n : Nat}, n = c.toNat → Char.ofNat n = c := by
    rintro n rfl
    exact Char.ofNat_toNat c
  by_cases h1 : c.toNat ≤ 127
  · have hbytes : String.utf8EncodeChar c = [UInt8.ofNat c.toNat] := if_pos h1
    have hlead : lead? (UInt8.ofNat c.toNat) = some ⟨0, c.toNat, 0x80, 0xBF⟩ := by
      unfold lead?
      dsimp only
      rw [toNat_ofNat (by omega), if_pos (by omega)]
    rw [hbytes, List.singleton_append, decodeFrom_ascii hlead rfl, hchar rfl]
    rfl
  by_cases h2 : c.toNat ≤ 2047
  · have hbytes : String.utf8EncodeChar c
        = [UInt8.ofNat (c.toNat / 64 % 32 + 192), UInt8.ofNat (c.toNat % 64 + 128)] :=
      (if_neg h1).trans (if_pos h2)
    have hlead := lead?_two (Nat.lt_of_not_le h1) h2
    have hbits : c.toNat / 64 * 64 + (c.toNat % 64 + 128 - 128) = c.toNat := by omega
    rw [hbytes, List.cons_append, List.singleton_append, decodeFrom_lead hlead Nat.one_ne_zero,
      decodeFrom_last (inRange_following _), toNat_following, hchar hbits]
    rfl
  by_cases h3 : c.toNat ≤ 65535
  · have hbytes : String.utf8EncodeChar c
        = [UInt8.ofNat (c.toNat / 4096 % 16 + 224), UInt8.ofNat (c.toNat / 64 % 64 + 128),
          UInt8.ofNat (c.toNat % 64 + 128)] :=
      (if_neg h1).trans ((if_neg h2).trans (if_pos h3))
    obtain ⟨low, high, hlead, hrange⟩ :=
      exists_lead?_three (Nat.lt_of_not_le h2) h3 (hvalid.imp_right And.left)
    have hbits : (c.toNat / 4096 * 64 + (c.toNat / 64 % 64 + 128 - 128)) * 64
        + (c.toNat % 64 + 128 - 128) = c.toNat := by omega
    rw [hbytes, List.cons_append, List.cons_append, List.singleton_append,
      decodeFrom_lead hlead (Nat.succ_ne_zero _), decodeFrom_more hrange,
      decodeFrom_last (inRange_following _), toNat_following, toNat_following, hchar hbits]
    rfl
  · have hbytes : String.utf8EncodeChar c
        = [UInt8.ofNat (c.toNat / 262144 % 8 + 240), UInt8.ofNat (c.toNat / 4096 % 64 + 128),
          UInt8.ofNat (c.toNat / 64 % 64 + 128), UInt8.ofNat (c.toNat % 64 + 128)] :=
      (if_neg h1).trans ((if_neg h2).trans (if_neg h3))
    obtain ⟨low, high, hlead, hrange⟩ := exists_lead?_four (Nat.lt_of_not_le h3) (by omega)
    have hbits : ((c.toNat / 262144 * 64 + (c.toNat / 4096 % 64 + 128 - 128)) * 64
        + (c.toNat / 64 % 64 + 128 - 128)) * 64 + (c.toNat % 64 + 128 - 128) = c.toNat := by omega
    rw [hbytes, List.cons_append, List.cons_append, List.cons_append, List.singleton_append,
      decodeFrom_lead hlead (Nat.succ_ne_zero _), decodeFrom_more hrange,
      decodeFrom_more (inRange_following _), decodeFrom_last (inRange_following _), toNat_following,
      toNat_following, toNat_following, hchar hbits]
    rfl

/-! ## Texts -/

theorem decodeFrom_encode (t : Text) (position : Nat) :
    decodeFrom position 0 0 0 0 [] (encode t) = .ok t := by
  induction t generalizing position with
  | nil => rfl
  | cons c t ih =>
    have hbytes : encode (c :: t) = String.utf8EncodeChar c ++ encode t := List.flatMap_cons
    rw [hbytes, decodeFrom_encodeChar, ih]
    rfl

/-- **The bytes of a text spell that text.** -/
theorem decode_encode (t : Text) : decode (encode t) = .ok t := decodeFrom_encode t 0

end Pyramid.Utf8
