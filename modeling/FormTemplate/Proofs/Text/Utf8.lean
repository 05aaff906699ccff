import FormTemplate.Text.Utf8
import Mathlib.Tactic.IntervalCases

/-!
# UTF-8 loses nothing

The reading machine, given the octets of a character, reads that character
and is between characters again (`decodeFrom_utf8EncodeChar`), so the octets
of a text are read as that text (`decodeLossy_encode`). The bounds that a lead
octet sets for the next one never refuse a character's own octets, because a
character is no surrogate, lies within U+10FFFF and is written in the fewest
octets.
-/

namespace FormTemplate

namespace Utf8

/-! ## Octets in their places -/

/-- An octet below 128 is a character. -/
theorem decodeFrom_whole {n : Nat} (h : n ≤ 0x7F) (bs : List UInt8) :
    decodeFrom none (UInt8.ofNat n :: bs) = some (Char.ofNat n) :: decodeFrom none bs := by
  have hn : (UInt8.ofNat n).toNat = n := UInt8.toNat_ofNat_of_lt' (Nat.lt_of_le_of_lt h (by decide))
  rw [decodeFrom, lead, hn, if_pos (by omega)]

/-- An octet from 128 on begins what its place in the table says. -/
theorem decodeFrom_begins {n : Nat} (h : 0x80 ≤ n) (h' : n < 256) {p : Pending}
    (hp : Pending.ofLead? n = some p) (bs : List UInt8) :
    decodeFrom none (UInt8.ofNat n :: bs) = decodeFrom (some p) bs := by
  have hn : (UInt8.ofNat n).toNat = n := UInt8.toNat_ofNat_of_lt' h'
  rw [decodeFrom, lead, hn, if_neg (by omega), hp]

/-- A lead octet of two. -/
theorem ofLead?_two {n : Nat} (h : 0xC2 ≤ n) (h' : n ≤ 0xDF) :
    Pending.ofLead? n = some ⟨n - 0xC0, 0, 0x80, 0xBF⟩ := by
  rw [Pending.ofLead?, if_pos (by simp [h, h'])]

/-- A lead octet of three. After the first the next is large, so that the
form is the shortest; after the one of the surrogates it is small. -/
theorem ofLead?_three {n : Nat} (h : 0xE0 ≤ n) (h' : n ≤ 0xEF) :
    Pending.ofLead? n = some ⟨n - 0xE0, 1, if n = 0xE0 then 0xA0 else 0x80,
      if n = 0xED then 0x9F else 0xBF⟩ := by
  interval_cases n <;> rfl

/-- A lead octet of four. After the first the next is large, after the last
it is small. -/
theorem ofLead?_four {n : Nat} (h : 0xF0 ≤ n) (h' : n ≤ 0xF4) :
    Pending.ofLead? n = some ⟨n - 0xF0, 2, if n = 0xF0 then 0x90 else 0x80,
      if n = 0xF4 then 0x8F else 0xBF⟩ := by
  interval_cases n <;> rfl

/-- An octet within the bounds, with more to come. -/
theorem decodeFrom_more {bits owed least greatest n : Nat} (h : least ≤ n) (h' : n ≤ greatest)
    (hn : n < 256) (bs : List UInt8) :
    decodeFrom (some ⟨bits, owed + 1, least, greatest⟩) (UInt8.ofNat n :: bs) =
      decodeFrom (some ⟨bits * 64 + (n - 0x80), owed, 0x80, 0xBF⟩) bs := by
  have hn : (UInt8.ofNat n).toNat = n := UInt8.toNat_ofNat_of_lt' hn
  rw [decodeFrom, hn, if_pos (by simp [h, h'])]

/-- The last octet of a character, within the bounds. -/
theorem decodeFrom_last {bits least greatest n : Nat} (h : least ≤ n) (h' : n ≤ greatest)
    (hn : n < 256) (bs : List UInt8) :
    decodeFrom (some ⟨bits, 0, least, greatest⟩) (UInt8.ofNat n :: bs) =
      some (Char.ofNat (bits * 64 + (n - 0x80))) :: decodeFrom none bs := by
  have hn : (UInt8.ofNat n).toNat = n := UInt8.toNat_ofNat_of_lt' hn
  rw [decodeFrom, hn, if_pos (by simp [h, h'])]

/-! ## Characters and texts -/

/-- **The octets of a character are read as that character.** -/
theorem decodeFrom_utf8EncodeChar (c : Char) (bs : List UInt8) :
    decodeFrom none (String.utf8EncodeChar c ++ bs) = some c :: decodeFrom none bs := by
  have hvalid : c.toNat < 0xD800 ∨ 0xDFFF < c.toNat ∧ c.toNat < 0x110000 := c.valid
  have hread : ∀ n, n = c.toNat → some (Char.ofNat n) :: decodeFrom none bs =
      some c :: decodeFrom none bs := by
    rintro _ rfl
    rw [Char.ofNat_toNat]
  have hval : c.val.toNat = c.toNat := rfl
  simp only [String.utf8EncodeChar, hval]
  generalize c.toNat = v at hvalid hread ⊢
  split
  next h => exact (decodeFrom_whole h bs).trans (hread _ rfl)
  next h =>
  split
  next h' =>
    rw [List.cons_append, List.cons_append, List.nil_append,
      decodeFrom_begins (by omega) (by omega) (ofLead?_two (by omega) (by omega)),
      decodeFrom_last (by omega) (by omega) (by omega)]
    exact hread _ (by omega)
  next h' =>
  split
  next h'' =>
    rw [List.cons_append, List.cons_append, List.cons_append, List.nil_append,
      decodeFrom_begins (by omega) (by omega) (ofLead?_three (by omega) (by omega)),
      decodeFrom_more (by split <;> omega) (by split <;> omega) (by omega),
      decodeFrom_last (by omega) (by omega) (by omega)]
    exact hread _ (by omega)
  next h'' =>
    rw [List.cons_append, List.cons_append, List.cons_append, List.cons_append, List.nil_append,
      decodeFrom_begins (by omega) (by omega) (ofLead?_four (by omega) (by omega)),
      decodeFrom_more (by split <;> omega) (by split <;> omega) (by omega),
      decodeFrom_more (by omega) (by omega) (by omega),
      decodeFrom_last (by omega) (by omega) (by omega)]
    exact hread _ (by omega)

/-- So nothing is replaced in a text. -/
theorem decodeFrom_encode (s : Text) : decodeFrom none (encode s) = s.map some := by
  induction s with
  | nil => rfl
  | cons c s ih => rw [encode, List.flatMap_cons, decodeFrom_utf8EncodeChar, ← encode, ih]; rfl

/-- **The octets of a text are read as that text.** -/
theorem decodeLossy_encode (s : Text) : decodeLossy (encode s) = s := by
  rw [decodeLossy, decodeFrom_encode, List.map_map]
  exact List.map_id s

end Utf8

end FormTemplate
