/-!
# Texts

A text is the sequence of its characters. This file holds what every
reader of the library shares: white space, trimming, cutting at a
separator, and comparison without regard to ASCII case.

White space is the Unicode property `White_Space`, which is wider than
the four characters core calls whitespace: `isBlank_of_isWhitespace`
says the property includes those, and `isBlank_zeroWidthSpace` that it
stops short of characters that merely look blank.
-/

namespace FormTemplate

/-- A text: the sequence of its characters. -/
abbrev Text := List Char

namespace Text

/-! ## White space -/

/-- The characters with the Unicode property `White_Space`. -/
def isBlank (c : Char) : Bool :=
  let n := c.toNat
  (0x9 ≤ n && n ≤ 0xD) || n == 0x20 || n == 0x85 || n == 0xA0 || n == 0x1680
    || (0x2000 ≤ n && n ≤ 0x200A) || n == 0x2028 || n == 0x2029 || n == 0x202F || n == 0x205F
    || n == 0x3000

/-- The property holds of all that core calls whitespace. -/
theorem isBlank_of_isWhitespace {c : Char} (h : c.isWhitespace = true) : isBlank c = true := by
  simp only [Char.isWhitespace, Bool.or_eq_true, decide_eq_true_eq] at h
  rcases h with ((h | h) | h) | h <;> subst h <;> decide

/-- A zero-width space is not white space. -/
theorem isBlank_zeroWidthSpace : isBlank '\u200b' = false := by decide

/-- The text without the white space it starts with. -/
def trimStart (s : Text) : Text := s.dropWhile isBlank

/-- The text without the white space it ends with. -/
def trimEnd (s : Text) : Text := (s.reverse.dropWhile isBlank).reverse

/-- The text without white space at either end. -/
def trim (s : Text) : Text := trimEnd (trimStart s)

/-! ## Cutting at separators -/

/-- The texts before and after the first `c`. -/
def cut? (c : Char) : Text → Option (Text × Text)
  | [] => none
  | d :: s => if d = c then some ([], s) else (cut? c s).map fun p => (d :: p.1, p.2)

/-- **The pieces between separators**, empty ones included: one more than
there are separators. -/
def pieces (isSeparator : Char → Bool) : Text → List Text
  | [] => [[]]
  | c :: s =>
    match isSeparator c, pieces isSeparator s with
    | true, ps => [] :: ps
    | false, p :: ps => (c :: p) :: ps
    | false, [] => [[c]]

/-- The text with its last `old` replaced by `new`, if it has one. -/
def replaceLast? (old new : Text) : Text → Option Text
  | [] => none
  | c :: s =>
    match replaceLast? old new s with
    | some r => some (c :: r)
    | none => (old.isPrefixOf? (c :: s)).map (new ++ ·)

/-! ## Letter case and numerals -/

/-- Every ASCII capital replaced by its small letter. -/
def lower (s : Text) : Text := s.map Char.toLower

/-- Equality that takes an ASCII letter and its capital for the same. -/
def sameIgnoringCase (s t : Text) : Bool := lower s == lower t

/-- The decimal digits of a number. -/
def decimal (n : Nat) : Text := Nat.toDigits 10 n

/-- The hexadecimal digits of a number, in small letters. -/
def hexadecimal (n : Nat) : Text := Nat.toDigits 16 n

/-- The value of a digit in a base of at most sixteen. -/
def digit? (base : Nat) (c : Char) : Option Nat :=
  let n := c.toNat
  let value :=
    if '0' ≤ c && c ≤ '9' then n - '0'.toNat
    else if 'a' ≤ c && c ≤ 'f' then n - 'a'.toNat + 10
    else if 'A' ≤ c && c ≤ 'F' then n - 'A'.toNat + 10
    else base
  if value < base then some value else none

/-- The value of a sequence of digits, the first one the most significant;
what is no digit of the base counts as zero. -/
def numeral (base : Nat) (s : Text) : Nat :=
  s.foldl (fun n c => n * base + (digit? base c).getD 0) 0

end Text

end FormTemplate
