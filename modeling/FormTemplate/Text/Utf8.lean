import FormTemplate.Text.Basic

/-!
# UTF-8

Octets are read by a machine that knows how many octets its character
still owes and between which bounds the next one must lie; the bounds rule
out overlong forms, surrogates and what lies beyond U+10FFFF at the first
octet that shows them. `decode?` asks that the machine never refuses,
`decodeLossy` writes U+FFFD for each refused beginning of a character and
reads on from the octet that refused it.
-/

namespace FormTemplate

namespace Utf8

/-- A character that has begun: the bits read so far, the number of octets
it still owes less one, and the bounds of the next octet. -/
structure Pending where
  bits : Nat
  owed : Nat
  least : Nat
  greatest : Nat
deriving Repr, DecidableEq

/-- The character that a lead octet begins: its bits, the octets owed less
one, and the bounds of the second octet. -/
def Pending.ofLead? (b : Nat) : Option Pending :=
  if 0xC2 ≤ b && b ≤ 0xDF then some ⟨b - 0xC0, 0, 0x80, 0xBF⟩
  else if b == 0xE0 then some ⟨0, 1, 0xA0, 0xBF⟩
  else if b == 0xED then some ⟨0xD, 1, 0x80, 0x9F⟩
  else if 0xE1 ≤ b && b ≤ 0xEF then some ⟨b - 0xE0, 1, 0x80, 0xBF⟩
  else if b == 0xF0 then some ⟨0, 2, 0x90, 0xBF⟩
  else if b == 0xF4 then some ⟨4, 2, 0x80, 0x8F⟩
  else if 0xF1 ≤ b && b ≤ 0xF3 then some ⟨b - 0xF0, 2, 0x80, 0xBF⟩
  else none

/-- What an octet does to a machine between characters: it is a character
of its own, begins one, or is refused. -/
inductive Lead where
  | whole (c : Char)
  | begins (p : Pending)
  | refused

/-- The part an octet plays where a character begins. -/
def lead (b : UInt8) : Lead :=
  if b.toNat < 0x80 then .whole (Char.ofNat b.toNat)
  else
    match Pending.ofLead? b.toNat with
    | some p => .begins p
    | none => .refused

/-- The character that replaces octets which are none. -/
def replacement : Char := '\ufffd'

/-- The characters of octets, `replacement` for each maximal sequence that
begins a character and does not finish it; `p` is the character begun. -/
def decodeFrom : Option Pending → List UInt8 → List (Option Char)
  | none, [] => []
  | some _, [] => [none]
  | none, b :: bs =>
    match lead b with
    | .whole c => some c :: decodeFrom none bs
    | .begins p => decodeFrom (some p) bs
    | .refused => none :: decodeFrom none bs
  | some p, b :: bs =>
    if p.least ≤ b.toNat && b.toNat ≤ p.greatest then
      let bits := p.bits * 64 + (b.toNat - 0x80)
      match p.owed with
      | 0 => some (Char.ofNat bits) :: decodeFrom none bs
      | n + 1 => decodeFrom (some ⟨bits, n, 0x80, 0xBF⟩) bs
    else
      none ::
        match lead b with
        | .whole c => some c :: decodeFrom none bs
        | .begins p => decodeFrom (some p) bs
        | .refused => none :: decodeFrom none bs

/-- The text of octets that are UTF-8 throughout. -/
def decode? (bs : List UInt8) : Option Text := (decodeFrom none bs).mapM id

/-- **The text of any octets**: what is no UTF-8 reads as U+FFFD, one for
each maximal beginning of a character and one for each stray octet. -/
def decodeLossy (bs : List UInt8) : Text := (decodeFrom none bs).map (·.getD replacement)

/-- The octets of a text. -/
def encode (s : Text) : List UInt8 := s.flatMap String.utf8EncodeChar

end Utf8

end FormTemplate
