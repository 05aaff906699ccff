import FormTemplate.Proofs.Text.Cutting
import FormTemplate.Proofs.Text.Utf8
import FormTemplate.Url.Query

/-!
# Queries are read as they were written

A browser writes the fields of a form into a query by form encoding, and
each does so in its own way: which characters stay as they are, how a space
is written, in which case the hexadecimal digits are, which separators are
used, is left to it. `Spells` says how a text may be written, `Writes` how
names and values may be, and `parse_of_writes` that all these ways are read
as what was written. A query may be cut at any separator (`parse_append`).
-/

namespace FormTemplate

namespace Query

/-! ## Texts -/

/-- The characters between pairs. -/
def isSeparator (c : Char) : Bool := c == '&' || c == ';'

/-- The characters between pairs, and between a name and its value. -/
def isDelimiter (c : Char) : Bool := isSeparator c || c == '='

/-- The characters that never stand for themselves. -/
def isReserved (c : Char) : Bool := isDelimiter c || c == '%' || c == '+'

/-- None of them is a digit. -/
theorem digit?_of_isReserved {c : Char} (h : isReserved c = true) : Text.digit? 16 c = none := by
  simp only [isReserved, isDelimiter, isSeparator, Bool.or_eq_true, beq_iff_eq] at h
  rcases h with (((rfl | rfl) | rfl) | rfl) | rfl <;> rfl

theorem isReserved_of_isDelimiter {c : Char} (h : isDelimiter c = true) : isReserved c = true := by
  rw [isReserved, h]
  rfl

/-- **Octets in percent-encoding**, the digits in either case. -/
inductive Percents : List UInt8 → Text → Prop
  /-- No octet. -/
  | nil : Percents [] []
  /-- An octet: a percent sign and two digits. -/
  | cons {b : UInt8} {high low : Char} {bs : List UInt8} {w : Text}
      (hhigh : Text.digit? 16 high = some (b.toNat / 16))
      (hlow : Text.digit? 16 low = some (b.toNat % 16)) (rest : Percents bs w) :
      Percents (b :: bs) ('%' :: high :: low :: w)

/-- **How a text may be written** in a query, character by character. -/
inductive Spells : Text → Text → Prop
  /-- The empty text. -/
  | nil : Spells [] []
  /-- A character that is not reserved may stand for itself. -/
  | plain {c : Char} {s w : Text} (free : isReserved c = false) (rest : Spells s w) :
      Spells (c :: s) (c :: w)
  /-- A space may be written as a plus sign. -/
  | plus {s w : Text} (rest : Spells s w) : Spells (' ' :: s) ('+' :: w)
  /-- Any character may be percent-encoded. -/
  | percents {c : Char} {p s w : Text} (octets : Percents (String.utf8EncodeChar c) p)
      (rest : Spells s w) : Spells (c :: s) (p ++ w)

/-- The text in which spaces are not written as plus signs. -/
def withSpaces (s : Text) : Text := s.map fun c => if c = '+' then ' ' else c

theorem octets_cons {c : Char} (h : c ≠ '%') (s : Text) :
    octets (c :: s) = String.utf8EncodeChar c ++ octets s := by
  rw [octets]
  rintro _ _ _ ⟨⟩
  exact absurd rfl h

/-- A percent-encoded octet is that octet. -/
theorem octets_percent {b : UInt8} {high low : Char}
    (hhigh : Text.digit? 16 high = some (b.toNat / 16))
    (hlow : Text.digit? 16 low = some (b.toNat % 16)) (s : Text) :
    octets ('%' :: high :: low :: s) = b :: octets s := by
  have hb : UInt8.ofNat (b.toNat / 16 * 16 + b.toNat % 16) = b := by
    rw [Nat.div_add_mod', UInt8.ofNat_toNat]
  simp only [octets, hhigh, hlow, hb]

/-- A digit is no plus sign. -/
theorem withSpaces_digit {c : Char} {n : Nat} (h : Text.digit? 16 c = some n) (s : Text) :
    withSpaces (c :: s) = c :: withSpaces s := by
  have hc : c ≠ '+' := by
    rintro rfl
    cases h.symm.trans (digit?_of_isReserved (by decide))
  rw [withSpaces, List.map_cons, if_neg hc, ← withSpaces]

theorem Percents.octets_append {bs : List UInt8} {p : Text} (h : Percents bs p) (w : Text) :
    octets (withSpaces (p ++ w)) = bs ++ octets (withSpaces w) := by
  induction h with
  | nil => rfl
  | cons hhigh hlow _ ih =>
    have hpercent : ∀ s, withSpaces ('%' :: s) = '%' :: withSpaces s := fun _ => rfl
    rw [List.cons_append, List.cons_append, List.cons_append, hpercent, withSpaces_digit hhigh,
      withSpaces_digit hlow, octets_percent hhigh hlow, ih, List.cons_append]

/-- **What is written has the octets of the text.** -/
theorem Spells.octets_eq {s w : Text} (h : Spells s w) : octets (withSpaces w) = Utf8.encode s := by
  induction h with
  | nil => rfl
  | @plain c s w free _ ih =>
    have hplus : c ≠ '+' := by
      rintro rfl
      cases free
    have hpercent : c ≠ '%' := by
      rintro rfl
      cases free
    rw [withSpaces, List.map_cons, if_neg hplus, octets_cons hpercent, ← withSpaces, ih]
    rfl
  | plus _ ih =>
    rw [withSpaces, List.map_cons, if_pos rfl, octets_cons (by decide), ← withSpaces, ih]
    rfl
  | percents octets _ ih =>
    rw [octets.octets_append, ih]
    rfl

/-- **So it is read as the text.** -/
theorem Spells.decode_eq {s w : Text} (h : Spells s w) : decode w = s := by
  rw [decode, ← withSpaces, h.octets_eq, Utf8.decodeLossy_encode]

theorem Percents.not_mem {bs : List UInt8} {p : Text} (h : Percents bs p) {c : Char}
    (hc : isDelimiter c = true) : c ∉ p := by
  have hdigit : ∀ {d n}, Text.digit? 16 d = some n → c ≠ d := by
    rintro d n hd rfl
    cases hd.symm.trans (digit?_of_isReserved (isReserved_of_isDelimiter hc))
  induction h with
  | nil => exact List.not_mem_nil
  | cons hhigh hlow _ ih =>
    have hpercent : c ≠ '%' := by
      rintro rfl
      cases hc
    simp only [List.mem_cons, not_or]
    exact ⟨hpercent, hdigit hhigh, hdigit hlow, ih⟩

/-- **What is written holds no delimiter.** -/
theorem Spells.not_mem {s w : Text} (h : Spells s w) {c : Char} (hc : isDelimiter c = true) :
    c ∉ w := by
  induction h with
  | nil => exact List.not_mem_nil
  | @plain d s w free _ ih =>
    have hne : c ≠ d := by
      rintro rfl
      cases free.symm.trans (isReserved_of_isDelimiter hc)
    exact List.not_mem_cons_of_ne_of_not_mem hne ih
  | plus _ ih =>
    have hne : c ≠ '+' := by
      rintro rfl
      cases hc
    exact List.not_mem_cons_of_ne_of_not_mem hne ih
  | percents octets _ ih => exact List.not_mem_append (octets.not_mem hc) ih

/-- Only the empty text is written as nothing. -/
theorem Spells.ne_nil {s w : Text} (h : Spells s w) (hs : s ≠ []) : w ≠ [] := by
  rintro rfl
  exact hs (h.decode_eq.symm.trans rfl)

/-! ## Names and values -/

/-- **How a name and its value may be written**: with an equals sign between
them, or without one if there is no value. -/
inductive SpellsPair : Text × Text → Text → Prop
  /-- The name, an equals sign and the value. -/
  | pair {name value w v : Text} (hname : Spells name w) (hvalue : Spells value v) :
      SpellsPair (name, value) (w ++ '=' :: v)
  /-- The name alone. -/
  | bare {name w : Text} (hname : Spells name w) (hne : name ≠ []) : SpellsPair (name, []) w

theorem SpellsPair.parsePair_eq {p : Text × Text} {w : Text} (h : SpellsPair p w) :
    parsePair w = p := by
  cases h with
  | pair hname hvalue =>
    rw [parsePair, Text.cut?_append (hname.not_mem (by decide)), Option.getD_some, hname.decode_eq,
      hvalue.decode_eq]
  | bare hname _ =>
    rw [parsePair, Text.cut?_eq_none.2 (hname.not_mem (by decide)), Option.getD_none,
      hname.decode_eq]
    rfl

theorem SpellsPair.not_mem {p : Text × Text} {w : Text} (h : SpellsPair p w) {c : Char}
    (hc : isSeparator c = true) : c ∉ w := by
  have hdelimiter : isDelimiter c = true := by
    rw [isDelimiter, hc]
    rfl
  have hequals : c ≠ '=' := by
    rintro rfl
    cases hc
  cases h with
  | pair hname hvalue =>
    exact List.not_mem_append (hname.not_mem hdelimiter)
      (List.not_mem_cons_of_ne_of_not_mem hequals (hvalue.not_mem hdelimiter))
  | bare hname _ => exact hname.not_mem hdelimiter

/-- No pair is written as nothing. -/
theorem SpellsPair.ne_nil {p : Text × Text} {w : Text} (h : SpellsPair p w) : w ≠ [] := by
  cases h with
  | pair => simp
  | bare hname hne => exact hname.ne_nil hne

/-! ## Queries -/

/-- **How names and values may be written** as a query: pair by pair, with a
separator between two of them, and separators wherever else a pair may
begin. -/
inductive Writes : List (Text × Text) → Text → Prop
  /-- Nothing. -/
  | nil : Writes [] []
  /-- An empty piece before the rest. -/
  | separator {ps : List (Text × Text)} {c : Char} {q : Text} (hc : isSeparator c = true)
      (rest : Writes ps q) : Writes ps (c :: q)
  /-- A pair and the rest behind a separator. -/
  | pair {p : Text × Text} {ps : List (Text × Text)} {w : Text} {c : Char} {q : Text}
      (hpair : SpellsPair p w) (hc : isSeparator c = true) (rest : Writes ps q) :
      Writes (p :: ps) (w ++ c :: q)
  /-- The last pair. -/
  | last {p : Text × Text} {w : Text} (hpair : SpellsPair p w) : Writes [p] w

theorem parse_eq (q : Text) :
    parse q = ((Text.pieces isSeparator q).filter (!·.isEmpty)).map parsePair := rfl

/-- **A query is read piece by piece**, whichever separator it is cut at. -/
theorem parse_append {c : Char} (hc : isSeparator c = true) (s t : Text) :
    parse (s ++ c :: t) = parse s ++ parse t := by
  rw [parse_eq, parse_eq, parse_eq, Text.pieces_append hc, List.filter_append, List.map_append]

theorem SpellsPair.parse_eq {p : Text × Text} {w : Text} (h : SpellsPair p w) : parse w = [p] := by
  have hpieces : Text.pieces isSeparator w = [w] :=
    Text.pieces_of_forall fun c hc => Bool.eq_false_iff.2 fun hsep => h.not_mem hsep hc
  rw [Query.parse_eq, hpieces, List.filter_cons_of_pos (by simp [h.ne_nil]), List.filter_nil,
    List.map_singleton, h.parsePair_eq]

theorem Writes.parse_eq {ps : List (Text × Text)} {q : Text} (h : Writes ps q) : parse q = ps := by
  induction h with
  | nil => rfl
  | separator hc _ ih => exact (parse_append hc [] _).trans ih
  | pair hpair hc _ ih =>
    rw [parse_append hc, hpair.parse_eq, ih]
    rfl
  | last hpair => exact hpair.parse_eq

/-- **Whatever way names and values are written in, they are read as they
were**, in order and each as often; and a query cut at a separator is read
part by part. -/
theorem parse_of_writes {ps : List (Text × Text)} {q : Text} (h : Writes ps q) :
    parse q = ps ∧
      ∀ (s t : Text) (c : Char), isSeparator c = true → parse (s ++ c :: t) = parse s ++ parse t :=
  ⟨h.parse_eq, fun s t _ hc => parse_append hc s t⟩

/-- An ampersand in a name, a letter of two octets in digits of either case,
a space, a name that comes again without a value, and one that is empty like
its value. -/
theorem parse_of_writes_of_reserved :
    let ps := [(['a', '&'], ['é', ' ']), (['a', '&'], []), ([], [])]
    let q := ['&', 'a', '%', '2', '6', '=', '%', 'c', '3', '%', 'A', '9', '+', ';', '&', 'a', '%',
      '2', '6', ';', '=']
    Writes ps q ∧ parse q = ps := by
  intro ps q
  have hampersand : Percents (String.utf8EncodeChar '&') ['%', '2', '6'] :=
    .cons (by decide) (by decide) .nil
  have hletter : Percents (String.utf8EncodeChar 'é') ['%', 'c', '3', '%', 'A', '9'] :=
    .cons (by decide) (by decide) (.cons (by decide) (by decide) .nil)
  have hname : Spells ['a', '&'] ['a', '%', '2', '6'] :=
    .plain (by decide) (.percents hampersand .nil)
  have hvalue : Spells ['é', ' '] ['%', 'c', '3', '%', 'A', '9', '+'] :=
    .percents hletter (.plus .nil)
  have h : Writes ps q :=
    .separator (by decide) (.pair (.pair hname hvalue) (by decide) (.separator (by decide)
      (.pair (.bare hname (by decide)) (by decide) (.last (.pair .nil .nil)))))
  exact ⟨h, (parse_of_writes h).1⟩

end Query

end FormTemplate
