import FormTemplate.Text.Literal
import FormTemplate.Proofs.Text.Cutting

/-!
# Reading string literals

In a source a literal runs from a quote to the next one, quotes behind a
backslash apart. `Literal.erase` leaves out what stands in the literals of
a source, and `Literal.texts` says what they stand for. The literal of a
text is read as one literal (`lexemes_quote`), so that no character of the
text ends it early, and what stands in it gives the text back
(`unescape?_escape`). `Scans` is about pieces of a source that begin and
end outside literals, so that a source can be read piece by piece.
-/

namespace FormTemplate

namespace Text

/-! ## Hexadecimal numerals -/

theorem numeral_append_singleton (base : Nat) (s : Text) (c : Char) :
    numeral base (s ++ [c]) = numeral base s * base + (digit? base c).getD 0 := by
  simp [numeral]

/-- The digits of a base are read as what they are. -/
theorem digit?_digitChar {n : Nat} (hn : n < 16) : digit? 16 n.digitChar = some n := by
  have hall : ∀ k : Fin 16, digit? 16 k.val.digitChar = some k.val := by decide
  exact hall ⟨n, hn⟩

/-- A number is a digit, or its digits are those of its sixteenth and one
more. -/
theorem hexadecimal_eq (n : Nat) :
    hexadecimal n = if n < 16 then [n.digitChar]
      else hexadecimal (n / 16) ++ [(n % 16).digitChar] := by
  split
  · next hn => exact Nat.toDigits_of_lt_base hn
  · next hn =>
    have hpos : 0 < n / 16 := by omega
    have hmod : n % 16 < 16 := Nat.mod_lt _ (by decide)
    have happend := Nat.toDigits_append_toDigits (by decide : 1 < 16) hpos hmod
    rw [Nat.div_add_mod, Nat.toDigits_of_lt_base hmod] at happend
    exact happend.symm

/-- **The numeral of a number is that number.** -/
theorem numeral_hexadecimal (n : Nat) : numeral 16 (hexadecimal n) = n := by
  induction n using Nat.strongRecOn with
  | ind n ih =>
    rw [hexadecimal_eq]
    split
    · next hn => simp [numeral, digit?_digitChar hn]
    · next hn =>
      rw [numeral_append_singleton, ih (n / 16) (by omega),
        digit?_digitChar (Nat.mod_lt _ (by decide)), Option.getD_some]
      omega

/-- Its characters are digits. -/
theorem isSome_digit?_of_mem_hexadecimal {n : Nat} {c : Char} (hc : c ∈ hexadecimal n) :
    (digit? 16 c).isSome = true := by
  induction n using Nat.strongRecOn with
  | ind n ih =>
    rw [hexadecimal_eq] at hc
    split at hc
    · next hn =>
      rw [List.mem_singleton] at hc
      rw [hc, digit?_digitChar hn]
      rfl
    · next hn =>
      rcases List.mem_append.1 hc with hc | hc
      · exact ih (n / 16) (by omega) hc
      · rw [List.mem_singleton] at hc
        rw [hc, digit?_digitChar (Nat.mod_lt _ (by decide))]
        rfl

end Text

namespace Literal

/-! ## The literals of a source -/

/-- A part of a source. -/
inductive Lexeme where
  /-- A character outside literals. -/
  | char (c : Char)
  /-- A literal, by what stands between its quotes. -/
  | literal (content : Text)
  /-- A literal that the source ends in. -/
  | unclosed (content : Text)
deriving Repr, DecidableEq

/-- **The parts of a source**, read character by character: what has been
read of the literal at hand, if there is one, and whether the character
before was a backslash that makes the next one plain. -/
def lexemes : Option Text → Bool → Text → List Lexeme
  | none, _, [] => []
  | some content, _, [] => [.unclosed content]
  | none, escaped, c :: s =>
    if c = '"' && !escaped then lexemes (some []) false s
    else .char c :: lexemes none (c = '\\' && !escaped) s
  | some content, escaped, c :: s =>
    if c = '"' && !escaped then .literal content :: lexemes none false s
    else lexemes (some (content ++ [c])) (c = '\\' && !escaped) s

namespace Lexeme

/-- The part with nothing in the literal. -/
def erased : Lexeme → Text
  | char c => [c]
  | literal _ => ['"', '"']
  | unclosed _ => ['"']

/-- What stands in the literal. -/
def content? : Lexeme → Option Text
  | char _ => none
  | literal content | unclosed content => some content

end Lexeme

/-- **A source with the contents of all its literals left out.** -/
def erase (s : Text) : Text := (lexemes none false s).flatMap Lexeme.erased

/-- Characters that begin no literal and make no character plain. -/
def Plain (s : Text) : Prop := ∀ c ∈ s, c ≠ '"' ∧ c ≠ '\\'

instance (s : Text) : Decidable (Plain s) := List.decidableBAll _ s

/-! ## The literal of a text -/

/-- **What stands for a character** is the character, or a backslash, the
character that it makes plain, and plain characters. -/
theorem escape_cases (c : Char) :
    (escape c = [c] ∧ c ≠ '"' ∧ c ≠ '\\') ∨
      ∃ d s, escape c = '\\' :: d :: s ∧ Plain s := by
  have hcode : ∃ d s, codePointEscape c = '\\' :: d :: s ∧ Plain s := by
    rw [codePointEscape, Text.toList_eq (by rfl)]
    refine ⟨'u', '\x7b' :: Text.hexadecimal c.toNat ++ ['\x7d'], rfl, ?_⟩
    intro d hd
    rcases List.mem_append.1 hd with hd | hd
    · rcases List.mem_cons.1 hd with rfl | hd
      · decide
      · have hdigit := Text.isSome_digit?_of_mem_hexadecimal hd
        constructor
        · rintro rfl
          exact absurd hdigit (by decide)
        · rintro rfl
          exact absurd hdigit (by decide)
    · rw [List.mem_singleton] at hd
      subst hd
      decide
  delta escape
  repeat rw [Text.toList_eq (by rfl)]
  split_ifs with hnull htab hreturn hline hbackslash hquote hprints
  · exact .inr ⟨'0', [], rfl, by decide⟩
  · exact .inr ⟨'t', [], rfl, by decide⟩
  · exact .inr ⟨'r', [], rfl, by decide⟩
  · exact .inr ⟨'n', [], rfl, by decide⟩
  · exact .inr ⟨'\\', [], rfl, by decide⟩
  · exact .inr ⟨'"', [], rfl, by decide⟩
  · exact .inl ⟨rfl, hquote, hbackslash⟩
  · exact .inr hcode
  · exact .inl ⟨rfl, hquote, hbackslash⟩

/-- Plain characters of a literal belong to it. -/
theorem lexemes_plain {s : Text} (hs : Plain s) (content rest : Text) :
    lexemes (some content) false (s ++ rest) = lexemes (some (content ++ s)) false rest := by
  induction s generalizing content with
  | nil => simp
  | cons c s ih =>
    have hc := hs c (by simp)
    rw [List.cons_append, lexemes, if_neg (by simp [hc.1])]
    have hnot : (decide (c = '\\') && !false) = false := by simp [hc.2]
    rw [hnot, ih fun d hd => hs d (by simp [hd])]
    simp

/-- And so does what stands for a character. -/
theorem lexemes_escape (c : Char) (content rest : Text) :
    lexemes (some content) false (escape c ++ rest) =
      lexemes (some (content ++ escape c)) false rest := by
  rcases escape_cases c with ⟨hescape, hc⟩ | ⟨d, s, hescape, hs⟩
  · rw [hescape]
    exact lexemes_plain (fun d hd => by rw [List.mem_singleton.1 hd]; exact hc) content rest
  · rw [hescape, List.cons_append, List.cons_append, lexemes, if_neg (by decide)]
    -- The backslash makes the next character plain, whatever it is.
    rw [lexemes, if_neg (by simp)]
    have hnot : (decide (d = '\\') && !(decide ('\\' = '\\') && !false)) = false := by simp
    rw [hnot, lexemes_plain hs]
    simp

theorem lexemes_flatMap_escape (t content rest : Text) :
    lexemes (some content) false (t.flatMap escape ++ rest) =
      lexemes (some (content ++ t.flatMap escape)) false rest := by
  induction t generalizing content with
  | nil => simp
  | cons c t ih =>
    rw [List.flatMap_cons, List.append_assoc, lexemes_escape, ih, List.append_assoc]

/-- The literal of a text is read as one literal. -/
theorem lexemes_quote (t rest : Text) :
    lexemes none false (quote t ++ rest) =
      .literal (t.flatMap escape) :: lexemes none false rest := by
  rw [quote, List.append_assoc, List.cons_append, lexemes, if_pos (by decide),
    lexemes_flatMap_escape, List.singleton_append, lexemes, if_pos (by decide)]
  rfl

/-! ## What a literal says -/

/-- The character that a letter behind a backslash stands for. -/
def letter? (c : Char) : Option Char :=
  [('0', '\x00'), ('t', '\t'), ('r', '\r'), ('n', '\n'), ('\\', '\\'), ('"', '"')].lookup c

/-- The character of a code point. -/
def scalar? (digits : Text) : Option Char :=
  let n := Text.numeral 16 digits
  if n.isValidChar then some (Char.ofNat n) else none

/-- How far an escape has been read. -/
inductive Escape where
  /-- There is none. -/
  | none
  /-- The backslash. -/
  | backslash
  /-- The backslash and the letter for a code point. -/
  | codePoint
  /-- The same, the brace, and some digits. -/
  | digits (digits : Text)
deriving Repr, DecidableEq

/-- **The text that the contents of a literal stand for**, after an escape
has been read so far. -/
def unescapeFrom : Escape → Text → Option Text
  | .none, [] => some []
  | _, [] => Option.none
  | .none, c :: s =>
    if c = '\\' then unescapeFrom .backslash s else (unescapeFrom .none s).map (c :: ·)
  | .backslash, c :: s =>
    if c = 'u' then unescapeFrom .codePoint s
    else (letter? c).bind fun d => (unescapeFrom .none s).map (d :: ·)
  | .codePoint, c :: s => if c = '\x7b' then unescapeFrom (.digits []) s else Option.none
  | .digits digits, c :: s =>
    if c = '\x7d' then (scalar? digits).bind fun d => (unescapeFrom .none s).map (d :: ·)
    else unescapeFrom (.digits (digits ++ [c])) s

/-- The text that the contents of a literal stand for. -/
def unescape? (s : Text) : Option Text := unescapeFrom .none s

/-- The digits of a code point, up to the closing brace. -/
theorem unescapeFrom_digits {s : Text} (hs : '\x7d' ∉ s) (digits rest : Text) :
    unescapeFrom (.digits digits) (s ++ '\x7d' :: rest) =
      (scalar? (digits ++ s)).bind fun d => (unescapeFrom .none rest).map (d :: ·) := by
  induction s generalizing digits with
  | nil => simp [unescapeFrom]
  | cons c s ih =>
    rw [List.mem_cons, not_or] at hs
    rw [List.cons_append, unescapeFrom, if_neg (Ne.symm hs.1), ih hs.2]
    simp

theorem scalar?_hexadecimal (c : Char) : scalar? (Text.hexadecimal c.toNat) = some c := by
  rw [scalar?, Text.numeral_hexadecimal, if_pos (show c.toNat.isValidChar from c.valid),
    Char.ofNat_toNat]

/-- An escape by code point stands for its character. -/
theorem unescapeFrom_codePointEscape (c : Char) (rest : Text) :
    unescapeFrom .none (codePointEscape c ++ rest) =
      (unescapeFrom .none rest).map (c :: ·) := by
  have hbrace : '\x7d' ∉ Text.hexadecimal c.toNat := by
    intro hmem
    exact absurd (Text.isSome_digit?_of_mem_hexadecimal hmem) (by decide)
  have hassoc : codePointEscape c ++ rest =
      '\\' :: 'u' :: '\x7b' :: (Text.hexadecimal c.toNat ++ '\x7d' :: rest) := by
    rw [codePointEscape, Text.toList_eq (by rfl)]
    simp
  rw [hassoc, unescapeFrom, if_pos rfl, unescapeFrom, if_pos rfl, unescapeFrom, if_pos rfl,
    unescapeFrom_digits hbrace, List.nil_append, scalar?_hexadecimal]
  rfl

/-- **What stands for a character is read as that character.** -/
theorem unescapeFrom_escape (c : Char) (rest : Text) :
    unescapeFrom .none (escape c ++ rest) = (unescapeFrom .none rest).map (c :: ·) := by
  have hself : c ≠ '\\' →
      unescapeFrom .none ([c] ++ rest) = (unescapeFrom .none rest).map (c :: ·) := by
    intro hc
    rw [List.singleton_append, unescapeFrom, if_neg hc]
  have hletter : ∀ d, d ≠ 'u' → letter? d = some c →
      unescapeFrom .none ([('\\' : Char), d] ++ rest) =
        (unescapeFrom .none rest).map (c :: ·) := by
    intro d hd hletter
    rw [List.cons_append, unescapeFrom, if_pos rfl, List.singleton_append, unescapeFrom,
      if_neg hd, hletter]
    rfl
  delta escape
  repeat rw [Text.toList_eq (by rfl)]
  split_ifs with hnull htab hreturn hline hbackslash hquote hprints
  · exact hletter '0' (by decide) (by rw [hnull]; rfl)
  · exact hletter 't' (by decide) (by rw [htab]; rfl)
  · exact hletter 'r' (by decide) (by rw [hreturn]; rfl)
  · exact hletter 'n' (by decide) (by rw [hline]; rfl)
  · exact hletter '\\' (by decide) (by rw [hbackslash]; rfl)
  · exact hletter '"' (by decide) (by rw [hquote]; rfl)
  · exact hself hbackslash
  · exact unescapeFrom_codePointEscape c rest
  · exact hself hbackslash

/-- **The contents of the literal of a text stand for that text.** -/
theorem unescape?_escape (t : Text) : unescape? (t.flatMap escape) = some t := by
  rw [unescape?]
  induction t with
  | nil => rfl
  | cons c t ih => rw [List.flatMap_cons, unescapeFrom_escape, ih, Option.map_some]

/-! ## Pieces of source -/

/-- **What the literals of a source stand for**, in order. -/
def texts (s : Text) : List (Option Text) :=
  ((lexemes none false s).filterMap Lexeme.content?).map unescape?

/-- **A piece of source that begins and ends outside literals**: whatever
follows it, `erased` is left of it, and its literals stand for `found`. -/
structure Scans (s erased : Text) (found : List Text) : Prop where
  /-- What is left. -/
  erase_append : ∀ rest, erase (s ++ rest) = erased ++ erase rest
  /-- What the literals stand for. -/
  texts_append : ∀ rest, texts (s ++ rest) = found.map some ++ texts rest

namespace Scans

variable {s t e e' : Text} {found found' : List Text}

theorem nil : Scans [] [] [] := ⟨fun _ => rfl, fun _ => rfl⟩

theorem of_eq (h : Scans s e found) (heq : found = found') : Scans s e found' := heq ▸ h

/-- One piece of source after the other. -/
theorem append (h : Scans s e found) (h' : Scans t e' found') :
    Scans (s ++ t) (e ++ e') (found ++ found') where
  erase_append := fun rest => by
    rw [List.append_assoc, h.erase_append, h'.erase_append, List.append_assoc]
  texts_append := fun rest => by
    rw [List.append_assoc, h.texts_append, h'.texts_append, List.map_append, List.append_assoc]

/-- A whole source. -/
theorem erase_eq (h : Scans s e found) : erase s = e := by
  have happend := h.erase_append []
  rw [List.append_nil] at happend
  rw [happend]
  exact List.append_nil e

theorem texts_eq (h : Scans s e found) : texts s = found.map some := by
  have happend := h.texts_append []
  rw [List.append_nil] at happend
  rw [happend]
  exact List.append_nil _

/-- Pieces of source in a list. -/
theorem intercalate {α : Type} {sep : Text} {f g : α → Text} {found : α → List Text}
    (hsep : Scans sep sep []) {l : List α} (hl : ∀ a ∈ l, Scans (f a) (g a) (found a)) :
    Scans (List.intercalate sep (l.map f)) (List.intercalate sep (l.map g)) (l.flatMap found) := by
  induction l with
  | nil => exact .nil
  | cons a l ih =>
    rw [List.forall_mem_cons] at hl
    cases l with
    | nil => simpa [List.intercalate] using hl.1
    | cons b l =>
      have hrest := hl.1.append (hsep.append (ih hl.2))
      simpa [List.intercalate] using hrest

end Scans

/-- Without quotes a source is characters up to one that is no backslash. -/
theorem lexemes_of_not_mem {s : Text} (hs : '"' ∉ s) {c : Char} (hc : c ≠ '"' ∧ c ≠ '\\')
    (escaped : Bool) (rest : Text) :
    lexemes none escaped (s ++ c :: rest) =
      (s ++ [c]).map .char ++ lexemes none false rest := by
  induction s generalizing escaped with
  | nil => simp [lexemes, hc]
  | cons d s ih =>
    rw [List.mem_cons, not_or] at hs
    have hd : (decide (d = '"') && !escaped) = false := by simp [Ne.symm hs.1]
    rw [List.cons_append, lexemes, hd, ih hs.2]
    rfl

theorem flatMap_erased_map_char (s : Text) : (s.map Lexeme.char).flatMap Lexeme.erased = s := by
  induction s with
  | nil => rfl
  | cons c s ih => rw [List.map_cons, List.flatMap_cons, ih]; rfl

theorem filterMap_content?_map_char (s : Text) :
    (s.map Lexeme.char).filterMap Lexeme.content? = [] := by
  induction s with
  | nil => rfl
  | cons c s ih => rw [List.map_cons]; exact ih

/-- **A source without quotes** stays as it is, if it does not end with a
backslash. -/
theorem scans_of_not_mem {s : Text} (hs : '"' ∉ s) {c : Char} (hc : c ≠ '"' ∧ c ≠ '\\') :
    Scans (s ++ [c]) (s ++ [c]) [] where
  erase_append := fun rest => by
    rw [List.append_assoc, List.singleton_append, erase, lexemes_of_not_mem hs hc,
      List.flatMap_append, flatMap_erased_map_char]
    rfl
  texts_append := fun rest => by
    rw [List.append_assoc, List.singleton_append, texts, lexemes_of_not_mem hs hc,
      List.filterMap_append, filterMap_content?_map_char]
    rfl

/-- So does a source of plain characters. -/
theorem scans_of_plain {s : Text} (hs : Plain s) : Scans s s [] := by
  rcases List.eq_nil_or_concat s with rfl | ⟨s, c, rfl⟩
  · exact .nil
  · rw [List.concat_eq_append] at hs ⊢
    exact scans_of_not_mem (fun hmem => (hs '"' (by simp [hmem])).1 rfl) (hs c (by simp))

/-- Strings of plain characters. -/
theorem scans_toList {s : String} {l : Text} (h : s = String.ofList l) (hl : Plain l) :
    Scans s.toList s.toList [] := by
  rw [Text.toList_eq h]
  exact scans_of_plain hl

/-- A piece without quotes and plain characters behind it. -/
theorem scans_append_toList {r : Text} (hr : '"' ∉ r) {s : String} {c : Char} {l : Text}
    (h : s = String.ofList (c :: l)) (hl : Plain (c :: l)) :
    Scans (r ++ s.toList) (r ++ s.toList) [] := by
  rw [Text.toList_eq h, List.append_cons]
  have hfirst := scans_of_not_mem hr (hl c (by simp))
  have hrest : Scans l l [] := scans_of_plain fun d hd => hl d (by simp [hd])
  exact hfirst.append hrest

/-- **No text ends its literal early**, and its literal stands for it. -/
theorem scans_quote (t : Text) : Scans (quote t) (quote []) [t] where
  erase_append := fun rest => by rw [erase, lexemes_quote]; rfl
  texts_append := fun rest => by
    rw [texts, lexemes_quote]
    change unescape? (t.flatMap escape) :: texts rest = _
    rw [unescape?_escape]
    rfl

/-- A literal between plain characters. -/
theorem scans_between {s r : String} {l m : Text} (hs : s = String.ofList l) (hl : Plain l)
    (hr : r = String.ofList m) (hm : Plain m) (t : Text) :
    Scans (s.toList ++ quote t ++ r.toList) (s.toList ++ quote [] ++ r.toList) [t] :=
  ((scans_toList hs hl).append (scans_quote t)).append (scans_toList hr hm)

end Literal

end FormTemplate
