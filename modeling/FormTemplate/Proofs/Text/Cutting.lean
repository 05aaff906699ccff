import FormTemplate.Text.Quotation
import Mathlib.Data.List.Basic
import Mathlib.Data.List.TakeWhile

/-!
# Cutting texts

What the readers of this library take off the beginning of a text, together
with what they leave, is the text: one equation for each way to cut. The
pieces of a text between separators make it up again, and are the only
ones that do. Other sections are about white space at the ends of a text,
and about replacing the last occurrence of a text, which sees nothing of
what stands in front of that occurrence.
-/

namespace FormTemplate

namespace Text

/-! ## Cuts that lose nothing -/

/-- A cut at a separator loses the separator only. -/
theorem eq_of_cut? {c : Char} {s : Text} {p : Text × Text} (h : cut? c s = some p) :
    s = p.1 ++ c :: p.2 := by
  induction s generalizing p with
  | nil => cases h
  | cons d s ih =>
    rw [cut?] at h
    split at h
    · next hd => cases h; simp [hd]
    · obtain ⟨q, hq, rfl⟩ := Option.map_eq_some_iff.1 h
      simp [ih hq]

/-- A cut at the first separator. -/
theorem cut?_append {c : Char} {s : Text} (h : c ∉ s) (t : Text) :
    cut? c (s ++ c :: t) = some (s, t) := by
  induction s with
  | nil => simp [cut?]
  | cons d s ih =>
    rw [List.mem_cons, not_or] at h
    rw [List.cons_append, cut?, if_neg (Ne.symm h.1), ih h.2, Option.map_some]

/-- What stands before the cut holds no separator. -/
theorem not_mem_of_cut? {c : Char} {s : Text} {p : Text × Text} (h : cut? c s = some p) :
    c ∉ p.1 := by
  induction s generalizing p with
  | nil => cases h
  | cons d s ih =>
    rw [cut?] at h
    split at h
    · cases h
      exact List.not_mem_nil
    · next hd =>
      obtain ⟨q, hq, rfl⟩ := Option.map_eq_some_iff.1 h
      exact List.not_mem_cons_of_ne_of_not_mem (Ne.symm hd) (ih hq)

/-- What follows a text does not move its first separator. -/
theorem cut?_append_right {c : Char} {s : Text} {p : Text × Text} (h : cut? c s = some p)
    (t : Text) : cut? c (s ++ t) = some (p.1, p.2 ++ t) := by
  have hs := eq_of_cut? h
  have hfirst := not_mem_of_cut? h
  rw [hs, List.append_assoc, List.cons_append, cut?_append hfirst]

/-- A text without separator is not cut. -/
theorem cut?_eq_none {c : Char} {s : Text} : cut? c s = none ↔ c ∉ s := by
  constructor
  · intro h hmem
    obtain ⟨before, after, rfl, hbefore⟩ := List.eq_append_cons_of_mem hmem
    rw [cut?_append hbefore] at h
    cases h
  · intro h
    rw [Option.eq_none_iff_forall_not_mem]
    intro p hp
    exact h (eq_of_cut? hp ▸ by simp)

/-- A character that the first of two texts does not hold is in the second. -/
theorem exists_eq_append_of_not_mem {c : Char} {p q v w : Text} (hp : c ∉ p)
    (h : p ++ q = v ++ c :: w) : ∃ t, v = p ++ t ∧ q = t ++ c :: w := by
  rcases List.append_eq_append_iff.1 h with ⟨t, rfl, ht⟩ | ⟨t, rfl, ht⟩
  · exact ⟨t, rfl, ht⟩
  · cases t with
    | nil => exact ⟨[], by simp, ht.symm⟩
    | cons d t =>
      obtain ⟨rfl, -⟩ := List.cons.inj ht
      exact absurd (List.mem_append_right v List.mem_cons_self) hp

/-- What is left after the longest beginning of some kind of character. -/
theorem drop_length_takeWhile (p : Char → Bool) (s : Text) :
    s.drop (s.takeWhile p).length = s.dropWhile p := by
  have h := List.takeWhile_append_dropWhile (p := p) (l := s)
  have hdrop := congrArg (List.drop (s.takeWhile p).length) h
  rw [List.drop_left] at hdrop
  exact hdrop.symm

/-- A beginning that ends within a text is not changed by what follows the
text. -/
theorem takeWhile_append_right {p : Char → Bool} {s : Text} (h : s.dropWhile p ≠ []) (t : Text) :
    (s ++ t).takeWhile p = s.takeWhile p ∧ (s ++ t).dropWhile p = s.dropWhile p ++ t := by
  induction s with
  | nil => exact absurd rfl h
  | cons c s ih =>
    cases hc : p c with
    | false => simp [hc]
    | true =>
      rw [List.dropWhile_cons_of_pos hc] at h
      obtain ⟨htake, hdrop⟩ := ih h
      simp [hc, htake, hdrop]

/-- The first piece ends at the first separator. -/
theorem exists_pieces_eq (isSeparator : Char → Bool) (s : Text) :
    ∃ rest, pieces isSeparator s = s.takeWhile (fun c => !isSeparator c) :: rest := by
  induction s with
  | nil => exact ⟨[], rfl⟩
  | cons c s ih =>
    obtain ⟨rest, hrest⟩ := ih
    rw [pieces, hrest]
    cases hc : isSeparator c with
    | true => exact ⟨s.takeWhile (fun c => !isSeparator c) :: rest, by simp [hc]⟩
    | false => exact ⟨rest, by simp [hc]⟩

/-- There is one piece only without a separator. -/
theorem tail_pieces_eq_nil {isSeparator : Char → Bool} {s : Text} :
    (pieces isSeparator s).tail = [] ↔ ∀ c ∈ s, isSeparator c = false := by
  induction s with
  | nil => simp [pieces]
  | cons c s ih =>
    obtain ⟨ps, hps⟩ := exists_pieces_eq isSeparator s
    rw [hps, List.tail_cons] at ih
    cases hc : isSeparator c with
    | true => simp [pieces, hps, hc]
    | false => simp [pieces, hps, hc, ih]

/-- **The pieces make up the text**, with the separator between them. -/
theorem intercalate_pieces (c : Char) (s : Text) :
    List.intercalate [c] (pieces (· == c) s) = s := by
  induction s with
  | nil => rfl
  | cons d s ih =>
    obtain ⟨ps, hps⟩ := exists_pieces_eq (· == c) s
    rw [pieces]
    rw [hps] at ih ⊢
    cases hd : d == c with
    | true =>
      rw [beq_iff_eq] at hd
      simpa [List.intercalate, hd] using ih
    | false =>
      cases ps with
      | nil => simpa [List.intercalate] using ih
      | cons p ps => simpa [List.intercalate] using ih

/-- And none of them holds it. -/
theorem not_mem_of_mem_pieces {c : Char} {s p : Text} (h : p ∈ pieces (· == c) s) : c ∉ p := by
  induction s generalizing p with
  | nil =>
    obtain rfl := List.mem_singleton.1 h
    exact List.not_mem_nil
  | cons d s ih =>
    obtain ⟨ps, hps⟩ := exists_pieces_eq (· == c) s
    rw [pieces, hps] at h
    rw [hps] at ih
    cases hd : d == c with
    | true =>
      rw [hd] at h
      rcases List.mem_cons.1 h with rfl | h
      · exact List.not_mem_nil
      · exact ih h
    | false =>
      rw [hd] at h
      rcases List.mem_cons.1 h with rfl | h
      · rw [beq_eq_false_iff_ne] at hd
        exact List.not_mem_cons_of_ne_of_not_mem (Ne.symm hd) (ih List.mem_cons_self)
      · exact ih (List.mem_cons_of_mem _ h)

/-- A text cut at a separator has the pieces of both parts. -/
theorem pieces_append {isSeparator : Char → Bool} {c : Char} (hc : isSeparator c = true)
    (s t : Text) :
    pieces isSeparator (s ++ c :: t) = pieces isSeparator s ++ pieces isSeparator t := by
  induction s with
  | nil => simp [pieces, hc]
  | cons d s ih =>
    obtain ⟨ps, hps⟩ := exists_pieces_eq isSeparator s
    rw [List.cons_append, pieces, pieces, ih, hps]
    cases isSeparator d <;> rfl

/-- A text without separator is one piece. -/
theorem pieces_of_forall {isSeparator : Char → Bool} {s : Text}
    (h : ∀ c ∈ s, isSeparator c = false) : pieces isSeparator s = [s] := by
  obtain ⟨rest, hrest⟩ := exists_pieces_eq isSeparator s
  have htail := tail_pieces_eq_nil.2 h
  rw [hrest, List.tail_cons] at htail
  rw [hrest, htail, List.takeWhile_eq_self_iff.2 fun c hc => by simp [h c hc]]

theorem pieces_of_not_mem {c : Char} {s : Text} (h : c ∉ s) : pieces (· == c) s = [s] :=
  pieces_of_forall fun _ hd => beq_eq_false_iff_ne.2 (ne_of_mem_of_not_mem hd h)

/-- The first piece ends at the first separator, and the others are those of
what follows it. -/
theorem pieces_append_cons {c : Char} {p : Text} (hp : c ∉ p) (s : Text) :
    pieces (· == c) (p ++ c :: s) = p :: pieces (· == c) s := by
  rw [pieces_append (by simp), pieces_of_not_mem hp, List.singleton_append]

/-- **Texts without separator are the pieces of what they make up.** -/
theorem pieces_intercalate {c : Char} {p : Text} {ps : List Text} (h : ∀ q ∈ p :: ps, c ∉ q) :
    pieces (· == c) (List.intercalate [c] (p :: ps)) = p :: ps := by
  induction ps generalizing p with
  | nil => simpa [List.intercalate] using pieces_of_not_mem (h p List.mem_cons_self)
  | cons q ps ih =>
    rw [List.forall_mem_cons] at h
    have hjoin : List.intercalate [c] (p :: q :: ps) = p ++ c :: List.intercalate [c] (q :: ps) := by
      simp [List.intercalate]
    rw [hjoin, pieces_append_cons h.1, ih h.2]

/-! ## White space at the ends -/

/-- **The end of a word**: nothing follows, or white space. -/
def EndsWord (s : Text) : Prop := ∀ c, s.head? = some c → isBlank c = true

theorem EndsWord.of_isPrefix {s t : Text} (h : s.EndsWord) (hts : t <+: s) : t.EndsWord := by
  obtain ⟨r, rfl⟩ := hts
  intro c hc
  obtain ⟨t, rfl⟩ := List.head?_eq_some_iff.1 hc
  exact h c rfl

theorem trimStart_append {blanks : Text} (hblanks : ∀ c ∈ blanks, isBlank c = true) (s : Text) :
    trimStart (blanks ++ s) = trimStart s := List.dropWhile_append_of_pos hblanks

theorem trimEnd_isPrefix (s : Text) : trimEnd s <+: s := by
  rw [trimEnd, ← List.reverse_suffix, List.reverse_reverse]
  exact List.dropWhile_suffix _

/-- White space is trimmed behind a character that is none. -/
theorem trimEnd_append_cons {c : Char} (hc : isBlank c = false) (s t : Text) :
    trimEnd (s ++ c :: t) = s ++ c :: trimEnd t := by
  rw [trimEnd, trimEnd, List.reverse_append, List.reverse_cons, List.append_assoc,
    List.dropWhile_append]
  split
  · next hempty =>
    rw [List.isEmpty_iff] at hempty
    simp [hc, hempty]
  · simp

theorem trimEnd_append_of_isBlank {blanks : Text} (hblanks : ∀ c ∈ blanks, isBlank c = true)
    (s : Text) : trimEnd (s ++ blanks) = trimEnd s := by
  rw [trimEnd, List.reverse_append, List.dropWhile_append_of_pos (by simpa using hblanks), trimEnd]

/-- **A text without white space at its ends.** -/
structure Trimmed (s : Text) : Prop where
  /-- It does not begin with white space. -/
  head : ∀ c, s.head? = some c → isBlank c = false
  /-- Nor does it end with it. -/
  last : ∀ c, s.getLast? = some c → isBlank c = false

theorem trimmed_of_forall {s : Text} (h : ∀ c ∈ s, isBlank c = false) : Trimmed s :=
  ⟨fun c hc => h c (List.mem_of_head? hc), fun c hc => h c (List.mem_of_getLast? hc)⟩

/-- The ends of a text are those of its first and of its last part. -/
theorem Trimmed.append {s t : Text} (hs : s.Trimmed) (hne : s ≠ []) (ht : t.Trimmed)
    (hne' : t ≠ []) (m : Text) : Trimmed (s ++ m ++ t) := by
  refine ⟨fun c hc => hs.head c ?_, fun c hc => ht.last c ?_⟩
  · rwa [List.append_assoc, List.head?_append_of_ne_nil _ hne] at hc
  · rwa [List.getLast?_append_of_ne_nil _ hne'] at hc

theorem trimStart_eq_self {s : Text} (h : ∀ c, s.head? = some c → isBlank c = false) :
    trimStart s = s := by
  cases s with
  | nil => rfl
  | cons c s => simp [trimStart, h c rfl]

theorem trimEnd_eq_self {s : Text} (h : ∀ c, s.getLast? = some c → isBlank c = false) :
    trimEnd s = s := by
  rw [trimEnd, ← trimStart, trimStart_eq_self, List.reverse_reverse]
  simpa using h

/-- **White space around a trimmed text is what trimming takes away.** -/
theorem trim_between {lead s trail : Text} (hlead : ∀ c ∈ lead, isBlank c = true)
    (hs : s.Trimmed) (htrail : ∀ c ∈ trail, isBlank c = true) :
    trim (lead ++ (s ++ trail)) = s := by
  rw [trim, trimStart_append hlead]
  cases s with
  | nil =>
    have hempty : trimStart trail = [] := List.dropWhile_eq_nil_iff.2 htrail
    rw [List.nil_append, hempty]
    rfl
  | cons c s =>
    rw [trimStart_eq_self (s := c :: s ++ trail) (by simpa using hs.head),
      trimEnd_append_of_isBlank htrail, trimEnd_eq_self hs.last]

theorem exists_trimEnd_eq (s : Text) :
    ∃ trail, (∀ c ∈ trail, isBlank c = true) ∧ s = trimEnd s ++ trail ∧
      ∀ c, (trimEnd s).getLast? = some c → isBlank c = false := by
  refine ⟨(s.reverse.takeWhile isBlank).reverse, ?_, ?_, ?_⟩
  · intro c hc
    exact List.mem_takeWhile_imp (List.mem_reverse.1 hc)
  · rw [trimEnd, ← List.reverse_append, List.takeWhile_append_dropWhile, List.reverse_reverse]
  · intro c hc
    rw [trimEnd, List.getLast?_reverse] at hc
    have hnot := List.head?_dropWhile_not isBlank s.reverse
    rw [hc] at hnot
    simpa using hnot

/-- And nothing else is taken away. -/
theorem exists_trim_eq (s : Text) :
    ∃ lead trail, (∀ c ∈ lead, isBlank c = true) ∧ (∀ c ∈ trail, isBlank c = true) ∧
      s = lead ++ (trim s ++ trail) ∧ (trim s).Trimmed := by
  obtain ⟨trail, htrail, hend, hlast⟩ := exists_trimEnd_eq (trimStart s)
  refine ⟨s.takeWhile isBlank, trail, fun c hc => List.mem_takeWhile_imp hc, htrail, ?_, ?_, hlast⟩
  · rw [trim, ← hend, trimStart, List.takeWhile_append_dropWhile]
  · intro c hc
    obtain ⟨t, ht⟩ := List.head?_eq_some_iff.1 hc
    have hstart : (trimStart s).head? = some c := by
      rw [hend, ← trim, ht]
      rfl
    have hnot := List.head?_dropWhile_not isBlank s
    rw [← trimStart, hstart] at hnot
    simpa using hnot

/-! ## Characters -/

/-- The letters of ASCII by their numbers. -/
theorem isAlpha_iff {c : Char} : c.isAlpha = true ↔
    65 ≤ c.toNat ∧ c.toNat ≤ 90 ∨ 97 ≤ c.toNat ∧ c.toNat ≤ 122 := by
  have hupper : c.isUpper = true ↔ 65 ≤ c.toNat ∧ c.toNat ≤ 90 := decide_eq_true_iff
  have hlower : c.isLower = true ↔ 97 ≤ c.toNat ∧ c.toNat ≤ 122 :=
    Bool.and_eq_true_iff.trans (and_congr decide_eq_true_iff decide_eq_true_iff)
  exact Bool.or_eq_true_iff.trans (or_congr hupper hlower)

/-- And the digits. -/
theorem isDigit_iff {c : Char} : c.isDigit = true ↔ 48 ≤ c.toNat ∧ c.toNat ≤ 57 :=
  Bool.and_eq_true_iff.trans (and_congr decide_eq_true_iff decide_eq_true_iff)

/-- And both. -/
theorem isAlphanum_iff {c : Char} : c.isAlphanum = true ↔
    (65 ≤ c.toNat ∧ c.toNat ≤ 90 ∨ 97 ≤ c.toNat ∧ c.toNat ≤ 122) ∨
      48 ≤ c.toNat ∧ c.toNat ≤ 57 :=
  Bool.or_eq_true_iff.trans (or_congr isAlpha_iff isDigit_iff)

/-! ## Texts of literals -/

/-- The text of a literal is its characters. The kernel reads the literal
as `String.ofList` at once, but would take long to decode it. -/
theorem toList_eq {s : String} {l : Text} (h : s = String.ofList l) : s.toList = l := by
  rw [h, String.toList_ofList]

/-- What holds of every character of a text is seen character by
character. -/
theorem forall_mem_of_all {p : Char → Prop} [DecidablePred p] {s : Text}
    (h : (s.all fun c => decide (p c)) = true) : ∀ c ∈ s, p c := by
  simpa using h

/-! ## Replacing the last occurrence -/

/-- A replacement behind a text is one in the whole. -/
theorem replaceLast?_append {old new s r : Text} (t : Text)
    (h : replaceLast? old new s = some r) : replaceLast? old new (t ++ s) = some (t ++ r) := by
  induction t with
  | nil => exact h
  | cons c t ih => simp [replaceLast?, ih]

end Text

namespace Quotation

/-- A cut outside quotes stops at a stop. -/
theorem stop_of_spanUntil {stop : Char → Bool} {q : Quotation} {s before rest : Text} {c : Char}
    (h : spanUntil stop q s = (before, c :: rest)) : stop c = true := by
  induction s generalizing q before with
  | nil => cases h
  | cons d s ih =>
    rw [spanUntil] at h
    split at h
    next hstop =>
      cases h
      exact (Bool.and_eq_true _ _ ▸ hstop).2
    next =>
      simp only [Prod.mk.injEq] at h
      exact ih (q := next q d) (Prod.ext rfl h.2)

/-- What follows a text does not move the first stop in it. -/
theorem spanUntil_append_right {stop : Char → Bool} {q : Quotation} {s before rest : Text}
    {c : Char} (h : spanUntil stop q s = (before, c :: rest)) (t : Text) :
    spanUntil stop q (s ++ t) = (before, c :: rest ++ t) := by
  induction s generalizing q before with
  | nil => cases h
  | cons d s ih =>
    rw [spanUntil] at h
    rw [List.cons_append, spanUntil]
    split at h
    · next hstop =>
      obtain ⟨rfl, hrest⟩ := Prod.mk.inj h
      obtain ⟨rfl, rfl⟩ := List.cons.inj hrest
      rw [if_pos hstop]
      rfl
    · next hstop =>
      obtain ⟨rfl, hrest⟩ := Prod.mk.inj h
      have hspan := ih (q := next q d) (Prod.ext rfl hrest)
      rw [if_neg hstop, hspan]

end Quotation

end FormTemplate
