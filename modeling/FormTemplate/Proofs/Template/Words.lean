import FormTemplate.Template.Arguments
import FormTemplate.Proofs.Text.Quotes

/-!
# Words of a directive's arguments

`Arguments.words` walks the arguments once and `Arguments.next` takes one
word at a time. `words_eq` says that the first of the words is the one
that is taken and the others are those of what is left, so that reading
word by word reads the words in order. A text that closes its quotes is cut
into words that close theirs (`closed_of_mem_words`), and the words of two
such texts with white space between them are the words of one and then
those of the other (`words_append_of_closed`).
-/

namespace FormTemplate

namespace Template

/-! ## What a word spells -/

theorem Word.ofText_quoted {q : Char} (hq : Quotation.isQuote q = true) (t : Text) :
    ofText (q :: t ++ [q]) = .literal t := by
  simp [ofText, unquote?, hq]

/-- A text with a quote in front only is taken as it stands. -/
theorem Word.ofText_of_unclosed {q : Char} (hq : Quotation.isQuote q = true) {t : Text} (ht : q ∉ t) :
    ofText (q :: t) = .literal (q :: t) := by
  have hlast : (t.getLast? == some q) = false := by
    rw [beq_eq_false_iff_ne]
    intro hlast
    exact ht (List.mem_of_getLast? hlast)
  have hsigil : q ≠ sigil := by
    rintro rfl
    cases hq
  simp [ofText, unquote?, hlast, hsigil]

/-- What follows the sigil is an expression. -/
theorem Word.ofText_sigil {code : Text} (h : code ≠ []) :
    ofText (sigil :: code) = .expression code := by
  have hquote : Quotation.isQuote sigil = false := by decide
  simp [ofText, unquote?, hquote, h]

/-! ## Cutting a text into words -/

namespace Arguments

/-- Words read after some characters are those of what is left. -/
theorem words_go_eq (k : Nat) (s : Text) : words.go k s = words.go 0 (s.drop k) := by
  induction s generalizing k with
  | nil => cases k <;> rfl
  | cons c s ih =>
    cases k with
    | zero => rfl
    | succ k => rw [words.go, ih]; simp

/-- The white space in front of a text holds no word. -/
theorem words_cons_of_isBlank {c : Char} (h : Text.isBlank c = true) (s : Text) :
    words (c :: s) = words s := by
  simp only [words]
  rw [words.go, if_pos h]

/-- A text that starts with a character of a word starts with that word. -/
theorem words_cons_of_not_isBlank {c : Char} (h : ¬ Text.isBlank c = true) (s : Text) :
    words (c :: s) =
      (Quotation.spanUntil Text.isBlank none (c :: s)).1 ::
        words (Quotation.spanUntil Text.isBlank none (c :: s)).2 := by
  have hs := Quotation.spanUntil_append Text.isBlank none (c :: s)
  have hword : (Quotation.spanUntil Text.isBlank none (c :: s)).1 ≠ [] := by
    rw [Quotation.spanUntil]
    simp [h]
  simp only [words]
  rw [words.go, if_neg h]
  generalize Quotation.spanUntil Text.isBlank none (c :: s) = r at *
  obtain ⟨word, rest⟩ := r
  obtain ⟨d, word, rfl⟩ := List.exists_cons_of_ne_nil hword
  simp only [List.cons_append, List.cons.injEq] at hs
  obtain ⟨rfl, rfl⟩ := hs
  simp [words_go_eq word.length]

/-- **The words of a text are its first word and those of the rest**, and
there is none when the first word is empty. -/
theorem words_eq (s : Text) :
    words s = if (firstWord s).1.isEmpty then [] else (firstWord s).1 :: words (firstWord s).2 := by
  induction s with
  | nil => rfl
  | cons c s ih =>
    by_cases h : Text.isBlank c = true
    · have hfirst : firstWord (c :: s) = firstWord s := by
        simp [firstWord, Text.trimStart, h]
      rw [words_cons_of_isBlank h, hfirst, ih]
    · have hfirst : firstWord (c :: s) = Quotation.spanUntil Text.isBlank none (c :: s) := by
        simp [firstWord, Text.trimStart, h]
      rw [words_cons_of_not_isBlank h, hfirst, if_neg]
      rw [Quotation.spanUntil]
      simp [h]

theorem words_append_of_isBlank {blanks : Text} (h : ∀ c ∈ blanks, Text.isBlank c = true)
    (s : Text) : words (blanks ++ s) = words s := by
  induction blanks with
  | nil => rfl
  | cons c blanks ih =>
    rw [List.forall_mem_cons] at h
    rw [List.cons_append, words_cons_of_isBlank h.1, ih h.2]

/-- A quote is no white space. -/
theorem isBlank_of_isQuote {q : Char} (hq : Quotation.isQuote q = true) :
    Text.isBlank q = false := by
  simp only [Quotation.isQuote, Bool.or_eq_true, beq_iff_eq] at hq
  rcases hq with rfl | rfl <;> decide

/-- So white space holds no quote. -/
theorem isQuote_of_isBlank {c : Char} (hc : Text.isBlank c = true) :
    Quotation.isQuote c = false := by
  by_contra hquote
  rw [Bool.not_eq_false] at hquote
  rw [isBlank_of_isQuote hquote] at hc
  cases hc

/-- **A text without white space outside its closed quotes is one word**, if
it is followed by white space or by nothing. -/
theorem words_word_append {w rest : Text} (hne : w ≠ [])
    (hpassed : Quotation.Passed Text.isBlank w) (hrest : rest.EndsWord) :
    words (w ++ rest) = w :: words rest := by
  obtain ⟨c, w, rfl⟩ := List.exists_cons_of_ne_nil hne
  have hc : ¬ Text.isBlank c = true := by simp [(Quotation.hides_cons.1 hpassed.hides).1 rfl]
  have hstops : Quotation.spanUntil Text.isBlank none rest = ([], rest) := by
    cases rest with
    | nil => rfl
    | cons d rest => rw [Quotation.spanUntil, hrest d rfl]; rfl
  have hspan := Quotation.spanUntil_append_of_hides hpassed.hides rest
  rw [hpassed.closed, hstops, List.append_nil] at hspan
  rw [List.cons_append] at hspan ⊢
  rw [words_cons_of_not_isBlank hc, hspan]

/-- **A quoted text is one word**, whatever it holds, if it is followed by
white space or by nothing. -/
theorem words_quoted {q : Char} {t rest : Text} (hq : Quotation.isQuote q = true) (ht : q ∉ t)
    (hrest : rest.EndsWord) : words (q :: t ++ q :: rest) = (q :: t ++ [q]) :: words rest := by
  have hword := words_word_append (w := q :: t ++ [q]) (List.cons_ne_nil _ _)
    (Quotation.passed_quoted hq (isBlank_of_isQuote hq) ht) hrest
  rwa [List.append_assoc] at hword

/-- **Induction over a text that closes its quotes**: it is empty, begins
with white space, or begins with a word that closes its own. -/
theorem induction_of_closed {motive : Text → Prop} (nil : motive [])
    (blank : ∀ c s, Text.isBlank c = true → motive s → motive (c :: s))
    (word : ∀ w s, w ≠ [] → Quotation.Passed Text.isBlank w → s.EndsWord → motive s →
      motive (w ++ s))
    {s : Text} (h : Quotation.Closed s) : motive s := by
  induction hn : s.length using Nat.strongRecOn generalizing s with
  | ind n ih =>
    cases s with
    | nil => exact nil
    | cons c s =>
      by_cases hc : Text.isBlank c = true
      · have hplain : ∀ d ∈ [c], Quotation.isQuote d = false := by
          simpa using isQuote_of_isBlank hc
        have hs : Quotation.Closed s := (Quotation.closed_of_plain hplain).of_append h
        exact blank c s hc (ih s.length (by simp [← hn]) hs rfl)
      · rcases hspan : Quotation.spanUntil Text.isBlank none (c :: s) with ⟨w, - | ⟨d, rest⟩⟩
        · obtain ⟨rfl, hhides⟩ := Quotation.spanUntil_eq_nil_iff.1 hspan
          have hlast := word (c :: s) [] (List.cons_ne_nil _ _) ⟨h, hhides⟩
            (by simp [Text.EndsWord]) nil
          rwa [List.append_nil] at hlast
        · obtain ⟨heq, hhides, hclosed, hd⟩ := Quotation.spanUntil_eq_cons_iff.1 hspan
          have hne : w ≠ [] := by
            rintro rfl
            obtain ⟨rfl, -⟩ := List.cons.inj heq
            exact hc hd
          have hlength : (d :: rest).length < n := by
            have hpos := List.length_pos_iff.2 hne
            rw [← hn, heq, List.length_append]
            omega
          rw [heq] at h ⊢
          refine word w (d :: rest) hne ⟨hclosed, hhides⟩ ?_
            (ih _ hlength (Quotation.Closed.of_append hclosed h) rfl)
          rintro e he
          cases he
          exact hd

/-- **The words of a text that closes its quotes close theirs**: none of them
runs to the end of the text in quotes. -/
theorem closed_of_mem_words {s w : Text} (h : Quotation.Closed s) (hw : w ∈ words s) :
    Quotation.Closed w := by
  revert hw
  refine induction_of_closed (motive := fun s => w ∈ words s → Quotation.Closed w)
    ?nil ?blank ?word h
  case nil => exact fun hw => nomatch hw
  case blank =>
    intro c s hc ih hw
    rw [words_cons_of_isBlank hc] at hw
    exact ih hw
  case word =>
    intro first s hne hpassed hs ih hw
    rw [words_word_append hne hpassed hs] at hw
    rcases List.mem_cons.1 hw with rfl | hw
    · exact hpassed.closed
    · exact ih hw

/-- The words before white space outside quotes and those behind it. -/
theorem words_append_of_closed {s t : Text} (h : Quotation.Closed s) (ht : t.EndsWord) :
    words (s ++ t) = words s ++ words t := by
  refine induction_of_closed (motive := fun s => words (s ++ t) = words s ++ words t)
    ?nil ?blank ?word h
  case nil => rfl
  case blank =>
    intro c s hc ih
    rw [List.cons_append, words_cons_of_isBlank hc, words_cons_of_isBlank hc, ih]
  case word =>
    intro first s hne hpassed hs ih
    have hst : (s ++ t).EndsWord := by
      cases s with
      | nil => exact ht
      | cons c s => exact fun d hd => hs d hd
    rw [List.append_assoc, words_word_append hne hpassed hst, words_word_append hne hpassed hs, ih,
      List.cons_append]

/-- Taking a word takes the first of the words. -/
theorem next_of_words_cons {a : Arguments} {w : Text} {ws : List Text}
    (h : words a.rest = w :: ws) :
    ∃ rest, a.next = (some w, { a with rest }) ∧ words rest = ws := by
  rw [words_eq] at h
  split at h
  next => cases h
  next hne =>
    obtain ⟨rfl, rfl⟩ := List.cons.inj h
    exact ⟨(firstWord a.rest).2, by simp [next, hne], rfl⟩

theorem next_of_words_nil {a : Arguments} (h : words a.rest = []) :
    ∃ rest, a.next = (none, { a with rest }) := by
  rw [words_eq] at h
  split at h
  next hempty => exact ⟨(firstWord a.rest).2, by simp [next, hempty]⟩
  next => cases h

end Arguments

end Template

end FormTemplate
