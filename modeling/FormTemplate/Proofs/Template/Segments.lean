import FormTemplate.Template.Program
import Mathlib.Data.List.Induction

/-!
# Programs made of segments

The compiler adds segments at the end of a program, one at a time, and a
text joins a text that stands there. `Program.ofSegments` is what comes of
a sequence of segments. It prints the texts of the sequence in their order
(`flatten_texts_ofSegments`), keeps its code (`codes_ofSegments`), is
merged (`merged_ofSegments`), and begins as some beginning of the sequence
does (`exists_prefix_of_ofSegments`).
-/

namespace FormTemplate

namespace Template

namespace Program

variable {p q : Program} {s r code : Text} {l m : List Segment}

/-! ## Adding a segment -/

@[simp] theorem pushText_nil (p : Program) : pushText p [] = p := by
  cases p <;> rfl

/-- Text behind a part of a program that is not empty stays behind it. -/
theorem pushText_append (p : Program) (hq : q ≠ []) (s : Text) :
    pushText (p ++ q) s = p ++ pushText q s := by
  cases s with
  | nil => simp
  | cons c s =>
    induction p with
    | nil => rfl
    | cons segment p ih =>
      obtain ⟨x, t, hx⟩ := List.exists_cons_of_ne_nil
        (show p ++ q ≠ [] by simp [hq])
      rw [List.cons_append, List.cons_append, ← ih, hx]
      cases segment <;> rfl

/-- Text behind code does not join it. -/
theorem pushText_cons_code (code : Text) (p : Program) (s : Text) :
    pushText (.code code :: p) s = .code code :: pushText p s := by
  cases p <;> cases s <;> rfl

/-- Code that is put into a segment stands where other code stood. -/
theorem setCode_pushCode_append (p q : Program) (code code' : Text) :
    setCode (p.pushCode code ++ q) p.length code' = p.pushCode code' ++ q := by
  simp [setCode, pushCode]

theorem pushNonemptyCode_append (p q : Program) (code : Text) :
    pushNonemptyCode (p ++ q) code = p ++ q.pushNonemptyCode code := by
  rw [pushNonemptyCode, pushNonemptyCode]
  split
  · rfl
  · exact List.append_assoc ..

/-- **Text joins the text that stands at the end**, or else becomes a
segment of its own. -/
theorem pushText_cases (p : Program) (hs : s ≠ []) :
    (∃ q r, p = q ++ [.text r] ∧ p.pushText s = q ++ [.text (r ++ s)]) ∨
      (∀ q r, p ≠ q ++ [.text r]) ∧ p.pushText s = p ++ [.text s] := by
  obtain ⟨c, s, rfl⟩ := List.exists_cons_of_ne_nil hs
  rcases List.eq_nil_or_concat p with rfl | ⟨q, segment, rfl⟩
  · exact .inr ⟨by simp, rfl⟩
  · rw [List.concat_eq_append, pushText_append q (by simp)]
    cases segment with
    | text r => exact .inl ⟨q, r, rfl, rfl⟩
    | code code => exact .inr ⟨by simp, by rw [List.append_assoc]; rfl⟩

/-- Adds a segment at the end. -/
def push (p : Program) : Segment → Program
  | .text s => p.pushText s
  | .code code => p.pushCode code

/-- **The program of a sequence of segments.** -/
def ofSegments (l : List Segment) : Program := l.foldl push []

@[simp] theorem ofSegments_nil : ofSegments [] = [] := rfl

@[simp] theorem ofSegments_text (l : List Segment) (s : Text) :
    ofSegments (l ++ [.text s]) = (ofSegments l).pushText s := by
  simp [ofSegments, push]

@[simp] theorem ofSegments_code (l : List Segment) (code : Text) :
    ofSegments (l ++ [.code code]) = ofSegments l ++ [.code code] := by
  simp [ofSegments, push, pushCode]

/-- What comes after code does not change what comes before it. -/
theorem ofSegments_append_code (l m : List Segment) (code : Text) :
    ofSegments (l ++ .code code :: m) = ofSegments l ++ .code code :: ofSegments m := by
  induction m using List.reverseRecOn with
  | nil => exact ofSegments_code l code
  | append_singleton m segment ih =>
    have hassoc : l ++ .code code :: (m ++ [segment]) = (l ++ .code code :: m) ++ [segment] := by
      simp
    cases segment with
    | code c => rw [hassoc, ofSegments_code, ofSegments_code, ih]; simp
    | text s =>
      rw [hassoc, ofSegments_text, ofSegments_text, ih]
      by_cases hs : s = []
      · simp [hs]
      · cases hm : ofSegments m with
        | cons x t =>
          rw [List.append_cons, pushText_append _ (by simp)]
          simp
        | nil =>
          -- The text comes right behind the code.
          obtain ⟨c, s, rfl⟩ := List.exists_cons_of_ne_nil hs
          rw [pushText_append _ (by simp)]
          rfl

/-! ## Programs one after the other -/

/-- **One program after another.** Two texts that meet become one. -/
def join (p : Program) : Program → Program
  | .text s :: q => p.pushText s ++ q
  | q => p ++ q

@[simp] theorem join_nil (p : Program) : p.join [] = p := List.append_nil p

@[simp] theorem join_text (p q : Program) (s : Text) :
    p.join (.text s :: q) = p.pushText s ++ q := rfl

@[simp] theorem join_code (p q : Program) (code : Text) :
    p.join (.code code :: q) = p ++ .code code :: q := rfl

/-- A text is added character by character or part by part. -/
theorem pushText_pushText (p : Program) (r s : Text) :
    (p.pushText r).pushText s = p.pushText (r ++ s) := by
  by_cases hr : r = []
  · simp [hr]
  · have hrs : r ++ s ≠ [] := by simp [hr]
    -- The first part stands at the end, so the second joins it.
    have hjoin : ∀ q t, pushText (q ++ [.text t]) s = q ++ [.text (t ++ s)] := by
      intro q t
      rw [pushText_append q (by simp)]
      cases s with
      | nil => simp
      | cons c s => rfl
    rcases pushText_cases p hr with ⟨q, t, rfl, hpush⟩ | ⟨hno, hpush⟩
    · rw [hpush, hjoin, pushText_append q (by simp)]
      obtain ⟨c, u, hcons⟩ := List.exists_cons_of_ne_nil hrs
      rw [List.append_assoc, hcons]
      rfl
    · rcases pushText_cases p hrs with ⟨q, t, hp, -⟩ | ⟨-, hpush'⟩
      · exact absurd hp (hno q t)
      · rw [hpush, hpush', hjoin]

/-- A segment at the end of the second program is one at the end of both. -/
theorem push_join (p q : Program) (x : Segment) : (p.join q).push x = p.join (q.push x) := by
  have happend : ∀ (p q : Program), q ≠ [] → (p ++ q).push x = p ++ q.push x := by
    intro p q hq
    cases x with
    | text s => exact pushText_append p hq s
    | code code => exact List.append_assoc ..
  cases q with
  | nil =>
    rw [join_nil]
    cases x with
    | code code => rfl
    | text s => cases s <;> simp [push, join, pushText]
  | cons y q =>
    cases y with
    | code code =>
      have hpush : ∃ q', push (.code code :: q) x = .code code :: q' := by
        cases x with
        | code c => exact ⟨q ++ [.code c], rfl⟩
        | text s => cases s <;> cases q <;> exact ⟨_, rfl⟩
      obtain ⟨q', hq'⟩ := hpush
      rw [join_code, happend p _ (by simp), hq', join_code]
    | text r =>
      cases q with
      | cons z q =>
        have hpush : push (.text r :: z :: q) x = .text r :: push (z :: q) x :=
          happend [.text r] (z :: q) (by simp)
        rw [hpush, join_text, join_text, happend _ _ (by simp)]
      | nil =>
        rw [join_text, List.append_nil]
        cases x with
        | code code => rfl
        | text s =>
          rw [push, pushText_pushText]
          cases s <;> simp [push, join, pushText]

/-- **What one program after another is**: the segments of the one and then
those of the other, but two texts that meet are one. -/
theorem join_cases (p : Program) (hq : .text [] ∉ q) :
    (∃ p' r s q', p = p' ++ [.text r] ∧ q = .text s :: q' ∧
        p.join q = p' ++ .text (r ++ s) :: q') ∨
      (∀ p' r s q', p = p' ++ [.text r] → q ≠ .text s :: q') ∧ p.join q = p ++ q := by
  cases q with
  | nil => exact .inr ⟨by simp, rfl⟩
  | cons x q =>
    cases x with
    | code code => exact .inr ⟨by simp, rfl⟩
    | text s =>
      have hs : s ≠ [] := by
        rintro rfl
        exact hq List.mem_cons_self
      rcases pushText_cases p hs with ⟨p', r, rfl, hpush⟩ | ⟨hno, hpush⟩
      · exact .inl ⟨p', r, s, q, rfl, rfl, by rw [join_text, hpush]; simp⟩
      · exact .inr ⟨fun p' r _ _ h _ => hno p' r h, by rw [join_text, hpush]; simp⟩

/-- **The program of segments and others** is the program of the segments
and then that of the others. -/
theorem ofSegments_append (l m : List Segment) :
    ofSegments (l ++ m) = (ofSegments l).join (ofSegments m) := by
  induction m using List.reverseRecOn with
  | nil => simp
  | append_singleton m x ih =>
    have hpush : ∀ l : List Segment, ofSegments (l ++ [x]) = (ofSegments l).push x := by
      intro l
      simp [ofSegments]
    rw [← List.append_assoc, hpush, hpush, ih, push_join]

/-! ## Texts and code -/

/-- The texts of a program. -/
def texts (p : Program) : List Text :=
  p.filterMap fun
    | .text s => some s
    | .code _ => none

/-- The code of a program. -/
def codes (p : Program) : List Text :=
  p.filterMap fun
    | .text _ => none
    | .code c => some c

/-- **No text is lost, added or moved.** -/
theorem flatten_texts_ofSegments (l : List Segment) :
    (texts (ofSegments l)).flatten = (texts l).flatten := by
  induction l using List.reverseRecOn with
  | nil => rfl
  | append_singleton l segment ih =>
    cases segment with
    | code c => rw [ofSegments_code]; simpa [texts] using ih
    | text s =>
      rw [ofSegments_text]
      by_cases hs : s = []
      · simpa [hs, texts] using ih
      · rcases pushText_cases (ofSegments l) hs with ⟨q, r, hq, h⟩ | ⟨-, h⟩
        · rw [hq] at ih
          rw [h]
          simp [texts] at ih ⊢
          simp [← ih]
        · rw [h]
          simpa [texts] using ih

theorem codes_ofSegments (l : List Segment) : codes (ofSegments l) = codes l := by
  induction l using List.reverseRecOn with
  | nil => rfl
  | append_singleton l segment ih =>
    cases segment with
    | code c => rw [ofSegments_code]; simpa [codes] using ih
    | text s =>
      rw [ofSegments_text]
      by_cases hs : s = []
      · simpa [hs, codes] using ih
      · rcases pushText_cases (ofSegments l) hs with ⟨q, r, hq, h⟩ | ⟨-, h⟩
        · rw [hq] at ih
          rw [h]
          simpa [codes] using ih
        · rw [h]
          simpa [codes] using ih

/-! ## Merged programs -/

/-- **A merged program** has no empty text and no two texts side by side. -/
structure Merged (p : Program) : Prop where
  /-- No text is empty. -/
  ne_nil : .text [] ∉ p
  /-- Between two texts there is code. -/
  apart : ∀ before r s after, p ≠ before ++ .text r :: .text s :: after

theorem Merged.left (h : Merged (p ++ q)) : Merged p where
  ne_nil := fun hmem => h.ne_nil (by simp [hmem])
  apart := fun before r s after heq => h.apart before r s (after ++ q) (by simp [heq])

/-- A merged program stays merged when a segment is added that is no empty
text and does not follow a text as a text. -/
theorem Merged.append_singleton {x : Segment} (h : Merged p) (hx : x ≠ .text [])
    (hlast : ∀ q r s, p = q ++ [.text r] → x ≠ .text s) : Merged (p ++ [x]) where
  ne_nil := by
    intro hmem
    rcases List.mem_append.1 hmem with hmem | hmem
    · exact h.ne_nil hmem
    · exact hx (List.mem_singleton.1 hmem).symm
  apart := by
    intro before r s after heq
    rcases List.eq_nil_or_concat after with rfl | ⟨after, y, rfl⟩
    · -- The two texts are the last of the program and the new segment.
      have heq' : p ++ [x] = (before ++ [.text r]) ++ [.text s] := by simpa using heq
      obtain ⟨hp, hs⟩ := List.append_inj' heq' rfl
      exact hlast before r s hp (List.cons.inj hs).1
    · have heq' : p ++ [x] = (before ++ .text r :: .text s :: after) ++ [y] := by
        simpa using heq
      exact h.apart before r s after (List.append_inj' heq' rfl).1

/-- **What comes of segments is merged.** -/
theorem merged_ofSegments (l : List Segment) : Merged (ofSegments l) := by
  induction l using List.reverseRecOn with
  | nil => exact ⟨by simp, by simp⟩
  | append_singleton l segment ih =>
    cases segment with
    | code c =>
      rw [ofSegments_code]
      exact ih.append_singleton (by simp) (by simp)
    | text s =>
      rw [ofSegments_text]
      by_cases hs : s = []
      · simpa [hs] using ih
      · rcases pushText_cases (ofSegments l) hs with ⟨q, r, hq, h⟩ | ⟨hno, h⟩
        · rw [h]
          rw [hq] at ih
          refine ih.left.append_singleton (by simp [hs]) ?_
          rintro q' r' - rfl
          exact absurd (by simp) (ih.apart q' r' r [])
        · rw [h]
          exact ih.append_singleton (by simp [hs]) fun q r _ hlast => absurd hlast (hno q r)

/-- **A beginning of a program is the program of a beginning.** -/
theorem exists_prefix_of_ofSegments (h : ofSegments l = p ++ q) :
    ∃ l₁ l₂, l = l₁ ++ l₂ ∧ ofSegments l₁ = p := by
  induction l using List.reverseRecOn generalizing q with
  | nil => exact ⟨[], [], rfl, (List.append_eq_nil_iff.1 h.symm).1.symm⟩
  | append_singleton l segment ih =>
    rcases List.eq_nil_or_concat q with rfl | ⟨q, x, rfl⟩
    · exact ⟨l ++ [segment], [], by simp, by simpa using h⟩
    · -- The beginning ends before the last segment, which is all that is new.
      have hbefore : ∃ q', ofSegments l = p ++ q' := by
        rw [List.concat_eq_append, ← List.append_assoc] at h
        cases segment with
        | code c =>
          rw [ofSegments_code] at h
          exact ⟨q, (List.append_inj' h rfl).1⟩
        | text s =>
          rw [ofSegments_text] at h
          by_cases hs : s = []
          · exact ⟨q ++ [x], by simpa [hs] using h⟩
          · rcases pushText_cases (ofSegments l) hs with ⟨q', r, hq, hpush⟩ | ⟨-, hpush⟩
            · rw [hpush] at h
              exact ⟨q ++ [.text r], by rw [hq, (List.append_inj' h rfl).1]; simp⟩
            · rw [hpush] at h
              exact ⟨q, (List.append_inj' h rfl).1⟩
      obtain ⟨q', hq'⟩ := hbefore
      obtain ⟨l₁, l₂, rfl, hl⟩ := ih hq'
      exact ⟨l₁, l₂ ++ [segment], by simp, hl⟩

/-- **Code of a program is code of the sequence**, and what stands before it
is the program of what stands before it there. -/
theorem exists_of_ofSegments_code (h : ofSegments l = p ++ .code code :: q) :
    ∃ l₁ l₂, l = l₁ ++ .code code :: l₂ ∧ ofSegments l₁ = p := by
  rw [List.append_cons] at h
  obtain ⟨l, m, rfl, hl⟩ := exists_prefix_of_ofSegments h
  clear h
  -- What stands between the code and the rest of the sequence prints nothing.
  induction l using List.reverseRecOn generalizing m with
  | nil => simp at hl
  | append_singleton l segment ih =>
    cases segment with
    | code c =>
      rw [ofSegments_code] at hl
      obtain ⟨hp, hc⟩ := List.append_inj' hl rfl
      cases hc
      exact ⟨l, m, by simp, hp⟩
    | text s =>
      rw [ofSegments_text] at hl
      by_cases hs : s = []
      · rw [hs, pushText_nil] at hl
        obtain ⟨l₁, l₂, hl₁, hp⟩ := ih (.text s :: m) hl
        exact ⟨l₁, l₂, by rw [← hl₁]; simp, hp⟩
      · rcases pushText_cases (ofSegments l) hs with ⟨q', r, -, hpush⟩ | ⟨-, hpush⟩ <;>
        · rw [hpush] at hl
          cases (List.append_inj' hl rfl).2

end Program

end Template

end FormTemplate
