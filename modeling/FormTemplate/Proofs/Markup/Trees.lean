import FormTemplate.Proofs.Markup.Reading
import Mathlib.Data.List.Chain

/-!
# Trees told apart by what they print

A tree of elements and texts prints in one way, and some trees print alike:
a flag that is off prints nothing, nor does an empty text or what a void
element holds, and two texts side by side print as one. `Content.normal`
takes all this away, and prints the same (`source_normal`). Of two trees in
normal form nothing is lost: they print alike only if they are equal
(`eq_of_source_append_eq`), because what a content prints can be told from
whatever follows it.
-/

namespace FormTemplate

namespace Markup

/-! ## Names -/

/-- A tag name: ASCII letters and digits. -/
def IsTagName (s : Text) : Prop := s ≠ [] ∧ ∀ c ∈ s, c.isAlphanum = true

instance (s : Text) : Decidable (IsTagName s) :=
  decidable_of_iff (s.isEmpty = false ∧ s.all Char.isAlphanum = true) (by simp [IsTagName])

theorem isNameChar_of_isAlphanum {c : Char} (h : c.isAlphanum = true) : isNameChar c = true := by
  have hall : ∀ n < 128, (Char.ofNat n).isAlphanum = true → isNameChar (Char.ofNat n) = true := by
    decide
  have hrange : c.toNat < 128 := by
    rw [Text.isAlphanum_iff] at h
    omega
  have hc := hall c.toNat hrange
  rw [Char.ofNat_toNat] at hc
  exact hc h

theorem IsTagName.isNameChar {s : Text} (h : IsTagName s) : ∀ c ∈ s, isNameChar c = true :=
  fun c hc => isNameChar_of_isAlphanum (h.2 c hc)

/-- **What follows a start tag can be told from it.** -/
theorem eq_of_startTag_append_eq {name other : Text} {as bs : Attributes} {x y : Text}
    (hname : IsTagName name) (hother : IsTagName other) (has : ∀ a ∈ as, IsName a.1)
    (hbs : ∀ b ∈ bs, IsName b.1) (h : startTag name as ++ x = startTag other bs ++ y) :
    name = other ∧ as.shown = bs.shown ∧ x = y := by
  rw [startTag_append hname.1, startTag_append hother.1] at h
  have htail := (List.cons.inj h).2
  obtain ⟨htake, hread⟩ := read_name_source hname.isNameChar has x
  obtain ⟨htake', hread'⟩ := read_name_source hother.isNameChar hbs y
  rw [htail] at htake hread
  obtain ⟨hshown, hrest⟩ := Prod.mk.inj (Option.some.inj (hread.symm.trans hread'))
  exact ⟨htake.symm.trans htake', hshown, hrest⟩

/-- All of the attributes show when no flag is off. -/
theorem Attributes.shown_eq_self {as : Attributes} (h : ∀ a ∈ as, a.2 ≠ .flag false) :
    as.shown = as :=
  List.filter_eq_self.2 fun a ha => decide_eq_true (h a ha)

/-- An end tag follows the contents of an element that is not void. -/
theorem endTag_append {name : Text} (hname : name ≠ []) (h : isVoidName name = false) (x : Text) :
    endTag name ++ x = '<' :: '/' :: (name ++ '>' :: x) := by
  simp [endTag, hname, h]

namespace Content

/-- Whether a content is a text. -/
def isText : Content → Bool
  | text _ => true
  | _ => false

/-- **A content without ready-made markup**, whose names can be read. -/
inductive Plain : Content → Prop
  /-- A text. -/
  | text (s : Text) : Plain (.text s)
  /-- An element. -/
  | element {name : Text} {as : Attributes} {cs : List Content} (hname : IsTagName name)
      (attributes : ∀ a ∈ as, IsName a.1) (contents : ∀ c ∈ cs, Plain c) :
      Plain (.element name as cs)

/-- No two texts stand side by side. -/
def Separate (cs : List Content) : Prop :=
  cs.IsChain fun c d => c.isText = true → d.isText = false

/-- **A content in normal form**: all of it shows, and texts are whole. -/
inductive Normal : Content → Prop
  /-- A text that is not empty. -/
  | text {s : Text} (hne : s ≠ []) : Normal (.text s)
  /-- An element whose flags are on, and that holds nothing if it is void. -/
  | element {name : Text} {as : Attributes} {cs : List Content}
      (shown : ∀ a ∈ as, a.2 ≠ .flag false) (void : isVoidName name = true → cs = [])
      (separate : Separate cs) (contents : ∀ c ∈ cs, Normal c) : Normal (.element name as cs)

/-- A plain content in normal form. -/
structure Tidy (c : Content) : Prop where
  /-- It is plain. -/
  plain : c.Plain
  /-- It is in normal form. -/
  normal : c.Normal

/-- Contents of an element in normal form. -/
structure AllTidy (cs : List Content) : Prop where
  /-- Each of them is tidy. -/
  each : ∀ c ∈ cs, c.Tidy
  /-- Their texts are whole. -/
  separate : Separate cs

variable {c d : Content} {cs ds : List Content} {x y : Text}

theorem AllTidy.tail (h : AllTidy (c :: cs)) : AllTidy cs where
  each d hd := h.each d (List.mem_cons_of_mem c hd)
  separate := (List.isChain_cons.1 h.separate).2

theorem AllTidy.head (h : AllTidy (c :: cs)) : c.Tidy := h.each c List.mem_cons_self

theorem Tidy.text_ne_nil {s : Text} (h : Tidy (.text s)) : s ≠ [] := by
  cases h.normal
  assumption

variable {name : Text} {as : Attributes}

theorem Tidy.isTagName (h : Tidy (.element name as cs)) : IsTagName name := by
  cases h.plain
  assumption

theorem Tidy.isName (h : Tidy (.element name as cs)) : ∀ a ∈ as, IsName a.1 := by
  cases h.plain
  assumption

theorem Tidy.shown (h : Tidy (.element name as cs)) : ∀ a ∈ as, a.2 ≠ .flag false := by
  cases h.normal
  assumption

theorem Tidy.eq_nil (h : Tidy (.element name as cs)) (hvoid : isVoidName name = true) :
    cs = [] := by
  cases h.normal with
  | element _ void _ _ => exact void hvoid

theorem Tidy.contents (h : Tidy (.element name as cs)) : AllTidy cs := by
  obtain ⟨hplain, hnormal⟩ := h
  cases hplain with
  | element _ _ hplain =>
    cases hnormal with
    | element _ _ separate hnormal => exact ⟨fun c hc => ⟨hplain c hc, hnormal c hc⟩, separate⟩

/-! ## Where a content ends -/

/-- A text that does not go on: what follows is nothing or a tag. -/
def EndsText (x : Text) : Prop := x = [] ∨ ∃ t, x = '<' :: t

/-- What may follow the contents of an element: nothing, or an end tag. -/
def EndsContents (x : Text) : Prop := x = [] ∨ ∃ t, x = '<' :: '/' :: t

theorem EndsContents.endsText (h : EndsContents x) : EndsText x := by
  rcases h with rfl | ⟨t, rfl⟩
  · exact .inl rfl
  · exact .inr ⟨_, rfl⟩

/-- An element prints its start tag first. -/
theorem source_element_append (name : Text) (as : Attributes) (cs : List Content) (x : Text) :
    source (.element name as cs) ++ x =
      startTag name as ++ ((if isVoidName name then [] else sources cs) ++ endTag name ++ x) := by
  rw [source, List.append_assoc, List.append_assoc, List.append_assoc]

/-- What an element prints begins with a bracket and no slash. -/
theorem exists_source_element {name : Text} (hname : IsTagName name) (as : Attributes)
    (cs : List Content) (x : Text) :
    ∃ c t, source (.element name as cs) ++ x = '<' :: c :: t ∧ c ≠ '/' := by
  obtain ⟨c, rest, rfl⟩ := List.exists_cons_of_ne_nil hname.1
  refine ⟨c, _, by rw [source_element_append, startTag_append hname.1]; rfl, ?_⟩
  rintro rfl
  exact absurd (hname.isNameChar '/' List.mem_cons_self) (by decide)

/-- What a text prints begins with no bracket. -/
theorem exists_escape {s : Text} (hs : s ≠ []) :
    ∃ c t, escape s = c :: t ∧ c ≠ '<' := by
  have hne : escape s ≠ [] := fun hnil => hs (by rw [← unescape_escape s, hnil]; rfl)
  obtain ⟨c, t, hct⟩ := List.exists_cons_of_ne_nil hne
  refine ⟨c, t, hct, ?_⟩
  rintro rfl
  exact not_mem_escape (c := '<') (by decide) s (hct ▸ List.mem_cons_self)

/-- **A text can be told from what follows it.** -/
theorem eq_of_escape_append_eq {s t : Text} (hx : EndsText x) (hy : EndsText y)
    (h : escape s ++ x = escape t ++ y) : s = t ∧ x = y := by
  have hspan : ∀ {s x : Text}, EndsText x → (escape s ++ x).takeWhile (· != '<') = escape s ∧
      (escape s ++ x).dropWhile (· != '<') = x := by
    intro s x hx
    have hall : ∀ c ∈ escape s, (c != '<') = true := fun c hc =>
      bne_iff_ne.2 (ne_of_mem_of_not_mem hc (not_mem_escape (by decide) s))
    rw [List.takeWhile_append_of_pos hall, List.dropWhile_append_of_pos hall]
    rcases hx with rfl | ⟨t, rfl⟩ <;> simp
  obtain ⟨htake, hdrop⟩ := hspan (s := s) hx
  obtain ⟨htake', hdrop'⟩ := hspan (s := t) hy
  rw [h] at htake hdrop
  refine ⟨?_, hdrop.symm.trans hdrop'⟩
  rw [← unescape_escape s, ← htake, htake', unescape_escape]

/-- A text does not begin like an element. -/
theorem source_text_append_ne {s : Text} (hs : s ≠ []) {name : Text} (hname : IsTagName name)
    (as : Attributes) (cs : List Content) (x y : Text) :
    source (.text s) ++ x ≠ source (.element name as cs) ++ y := by
  obtain ⟨c, t, hct, hc⟩ := exists_escape hs
  obtain ⟨d, u, hdu, -⟩ := exists_source_element hname as cs y
  rw [source, hct, hdu]
  intro h
  exact hc (List.cons.inj h).1

/-- Behind a text stands a tag, or nothing. -/
theorem AllTidy.endsText (h : AllTidy (c :: cs)) (hc : c.isText = true) (hx : EndsContents x) :
    EndsText (sources cs ++ x) := by
  cases cs with
  | nil => exact hx.endsText
  | cons d ds =>
    have hd : d.isText = false := (List.isChain_cons.1 h.separate).1 d rfl hc
    cases h.tail.head.plain with
    | text s => cases hd
    | element hname _ _ =>
      obtain ⟨e, t, heq, -⟩ := exists_source_element hname _ _ (sources ds ++ x)
      exact .inr ⟨_, by rw [sources, List.append_assoc, heq]⟩

/-- Contents do not begin like what follows them. -/
theorem AllTidy.ne_of_endsContents (h : AllTidy (c :: cs)) (hx : EndsContents x) (y : Text) :
    sources (c :: cs) ++ y ≠ x := by
  rw [sources, List.append_assoc]
  obtain ⟨hplain, hnormal⟩ := h.head
  cases hnormal with
  | text hne =>
    obtain ⟨d, t, heq, hd⟩ := exists_escape hne
    rw [source, heq]
    rcases hx with rfl | ⟨u, rfl⟩
    · simp
    · simp [hd]
  | element =>
    cases hplain with
    | element hname _ _ =>
      obtain ⟨d, t, heq, hd⟩ := exists_source_element hname _ _ (sources cs ++ y)
      rw [heq]
      rcases hx with rfl | ⟨u, rfl⟩
      · simp
      · simp [hd]

/-! ## Cutting what is printed -/

mutual

/-- **A content can be told from what follows it.** -/
theorem eq_of_source_append_eq : ∀ {c d : Content} {x y : Text}, c.Tidy → d.Tidy →
    (c.isText = true → EndsText x) → (d.isText = true → EndsText y) →
    source c ++ x = source d ++ y → c = d ∧ x = y
  | .text s, .text t, x, y, _, _, hx, hy, h => by
    obtain ⟨rfl, hrest⟩ := eq_of_escape_append_eq (hx rfl) (hy rfl) h
    exact ⟨rfl, hrest⟩
  | .text s, .element name as cs, x, y, hc, hd, _, _, h =>
    absurd h (source_text_append_ne hc.text_ne_nil hd.isTagName as cs x y)
  | .element name as cs, .text s, x, y, hc, hd, _, _, h =>
    absurd h.symm (source_text_append_ne hd.text_ne_nil hc.isTagName as cs y x)
  | .element name as cs, .element other bs ds, x, y, hc, hd, _, _, h => by
    rw [source_element_append, source_element_append] at h
    obtain ⟨rfl, hattributes, hrest⟩ :=
      eq_of_startTag_append_eq hc.isTagName hd.isTagName hc.isName hd.isName h
    rw [Attributes.shown_eq_self hc.shown, Attributes.shown_eq_self hd.shown] at hattributes
    subst hattributes
    cases hvoid : isVoidName name with
    | true =>
      rw [hc.eq_nil hvoid, hd.eq_nil hvoid]
      simp only [hvoid, endTag, if_true, Bool.or_true, List.nil_append] at hrest
      exact ⟨rfl, hrest⟩
    | false =>
      have hend : ∀ x : Text, EndsContents (endTag name ++ x) := fun x =>
        .inr ⟨_, endTag_append hc.isTagName.1 hvoid x⟩
      rw [hvoid, if_neg Bool.false_ne_true, if_neg Bool.false_ne_true, List.append_assoc,
        List.append_assoc] at hrest
      obtain ⟨rfl, hxy⟩ := eq_of_sources_append_eq hc.contents hd.contents (hend x) (hend y) hrest
      exact ⟨rfl, List.append_cancel_left hxy⟩
  | .raw _, _, _, _, hc, _, _, _, _ => nomatch hc.plain
  | .text _, .raw _, _, _, _, hd, _, _, _ => nomatch hd.plain
  | .element _ _ _, .raw _, _, _, _, hd, _, _, _ => nomatch hd.plain

theorem eq_of_sources_append_eq : ∀ {cs ds : List Content} {x y : Text}, AllTidy cs → AllTidy ds →
    EndsContents x → EndsContents y → sources cs ++ x = sources ds ++ y → cs = ds ∧ x = y
  | [], [], _, _, _, _, _, _, h => ⟨rfl, h⟩
  | [], d :: ds, x, y, _, hds, hx, _, h => absurd h.symm (hds.ne_of_endsContents hx y)
  | c :: cs, [], x, y, hcs, _, _, hy, h => absurd h (hcs.ne_of_endsContents hy x)
  | c :: cs, d :: ds, x, y, hcs, hds, hx, hy, h => by
    rw [sources, sources, List.append_assoc, List.append_assoc] at h
    obtain ⟨rfl, hrest⟩ := eq_of_source_append_eq hcs.head hds.head
      (fun hc => hcs.endsText hc hx) (fun hd => hds.endsText hd hy) h
    obtain ⟨rfl, hxy⟩ := eq_of_sources_append_eq hcs.tail hds.tail hx hy hrest
    exact ⟨rfl, hxy⟩

end

/-! ## The normal form -/

/-- A content in front of others: an empty text is left out, and a text is
joined to the one it stands before. -/
def prepend : Content → List Content → List Content
  | text [], cs => cs
  | text s, text t :: cs => text (s ++ t) :: cs
  | c, cs => c :: cs

mutual

/-- **The normal form of a content.** -/
def normal : Content → Content
  | text s => text s
  | raw s => raw s
  | element name as cs =>
    element name as.shown (if isVoidName name then [] else normalAll cs)

/-- The normal form of contents. -/
def normalAll : List Content → List Content
  | [] => []
  | c :: cs => prepend (normal c) (normalAll cs)

end

theorem sources_prepend (c : Content) (cs : List Content) :
    sources (prepend c cs) = source c ++ sources cs := by
  fun_cases prepend c cs with
  | case1 => rfl
  | case2 s t cs => rw [sources, sources, source, source, source, escape_append, List.append_assoc]
  | case3 => rfl

theorem startTag_shown (name : Text) (as : Attributes) :
    startTag name as.shown = startTag name as := by
  rw [startTag, startTag, source_shown]

mutual

/-- **The normal form prints the same.** -/
theorem source_normal : ∀ c, source (normal c) = source c
  | text s => rfl
  | raw s => rfl
  | element name as cs => by
    rw [normal, source, source, startTag_shown]
    cases isVoidName name with
    | true => rfl
    | false => rw [if_neg Bool.false_ne_true, if_neg Bool.false_ne_true, if_neg Bool.false_ne_true,
        sources_normalAll cs]

theorem sources_normalAll : ∀ cs, sources (normalAll cs) = sources cs
  | [] => rfl
  | c :: cs => by rw [normalAll, sources_prepend, source_normal c, sources_normalAll cs, sources]

end

theorem isText_normal (c : Content) : c.normal.isText = c.isText := by
  cases c <;> rfl

theorem AllTidy.cons (hc : c.Tidy) (hcs : AllTidy cs)
    (hhead : ∀ d, cs.head? = some d → c.isText = true → d.isText = false) :
    AllTidy (c :: cs) where
  each := List.forall_mem_cons.2 ⟨hc, hcs.each⟩
  separate := List.isChain_cons.2 ⟨hhead, hcs.separate⟩

theorem tidy_text {s : Text} (hs : s ≠ []) : Tidy (.text s) := ⟨.text s, .text hs⟩

/-- **Contents stay tidy** when a text, or a tidy element, is put in front of
them. -/
theorem AllTidy.prepend (hcs : AllTidy cs) (hc : c.isText = false → c.Tidy) :
    AllTidy (prepend c cs) := by
  fun_cases Content.prepend c cs with
  | case1 => exact hcs
  | case2 s t cs =>
    have hne : s ++ t ≠ [] := List.append_ne_nil_of_right_ne_nil s hcs.head.text_ne_nil
    exact hcs.tail.cons (tidy_text hne) (List.isChain_cons.1 hcs.separate).1
  | case3 _ _ hne hother =>
    cases c with
    | text s =>
      refine hcs.cons (tidy_text fun hs => hne (by rw [hs])) fun d hd _ => ?_
      obtain ⟨ds, rfl⟩ := List.head?_eq_some_iff.1 hd
      cases d with
      | text t => exact (hother s t ds rfl rfl).elim
      | raw s => rfl
      | element name as cs => rfl
    | raw s => exact hcs.cons (hc rfl) nofun
    | element name as cs => exact hcs.cons (hc rfl) nofun

/-- **The normal form of a plain element is tidy**, and that of a plain text
is that text. -/
theorem Plain.tidy_normal (h : c.Plain) :
    c.normal.Plain ∧ (c.isText = false → c.normal.Tidy) := by
  induction h with
  | text s => exact ⟨.text s, nofun⟩
  | @element name as cs hname has _ ih =>
    have hcontents : ∀ {ds : List Content}, (∀ d ∈ ds, d ∈ cs) → AllTidy (normalAll ds) := by
      intro ds hds
      induction ds with
      | nil => exact ⟨nofun, .nil⟩
      | cons d ds ihds =>
        obtain ⟨hd, hds⟩ := List.forall_mem_cons.1 hds
        refine (ihds hds).prepend fun htext => ?_
        rw [isText_normal] at htext
        exact (ih d hd).2 htext
    have hnormal : AllTidy (if isVoidName name then [] else normalAll cs) := by
      split
      · exact ⟨nofun, .nil⟩
      · exact hcontents fun _ hd => hd
    have hshown : ∀ a ∈ as.shown, a ∈ as ∧ a.2 ≠ .flag false := fun a ha => by
      simpa [Attributes.shown] using ha
    have hplain : Plain (normal (.element name as cs)) :=
      .element hname (fun a ha => has a (hshown a ha).1) fun d hd => (hnormal.each d hd).plain
    refine ⟨hplain, fun _ => ⟨hplain, .element (fun a ha => (hshown a ha).2) ?_ hnormal.separate
      fun d hd => (hnormal.each d hd).normal⟩⟩
    intro hvoid
    rw [if_pos hvoid]

/-- Nothing has to be done to put a content in front of others that it is
separate from. -/
theorem Normal.prepend_eq (hc : c.Normal) (h : Separate (c :: cs)) : prepend c cs = c :: cs := by
  fun_cases prepend c cs with
  | case1 =>
    cases hc with
    | text hne => exact absurd rfl hne
  | case2 s t cs => cases (List.isChain_cons.1 h).1 (.text t) rfl rfl
  | case3 => rfl

/-- **What is in normal form is its own normal form.** -/
theorem Normal.normal_eq (h : c.Normal) : c.normal = c := by
  induction h with
  | text hne => rfl
  | @element name as cs shown void separate contents ih =>
    have hcontents : normalAll cs = cs := by
      clear void
      induction cs with
      | nil => rfl
      | cons d ds ihds =>
        obtain ⟨hd, hds⟩ := List.forall_mem_cons.1 contents
        obtain ⟨hdeq, hdseq⟩ := List.forall_mem_cons.1 ih
        rw [normalAll, hdeq, ihds (List.isChain_cons.1 separate).2 hds hdseq,
          hd.prepend_eq separate]
    rw [normal, Attributes.shown_eq_self shown, hcontents]
    split
    · next hvoid => rw [void hvoid]
    · rfl

end Content

namespace Element

/-- An element without ready-made markup in it, whose names can be read. -/
def Plain (e : Element) : Prop := e.toContent.Plain

/-- An element in normal form. -/
def Normal (e : Element) : Prop := e.toContent.Normal

/-- **The normal form of an element.** -/
def normal (e : Element) : Element where
  name := e.name
  attributes := e.attributes.shown
  contents := if e.isVoid then [] else Content.normalAll e.contents

variable {e f : Element}

theorem toContent_injective (h : e.toContent = f.toContent) : e = f := by
  obtain ⟨name, attributes, contents⟩ := e
  obtain ⟨other, bs, ds⟩ := f
  cases h
  rfl

/-- In normal form, elements that print alike are equal. -/
theorem Normal.eq_of_source_eq (he' : e.Normal) (hf' : f.Normal) (he : e.Plain) (hf : f.Plain)
    (h : e.source = f.source) : e = f := by
  have happend : e.toContent.source ++ [] = f.toContent.source ++ [] := by
    rw [List.append_nil, List.append_nil]
    exact h
  exact toContent_injective
    (Content.eq_of_source_append_eq ⟨he, he'⟩ ⟨hf, hf'⟩ nofun nofun happend).1

/-- The normal form of a plain element is plain, in normal form, and prints
the same. -/
theorem Plain.normal (h : e.Plain) :
    e.normal.Plain ∧ e.normal.Normal ∧ e.normal.source = e.source := by
  obtain ⟨hplain, htidy⟩ := Content.Plain.tidy_normal h
  exact ⟨hplain, (htidy rfl).normal, Content.source_normal e.toContent⟩

/-- **What elements print tells them apart.** Of elements in normal form only
equal ones print alike; every element prints like its normal form, and is it
if it is in normal form; so elements print alike exactly when their normal
forms are equal. -/
theorem source_tells_apart (he : e.Plain) (hf : f.Plain) :
    (e.Normal → f.Normal → e.source = f.source → e = f) ∧
      (e.normal.Plain ∧ e.normal.Normal ∧ e.normal.source = e.source) ∧
      (e.Normal → e.normal = e) ∧
      (e.source = f.source ↔ e.normal = f.normal) := by
  obtain ⟨heplain, henormal, hesource⟩ := he.normal
  obtain ⟨hfplain, hfnormal, hfsource⟩ := hf.normal
  refine ⟨fun he' hf' => he'.eq_of_source_eq hf' he hf, he.normal,
    fun he' => toContent_injective (Content.Normal.normal_eq he'), ?_, fun heq => ?_⟩
  · intro hsource
    rw [← hesource, ← hfsource] at hsource
    exact henormal.eq_of_source_eq hfnormal heplain hfplain hsource
  · rw [← hesource, ← hfsource, heq]

/-- An element with a flag that is off, texts side by side, one of them
empty, and a line break that holds a text. -/
def loose : Element where
  name := ['d', 'i', 'v']
  attributes := [(['t'], .text ['"', '>']), (['o', 'n'], .flag true), (['o', 'f'], .flag false)]
  contents := [.text ['x', '<'], .text [], .text ['y'], .element ['B', 'R'] [] [.text ['z']]]

/-- The same with all that does not show taken away. -/
def whole : Element where
  name := ['d', 'i', 'v']
  attributes := [(['t'], .text ['"', '>']), (['o', 'n'], .flag true)]
  contents := [.text ['x', '<', 'y'], .element ['B', 'R'] [] []]

theorem source_tells_apart_of_loose :
    loose.Plain ∧ whole.Plain ∧ whole.Normal ∧ loose ≠ whole ∧ loose.normal = whole ∧
      loose.source = whole.source := by
  have hloose : loose.Plain := by
    have hbreak : Content.Plain (.element ['B', 'R'] [] [.text ['z']]) :=
      .element (by decide) nofun (List.forall_mem_singleton.2 (.text _))
    exact .element (by decide) (by decide)
      (List.forall_mem_cons.2 ⟨.text _, List.forall_mem_cons.2 ⟨.text _,
        List.forall_mem_cons.2 ⟨.text _, List.forall_mem_singleton.2 hbreak⟩⟩⟩)
  have hbreak : Content.Plain (.element ['B', 'R'] [] []) := .element (by decide) nofun nofun
  have hwhole : whole.Plain :=
    .element (by decide) (by decide)
      (List.forall_mem_cons.2 ⟨.text _, List.forall_mem_singleton.2 hbreak⟩)
  have hbreak : Content.Normal (.element ['B', 'R'] [] []) :=
    .element nofun (fun _ => rfl) .nil nofun
  have hnormal : whole.Normal :=
    .element (by decide) nofun (.cons_cons (fun _ => rfl) (.singleton _))
      (List.forall_mem_cons.2 ⟨.text (by decide), List.forall_mem_singleton.2 hbreak⟩)
  have hne : loose ≠ whole := by
    intro h
    cases congrArg Element.attributes h
  obtain ⟨-, -, hself, hsource⟩ := source_tells_apart hwhole hloose
  have heq : whole.normal = loose.normal := rfl
  exact ⟨hloose, hwhole, hnormal, hne, heq.symm.trans (hself hnormal), (hsource.2 heq).symm⟩

end Element

end Markup

end FormTemplate
