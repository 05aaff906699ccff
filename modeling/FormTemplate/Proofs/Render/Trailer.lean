import FormTemplate.Proofs.Markup.Attributes
import FormTemplate.Proofs.Markup.Reading
import FormTemplate.Render.FormTags

/-!
# What stands before the end of a form

The end of a form prints hidden inputs, a marker for old browsers, and the
end tag. Names and values of the inputs come from anywhere; the main
statement (`renderEnd_reads_back`) is that a reader of the page can cut
what is printed into tags in one way only, and reads from them the names
and values that were meant, in their order.
-/

namespace FormTemplate

namespace Form

open Markup

/-! ## The hidden inputs -/

/-- A text that is set under a new name stands behind the others. -/
theorem setText_mk {tag : Text} {as : Attributes} {name : String} {value : Text}
    (h : name.toList ∉ as.map Prod.fst) :
    ({ name := tag, attributes := as } : Element).setText name value =
      { name := tag, attributes := as ++ [(name.toList, .text value)] } := by
  rw [Element.setText, Element.set, Attributes.set_of_not_mem h]

/-- What a hidden input for a parameter says. -/
def parameterAttributes (p : Text × Text) : Attributes :=
  [("type".toList, .text "hidden".toList), ("name".toList, .text p.1),
    ("value".toList, .text p.2)]

theorem parameterInput_eq (p : Text × Text) :
    parameterInput p = { name := "input".toList, attributes := parameterAttributes p } := by
  rw [parameterInput, setText_mk (by simp), setText_mk (by simp), setText_mk (by simp)]
  rfl

/-- What a hidden control says. -/
def hiddenAttributes (c : Control) : Attributes :=
  [("type".toList, .text "hidden".toList), ("name".toList, .text c.htmlName),
      ("id".toList, .text c.htmlId)] ++
    (c.rules.map fun rules => (Control.rulesAttribute.toList, AttributeValue.text rules)).toList ++
    [("value".toList, .text (c.value.getD []))]

theorem render_hidden {c : Control} (hkind : c.kind = .hidden)
    (hprototype : c.prototype = Control.prototypeOf c.kind) :
    c.render [] = { name := "input".toList, attributes := hiddenAttributes c } := by
  have hfirst : c.prototype =
      { name := "input".toList, attributes := [("type".toList, .text "hidden".toList)] } := by
    rw [hprototype, hkind]
    rfl
  rw [Control.render, hkind]
  simp only [Control.addressed, hiddenAttributes]
  rw [hfirst, setText_mk (by simp), setText_mk (by simp)]
  cases c.rules with
  | none =>
    exact setText_mk (by simp)
  | some rules =>
    simp only
    rw [setText_mk (by simp [Control.rulesAttribute]), setText_mk (by simp [Control.rulesAttribute])]
    rfl

/-- Names that can be read, and no flag that is off. -/
def Readable (as : Attributes) : Prop := ∀ a ∈ as, IsName a.1 ∧ a.2 ≠ .flag false

theorem Readable.shown {as : Attributes} (h : Readable as) : as.shown = as :=
  List.filter_eq_self.2 fun a ha => decide_eq_true (h a ha).2

theorem Readable.cons {name value : Text} {as : Attributes} (hname : IsName name)
    (h : Readable as) : Readable ((name, .text value) :: as) :=
  List.forall_mem_cons.2 ⟨⟨hname, nofun⟩, h⟩

theorem readable_parameterAttributes (p : Text × Text) : Readable (parameterAttributes p) :=
  .cons (by decide) (.cons (by decide) (.cons (by decide) nofun))

theorem readable_hiddenAttributes (c : Control) : Readable (hiddenAttributes c) := by
  rw [hiddenAttributes]
  cases c.rules with
  | none =>
    exact .cons (by decide) (.cons (by decide) (.cons (by decide) (.cons (by decide) nofun)))
  | some rules =>
    exact .cons (by decide) (.cons (by decide) (.cons (by decide)
      (.cons (by decide) (.cons (by decide) nofun))))

/-! ## What is printed -/

variable {f : Form}

/-- The parameters in the query of the action. -/
def parameters (f : Form) : List (Text × Text) := ((Query.of? f.action).map Query.parse).getD []

/-- The end of a GET form leaves out the parameters that a component of the
root replaces. -/
theorem keptParameters_of_isGet (h : f.isGet = true) :
    f.keptParameters = f.parameters.filter fun p => !f.root.contains p.1 := by
  rw [keptParameters, if_pos h]
  rfl

/-- The hidden inputs at the end of a form, as what they say. -/
def hiddenInputs (f : Form) : List Attributes :=
  f.keptParameters.map parameterAttributes ++ f.pendingHidden.map hiddenAttributes

theorem readable_of_mem_hiddenInputs {as : Attributes} (h : as ∈ f.hiddenInputs) :
    Readable as := by
  rcases List.mem_append.1 h with h | h
  · obtain ⟨p, -, rfl⟩ := List.mem_map.1 h
    exact readable_parameterAttributes p
  · obtain ⟨c, -, rfl⟩ := List.mem_map.1 h
    exact readable_hiddenAttributes c

/-- The tag of an input. -/
def inputTag (as : Attributes) : Text := startTag "input".toList as

/-- Inputs have no contents and no end tag. -/
theorem source_input (as : Attributes) :
    ({ name := "input".toList, attributes := as } : Element).source = inputTag as := by
  have hvoid : isVoidName "input".toList = true := by decide
  rw [Element.source, Element.toContent, Content.source, if_pos hvoid, endTag,
    if_pos (by rw [hvoid, Bool.or_true]), List.append_nil, List.append_nil, inputTag]

theorem source_parameterInput (p : Text × Text) :
    (parameterInput p).source = inputTag (parameterAttributes p) := by
  rw [parameterInput_eq, source_input]

/-- **What an end prints** that carries parameters and shows controls: each
parameter in a hidden input, each control as it is rendered, and what old
browsers need, all in one division that is left out around nothing; then the
end tag. -/
def ending (f : Form) (kept : List (Text × Text)) (shown : List Control) : Text :=
  let inside := kept.flatMap (inputTag ∘ parameterAttributes) ++
    (shown.flatMap (fun c => (c.render []).source) ++
      (if f.textInputCount < 2 then legacyMarker else []))
  (if inside = [] then [] else "<div>".toList ++ inside ++ "</div>\n".toList) ++
    f.element.endTag ++ ['\n']

/-- The trailer, with each parameter as the tag that carries it. -/
theorem trailer_eq_append (f : Form) :
    f.trailer = f.keptParameters.flatMap (inputTag ∘ parameterAttributes) ++
      (f.pendingHidden.flatMap (fun c => (c.render []).source) ++
        (if f.textInputCount < 2 then legacyMarker else [])) := by
  rw [trailer, List.append_assoc, List.flatMap_congr fun p _ => source_parameterInput p]
  rfl

/-- **The end carries the parameters that are kept and shows the hidden
controls that are not marked.** -/
theorem renderEnd_eq_ending (f : Form) :
    f.renderEnd = f.ending f.keptParameters f.pendingHidden := by
  rw [renderEnd, ending, trailer_eq_append]
  simp only [List.isEmpty_iff]

/-- Where the hidden controls have the element of their kind, the trailer is
a sequence of tags and the marker. -/
theorem trailer_eq (hprototype : ∀ c ∈ f.root.controls true, c.kind.isHidden = true →
      c.prototype = Control.prototypeOf c.kind) :
    f.trailer = (f.hiddenInputs.map inputTag).flatten ++
      (if f.textInputCount < 2 then legacyMarker else []) := by
  have hhidden : ∀ c ∈ f.pendingHidden, (c.render []).source = inputTag (hiddenAttributes c) := by
    intro c hc
    obtain ⟨hmem, hpending⟩ := List.mem_filter.1 hc
    have hkind : c.kind.isHidden = true := (Bool.and_eq_true _ _ ▸ hpending).1
    rw [render_hidden ?_ (hprototype c hmem hkind), source_input]
    cases hk : c.kind <;> simp [hk, Kind.isHidden] at hkind
    rfl
  rw [trailer_eq_append, List.flatMap_congr hhidden, hiddenInputs, List.map_append,
    List.flatten_append, List.map_map, List.map_map, ← List.flatMap_def, ← List.flatMap_def,
    List.append_assoc]
  rfl

theorem readTag?_inputTag {as : Attributes} (h : Readable as) :
    readTag? (inputTag as) = some ("input".toList, as, []) := by
  have hfirst : "input".toList.head?.any Char.isAlpha = true := by decide
  have hname : IsName "input".toList := by decide
  have hread := readTag?_startTag hfirst hname.2 (fun a ha => (h a ha).1) []
  rw [List.append_nil, h.shown] at hread
  exact hread

theorem isTag_inputTag {as : Attributes} (h : Readable as) : IsTag "input".toList (inputTag as) :=
  isTag_startTag (by decide) fun a ha => (h a ha).1

/-- The marker for old browsers begins with no tag of an input. -/
theorem legacyMarker_ne_append {t : Text} (ht : IsTag "input".toList t) (x : Text) :
    legacyMarker ≠ t ++ x := by
  obtain ⟨inner, rfl, -⟩ := ht
  have hsecond : legacyMarker.tail.head? = some '!' := by decide +kernel
  intro h
  rw [h] at hsecond
  simp at hsecond

theorem textInputCount_eq (f : Form) :
    f.textInputCount =
      ((f.root.controls true).filter fun c => c.kind = .text ∨ c.kind = .password).length := by
  rw [textInputCount, List.countP_eq_length_filter]
  congr 2
  funext c
  cases c.kind <;> rfl

/-- **What the end of a form prints can be cut in one way only, and reads
back as what was meant**: the parameters of the query that no component of
the root replaces, in the order of the query, and then the hidden controls
that are not marked, in document order. -/
theorem renderEnd_reads_back (hname : f.element.name = "form".toList)
    (hprototype : ∀ c ∈ f.root.controls true, c.kind.isHidden = true →
      c.prototype = Control.prototypeOf c.kind) :
    ∃ (tags : List Text) (marker : Text),
      f.renderEnd =
        (if tags.flatten ++ marker = [] then []
          else "<div>".toList ++ (tags.flatten ++ marker) ++ "</div>\n".toList) ++
        "</form>\n".toList ∧
      (∀ t ∈ tags, IsTag "input".toList t) ∧
      marker = (if ((f.root.controls true).filter fun c =>
        c.kind = .text ∨ c.kind = .password).length < 2 then legacyMarker else []) ∧
      (∀ (tags' : List Text) (marker' : Text), (∀ t ∈ tags', IsTag "input".toList t) →
        marker' = [] ∨ marker' = legacyMarker →
        tags'.flatten ++ marker' = tags.flatten ++ marker → tags' = tags ∧ marker' = marker) ∧
      tags.map readTag? =
        ((if f.isGet then
            (((Query.of? f.action).map Query.parse).getD []).filter fun p =>
              !f.root.contains p.1
          else []).map parameterAttributes ++
        ((f.root.controls true).filter fun c => c.kind.isHidden && !c.rendered).map
          hiddenAttributes).map fun as => some ("input".toList, as, []) := by
  have hinputs : ∀ as ∈ f.hiddenInputs, Readable as := fun _ => readable_of_mem_hiddenInputs
  have hbegins : ∀ m : Text, m = [] ∨ m = legacyMarker → ∀ t x, IsTag "input".toList t →
      m ≠ t ++ x := by
    rintro m (rfl | rfl) t x ht
    · obtain ⟨inner, rfl, -⟩ := ht
      simp
    · exact legacyMarker_ne_append ht x
  have htags : ∀ t ∈ f.hiddenInputs.map inputTag, IsTag "input".toList t := by
    intro t ht
    obtain ⟨as, has, rfl⟩ := List.mem_map.1 ht
    exact isTag_inputTag (hinputs as has)
  refine ⟨f.hiddenInputs.map inputTag, if f.textInputCount < 2 then legacyMarker else [],
    ?_, htags, by rw [textInputCount_eq], ?_, ?_⟩
  · have hend : f.element.endTag ++ ['\n'] = "</form>\n".toList := by
      rw [Element.endTag, hname]
      decide
    rw [renderEnd, List.append_assoc, hend, trailer_eq hprototype]
    simp only [List.isEmpty_iff]
  · intro tags' marker' htags' hmarker' heq
    refine eq_of_flatten_tags_eq (hbegins _ hmarker') (hbegins _ ?_) htags' htags heq
    split
    · exact .inr rfl
    · exact .inl rfl
  · have hread : ∀ as ∈ f.hiddenInputs,
        (readTag? ∘ inputTag) as = some ("input".toList, as, []) :=
      fun as has => readTag?_inputTag (hinputs as has)
    rw [List.map_map, List.map_congr_left hread]
    rfl

/-- A form whose parameter and hidden control would end their attributes, if
they could. -/
def quotedForm : Form where
  root := (Container.root ['f']).insert
    (.control { (Container.root ['f']).newControl "\"><b".toList .hidden with
      value := some "</div>".toList })
  element := (((Form.create ['f']).setMethod "GET".toList).setAction "/?a=%22%3E#b".toList).element

/-- Quotes and brackets stay in the values. -/
theorem renderEnd_reads_back_of_quotes :
    quotedForm.element.name = "form".toList ∧
      ∃ (tags : List Text) (marker : Text),
        quotedForm.renderEnd =
          "<div>".toList ++ (tags.flatten ++ marker) ++ "</div>\n".toList ++ "</form>\n".toList ∧
        marker = legacyMarker ∧
        tags.map readTag? =
          [parameterAttributes ("a".toList, "\">".toList),
            [("type".toList, .text "hidden".toList), ("name".toList, .text "\"><b".toList),
              ("id".toList, .text "frm-f-\"><b".toList),
              ("value".toList, .text "</div>".toList)]].map
            fun as => some ("input".toList, as, []) := by
  have hname : quotedForm.element.name = "form".toList := rfl
  have hprototype : ∀ c ∈ quotedForm.root.controls true, c.kind.isHidden = true →
      c.prototype = Control.prototypeOf c.kind := by
    intro c hc _
    obtain rfl := List.mem_singleton.1 hc
    rfl
  obtain ⟨tags, marker, hend, -, hmarker, -, hread⟩ := renderEnd_reads_back hname hprototype
  have hlegacy : marker = legacyMarker := hmarker.trans (by decide +kernel)
  refine ⟨hname, tags, marker, ?_, hlegacy,
    hread.trans (congrArg (List.map _) (by decide +kernel))⟩
  rw [hend, if_neg]
  rw [hlegacy, List.append_eq_nil_iff]
  rintro ⟨-, hnil⟩
  exact absurd hnil (by decide +kernel)

end Form

end FormTemplate
