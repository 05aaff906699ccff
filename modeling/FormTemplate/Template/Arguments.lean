import FormTemplate.Template.Word

/-!
# Arguments of a directive

The arguments of a directive are one text that is read word by word. Words
are separated by white space outside quotes, and a quote that is never
closed runs to the end. `Arguments` remembers the whole text and what is
left of it, so that reading can start over.
-/

namespace FormTemplate

namespace Template

/-- The arguments of a directive and how far they have been read. -/
structure Arguments where
  /-- All of the arguments. -/
  source : Text
  /-- What has not been read yet. -/
  rest : Text
deriving Repr, DecidableEq

namespace Arguments

/-- Arguments of which nothing has been read. -/
def ofText (s : Text) : Arguments := ⟨s, s⟩

/-- The first word of a text and what follows it; the word is empty when
the text holds white space only. -/
def firstWord (s : Text) : Text × Text := Quotation.spanUntil Text.isBlank none (Text.trimStart s)

/-- **The words of a text, in order.** -/
def words (s : Text) : List Text :=
  go 0 s
where
  /-- The words that start after the first `skip` characters. -/
  go : Nat → Text → List Text
    | _, [] => []
    | skip + 1, _ :: s => go skip s
    | 0, c :: s =>
      if Text.isBlank c then go 0 s
      else
        let word := (Quotation.spanUntil Text.isBlank none (c :: s)).1
        word :: go (word.length - 1) s

/-- The next word, if there is one, and the arguments past it. -/
def next (a : Arguments) : Option Text × Arguments :=
  let w := firstWord a.rest
  (if w.1.isEmpty then none else some w.1, { a with rest := w.2 })

/-- All words not read yet, and the arguments past them. -/
def all (a : Arguments) : List Text × Arguments := (words a.rest, { a with rest := [] })

/-- Whether only white space is left. -/
def atEnd (a : Arguments) : Bool := a.rest.all Text.isBlank

/-- The arguments with nothing read. -/
def rewind (a : Arguments) : Arguments := ofText a.source

end Arguments

end Template

end FormTemplate
