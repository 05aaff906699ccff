import FormTemplate.Text.Utf8
import FormTemplate.Template.Compile
import FormTemplate.Render.FormTags
import FormTemplate.Render.Context
import FormTemplate.Form.Storage
import FormTemplate.Markup.Element
import FormTemplate.Settings.Load
import FormTemplate.File.Tree
import FormTemplate.Main
import FormTemplate.Proofs.Text.Quotes
import FormTemplate.Proofs.Template.Scanning
import FormTemplate.Proofs.Template.Words
import FormTemplate.Proofs.Template.Statement
import FormTemplate.Proofs.Template.Generation
import FormTemplate.Proofs.Template.Classification
import FormTemplate.Proofs.Template.Layout
import FormTemplate.Proofs.Template.Reached
import FormTemplate.Proofs.Template.Acceptance
import FormTemplate.Proofs.Template.Steps
import FormTemplate.Proofs.Template.Preservation
import FormTemplate.Proofs.Url.Query
import FormTemplate.Proofs.Markup.Attributes
import FormTemplate.Proofs.Markup.Reading
import FormTemplate.Proofs.Form.Marking
import FormTemplate.Proofs.Form.Building
import FormTemplate.Proofs.Form.Directory
import FormTemplate.Proofs.Form.Storage
import FormTemplate.Proofs.Render.Execution
import FormTemplate.Proofs.Template.Blocks
import FormTemplate.Proofs.Render.HiddenControls
import FormTemplate.Proofs.Render.Trailer
import FormTemplate.Proofs.Render.StartTag
import FormTemplate.Proofs.Render.Parameters
import FormTemplate.Proofs.Render.Scoping
import FormTemplate.Proofs.Render.FormEnds
import FormTemplate.Proofs.Render.LabelTags
import FormTemplate.Proofs.Template.BraceTags
import FormTemplate.Proofs.Template.StartTags
import FormTemplate.Proofs.Template.WrittenTags
import FormTemplate.Proofs.Template.WrittenElements
import FormTemplate.Proofs.Template.QuotedKeys
import FormTemplate.Proofs.Text.Literal
import FormTemplate.Proofs.Template.Erasure
import FormTemplate.Proofs.Template.Concatenation
import FormTemplate.Proofs.Render.ElementAttributes
import FormTemplate.Proofs.Render.Overrides
import FormTemplate.Proofs.Url.FormEncoding
import FormTemplate.Proofs.Markup.Trees
import FormTemplate.Proofs.Markup.History
import FormTemplate.Proofs.Form.Addresses
import FormTemplate.Proofs.Form.Ids
import FormTemplate.Proofs.Form.RadioLists
import FormTemplate.Proofs.Render.InputTags
import FormTemplate.Proofs.Template.LabelBodies
import FormTemplate.Proofs.Template.Division
import FormTemplate.Proofs.Template.Expansion
import FormTemplate.Proofs.Template.SavedBindings
import FormTemplate.Proofs.Template.FailingSteps
import FormTemplate.Proofs.Markup.Escaping
import FormTemplate.Proofs.Toml.Keys
import FormTemplate.Proofs.Settings.Described
import FormTemplate.Proofs.Settings.FunctionNames
