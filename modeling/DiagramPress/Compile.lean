-- From a description to its document and its image in one go.
import DiagramPress.Description.Check
import DiagramPress.Image.Drawing
import DiagramPress.Image.Embedding
import DiagramPress.Layout.Adapter
import DiagramPress.Markup.Check
import DiagramPress.Markup.Document
import DiagramPress.Model.Build
import DiagramPress.OutputFormat

namespace DiagramPress

/-- Everything that is made from one description. -/
structure Compiled (α : Type) where
  model : Model α
  diagnostics : List Diagnostic
  document : String
  /-- The image, with the document in it. -/
  image : String
  /-- What the check says about the document. -/
  report : Markup.CheckReport

namespace Compiled

variable {α : Type}

def output (c : Compiled α) : OutputFormat → String
  | .image => c.image
  | .document => c.document

end Compiled

/-- What a compilation works with, apart from the description. -/
structure Workshop (α : Type) where
  tables : Tables α
  engine : LayoutEngine α
  settings : Settings α
  packing : Codec.Packing
  /-- The time that documents give as that of their last change. -/
  modified : String

variable {α : Type} [Scalar α] [NumberText α]

namespace Workshop

/-- The tables, the engine and the packing that come with the program. -/
def bundled (settings : Settings α) (modified : String) : Workshop α where
  tables := ⟨ShapeCatalog.builtin, ThemeSet.builtin⟩
  engine := NestedLayout.bundled settings.layout
  settings := settings
  packing := Codec.Packing.compressed
  modified := modified

/-- Writes a model in both formats and checks the document. -/
def finish (w : Workshop α) (m : Model α) (diagnostics : List Diagnostic) : Compiled α :=
  let document := Markup.encode m w.modified
  { model := m
    diagnostics := diagnostics
    document := document
    image := Image.embed w.packing (Image.draw m w.settings.render) document
    report := Markup.check document }

/-- Builds the model of a description, lays it out and writes it. Only the engine can fail. -/
def compile (w : Workshop α) (d : Description α) : Except LayoutError (Compiled α) :=
  let (m, diagnostics) := d.build w.tables w.settings.model
  (m.layout d.layout w.engine w.settings.layout).map fun m => w.finish m diagnostics

end Workshop

end DiagramPress
