-- Reading a frame from structured data: the same records that an engine
-- answers with, as objects or as rows of their fields.
import DiagramPress.Data.Decoder
import DiagramPress.Layout.Frame

namespace DiagramPress

open Data

/-! ## Drafts -/

structure Link.Draft where
  id : Option String := none
  sources : Option (List String) := none
  targets : Option (List String) := none

structure Frame.Draft where
  id : Option String := none
  x : Option (Option Float32) := none
  y : Option (Option Float32) := none
  width : Option (Option Float32) := none
  height : Option (Option Float32) := none
  children : Option (List (Frame Float32)) := none
  links : Option (List Link) := none
  options : Option (List (String × String)) := none

/-- The format of frames. -/
def Frame.format : Format := .json

/-! ## Records -/

namespace Link

def readIds : Value → Except DecodeError (List String) := Frame.format.list Frame.format.string

def fields : List (FieldReader Link.Draft) :=
  [.of "id" false (·.id) (fun d v => { d with id := some v }) Frame.format.string,
    .of "sources" false (·.sources) (fun d v => { d with sources := some v }) readIds,
    .of "targets" false (·.targets) (fun d v => { d with targets := some v }) readIds]

def read (t : Value) : Except DecodeError Link := do
  let d ← Frame.format.record "LayoutEdge" fields {} t
  return ⟨← required "id" d.id, ← required "sources" d.sources, ← required "targets" d.targets⟩

end Link

namespace Frame

def readNumber : Value → Except DecodeError (Option Float32) := Format.option format.single

/-- The fields of a frame, where `readInner` reads the frames inside. -/
def fields (readInner : Value → Except DecodeError (Frame Float32)) : List (FieldReader Frame.Draft) :=
  [.of "id" false (·.id) (fun d v => { d with id := some v }) format.string,
    .of "x" true (·.x) (fun d v => { d with x := some v }) readNumber,
    .of "y" true (·.y) (fun d v => { d with y := some v }) readNumber,
    .of "width" true (·.width) (fun d v => { d with width := some v }) readNumber,
    .of "height" true (·.height) (fun d v => { d with height := some v }) readNumber,
    .of "children" true (·.children) (fun d v => { d with children := some v })
      (format.list readInner),
    .of "edges" true (·.links) (fun d v => { d with links := some v }) (format.list Link.read),
    .of "layoutOptions" true (·.options) (fun d v => { d with options := some v })
      format.textMap]

/-- Reads frames that are nested less than `fuel` deep. -/
def readWithin : Nat → Value → Except DecodeError (Frame Float32)
  | 0, _ => .error .grammar
  | fuel + 1, t => do
    let d ← format.record "LayoutNode" (fields (readWithin fuel)) {} t
    return { id := ← required "id" d.id, x := d.x.join, y := d.y.join, width := d.width.join,
             height := d.height.join, children := d.children.getD [], links := d.links.getD [],
             options := TextMap.ofList (d.options.getD []) }

/-- Reads a frame with all that is inside it. -/
def read (t : Value) : Except DecodeError (Frame Float32) := readWithin (t.depth + 1) t

end Frame

end DiagramPress
