-- The nested graph that a layout engine works on. A frame is a box with other
-- frames inside; an engine gives every frame a place in the one around it.
import DiagramPress.Geometry
import DiagramPress.TextMap

namespace DiagramPress

/-- A connection between frames, given by their ids. -/
structure Link where
  id : String
  sources : List String
  targets : List String
deriving DecidableEq, Repr

/-- A frame with its place and its size, as far as they are known, the frames
inside it, and settings for the engine. The place is relative to the frame
around it. -/
structure Frame (α : Type) where
  id : String
  x : Option α
  y : Option α
  width : Option α
  height : Option α
  children : List (Frame α)
  links : List Link
  options : TextMap

namespace Frame

variable {α : Type}

/-! ## Building frames -/

def container (id : String) : Frame α := ⟨id, none, none, none, none, [], [], .empty⟩

def leaf (id : String) (size : Size α) : Frame α :=
  { (container id : Frame α) with width := some size.width, height := some size.height }

def withOption (f : Frame α) (key value : String) : Frame α :=
  { f with options := f.options.insert key value }

/-! ## Questions -/

/-- A frame with a size and nothing inside. -/
def isLeaf (f : Frame α) : Bool := f.children.isEmpty && f.width.isSome && f.height.isSome

/-- The key of the setting that keeps a frame where it is. -/
def pinKey : String := "noLayout"

/-- The frame stays where it is. -/
def isPinned (f : Frame α) : Bool :=
  f.options.get? pinKey == some "true" && f.x.isSome && f.y.isSome

mutual

/-- The first frame with that id, the outer one before those inside. -/
def find? (id : String) : Frame α → Option (Frame α)
  | f@⟨own, _, _, _, _, children, _, _⟩ =>
    if own = id then some f else findIn? id children

def findIn? (id : String) : List (Frame α) → Option (Frame α)
  | [] => none
  | f :: rest => (find? id f).or (findIn? id rest)

end

variable [Scalar α]

/-- The size, zero where it is not known. -/
def size (f : Frame α) : Size α := ⟨f.width.getD 0, f.height.getD 0⟩

/-- The offset from the frame around, zero where it is not known. -/
def offset (f : Frame α) : Point α := ⟨f.x.getD 0, f.y.getD 0⟩

/-- The lower right corner. -/
def farCorner (f : Frame α) : Point α :=
  ⟨f.offset.x + f.size.width, f.offset.y + f.size.height⟩

end Frame

end DiagramPress
