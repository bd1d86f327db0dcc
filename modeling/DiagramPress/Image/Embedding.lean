-- A document inside its own image: the document is packed and put into an
-- attribute of the outermost element, where it can be found again.
import DiagramPress.Codec.Packing
import DiagramPress.Markup.Escape
import DiagramPress.Markup.Reader

namespace DiagramPress.Image

open Codec (Packing UnpackError)

/-! ## Putting a document in -/

/-- How the outermost element starts. -/
def opening : List Char := "<svg ".toList

/-- Puts a text behind the first opening, if there is one. -/
def insertAfter (opening inserted : List Char) : List Char → List Char
  | [] => []
  | c :: rest =>
    if opening.isPrefixOf (c :: rest) then
      opening ++ inserted ++ (c :: rest).drop opening.length
    else c :: insertAfter opening inserted rest

/-- The attribute that holds a packed document, with a space after it. -/
def contentAttribute (packed : String) : List Char :=
  "content=\"".toList ++ Markup.guardChars packed.toList ++ "\" ".toList

/-- The image with the document in it. -/
def embed (packing : Packing) (image document : String) : String :=
  String.ofList (insertAfter opening (contentAttribute (packing.pack document)) image.toList)

/-! ## Getting it out -/

inductive ExtractError where
  | noContent
  | packing (cause : UnpackError)
deriving DecidableEq, Repr

def ExtractError.message : ExtractError → String
  | noContent => "no embedded content attribute on <svg>"
  | packing cause => cause.message

/-- The value if a content attribute stands here, after white space. -/
def contentHere? : List Char → Option (List Char)
  | c :: rest =>
    if Text.isBlank c then
      (Text.after? "content=\"".toList rest).bind fun rest => Markup.until? '\"' rest
    else none
  | [] => none

/-- The value of the last content attribute before the tag ends. -/
def lastContent? : List Char → Option (List Char)
  | [] => none
  | c :: rest =>
    if c = '>' then none
    else
      match lastContent? rest with
      | some value => some value
      | none => contentHere? (c :: rest)

/-- The content attribute of an image element that starts here. -/
def contentOfTag? (text : List Char) : Option (List Char) :=
  match Text.after? "<svg".toList text with
  | some after => if Markup.wordEnds after then lastContent? after else none
  | none => none

/-- The content attribute of the first image element that has one. -/
def findContent? : List Char → Option (List Char)
  | [] => none
  | c :: rest =>
    match contentOfTag? (c :: rest) with
    | some value => some value
    | none => findContent? rest

/-- The document inside an image. -/
def extract (packing : Packing) (image : String) : Except ExtractError String :=
  match findContent? image.toList with
  | none => .error .noContent
  | some content =>
    (packing.unpack (Markup.unescape (String.ofList content))).mapError .packing

end DiagramPress.Image
