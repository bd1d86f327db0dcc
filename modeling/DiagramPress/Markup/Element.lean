-- Elements of markup and their text. All values are guarded and all texts are
-- escaped when they are written, so an element can hold any text.
import DiagramPress.Markup.Escape

namespace DiagramPress.Markup

structure Attribute where
  name : String
  value : String
deriving DecidableEq, Repr

/-- A piece of a document. A block has every element inside it on lines of its
own, a span stands on one line. -/
inductive Element where
  | text (content : String)
  /-- An element with nothing inside. -/
  | lone (name : String) (attributes : List Attribute)
  | span (name : String) (attributes : List Attribute) (content : List Element)
  | block (name : String) (attributes : List Attribute) (content : List Element)

/-! ## Tags -/

/-- An attribute after a space, its value between quotes. -/
def Attribute.chars (a : Attribute) : List Char :=
  ' ' :: a.name.toList ++ '=' :: '\"' :: guardChars a.value.toList ++ ['\"']

def startOfTag (name : String) (attributes : List Attribute) : List Char :=
  '<' :: name.toList ++ attributes.flatMap Attribute.chars

def startTag (name : String) (attributes : List Attribute) : List Char :=
  startOfTag name attributes ++ ['>']

def loneTag (name : String) (attributes : List Attribute) : List Char :=
  startOfTag name attributes ++ ['/', '>']

def endTag (name : String) : List Char := '<' :: '/' :: name.toList ++ ['>']

/-! ## Texts -/

/-- Two spaces for each level. -/
def indent (depth : Nat) : List Char := List.replicate (2 * depth) ' '

namespace Element

mutual

/-- The element on one line. -/
def inline : Element → List Char
  | text content => escapeChars content.toList
  | lone name attributes => loneTag name attributes
  | span name attributes content => startTag name attributes ++ inlineAll content ++ endTag name
  | block name attributes content => startTag name attributes ++ inlineAll content ++ endTag name

def inlineAll : List Element → List Char
  | [] => []
  | e :: rest => e.inline ++ inlineAll rest

end

mutual

/-- The element on lines of its own, without the last line break. -/
def lines (depth : Nat) : Element → List Char
  | block name attributes content =>
    indent depth ++ startTag name attributes ++ '\n' :: linesAll (depth + 1) content ++
      indent depth ++ endTag name
  | e => indent depth ++ e.inline

/-- Elements one below the other, each with a line break at its end. -/
def linesAll (depth : Nat) : List Element → List Char
  | [] => []
  | e :: rest => e.lines depth ++ '\n' :: linesAll depth rest

end

end Element

end DiagramPress.Markup
