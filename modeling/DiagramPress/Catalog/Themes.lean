-- The themes: which colours and fonts cells have when the description says
-- nothing else.
import DiagramPress.Description

namespace DiagramPress

/-! ## What a theme says -/

structure NodePaint (α : Type) where
  fillColor : String
  strokeColor : String
  fontColor : String
  fontSize : α
  fontFamily : String
  shadow : Bool

structure EdgePaint (α : Type) where
  strokeColor : String
  strokeWidth : α
  fontColor : String
  fontSize : α

structure GroupPaint (α : Type) where
  fillColor : String
  strokeColor : String
  fontColor : String
  fontSize : α
  dashed : Bool

structure Theme (α : Type) where
  name : ThemeName
  background : String
  node : NodePaint α
  edge : EdgePaint α
  group : GroupPaint α
  palette : List String

/-! ## The themes that come with the program -/

namespace Theme

variable {α : Type} [Scalar α]

def professional : Theme α :=
  { name := .professional
    background := "#ffffff"
    node :=
      { fillColor := "#dae8fc", strokeColor := "#6c8ebf", fontColor := "#333333"
        fontSize := 12, fontFamily := "Helvetica", shadow := false }
    edge :=
      { strokeColor := "#666666", strokeWidth := 1
        fontColor := "#333333", fontSize := 11 }
    group :=
      { fillColor := "#f5f5f5", strokeColor := "#999999"
        fontColor := "#333333", fontSize := 13, dashed := true }
    palette := ["#dae8fc", "#d5e8d4", "#fff2cc", "#f8cecc", "#e1d5e7", "#d0cee2"] }

def colorful : Theme α :=
  { name := .colorful
    background := "#ffffff"
    node :=
      { fillColor := "#4FC3F7", strokeColor := "#0288D1", fontColor := "#ffffff"
        fontSize := 12, fontFamily := "Helvetica", shadow := true }
    edge :=
      { strokeColor := "#455A64", strokeWidth := 2
        fontColor := "#333333", fontSize := 11 }
    group :=
      { fillColor := "#E3F2FD", strokeColor := "#64B5F6"
        fontColor := "#1565C0", fontSize := 13, dashed := false }
    palette := ["#4FC3F7", "#81C784", "#FFD54F", "#E57373", "#BA68C8", "#4DD0E1"] }

def monochrome : Theme α :=
  { name := .monochrome
    background := "#ffffff"
    node :=
      { fillColor := "#f0f0f0", strokeColor := "#333333", fontColor := "#000000"
        fontSize := 12, fontFamily := "Helvetica", shadow := false }
    edge :=
      { strokeColor := "#333333", strokeWidth := 1
        fontColor := "#000000", fontSize := 11 }
    group :=
      { fillColor := "#fafafa", strokeColor := "#666666"
        fontColor := "#000000", fontSize := 13, dashed := true }
    palette := ["#f0f0f0", "#d9d9d9", "#bfbfbf", "#a6a6a6", "#8c8c8c", "#737373"] }

def blueprint : Theme α :=
  { name := .blueprint
    background := "#1a237e"
    node :=
      { fillColor := "#283593", strokeColor := "#5c6bc0", fontColor := "#e8eaf6"
        fontSize := 12, fontFamily := "Courier New", shadow := false }
    edge :=
      { strokeColor := "#7986cb", strokeWidth := 1
        fontColor := "#c5cae9", fontSize := 11 }
    group :=
      { fillColor := "#1a237e", strokeColor := "#5c6bc0"
        fontColor := "#c5cae9", fontSize := 13, dashed := true }
    palette := ["#283593", "#1565C0", "#00838F", "#2E7D32", "#F57F17", "#BF360C"] }

def pastel : Theme α :=
  { name := .pastel
    background := "#ffffff"
    node :=
      { fillColor := "#B3E5FC", strokeColor := "#81D4FA", fontColor := "#37474F"
        fontSize := 12, fontFamily := "Helvetica", shadow := false }
    edge :=
      { strokeColor := "#90A4AE", strokeWidth := 1
        fontColor := "#546E7A", fontSize := 11 }
    group :=
      { fillColor := "#F3E5F5", strokeColor := "#CE93D8"
        fontColor := "#4A148C", fontSize := 13, dashed := true }
    palette := ["#B3E5FC", "#C8E6C9", "#FFF9C4", "#FFCDD2", "#E1BEE7", "#D1C4E9"] }

def builtin : ThemeName → Theme α
  | .professional => professional
  | .colorful => colorful
  | .monochrome => monochrome
  | .blueprint => blueprint
  | .pastel => pastel

end Theme

/-! ## Sets of themes -/

/-- At most one theme for each name, in the order of the names. -/
structure ThemeSet (α : Type) where
  themes : List (Theme α)

namespace ThemeSet

variable {α : Type} [Scalar α]

/-- A set of the given themes; of two with one name the later one counts. -/
def ofList (themes : List (Theme α)) : ThemeSet α :=
  ⟨ThemeName.all.filterMap fun name => themes.reverse.find? fun t => t.name = name⟩

def builtin : ThemeSet α := ofList (ThemeName.all.map Theme.builtin)

/-- The theme of that name; a set without it answers with `professional`. -/
def get (set : ThemeSet α) (name : ThemeName) : Theme α :=
  (set.themes.find? fun t => t.name = name).getD Theme.professional

end ThemeSet

end DiagramPress
