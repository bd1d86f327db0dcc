-- Reading the settings from a JSON text. What the text does not mention keeps
-- its default.
import DiagramPress.Data.Json.Reader
import DiagramPress.Settings

namespace DiagramPress

open Data

/-- Why a text is no usable settings. -/
inductive SettingsError where
  | decoding (cause : Json.Cause) (place : Json.Place)
  | nodeSize
deriving DecidableEq, Repr

def SettingsError.message : SettingsError → String
  | decoding cause place => cause.message ++ " at " ++ place.text
  | nodeSize => "model.defaultNodeWidth/defaultNodeHeight must be positive"

namespace Settings

/-! ## Drafts -/

structure PaddingDraft where
  top : Option Float32 := none
  left : Option Float32 := none
  bottom : Option Float32 := none
  right : Option Float32 := none

structure ModelDraft where
  defaultNodeWidth : Option (Option Float32) := none
  defaultNodeHeight : Option (Option Float32) := none

structure LayoutDraft where
  groupPadding : Option (Option (Padding Float32)) := none
  rootMargin : Option (Option Float32) := none
  emptyGroupWidth : Option (Option Float32) := none
  emptyGroupHeight : Option (Option Float32) := none
  forceIterations : Option (Option Nat) := none

structure RenderDraft where
  padding : Option (Option Float32) := none
  defaultCanvasWidth : Option (Option Float32) := none
  defaultCanvasHeight : Option (Option Float32) := none
  cylinderCap : Option (Option Float32) := none
  arrowColor : Option (Option String) := none
  fontFamily : Option (Option String) := none

structure Draft where
  model : Option (Option (ModelSettings Float32)) := none
  layout : Option (Option (LayoutSettings Float32)) := none
  render : Option (Option (RenderSettings Float32)) := none

/-! ## Records -/

open Json (Reader FieldReader)

def readNumber : Reader (Option Float32) := Json.option Json.single

def readText : Reader (Option String) := Json.option Json.text

def paddingFields : List (FieldReader PaddingDraft) :=
  [.of "top" (·.top) (fun d v => { d with top := some v }) Json.single,
    .of "left" (·.left) (fun d v => { d with left := some v }) Json.single,
    .of "bottom" (·.bottom) (fun d v => { d with bottom := some v }) Json.single,
    .of "right" (·.right) (fun d v => { d with right := some v }) Json.single]

def readPadding : Reader (Padding Float32) :=
  Json.record "Padding" paddingFields {} fun d => do
    return ⟨← required "top" d.top, ← required "left" d.left, ← required "bottom" d.bottom,
      ← required "right" d.right⟩

def modelFields : List (FieldReader ModelDraft) :=
  [.of "defaultNodeWidth" (·.defaultNodeWidth)
      (fun d v => { d with defaultNodeWidth := some v }) readNumber,
    .of "defaultNodeHeight" (·.defaultNodeHeight)
      (fun d v => { d with defaultNodeHeight := some v }) readNumber]

def readModel : Reader (ModelSettings Float32) :=
  let base : ModelSettings Float32 := ModelSettings.default
  Json.record "ModelConfigFile" modelFields {} fun d =>
    return ⟨d.defaultNodeWidth.join.getD base.defaultNodeWidth,
      d.defaultNodeHeight.join.getD base.defaultNodeHeight⟩

def layoutFields : List (FieldReader LayoutDraft) :=
  [.of "groupPadding" (·.groupPadding) (fun d v => { d with groupPadding := some v })
      (Json.option readPadding),
    .of "rootMargin" (·.rootMargin) (fun d v => { d with rootMargin := some v }) readNumber,
    .of "emptyGroupWidth" (·.emptyGroupWidth)
      (fun d v => { d with emptyGroupWidth := some v }) readNumber,
    .of "emptyGroupHeight" (·.emptyGroupHeight)
      (fun d v => { d with emptyGroupHeight := some v }) readNumber,
    .of "forceIterations" (·.forceIterations)
      (fun d v => { d with forceIterations := some v }) (Json.option Json.count)]

def readLayout : Reader (LayoutSettings Float32) :=
  let base : LayoutSettings Float32 := LayoutSettings.default
  Json.record "LayoutConfigFile" layoutFields {} fun d =>
    return { groupPadding := d.groupPadding.join.getD base.groupPadding
             rootMargin := d.rootMargin.join.getD base.rootMargin
             emptyGroupWidth := d.emptyGroupWidth.join.getD base.emptyGroupWidth
             emptyGroupHeight := d.emptyGroupHeight.join.getD base.emptyGroupHeight
             forceIterations := d.forceIterations.join.getD base.forceIterations }

def renderFields : List (FieldReader RenderDraft) :=
  [.of "padding" (·.padding) (fun d v => { d with padding := some v }) readNumber,
    .of "defaultCanvasWidth" (·.defaultCanvasWidth)
      (fun d v => { d with defaultCanvasWidth := some v }) readNumber,
    .of "defaultCanvasHeight" (·.defaultCanvasHeight)
      (fun d v => { d with defaultCanvasHeight := some v }) readNumber,
    .of "cylinderCap" (·.cylinderCap) (fun d v => { d with cylinderCap := some v }) readNumber,
    .of "arrowColor" (·.arrowColor) (fun d v => { d with arrowColor := some v }) readText,
    .of "fontFamily" (·.fontFamily) (fun d v => { d with fontFamily := some v }) readText]

def readRender : Reader (RenderSettings Float32) :=
  let base : RenderSettings Float32 := RenderSettings.default
  Json.record "RenderConfigFile" renderFields {} fun d =>
    return { padding := d.padding.join.getD base.padding
             defaultCanvasWidth := d.defaultCanvasWidth.join.getD base.defaultCanvasWidth
             defaultCanvasHeight := d.defaultCanvasHeight.join.getD base.defaultCanvasHeight
             cylinderCap := d.cylinderCap.join.getD base.cylinderCap
             arrowColor := d.arrowColor.join.getD base.arrowColor
             fontFamily := d.fontFamily.join.getD base.fontFamily }

def fields : List (FieldReader Draft) :=
  [.of "model" (·.model) (fun d v => { d with model := some v }) (Json.option readModel),
    .of "layout" (·.layout) (fun d v => { d with layout := some v }) (Json.option readLayout),
    .of "render" (·.render) (fun d v => { d with render := some v }) (Json.option readRender)]

/-! ## Whole settings -/

/-- Reads all settings. -/
def read : Reader (Settings Float32) :=
  let base : Settings Float32 := Settings.default
  Json.record "ConfigFile" fields {} fun d =>
    return ⟨d.model.join.getD base.model, d.layout.join.getD base.layout,
      d.render.join.getD base.render⟩

/-- Reads settings from their text and checks that nodes have an extent. -/
def parse (text : String) : Except SettingsError (Settings Float32) :=
  match Json.run read text with
  | .error e => .error (.decoding e.cause (.before e.unread text))
  | .ok s =>
    if s.model.defaultNodeWidth ≤ 0 || s.model.defaultNodeHeight ≤ 0 then .error .nodeSize
    else .ok s

end Settings

end DiagramPress
