-- Names of ids do not matter: a description whose ids are replaced one to one gives the
-- same document and the same image, before the layout and after it.
import DiagramPress.Image.Drawing
import DiagramPress.Markup.Document
import DiagramPress.Proofs.Layout.Complete
import DiagramPress.Proofs.Layout.Renaming

namespace DiagramPress

open Function (Injective)

variable {α : Type} {f : String → String}

/-! ## The document -/

namespace Markup

variable (m : Model α) (hf : Injective f)
include hf

theorem nodeParent_rename (n : Model.Node α) :
    nodeParent (m.rename f) (n.rename f) = nodeParent m n := by
  have hgroup := Model.bind_group?_rename hf m n.group
  simp only [nodeParent, Model.Node.rename, hgroup]
  cases n.group.bind m.group? <;> rfl

variable [Scalar α]

theorem groupBox_rename (g : Model.Group α) :
    groupBox (m.rename f) (g.rename f) = groupBox m g := by
  have hparent := Model.bind_group?_rename hf m g.parent
  simp only [groupBox, Model.Group.rename, hparent]
  cases g.parent.bind m.group? <;> rfl

theorem nodeBox_rename (n : Model.Node α) : nodeBox (m.rename f) (n.rename f) = nodeBox m n := by
  have hgroup := Model.bind_group?_rename hf m n.group
  simp only [nodeBox, Model.Node.rename, hgroup]
  cases n.group.bind m.group? <;> rfl

theorem cellsOf_rename : cellsOf (m.rename f) = cellsOf m := by
  have hgroups : (m.rename f).groups.map (groupCell (m.rename f)) = m.groups.map (groupCell m) := by
    have hall : (m.rename f).groups = m.groups.map (Model.Group.rename f) := rfl
    rw [hall, List.map_map]
    refine List.map_congr_left fun g _ => ?_
    rw [Function.comp_apply, groupCell, groupBox_rename m hf]
    rfl
  have hnodes : (m.rename f).nodes.map (nodeCell (m.rename f)) = m.nodes.map (nodeCell m) := by
    have hall : (m.rename f).nodes = m.nodes.map (Model.Node.rename f) := rfl
    rw [hall, List.map_map]
    refine List.map_congr_left fun n _ => ?_
    rw [Function.comp_apply, nodeCell, nodeBox_rename m hf, nodeParent_rename m hf]
    rfl
  have hedges : (m.rename f).edges.map (edgeCell : Model.Edge → Cell α) = m.edges.map edgeCell := by
    simp only [Model.rename, List.map_map]
    rfl
  rw [cellsOf, cellsOf, hgroups, hnodes, hedges]

theorem encode_rename [NumberText α] : encode (m.rename f) = encode m := by
  funext modified
  have hdocument : document (m.rename f) modified = document m modified := by
    rw [document, cellsOf_rename m hf]
    rfl
  rw [encode, hdocument, encode]

end Markup

/-! ## The image -/

namespace Image

variable [Scalar α] (m : Model α)

theorem ofModel_rename (settings : RenderSettings α) :
    Canvas.ofModel (m.rename f) settings = Canvas.ofModel m settings := by
  have hboxes : boxes (m.rename f) = boxes m := by
    simp only [boxes, Model.rename, List.map_map]
    rfl
  rw [Canvas.ofModel, hboxes]
  rfl

variable (hf : Injective f)
include hf

theorem line?_rename (canvas : Canvas α) (e : Model.Edge) :
    canvas.line? (m.rename f) (e.rename f) = canvas.line? m e := by
  simp only [Canvas.line?, Model.Edge.rename, Model.boundsOf?_rename hf]

variable [NumberText α]

theorem painted_rename (canvas : Canvas α) (settings : RenderSettings α) :
    painted canvas settings (m.rename f) = painted canvas settings m := by
  have hgroups : (m.rename f).groups.map (groupElement canvas settings) =
      m.groups.map (groupElement canvas settings) := by
    simp only [Model.rename, List.map_map]
    rfl
  have hnodes : (m.rename f).nodes.map (nodeElement canvas settings) =
      m.nodes.map (nodeElement canvas settings) := by
    simp only [Model.rename, List.map_map]
    rfl
  have hedges : (m.rename f).edges.filterMap (edgeElement? canvas settings (m.rename f)) =
      m.edges.filterMap (edgeElement? canvas settings m) := by
    have hall : (m.rename f).edges = m.edges.map (Model.Edge.rename f) := rfl
    rw [hall, List.filterMap_map]
    refine List.filterMap_congr fun e _ => ?_
    rw [Function.comp_apply, edgeElement?, line?_rename m hf]
    rfl
  rw [painted, hgroups, hnodes, hedges, painted]

theorem draw_rename : draw (m.rename f) = draw m := by
  funext settings
  have hroot : root (m.rename f) settings = root m settings := by
    rw [root, ofModel_rename, painted_rename m hf]
    rfl
  rw [draw, hroot, draw]

end Image

/-! ## The law of renaming -/

variable [Scalar α] [NumberText α]

/-- Everything that is written of a model: the document, which says when it was modified,
and the image. -/
def Model.texts (m : Model α) : (String → String) × (RenderSettings α → String) :=
  (Markup.encode m, Image.draw m)

theorem Model.texts_rename (hf : Injective f) (m : Model α) : (m.rename f).texts = m.texts := by
  rw [texts, Markup.encode_rename m hf, Image.draw_rename m hf, texts]

/-- An accepted description whose ids are replaced, one to one and none by the empty text,
is accepted, and what is written of it is the same: before the layout, and after it with
the same engine. -/
theorem names_of_ids_do_not_matter {d : Description α} (hd : d.problems = [])
    (hf : Set.InjOn f {id | id ∈ d.nodeIds ++ d.groupIds})
    (hne : ∀ id ∈ d.nodeIds ++ d.groupIds, f id ≠ "") (tables : Tables α)
    (modelSettings : ModelSettings α) :
    let m := (d.build tables modelSettings).1
    let m' := ((d.rename f).build tables modelSettings).1
    (d.rename f).problems = [] ∧ m'.texts = m.texts ∧
      ∀ (choice : LayoutChoice α) (engine : LayoutEngine α) (settings : LayoutSettings α),
        (m'.layout choice engine settings).map Model.texts =
          (m.layout choice engine settings).map Model.texts := by
  obtain ⟨g, hg, hsame⟩ := exists_renaming hf
  have hrename : d.rename f = d.rename g :=
    (Description.hangsTogether_of_accepted hd).rename_congr hsame
  have hne' : ∀ id ∈ d.nodeIds ++ d.groupIds, g id ≠ "" := fun id hid => hsame id hid ▸ hne id hid
  have hwellFormed := ((Description.problems_eq_nil_iff d).mp hd).rename hg hne'
  intro m m'
  have hmodel : m' = m.rename g := by
    show ((d.rename f).build tables modelSettings).1 = _
    rw [hrename]
    exact Description.build_rename hg d tables modelSettings
  refine ⟨?_, ?_, fun choice engine settings => ?_⟩
  · rw [hrename]
    exact (Description.problems_eq_nil_iff _).mpr hwellFormed
  · rw [hmodel]
    exact m.texts_rename hg
  · rw [hmodel, Layout.layout_rename m hg]
    cases m.layout choice engine settings with
    | error cause => rfl
    | ok laidOut => exact congrArg Except.ok (laidOut.texts_rename hg)

/-- Names that are taken for something else elsewhere: the frame around a diagram, a cell. -/
def takenName : String → String
  | "a" => "root"
  | "b" => "2"
  | "inner" => "outer"
  | _ => "inner"

theorem taken_names_do_not_matter :
    let d := nestedDescription
    let m := (d.build Tables.builtin ModelSettings.default).1
    let m' := ((d.rename takenName).build Tables.builtin ModelSettings.default).1
    d.problems = [] ∧ Set.InjOn takenName {id | id ∈ d.nodeIds ++ d.groupIds} ∧
      (∀ id ∈ d.nodeIds ++ d.groupIds, takenName id ≠ "") ∧ m'.texts = m.texts ∧
      (m'.layout d.layout (NestedLayout.bundled LayoutSettings.default)
        LayoutSettings.default).map Model.texts =
        (m.layout d.layout (NestedLayout.bundled LayoutSettings.default)
          LayoutSettings.default).map Model.texts := by
  intro d m m'
  have hd : d.problems = [] := by decide
  have happart : ∀ a ∈ d.nodeIds ++ d.groupIds, ∀ b ∈ d.nodeIds ++ d.groupIds,
      takenName a = takenName b → a = b := by decide
  have hf : Set.InjOn takenName {id | id ∈ d.nodeIds ++ d.groupIds} :=
    fun a ha b hb => happart a ha b hb
  have hne : ∀ id ∈ d.nodeIds ++ d.groupIds, takenName id ≠ "" := by decide
  obtain ⟨-, htexts, hlayout⟩ := names_of_ids_do_not_matter hd hf hne Tables.builtin
    ModelSettings.default
  exact ⟨hd, hf, hne, htexts, hlayout _ _ _⟩

end DiagramPress
