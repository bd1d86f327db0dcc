-- A layout does not look at looks: a restyled model asks the engine for the same, and
-- everything in it gets the same place and the same size.
import DiagramPress.Markup.Document
import DiagramPress.Proofs.Layout.Complete
import DiagramPress.Proofs.Layout.DeepestFirst
import DiagramPress.Proofs.Model.Restyling

namespace DiagramPress

namespace Layout

variable {α : Type} (m : Model α)

/-! ## The request -/

section

variable (keep : Option String → Bool)

/-- The nodes that are chosen by the group around them are the same leaves. -/
theorem leaves_withoutLooks :
    (m.withoutLooks.nodes.filter fun n => keep n.group).map leafOf =
      (m.nodes.filter fun n => keep n.group).map leafOf := by
  simp only [Model.withoutLooks, List.filter_map, List.map_map]
  rfl

theorem groupIds_withoutLooks :
    (m.withoutLooks.groups.filter fun g => keep g.parent).map (·.id) =
      (m.groups.filter fun g => keep g.parent).map (·.id) := by
  simp only [Model.withoutLooks, List.filter_map, List.map_map]
  rfl

end

theorem isKnown_withoutLooks (id : Option String) : isKnown m.withoutLooks id = isKnown m id := by
  cases id with
  | none => rfl
  | some id =>
    simp only [isKnown, Model.withoutLooks, List.any_map]
    rfl

section

variable [NumberText α] (s : ContainerSettings α)

theorem emptyContainer_withoutLooks (id : String) :
    emptyContainer m.withoutLooks s id = emptyContainer m s id := by
  rw [emptyContainer, emptyContainer, Model.group?_withoutLooks, Option.map_map]
  rfl

theorem containerOf_withoutLooks (fuel : Nat) :
    containerOf m.withoutLooks s fuel = containerOf m s fuel := by
  induction fuel with
  | zero =>
    funext visited id
    rw [containerOf, containerOf, emptyContainer_withoutLooks]
  | succ fuel ih =>
    funext visited id
    have hinner := groupIds_withoutLooks m (· = some id)
    have hleaves := leaves_withoutLooks m (· = some id)
    rw [containerOf, containerOf, emptyContainer_withoutLooks, ih, hinner, hleaves]

end

/-- A model asks for the same without its looks. -/
theorem request_withoutLooks [Scalar α] [NumberText α] (method : Method) (choice : LayoutChoice α)
    (settings : LayoutSettings α) :
    request m.withoutLooks method choice settings = request m method choice settings := by
  have htops := groupIds_withoutLooks m (!isKnown m ·)
  have hleaves := leaves_withoutLooks m (!isKnown m ·)
  have hlinks : m.withoutLooks.edges.map linkOf = m.edges.map linkOf := by
    simp only [Model.withoutLooks, List.map_map]
    rfl
  have hlength : m.withoutLooks.groups.length = m.groups.length := List.length_map _
  unfold request
  simp only [isKnown_withoutLooks, htops, hleaves, hlinks, hlength, containerOf_withoutLooks]

/-! ## The answer -/

theorem writeNode_withoutLooks (boxes : List (String × Bounds α)) (n : Model.Node α) :
    writeNode boxes n.withoutLooks = (writeNode boxes n).withoutLooks := by
  obtain ⟨id, cell, label, style, group, position, size⟩ := n
  cases position with
  | some p => rfl
  | none =>
    simp only [writeNode, Model.Node.withoutLooks]
    cases boxOf? boxes cell <;> rfl

theorem writeGroup_withoutLooks (boxes : List (String × Bounds α)) (g : Model.Group α) :
    writeGroup boxes g.withoutLooks = (writeGroup boxes g).withoutLooks := by
  simp only [writeGroup, Model.Group.withoutLooks]
  cases boxOf? boxes g.cell <;> rfl

theorem writeBack_withoutLooks [Scalar α] (answer : Frame α) :
    writeBack m.withoutLooks answer = (writeBack m answer).withoutLooks := by
  simp only [writeBack, Model.withoutLooks, List.map_map, Function.comp_def,
    writeNode_withoutLooks, writeGroup_withoutLooks]

/-! ## Groups around their members -/

theorem groupDepth_withoutLooks (id : String) : groupDepth m.withoutLooks id = groupDepth m id := by
  have hparent (id : String) : (m.withoutLooks.group? id).bind (·.parent) =
      (m.group? id).bind (·.parent) := by
    rw [Model.group?_withoutLooks]
    cases m.group? id <;> rfl
  have hchain (fuel : Nat) (parent : Option String) :
      chainLength m.withoutLooks fuel parent = chainLength m fuel parent := by
    induction fuel generalizing parent with
    | zero => rfl
    | succ fuel ih =>
      cases parent with
      | none => rfl
      | some id => rw [chainLength, chainLength, hparent, ih]
  have hlength : m.withoutLooks.groups.length = m.groups.length := List.length_map _
  rw [groupDepth, groupDepth, hparent, hlength, hchain]

theorem deepestFirst_withoutLooks : deepestFirst m.withoutLooks = deepestFirst m := by
  have hgroups : m.withoutLooks.groups = m.groups.map Model.Group.withoutLooks := rfl
  exact deepestFirst_congr hgroups fun g => groupDepth_withoutLooks m g.id

theorem memberBoxes_withoutLooks (id : String) :
    memberBoxes m.withoutLooks id = memberBoxes m id := by
  simp only [memberBoxes, Model.withoutLooks, List.filter_map, List.filterMap_map]
  rfl

variable [Scalar α] (padding : Padding α)

theorem growAround_withoutLooks (g : Model.Group α) :
    growAround padding m.withoutLooks g.withoutLooks = (growAround padding m g).withoutLooks := by
  have hbounds : g.withoutLooks.bounds? = g.bounds? := rfl
  have hmembers : memberBoxes m.withoutLooks g.withoutLooks.id = memberBoxes m g.id :=
    memberBoxes_withoutLooks m g.id
  unfold growAround
  rw [hbounds, hmembers]
  cases g.bounds? <;> rfl

theorem growAt_withoutLooks (index : Nat) :
    growAt padding m.withoutLooks index = (growAt padding m index).withoutLooks := by
  have hgroups : m.withoutLooks.groups.modify index (growAround padding m.withoutLooks) =
      (m.groups.modify index (growAround padding m)).map Model.Group.withoutLooks := by
    refine List.ext_getElem? fun i => ?_
    rw [List.getElem?_map, List.getElem?_modify, List.getElem?_modify, Model.withoutLooks,
      List.getElem?_map]
    cases m.groups[i]? with
    | none => rfl
    | some g =>
      by_cases hi : index = i <;> simp [hi, ← growAround_withoutLooks, Model.withoutLooks]
  rw [growAt, hgroups]
  rfl

theorem encloseMembers_withoutLooks :
    encloseMembers padding m.withoutLooks = (encloseMembers padding m).withoutLooks := by
  unfold encloseMembers
  rw [deepestFirst_withoutLooks]
  induction deepestFirst m generalizing m with
  | nil => rfl
  | cons index order ih => rw [List.foldl_cons, List.foldl_cons, growAt_withoutLooks, ih]

/-- A layout gives a model without looks what it gives the model, with any engine. -/
theorem layout_withoutLooks [NumberText α] (choice : LayoutChoice α) (engine : LayoutEngine α)
    (settings : LayoutSettings α) :
    m.withoutLooks.layout choice engine settings =
      (m.layout choice engine settings).map Model.withoutLooks := by
  unfold Model.layout
  cases methodOf? choice.algorithm with
  | none => rfl
  | some method =>
    simp only [request_withoutLooks]
    cases engine (request m method choice settings) with
    | error cause => rfl
    | ok answer => simp only [Except.map, writeBack_withoutLooks, encloseMembers_withoutLooks]

end Layout

/-! ## The law of restyling -/

namespace Model

variable {α : Type} (m : Model α)

/-- The cell that everything in a document hangs below; edges all hang below the layer. -/
def parentCells [Scalar α] : List Nat :=
  m.groups.map (·.parentCell) ++ m.nodes.map (Markup.nodeParent m)

/-- Where every group and every node is, and how large. -/
def places : List (String × Nat × Option (Point α) × Option (Size α)) :=
  m.groups.map (fun g => (g.id, g.cell, g.position, g.size)) ++
    m.nodes.map fun n => (n.id, n.cell, n.position, some n.size)

theorem cells_withoutLooks : m.withoutLooks.cells = m.cells := by
  simp only [cells, entityCells, withoutLooks, List.map_map]
  rfl

theorem parentCells_withoutLooks [Scalar α] : m.withoutLooks.parentCells = m.parentCells := by
  have hnode (n : Node α) : Markup.nodeParent m.withoutLooks n.withoutLooks =
      Markup.nodeParent m n := by
    have hgroup : n.group.bind m.withoutLooks.group? =
        (n.group.bind m.group?).map Group.withoutLooks := by
      cases n.group with
      | none => rfl
      | some id => exact m.group?_withoutLooks id
    rw [Markup.nodeParent, Markup.nodeParent, Node.withoutLooks, hgroup, Option.map_map]
    rfl
  have hnodes : m.withoutLooks.nodes.map (Markup.nodeParent m.withoutLooks) =
      m.nodes.map (Markup.nodeParent m) := by
    have hall : m.withoutLooks.nodes = m.nodes.map Node.withoutLooks := rfl
    rw [hall, List.map_map]
    exact List.map_congr_left fun n _ => hnode n
  have hgroups : m.withoutLooks.groups.map (·.parentCell) = m.groups.map (·.parentCell) := by
    simp only [withoutLooks, List.map_map]
    rfl
  rw [parentCells, parentCells, hnodes, hgroups]

theorem places_withoutLooks : m.withoutLooks.places = m.places := by
  simp only [places, withoutLooks, List.map_map]
  rfl

end Model

/-- Where two descriptions agree but for their looks, their models have the same cells and
parents, whatever the tables are, and ask the engine for the same; and with the same engine
everything in them gets the same place and the same size. -/
theorem restyling_moves_nothing {α : Type} [Scalar α] [NumberText α] {d d' : Description α}
    (h : d'.withoutLooks = d.withoutLooks) (tables tables' : Tables α) (settings : Settings α)
    (engine : LayoutEngine α) :
    let m := (d.build tables settings.model).1
    let m' := (d'.build tables' settings.model).1
    m'.cells = m.cells ∧ m'.parentCells = m.parentCells ∧
      (∀ method, Layout.request m' method d'.layout settings.layout =
        Layout.request m method d.layout settings.layout) ∧
      (m'.layout d'.layout engine settings.layout).map Model.places =
        (m.layout d.layout engine settings.layout).map Model.places := by
  intro m m'
  have hmodel : m'.withoutLooks = m.withoutLooks :=
    Description.withoutLooks_build_congr h tables tables' settings.model
  have hchoice : d'.layout = d.layout := by
    have hsame := congrArg Description.layout h
    exact hsame
  have hplaces (m : Model α) : (m.layout d.layout engine settings.layout).map Model.places =
      (m.withoutLooks.layout d.layout engine settings.layout).map Model.places := by
    rw [Layout.layout_withoutLooks]
    cases m.layout d.layout engine settings.layout with
    | error cause => rfl
    | ok laidOut => exact congrArg Except.ok laidOut.places_withoutLooks.symm
  refine ⟨?_, ?_, fun method => ?_, ?_⟩
  · rw [← m'.cells_withoutLooks, hmodel, m.cells_withoutLooks]
  · rw [← m'.parentCells_withoutLooks, hmodel, m.parentCells_withoutLooks]
  · rw [← Layout.request_withoutLooks m', hmodel, Layout.request_withoutLooks, hchoice]
  · rw [hchoice, hplaces m', hmodel, ← hplaces]

section Grid

/-- The nested description with other words and colours, an unknown shape and straight edges. -/
def restyledDescription : Description Grid where
  title := "restyled"
  theme := .blueprint
  layout := nestedDescription.layout
  nodes :=
    [⟨"a", "A much longer label", "no.such.shape", some "inner",
        some { StyleOverride.blank with fillColor := some "red", fontSize := some (40 : Int) },
        none, some ⟨(5 : Int), (7 : Int)⟩⟩,
      ⟨"b", "", "rhombus;", some "outer", none, none, none⟩]
  edges := [⟨"a", "b", some "to b", none, .straight⟩, ⟨"b", "inner", none, none, .straight⟩]
  groups := [⟨"inner", "", some "outer", none⟩, ⟨"outer", "Outer & more", none, none⟩]

theorem a_restyled_description_is_laid_out_alike :
    let m := (nestedDescription.build Tables.builtin ModelSettings.default).1
    let m' := (restyledDescription.build ⟨ShapeCatalog.ofList [], ThemeSet.ofList []⟩
      ModelSettings.default).1
    restyledDescription.withoutLooks = nestedDescription.withoutLooks ∧
      m'.cells = m.cells ∧ m'.parentCells = m.parentCells ∧
      Layout.request m' .layered restyledDescription.layout LayoutSettings.default =
        Layout.request m .layered nestedDescription.layout LayoutSettings.default ∧
      (m'.layout restyledDescription.layout (NestedLayout.bundled LayoutSettings.default)
        LayoutSettings.default).map Model.places =
        (m.layout nestedDescription.layout (NestedLayout.bundled LayoutSettings.default)
          LayoutSettings.default).map Model.places := by
  intro m m'
  have h : restyledDescription.withoutLooks = nestedDescription.withoutLooks := rfl
  obtain ⟨hcells, hparents, hrequest, hplaces⟩ := restyling_moves_nothing h Tables.builtin
    ⟨ShapeCatalog.ofList [], ThemeSet.ofList []⟩ Settings.default
    (NestedLayout.bundled LayoutSettings.default)
  exact ⟨h, hcells, hparents, hrequest .layered, hplaces⟩

end Grid

end DiagramPress
