-- Where a layout puts things, whatever the engine answers: a free node goes to
-- where the offsets on the way to its frame add up, and nothing placed is moved.
import DiagramPress.Proofs.Layout.Growth
import DiagramPress.Proofs.Layout.Kept
import DiagramPress.Proofs.Number.Grid
import Mathlib.Logic.Relation

namespace DiagramPress

namespace Frame

variable {α : Type}

/-! ## Ways inwards -/

/-- The frames lead from `f` inwards, each directly inside the one before it, and
the last one has the id. -/
inductive Leads : Frame α → List (Frame α) → String → Prop
  | here {f c : Frame α} (hc : c ∈ f.children) : Leads f [c] c.id
  | into {f c : Frame α} {path : List (Frame α)} {id : String} (hc : c ∈ f.children)
      (h : Leads c path id) : Leads f (c :: path) id

/-- The ids inside a frame are those that a way inwards leads to. -/
theorem exists_leads_of_mem_names {f : Frame α} {id : String} (h : id ∈ f.names) :
    ∃ path, f.Leads path id := by
  induction f using Frame.induction with
  | step f ih =>
    rw [names_eq] at h
    obtain ⟨c, hc, hid⟩ := List.mem_flatMap.mp h
    rcases List.mem_cons.mp hid with rfl | hid
    · exact ⟨[c], .here hc⟩
    · obtain ⟨path, hpath⟩ := ih c hc hid
      exact ⟨c :: path, .into hc hpath⟩

/-- Where a way inwards ends that starts in a frame with its corner at `start`:
the offsets are added one after the other. -/
def endOf [Scalar α] (start : Point α) (path : List (Frame α)) : Point α :=
  path.foldl (fun p f => ⟨p.x + f.offset.x, p.y + f.offset.y⟩) start

end Frame

namespace Layout

variable {α : Type} [Scalar α]

/-! ## Boxes in the answer -/

theorem mem_absolute_of_leads {f : Frame α} {path : List (Frame α)} {id : String}
    (h : f.Leads path id) (origin : Point α) :
    ∃ size, (id, Bounds.ofCorner (Frame.endOf origin path) size) ∈ absolute origin f := by
  induction h generalizing origin with
  | @here f c hc =>
    refine ⟨c.size, ?_⟩
    rw [absolute_eq]
    exact List.mem_flatMap.mpr ⟨c, hc, List.mem_cons_self⟩
  | @into f c path id hc _ ih =>
    obtain ⟨size, hmem⟩ := ih ⟨origin.x + c.offset.x, origin.y + c.offset.y⟩
    refine ⟨size, ?_⟩
    rw [absolute_eq]
    exact List.mem_flatMap.mpr ⟨c, hc, List.mem_cons_of_mem _ hmem⟩

end Layout

/-! ## What becomes of the nodes -/

namespace Model

variable {α : Type}

/-- The second model is the first one, except that groups and nodes without a
position may be placed differently. -/
structure KeepsPlaced (m m' : Model α) : Prop where
  rest : m'.withoutPlaces = m.withoutPlaces
  placed : ∀ (i : Nat) (n : Node α), m.nodes[i]? = some n → n.position.isSome →
    m'.nodes[i]? = some n

theorem KeepsPlaced.refl (m : Model α) : m.KeepsPlaced m := ⟨rfl, fun _ _ h _ => h⟩

theorem KeepsPlaced.trans {m m' m'' : Model α} (h : m.KeepsPlaced m') (h' : m'.KeepsPlaced m'') :
    m.KeepsPlaced m'' where
  rest := h'.rest.trans h.rest
  placed i n hn hplaced := h'.placed i n (h.placed i n hn hplaced) hplaced

variable [Scalar α]

/-- The nodes of the first model without a position are, in the second one, where
the answer of an engine puts them. -/
structure FollowsAnswer (m : Model α) (answer : Frame α) (m' : Model α) : Prop where
  /-- The node of an id that is there once goes to where the way to that id ends. -/
  found : ∀ (i : Nat) (n : Node α), m.nodes[i]? = some n → n.position = none →
    answer.names.count (toString n.cell) = 1 →
      (∃ path, answer.Leads path (toString n.cell)) ∧
        ∀ path, answer.Leads path (toString n.cell) →
          m'.nodes[i]? = some { n with position := some (Frame.endOf answer.offset path) }
  /-- The node of an id that is not there stays without a position. -/
  missing : ∀ (i : Nat) (n : Node α), m.nodes[i]? = some n → n.position = none →
    toString n.cell ∉ answer.names → m'.nodes[i]? = some n

theorem nodes_written (padding : Padding α) (m : Model α) (answer : Frame α) (i : Nat) :
    (Layout.encloseMembers padding (Layout.writeBack m answer)).nodes[i]? =
      m.nodes[i]?.map (Layout.writeNode (Layout.absolute answer.offset answer)) := by
  rw [Layout.nodes_encloseMembers, Layout.writeBack, List.getElem?_map]

theorem followsAnswer_written (padding : Padding α) (m : Model α) (answer : Frame α) :
    m.FollowsAnswer answer (Layout.encloseMembers padding (Layout.writeBack m answer)) where
  found i n hn hfree hcount := by
    have hmem : toString n.cell ∈ answer.names := List.count_pos_iff.mp (by omega)
    refine ⟨Frame.exists_leads_of_mem_names hmem, fun path hpath => ?_⟩
    obtain ⟨size, hbox⟩ := Layout.mem_absolute_of_leads hpath answer.offset
    rw [← Layout.map_fst_absolute answer.offset] at hcount
    rw [nodes_written, hn, Option.map_some]
    simp only [Layout.writeNode, hfree, Layout.boxOf?_of_count hcount hbox]
    rfl
  missing i n hn hfree hmissing := by
    rw [← Layout.map_fst_absolute answer.offset] at hmissing
    rw [nodes_written, hn, Option.map_some]
    simp only [Layout.writeNode, hfree, Layout.boxOf?_of_not_mem hmissing]

variable [NumberText α]

theorem keepsPlaced_layout {m m' : Model α} {choice : LayoutChoice α} {engine : LayoutEngine α}
    {settings : LayoutSettings α} (h : m.layout choice engine settings = .ok m') :
    m.KeepsPlaced m' where
  rest := withoutPlaces_layout h
  placed i n hn hplaced := by
    obtain ⟨p, hp⟩ := Option.isSome_iff_exists.mp hplaced
    rcases layout_cases h with ⟨-, rfl⟩ | ⟨method, answer, -, -, rfl⟩
    · exact hn
    · rw [nodes_written, hn, Option.map_some]
      simp only [Layout.writeNode, hp]

/-! ## Layouts one after the other -/

/-- Some engine, under some settings, lays the first model out as the second one. -/
def LaidOut (m m' : Model α) : Prop :=
  ∃ choice engine settings, m.layout choice engine settings = .ok m'

theorem keepsPlaced_of_layouts {m m' : Model α} (h : Relation.ReflTransGen LaidOut m m') :
    m.KeepsPlaced m' := by
  induction h with
  | refl => exact .refl m
  | tail _ hstep ih =>
    obtain ⟨choice, engine, settings, hlayout⟩ := hstep
    exact ih.trans (keepsPlaced_layout hlayout)

/-- Whatever an engine answers, a layout changes no place but those of groups and
of nodes without a position; each of these nodes goes to where the offsets on the
way to its frame lead. So however many layouts follow each other, a position that
is set stays. -/
theorem layouts_keep_every_position (m : Model α) :
    (∀ choice engine settings m', m.layout choice engine settings = .ok m' →
      m.KeepsPlaced m' ∧
        ∀ method answer, Layout.methodOf? choice.algorithm = some method →
          engine (Layout.request m method choice settings) = .ok answer →
            m.FollowsAnswer answer m') ∧
    (∀ choice engine settings, choice.algorithm = .none →
      m.layout choice engine settings = .ok m) ∧
    ∀ m', Relation.ReflTransGen LaidOut m m' → m.KeepsPlaced m' := by
  refine ⟨fun choice engine settings m' h => ⟨keepsPlaced_layout h, ?_⟩,
    fun choice engine settings hnone => ?_, fun m' h => keepsPlaced_of_layouts h⟩
  · intro method answer hmethod hanswer
    rcases layout_cases h with ⟨hnone, -⟩ | ⟨method', answer', hmethod', hanswer', rfl⟩
    · rw [hnone] at hmethod
      cases hmethod
    · obtain rfl := Option.some.inj (hmethod.symm.trans hmethod')
      obtain rfl := Except.ok.inj (hanswer.symm.trans hanswer')
      exact followsAnswer_written _ m answer
  · rw [layout, hnone]
    rfl

section Grid

/-- A node that is placed, one that is free in a group, and one that is free outside. -/
def handPlacedModel : Model Grid where
  title := "by hand"
  background := "#ffffff"
  groups := [⟨"g", 2, "G", none, layerCell, Style.empty, none, none⟩]
  nodes :=
    [⟨"a", 3, "A", Style.empty, none, some ⟨(5 : Int), (7 : Int)⟩, ⟨(40 : Int), (20 : Int)⟩⟩,
      ⟨"b", 4, "B", Style.empty, some "g", none, ⟨(40 : Int), (20 : Int)⟩⟩,
      ⟨"c", 5, "C", Style.empty, none, none, ⟨(40 : Int), (20 : Int)⟩⟩]
  edges := []

/-- The frame of the node in the group, without an offset to the right. -/
def innerFrame : Frame Grid := ⟨"4", none, some (-5 : Int), none, none, [], [], .empty⟩

def groupFrame : Frame Grid :=
  ⟨"2", some (10 : Int), some (20 : Int), none, none, [innerFrame], [], .empty⟩

/-- An answer with a frame for the placed node, none for the last node, and one
that nothing belongs to. -/
def partialAnswer : Frame Grid :=
  ⟨"root", some (1 : Int), none, none, none,
    [⟨"3", some (90 : Int), none, none, none, [], [], .empty⟩, groupFrame, Frame.container "9"],
    [], .empty⟩

theorem a_partial_answer_places_one_node :
    ∃ m', handPlacedModel.layout LayoutChoice.default (fun _ => .ok partialAnswer)
        LayoutSettings.default = .ok m' ∧
      handPlacedModel.KeepsPlaced m' ∧
      m'.nodes[1]? = some ⟨"b", 4, "B", Style.empty, some "g", some ⟨(11 : Int), (15 : Int)⟩,
        ⟨(40 : Int), (20 : Int)⟩⟩ ∧
      m'.nodes[2]? = handPlacedModel.nodes[2]? := by
  obtain ⟨hlayout, -, -⟩ := layouts_keep_every_position handPlacedModel
  obtain ⟨hkept, hfollows⟩ := hlayout LayoutChoice.default (fun _ => .ok partialAnswer)
    LayoutSettings.default _ rfl
  have hanswer := hfollows .layered partialAnswer rfl rfl
  refine ⟨_, rfl, hkept, ?_, ?_⟩
  · have hway : partialAnswer.Leads [groupFrame, innerFrame] "4" :=
      .into (List.mem_cons_of_mem _ List.mem_cons_self) (.here List.mem_cons_self)
    exact (hanswer.found 1 _ rfl rfl (by decide)).2 _ hway
  · exact hanswer.missing 2 _ rfl rfl (by decide)

end Grid

end Model

end DiagramPress
