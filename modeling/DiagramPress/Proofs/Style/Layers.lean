-- Styles in layers: a layer is written over a style key by key. What it gives is there in
-- the end, what it does not name stays as it is, and no key comes in twice. The styles of
-- nodes, edges and groups are made in this way.
import DiagramPress.Model.Build
import DiagramPress.Proofs.Style.ReadBack

namespace DiagramPress

namespace Style

/-! ## The entry of a key -/

/-- What stands under a key, a pair or a flag. -/
def setting? (s : Style) (key : String) : Option Entry := s.entries.find? fun e => e.key = key

theorem setting?_set (s : Style) (key value other : String) :
    (s.set key value).setting? other =
      if key = other then some (.pair key value) else s.setting? other := by
  rw [set, setting?, setting?]
  dsimp only
  induction s.entries with
  | nil => by_cases h : key = other <;> simp [replace, h]
  | cons e es ih =>
    rw [replace, Entry.key_pair]
    by_cases hkey : e.key = key
    · rw [if_pos hkey]
      by_cases h : key = other <;> simp [hkey, h]
    · rw [if_neg hkey, List.find?_cons, List.find?_cons, ih]
      by_cases h : e.key = other
      · have hne : key ≠ other := fun heq => hkey (h.trans heq.symm)
        simp [h, hne]
      · simp [h]

/-- The style has this value for the key; where none is given it has what the base has, be
it a pair, a flag or nothing. -/
def Takes (s base : Style) (key : String) (value : Option String) : Prop :=
  s.setting? key = (value.map (Entry.pair key)).or (base.setting? key) ∧
    s.get? key = value.or (base.get? key)

section

variable {s base top : Style} {key : String} {value : Option String}

theorem Takes.refl (s : Style) (key : String) : s.Takes s key none := ⟨rfl, rfl⟩

/-- Of two values for a key the upper one counts. -/
theorem Takes.trans {upper : Option String} (htop : top.Takes s key upper)
    (hs : s.Takes base key value) : top.Takes base key (upper.or value) := by
  obtain ⟨hentry, hget⟩ := htop
  rw [hs.1] at hentry
  rw [hs.2] at hget
  cases upper with
  | none => exact ⟨hentry, hget⟩
  | some text => exact ⟨hentry, hget⟩

end

/-! ## One setting after the other -/

/-- Writes the settings that have a value. -/
def overlay (base : Style) (layer : List (String × Option String)) : Style :=
  layer.foldl (fun s setting => s.setIf setting.1 setting.2) base

section

variable {base : Style} {layer : List (String × Option String)} {key : String}

theorem overlay_cons (base : Style) (setting : String × Option String)
    (layer : List (String × Option String)) :
    base.overlay (setting :: layer) = (base.setIf setting.1 setting.2).overlay layer := rfl

theorem takes_setIf_self (s : Style) (key : String) (value : Option String) :
    (s.setIf key value).Takes s key value := by
  cases value with
  | none => exact Takes.refl s key
  | some text =>
    refine ⟨?_, get?_set_self s key text⟩
    rw [setIf, setting?_set, if_pos rfl]
    rfl

theorem takes_setIf_of_ne (s : Style) (value : Option String) {key other : String}
    (h : other ≠ key) : (s.setIf key value).Takes s other none := by
  cases value with
  | none => exact Takes.refl s other
  | some text =>
    refine ⟨?_, get?_set_of_ne s text h⟩
    rw [setIf, setting?_set, if_neg h.symm]
    rfl

theorem takes_overlay_of_not_mem (h : key ∉ layer.map Prod.fst) :
    (base.overlay layer).Takes base key none := by
  induction layer generalizing base with
  | nil => exact Takes.refl base key
  | cons setting layer ih =>
    rw [List.map_cons, List.mem_cons, not_or] at h
    rw [overlay_cons]
    exact (ih h.2).trans (takes_setIf_of_ne base setting.2 h.1)

/-- Where no key is set twice, every setting of a layer counts. -/
theorem takes_overlay {value : Option String} (hkeys : (layer.map Prod.fst).Nodup)
    (h : (key, value) ∈ layer) : (base.overlay layer).Takes base key value := by
  induction layer generalizing base with
  | nil => cases h
  | cons setting layer ih =>
    rw [List.map_cons, List.nodup_cons] at hkeys
    rw [overlay_cons]
    rcases List.mem_cons.mp h with rfl | h
    -- no later setting has this key again
    · exact (takes_overlay_of_not_mem hkeys.1).trans (takes_setIf_self base key value)
    · have hne : key ≠ setting.1 := fun heq =>
        hkeys.1 (heq ▸ List.mem_map_of_mem (f := Prod.fst) h)
      have htakes := (ih hkeys.2 h).trans (takes_setIf_of_ne base setting.2 hne)
      rwa [Option.or_none] at htakes

/-! ## What a layer leaves alone -/

/-- The entries with none of these keys, in their order. -/
def others (s : Style) (keys : List String) : List Entry := s.entries.filter fun e => e.key ∉ keys

/-- The style is the base with something written under some keys: no key comes in twice, the
keys of the base stay where they are, and what has another key stays as it is. -/
structure IsOver (keys : List String) (base s : Style) : Prop where
  keys_nodup : (base.entries.map Entry.key).Nodup → (s.entries.map Entry.key).Nodup
  keys_prefix : base.entries.map Entry.key <+: s.entries.map Entry.key
  others : s.others keys = base.others keys

theorem IsOver.refl (keys : List String) (s : Style) : IsOver keys s s :=
  ⟨id, List.prefix_refl _, rfl⟩

theorem IsOver.trans {keys : List String} {base s top : Style} (hs : IsOver keys base s)
    (htop : IsOver keys s top) : IsOver keys base top :=
  ⟨fun h => htop.keys_nodup (hs.keys_nodup h), hs.keys_prefix.trans htop.keys_prefix,
    htop.others.trans hs.others⟩

theorem keys_prefix_set (s : Style) (key text : String) :
    s.entries.map Entry.key <+: (s.set key text).entries.map Entry.key := by
  by_cases hmem : key ∈ s.entries.map Entry.key
  · have hsame : (s.set key text).entries.map Entry.key = s.entries.map Entry.key :=
      map_key_replace hmem
    exact hsame.symm ▸ List.prefix_refl _
  · rw [set, replace_of_not_mem hmem, List.map_append]
    exact List.prefix_append _ _

theorem others_set {keys : List String} (hkey : key ∈ keys) (s : Style) (text : String) :
    (s.set key text).others keys = s.others keys := by
  rw [set, others, others]
  dsimp only
  induction s.entries with
  | nil => simp [replace, hkey]
  | cons e es ih =>
    rw [replace, Entry.key_pair]
    by_cases he : e.key = key
    -- neither the entry nor what comes in its place is among the others
    · simp [he, hkey]
    · rw [if_neg he, List.filter_cons, List.filter_cons, ih]

theorem isOver_setIf {keys : List String} (hkey : key ∈ keys) (s : Style)
    (value : Option String) : IsOver keys s (s.setIf key value) := by
  cases value with
  | none => exact IsOver.refl keys s
  | some text =>
    exact ⟨fun hs => nodup_keys_put hs (.pair key text), keys_prefix_set s key text,
      others_set hkey s text⟩

theorem isOver_overlay {keys : List String} (h : ∀ setting ∈ layer, setting.1 ∈ keys) :
    IsOver keys base (base.overlay layer) := by
  induction layer generalizing base with
  | nil => exact IsOver.refl keys base
  | cons setting layer ih =>
    obtain ⟨hkey, hlayer⟩ := List.forall_mem_cons.mp h
    rw [overlay_cons]
    exact (isOver_setIf hkey base setting.2).trans (ih hlayer)

end

/-- How a switch is written. -/
def switchText (value : Bool) : String := if value then "1" else "0"

theorem setBoolIf_eq (s : Style) (key : String) (value : Option Bool) :
    s.setBoolIf key value = s.setIf key (value.map switchText) := by
  cases value <;> rfl

end Style

variable {α : Type} [NumberText α]

open Style (switchText)

/-! ## The layers of nodes, edges and groups -/

namespace Build

/-- What is written over the style of a shape: the colors and the font always, the rest if
it is wished for or the theme casts shadows. -/
def nodeLayer (paint : NodePaint α) (wish : StyleOverride α) : List (String × Option String) :=
  [("fillColor", some (wish.fillColor.getD paint.fillColor)),
    ("strokeColor", some (wish.strokeColor.getD paint.strokeColor)),
    ("fontColor", some (wish.fontColor.getD paint.fontColor)),
    ("fontSize", some (NumberText.brief (wish.fontSize.getD paint.fontSize))),
    ("fontFamily", some (wish.fontFamily.getD paint.fontFamily)),
    ("rounded", wish.rounded.map switchText),
    ("shadow", (wish.shadow.or (if paint.shadow then some true else none)).map switchText),
    ("dashed", wish.dashed.map switchText),
    ("opacity", wish.opacity.map NumberText.brief),
    ("strokeWidth", wish.strokeWidth.map NumberText.brief)]

def edgeLayer (routing : Routing) (paint : EdgePaint α) (wish : StyleOverride α) :
    List (String × Option String) :=
  [("edgeStyle", if routing = .orthogonal then some "orthogonalEdgeStyle" else none),
    ("rounded", if routing = .orthogonal then some "1" else none),
    ("html", some "1"),
    ("strokeColor", some (wish.strokeColor.getD paint.strokeColor)),
    ("strokeWidth", some (NumberText.brief (wish.strokeWidth.getD paint.strokeWidth))),
    ("fontColor", some (wish.fontColor.getD paint.fontColor)),
    ("fontSize", some (NumberText.brief (wish.fontSize.getD paint.fontSize))),
    ("dashed", wish.dashed.map switchText)]

def groupLayer (paint : GroupPaint α) (wish : StyleOverride α) : List (String × Option String) :=
  [("fillColor", some (wish.fillColor.getD paint.fillColor)),
    ("strokeColor", some (wish.strokeColor.getD paint.strokeColor)),
    ("fontColor", some (wish.fontColor.getD paint.fontColor)),
    ("fontSize", some (NumberText.brief (wish.fontSize.getD paint.fontSize))),
    ("dashed", some (switchText (wish.dashed.getD paint.dashed))),
    ("verticalAlign", some "top"),
    ("fontStyle", some "1"),
    ("opacity", wish.opacity.map NumberText.brief)]

/-- The keys of the layers, in their order. -/
def nodeKeys : List String :=
  ["fillColor", "strokeColor", "fontColor", "fontSize", "fontFamily", "rounded", "shadow",
    "dashed", "opacity", "strokeWidth"]

def edgeKeys : List String :=
  ["edgeStyle", "rounded", "html", "strokeColor", "strokeWidth", "fontColor", "fontSize", "dashed"]

def groupKeys : List String :=
  ["fillColor", "strokeColor", "fontColor", "fontSize", "dashed", "verticalAlign", "fontStyle",
    "opacity"]

section

variable (wish : StyleOverride α)

theorem nodup_keys_nodeLayer (paint : NodePaint α) :
    ((nodeLayer paint wish).map Prod.fst).Nodup := (by decide : nodeKeys.Nodup)

theorem nodup_keys_edgeLayer (routing : Routing) (paint : EdgePaint α) :
    ((edgeLayer routing paint wish).map Prod.fst).Nodup := (by decide : edgeKeys.Nodup)

theorem nodup_keys_groupLayer (paint : GroupPaint α) :
    ((groupLayer paint wish).map Prod.fst).Nodup := (by decide : groupKeys.Nodup)

end

/-- The style that every group starts from. -/
def groupBase : Style :=
  Style.parse "rounded=1;whiteSpace=wrap;html=1;container=1;collapsible=0;"

theorem nodeStyle_eq (base : Style) (paint : NodePaint α) (wish : StyleOverride α) :
    nodeStyle base paint wish = base.overlay (nodeLayer paint wish) := by
  have hshadow : (if wish.shadow.isSome || paint.shadow then
      some (wish.shadow.getD paint.shadow) else none) =
        wish.shadow.or (if paint.shadow then some true else none) := by
    cases wish.shadow <;> cases paint.shadow <;> rfl
  simp only [nodeStyle, hshadow, Style.setBoolIf_eq]
  rfl

theorem edgeStyle_eq (routing : Routing) (paint : EdgePaint α) (wish : StyleOverride α) :
    edgeStyle routing paint wish = Style.empty.overlay (edgeLayer routing paint wish) := by
  simp only [edgeStyle, Style.setBoolIf_eq]
  cases routing <;> rfl

theorem groupStyle_eq (paint : GroupPaint α) (wish : StyleOverride α) :
    groupStyle paint wish = groupBase.overlay (groupLayer paint wish) := rfl

end Build

end DiagramPress
