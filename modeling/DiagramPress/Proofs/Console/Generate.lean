-- Documents pass the check: those of all well numbered models, so those that
-- are compiled from an accepted description, so those that a command writes.
import DiagramPress.Proofs.Compile
import DiagramPress.Proofs.Console.Outcome
import DiagramPress.Proofs.Markup.Faults
import DiagramPress.Proofs.Number.Grid

namespace DiagramPress

variable {α : Type} [Scalar α] [NumberText α]

/-! ## Models of accepted descriptions -/

/-- The model of an accepted description, laid out any number of times. -/
inductive Model.Reached : Model α → Prop
  | built {d : Description α} (tables : Tables α) (settings : ModelSettings α)
      (h : d.problems = []) : Reached (d.build tables settings).1
  | laidOut {m m' : Model α} {choice : LayoutChoice α} {engine : LayoutEngine α}
      {settings : LayoutSettings α} (hm : Reached m)
      (h : m.layout choice engine settings = .ok m') : Reached m'

theorem Model.Reached.wellNumbered {m : Model α} (h : m.Reached) : m.WellNumbered := by
  induction h with
  | built tables settings h =>
    exact Description.wellNumbered_build tables settings
      (Description.hangsTogether_of_accepted h).groups_nodup
  | laidOut _ h ih => exact wellNumbered_layout h ih

/-! ## Compiling -/

namespace Workshop

theorem report_of_compile {w : Workshop α} {d : Description α} {c : Compiled α}
    (hd : d.problems = []) (h : w.compile d = .ok c) : c.report.errors = [] := by
  obtain ⟨m, hlayout, rfl⟩ := compile_eq_ok h
  have hreached := (Model.Reached.built w.tables w.settings.model hd).laidOut hlayout
  exact Markup.no_faults hreached.wellNumbered w.modified

end Workshop

/-! ## Commands -/

namespace Console

variable {m : Type → Type} [Monad m] [LawfulMonad m]

theorem stepEnds_deliver (s : Surroundings m) (o : GenerateOptions) (d : Description Float32)
    (c : Compiled Float32) : StepEnds (· ≠ ExitCode.misuse) (deliver s o d c) := by
  have hsuccess : StepEnds (m := m) (· ≠ ExitCode.misuse) (pure ExitCode.success) :=
    stepEnds_pure (by decide)
  dsimp only [deliver]
  split
  · refine stepEnds_bind (stepEnds_any _) fun _ _ => ?_
    split
    · exact stepEnds_bind (stepEnds_any _) fun _ _ => hsuccess
    · refine stepEnds_bind (stepEnds_any _) fun _ _ => ?_
      exact stepEnds_bind (stepEnds_any _) fun _ _ => hsuccess
  · split
    · exact stepEnds_bind (stepEnds_any _) fun _ _ => hsuccess
    · refine stepEnds_bind (stepEnds_any _) fun _ _ => ?_
      exact stepEnds_bind (stepEnds_any _) fun _ _ => hsuccess

theorem stepEnds_generateDiagram (s : Surroundings m) (now : String) (o : GenerateOptions) :
    StepEnds (· ≠ ExitCode.misuse) (generateDiagram s now o) := by
  unfold generateDiagram
  refine stepEnds_bind (m := m) (stepEnds_any _) fun settings _ => ?_
  refine stepEnds_bind (m := m) (stepEnds_any _) fun source _ => ?_
  refine stepEnds_bind (stepEnds_orFail _ _) fun d hd => ?_
  refine stepEnds_bind (stepEnds_orFail _ _) fun c hc => ?_
  refine stepEnds_bind (m := m) (stepEnds_any _) fun _ _ => ?_
  have hvalid : c.report.valid = true := by
    rw [Markup.CheckReport.valid, Workshop.report_of_compile (Description.problems_of_parse hd) hc]
    rfl
  rw [if_pos hvalid]
  exact stepEnds_deliver s o d c

end Console

/-! ## The law of the check -/

/-- The documents of well numbered models pass the check, without a bare
ampersand; these are the models of accepted descriptions before and after every
layout. So a compilation gives no invalid report, and no command that generates
a diagram ends with the code for a fault of the program. -/
theorem documents_pass_the_check :
    (∀ (m : Model α) (modified : String), m.WellNumbered →
      let report := Markup.check (Markup.encode m modified)
      report.errors = [] ∧ report.valid = true ∧
        ∀ preview, .bareAmpersand preview ∉ report.warnings) ∧
    (∀ m : Model α, m.Reached → m.WellNumbered) ∧
    (∀ (w : Workshop α) (d : Description α) (c : Compiled α), d.problems = [] →
      w.compile d = .ok c → c.report.valid = true) ∧
    ∀ (m : Type → Type) [Monad m] [LawfulMonad m] (s : Console.Surroundings m) (now : String)
      (o : Console.GenerateOptions),
      Console.Ends (· ≠ Console.ExitCode.misuse) (Console.generate s now o) := by
  refine ⟨fun m modified h => ?_, fun m h => h.wellNumbered, fun w d c hd hc => ?_,
    fun m _ _ s now o => ?_⟩
  · have hfaults := Markup.no_faults h modified
    refine ⟨hfaults, ?_, Markup.no_bare_ampersand m modified⟩
    rw [Markup.CheckReport.valid, hfaults]
    rfl
  · rw [Markup.CheckReport.valid, Workshop.report_of_compile hd hc]
    rfl
  · exact Console.ends_conclude (Console.stepEnds_generateDiagram s now o) (by decide)

section Grid

/-- Two nodes, one in a group, with a label that looks like markup. -/
def hostileDescription : Description Grid where
  title := "a \"b\" & <c>"
  theme := .professional
  layout := ⟨.none, .topBottom, Spacing.default⟩
  nodes :=
    [⟨"a", "</mxCell><mxCell id=\"0\">&", "rounded=1;", some "g", none, none, none⟩,
      ⟨"b", "&amp;#38", "rounded=1;", none, none, none, none⟩]
  edges := [⟨"a", "b", some "\"", none, .orthogonal⟩]
  groups := [⟨"g", "<g", none, none⟩]

def gridWorkshop : Workshop Grid :=
  .bundled ⟨ModelSettings.default, LayoutSettings.default, RenderSettings.default⟩ "now"

/-- Surroundings without files, where nothing is read and nothing is kept. -/
def nowhere : Console.Surroundings Id where
  read _ := .error .missing
  write _ _ := .ok ()
  input := .error .keyboard
  print _ := ()
  complain _ := ()

theorem a_hostile_document_passes_the_check :
    let m := (hostileDescription.build gridWorkshop.tables gridWorkshop.settings.model).1
    hostileDescription.problems = [] ∧ m.WellNumbered ∧
      (Markup.check (Markup.encode m "now")).errors = [] ∧
      (∃ c, gridWorkshop.compile hostileDescription = .ok c ∧ c.report.valid = true) ∧
      Console.Ends (· ≠ Console.ExitCode.misuse)
        (Console.generate nowhere "now" ⟨none, none, false, none, false, none, none⟩) := by
  intro m
  have hd : hostileDescription.problems = [] := by decide
  have hlaw := @documents_pass_the_check Grid _ _
  have hm : m.WellNumbered := hlaw.2.1 m (.built _ _ hd)
  refine ⟨hd, hm, (hlaw.1 m "now" hm).1, ⟨_, rfl, hlaw.2.2.1 _ _ _ hd rfl⟩, ?_⟩
  exact hlaw.2.2.2 Id nowhere "now" _

end Grid

end DiagramPress
