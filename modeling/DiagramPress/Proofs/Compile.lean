-- What a compilation makes: the document, the image and the report of one and
-- the same model.
import DiagramPress.Compile

namespace DiagramPress.Workshop

variable {α : Type} [Scalar α] [NumberText α]

/-- What is compiled is a layout of the built model, in both formats, with the report on it. -/
theorem compile_eq_ok {w : Workshop α} {d : Description α} {c : Compiled α}
    (h : w.compile d = .ok c) : ∃ m, (d.build w.tables w.settings.model).1.layout d.layout
      w.engine w.settings.layout = .ok m ∧
        c = w.finish m (d.build w.tables w.settings.model).2 := by
  unfold compile at h
  dsimp only at h
  rcases hlayout : (d.build w.tables w.settings.model).1.layout d.layout w.engine
    w.settings.layout with e | m
  · simp [hlayout, Except.map] at h
  · simp only [hlayout, Except.map, Except.ok.injEq] at h
    exact ⟨m, rfl, h.symm⟩

end DiagramPress.Workshop
