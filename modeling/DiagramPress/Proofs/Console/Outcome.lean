-- What holds of every result of an action, in whatever surroundings it runs,
-- and of the results of the steps of a command.
import DiagramPress.Console.Program

namespace DiagramPress.Console

variable {m : Type → Type} [Monad m] {β γ : Type}

/-! ## Actions -/

/-- The action has no other results than those with the property: it comes
from an action whose results carry a proof of it. -/
def Ends (p : β → Prop) (x : m β) : Prop := ∃ y : m {b // p b}, Subtype.val <$> y = x

section

variable [LawfulMonad m]

theorem ends_any (x : m β) : Ends (fun _ => True) x :=
  ⟨(fun b => ⟨b, trivial⟩) <$> x, by simp⟩

theorem ends_pure {p : β → Prop} {b : β} (h : p b) : Ends p (pure b : m β) :=
  ⟨pure ⟨b, h⟩, by simp⟩

theorem ends_bind {q : β → Prop} {p : γ → Prop} {x : m β} {f : β → m γ} (hx : Ends q x)
    (hf : ∀ b, q b → Ends p (f b)) : Ends p (x >>= f) := by
  obtain ⟨y, rfl⟩ := hx
  refine ⟨y >>= fun b => Classical.choose (hf b.1 b.2), ?_⟩
  rw [map_bind, bind_map_left]
  congr 1
  funext b
  exact Classical.choose_spec (hf b.1 b.2)

/-! ## Steps of a command -/

/-- The step fails or has a result with the property. -/
def StepEnds (p : β → Prop) (x : Step m β) : Prop :=
  Ends (fun r => ∀ b, r = .ok b → p b) x.run

theorem stepEnds_any (x : Step m β) : StepEnds (fun _ => True) x := by
  obtain ⟨y, hy⟩ := ends_any x.run
  refine ⟨(fun r => ⟨r.1, fun _ _ => trivial⟩) <$> y, ?_⟩
  rw [← hy]
  simp

theorem stepEnds_pure {p : β → Prop} {b : β} (h : p b) : StepEnds p (pure b : Step m β) :=
  ends_pure fun c hc => by
    cases hc
    exact h

theorem stepEnds_bind {q : β → Prop} {p : γ → Prop} {x : Step m β} {f : β → Step m γ}
    (hx : StepEnds q x) (hf : ∀ b, q b → StepEnds p (f b)) : StepEnds p (x >>= f) := by
  refine ends_bind hx fun r hr => ?_
  cases r with
  | ok b => exact hf b (hr b rfl)
  | error e => exact ends_pure fun c hc => by cases hc

/-- A step that only looks at a result ends with that result. -/
theorem stepEnds_orFail {ε : Type} (failure : ε → Failure) (result : Except ε β) :
    StepEnds (m := m) (fun b => result = .ok b) (orFail failure result) := by
  cases result with
  | ok b => exact stepEnds_pure rfl
  | error e => exact ends_pure fun c hc => by cases hc

/-- A command ends as its step does, or with the code of a failure. -/
theorem ends_conclude {p : ExitCode → Prop} {step : Step m ExitCode} {tell : Failure → m Unit}
    (h : StepEnds p step) (hfailure : p ExitCode.failure) : Ends p (conclude step tell) := by
  refine ends_bind h fun r hr => ?_
  cases r with
  | ok code => exact ends_pure (hr code rfl)
  | error e => exact ends_bind (ends_any _) fun _ _ => ends_pure hfailure

end

end DiagramPress.Console
