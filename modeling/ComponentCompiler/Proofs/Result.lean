import Mathlib.Logic.Basic

namespace ComponentCompiler

variable {ε α β : Type} {result : Except ε α} {b : β}

theorem bind_eq_ok_iff {f : α → Except ε β} :
    result.bind f = .ok b ↔ ∃ a, result = .ok a ∧ f a = .ok b := by
  cases result with
  | error e => simp [Except.bind]
  | ok a => simp [Except.bind]

theorem map_eq_ok_iff {f : α → β} : result.map f = .ok b ↔ ∃ a, result = .ok a ∧ f a = b := by
  cases result with
  | error e => simp [Except.map]
  | ok a => simp [Except.map]

theorem exists_ok {f : α → β} (evaluates : result.toOption.map f = some b) :
    ∃ a, result = .ok a ∧ f a = b := by
  cases result with
  | error e => cases evaluates
  | ok a => exact ⟨a, rfl, Option.some.inj evaluates⟩

end ComponentCompiler
