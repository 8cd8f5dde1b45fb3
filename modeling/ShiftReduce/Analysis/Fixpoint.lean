/-!
# Growing to a fixed point

A value is improved by a pass until a pass changes nothing.  Every pass that
changes the value leaves less room for change, so the improvement ends.
-/

namespace ShiftReduce

/-- A change from one value to another that either is none or leaves less room. -/
def Shrinks {α : Type} (room : α → Nat) (before after : α) : Prop :=
  after = before ∨ room after < room before

namespace Shrinks

variable {α : Type} {room : α → Nat}

theorem refl (value : α) : Shrinks room value value := .inl rfl

theorem trans {first second third : α} (lower : Shrinks room first second)
    (upper : Shrinks room second third) : Shrinks room first third := by
  rcases upper with rfl | less
  · exact lower
  · rcases lower with rfl | lesser
    · exact .inr less
    · exact .inr (Nat.lt_trans less lesser)

theorem foldl {β : Type} {step : α → β → α}
    (shrinks : ∀ value element, Shrinks room value (step value element))
    (elements : List β) (value : α) : Shrinks room value (elements.foldl step value) := by
  induction elements generalizing value with
  | nil => exact refl value
  | cons element rest ih => exact (shrinks value element).trans (ih (step value element))

end Shrinks

/-- A pass over a value that either changes nothing or leaves less room. -/
structure Pass (α : Type) where
  run : α → α
  room : α → Nat
  shrinks : ∀ value, Shrinks room value (run value)

namespace Pass

variable {α : Type} [DecidableEq α]

/-- Repeat the pass until it changes nothing. -/
def saturate (pass : Pass α) (value : α) : α :=
  if stable : pass.run value = value then value
  else
    have := (pass.shrinks value).resolve_left stable
    pass.saturate (pass.run value)
termination_by pass.room value

theorem run_saturate (pass : Pass α) (value : α) :
    pass.run (pass.saturate value) = pass.saturate value := by
  fun_induction saturate pass value with
  | case1 _ stable => exact stable
  | case2 _ _ _ ih => exact ih

/-- What holds of the first value and is kept by the pass holds of the last. -/
theorem saturate_induction (pass : Pass α) {property : α → Prop}
    (kept : ∀ value, property value → property (pass.run value)) {value : α}
    (first : property value) : property (pass.saturate value) := by
  fun_induction saturate pass value with
  | case1 => exact first
  | case2 value _ _ ih => exact ih (kept value first)

end Pass

end ShiftReduce
