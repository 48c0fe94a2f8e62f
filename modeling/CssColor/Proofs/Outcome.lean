import CssColor.Error
import CssColor.Validation.Checked

/-!
# Outcomes

Computations that may fail, taken apart and put together.

* `bind_eq_ok`: a sequence of two computations succeeds when both do.
* `Checked.seq_eq_valid_iff`, `andThen_eq_valid_iff`: checks side by side and one after another.
* `Yields`: a computation succeeds with a result of a given kind. `Yields.bind` is the rule for one
  computation after another, so that a longer one is followed step by step.
-/

namespace CssColor

variable {ε α β : Type}

@[simp] theorem pure_eq_ok (value : α) : (pure value : Except ε α) = .ok value := rfl

@[simp] theorem throw_eq_error (cause : ε) : (throw cause : Except ε α) = .error cause := rfl

@[simp] theorem ok_bind (value : α) (next : α → Except ε β) :
    (Except.ok value >>= next) = next value := rfl

@[simp] theorem error_bind (cause : ε) (next : α → Except ε β) :
    ((Except.error cause : Except ε α) >>= next) = .error cause := rfl

/-- One computation after another succeeds exactly when the first one gives a value with which the
second one succeeds. -/
theorem bind_eq_ok {outcome : Except ε α} {next : α → Except ε β} {result : β} :
    outcome >>= next = .ok result ↔ ∃ value, outcome = .ok value ∧ next value = .ok result := by
  cases outcome with
  | ok value => simp
  | error cause => simp

/-- Two lists are put one behind the other when both have been computed. -/
theorem append_eq_ok {first second : Except ε (List α)} {result : List α} :
    (do let front ← first; return front ++ (← second)) = .ok result ↔
      ∃ front back, first = .ok front ∧ second = .ok back ∧ front ++ back = result := by
  cases first with
  | error cause => simp
  | ok front =>
    cases second with
    | error cause => simp
    | ok back => simp

/-! ## Checks -/

namespace Checked

/-- A mapped result is valid when the result is. -/
theorem map_eq_valid_iff {f : α → β} {x : Checked α} {b : β} :
    f <$> x = .valid b ↔ ∃ a, x = .valid a ∧ f a = b := by
  cases x <;> simp

/-- Two checks side by side both have to pass. -/
theorem seq_eq_valid_iff {f : Checked (α → β)} {x : Checked α} {b : β} :
    f <*> x = .valid b ↔ ∃ g a, f = .valid g ∧ x = .valid a ∧ g a = b := by
  cases f <;> cases x <;> simp

/-- Two checks in a row pass when the first does and the second does for its result. -/
theorem andThen_eq_valid_iff {x : Checked α} {check : α → Checked β} {b : β} :
    x.andThen check = .valid b ↔ ∃ a, x = .valid a ∧ check a = .valid b := by
  cases x <;> simp

/-- Where a value stands does not matter for whether it is valid. -/
theorem below_eq_valid_iff {step : PathStep} {x : Checked α} {a : α} :
    x.below step = .valid a ↔ x = .valid a := by
  cases x <;> simp [below]

/-- A check that is a test passes when the test does, and then with the value that was tested. -/
theorem ite_fault_eq_valid_iff {P : Prop} [Decidable P] {value a : α} {cause : Fault} :
    (if P then .valid value else .fault cause) = Checked.valid a ↔ P ∧ value = a := by
  by_cases h : P <;> simp [h, fault]

end Checked

/-! ## Errors -/

namespace Error

@[simp] theorem ofNumeric_ok (value : α) : ofNumeric (.ok value) = .ok value := rfl

@[simp] theorem ofNumeric_error (cause : NumericError) :
    (ofNumeric (.error cause) : Except Error α) = .error (.numeric cause) := rfl

@[simp] theorem ofChecked_ok (value : α) : ofChecked (.ok value) = .ok value := rfl

@[simp] theorem ofChecked_error (issues : List Issue) :
    (ofChecked (.error issues) : Except Error α) = .error (.invalid issues) := rfl

/-- Only successful computations succeed as steps of a larger one. -/
theorem ofNumeric_eq_ok {outcome : Except NumericError α} {value : α} :
    ofNumeric outcome = .ok value ↔ outcome = .ok value := by
  cases outcome <;> simp

theorem ofChecked_toExcept_eq_ok {outcome : Checked α} {value : α} :
    ofChecked outcome.toExcept = .ok value ↔ outcome = .valid value := by
  cases outcome <;> simp [Checked.toExcept]

end Error

/-- A computation succeeds with a result that satisfies `P`. -/
def Yields (outcome : Except ε α) (P : α → Prop) : Prop :=
  ∃ value, outcome = .ok value ∧ P value

namespace Yields

variable {outcome : Except ε α} {next : α → Except ε β} {P P' : α → Prop} {Q : β → Prop}

theorem ok {value : α} (h : P value) : Yields (.ok value : Except ε α) P := ⟨value, rfl, h⟩

/-- What the first computation yields is all that the second one may rely on. -/
theorem bind (h : Yields outcome P) (hnext : ∀ value, P value → Yields (next value) Q) :
    Yields (outcome >>= next) Q := by
  obtain ⟨value, rfl, hvalue⟩ := h
  exact hnext value hvalue

/-- What follows from what is known of a result is known of it as well. -/
theorem mono (h : Yields outcome P) (himp : ∀ value, P value → P' value) : Yields outcome P' := by
  obtain ⟨value, hvalue, hP⟩ := h
  exact ⟨value, hvalue, himp value hP⟩

/-- A computation has one result only, so what is known of it holds for the result at hand. -/
theorem of_eq_ok (h : Yields outcome P) {value : α} (hvalue : outcome = .ok value) : P value := by
  obtain ⟨other, rfl, hother⟩ := h
  exact Except.ok.inj hvalue ▸ hother

end Yields

end CssColor
