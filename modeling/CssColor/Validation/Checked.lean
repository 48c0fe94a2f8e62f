import CssColor.Validation.Issue

/-!
# Checked values

A value that was checked, or all the issues that were found. Checks that do not depend on one
another are joined by `<*>`, which keeps the issues of both sides in order; a check that needs the
outcome of another follows it by `Checked.andThen`.
-/

namespace CssColor

/-- A valid value or the issues that make it invalid. -/
inductive Checked (α : Type) where
  /-- The value passed its checks. -/
  | valid (value : α)
  /-- The value has the given issues. -/
  | invalid (issues : List Issue)
  deriving DecidableEq, Repr

namespace Checked

variable {α β : Type}

/-- Applies a checked function to a checked argument and keeps the issues of both. -/
def apply (f : Checked (α → β)) (x : Checked α) : Checked β :=
  match f, x with
  | valid g, valid a => valid (g a)
  | valid _, invalid issues => invalid issues
  | invalid issues, valid _ => invalid issues
  | invalid issues, invalid more => invalid (issues ++ more)

/-- Checks that do not depend on each other are all made, and their issues come one behind the
other. -/
instance : Applicative Checked where
  pure := valid
  seq f x := apply f (x ())

@[simp] theorem valid_seq_valid (f : α → β) (a : α) :
    (valid f <*> valid a : Checked β) = valid (f a) := rfl

@[simp] theorem valid_seq_invalid (f : α → β) (issues : List Issue) :
    (valid f <*> invalid issues : Checked β) = invalid issues := rfl

@[simp] theorem invalid_seq_valid (issues : List Issue) (a : α) :
    ((invalid issues : Checked (α → β)) <*> valid a) = invalid issues := rfl

@[simp] theorem invalid_seq_invalid (issues more : List Issue) :
    ((invalid issues : Checked (α → β)) <*> invalid more) = invalid (issues ++ more) := rfl

@[simp] theorem map_valid (f : α → β) (a : α) : f <$> valid a = valid (f a) := rfl

@[simp] theorem map_invalid (f : α → β) (issues : List Issue) :
    f <$> (invalid issues : Checked α) = invalid issues := rfl

/-- A further check of a valid value. -/
def andThen (x : Checked α) (check : α → Checked β) : Checked β :=
  match x with
  | valid a => check a
  | invalid issues => invalid issues

@[simp] theorem andThen_valid (a : α) (check : α → Checked β) :
    (valid a).andThen check = check a := rfl

@[simp] theorem andThen_invalid (issues : List Issue) (check : α → Checked β) :
    (invalid issues).andThen check = invalid issues := rfl

/-- A single fault of the value itself. -/
def fault (cause : Fault) : Checked α := invalid [⟨[], cause⟩]

/-- The same outcome for a part that one step leads to. -/
def below (step : PathStep) : Checked α → Checked α
  | valid a => valid a
  | invalid issues => invalid (issues.map fun issue => { issue with path := step :: issue.path })

@[simp] theorem below_valid (step : PathStep) (a : α) :
    (valid a).below step = valid a := rfl

/-- The valid value, or the issues as an error. -/
def toExcept : Checked α → Except (List Issue) α
  | valid a => .ok a
  | invalid issues => .error issues

end Checked

end CssColor
