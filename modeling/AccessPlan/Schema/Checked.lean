import AccessPlan.Schema.Fault

/-!
# Results of a check

The parts of a record are checked independently of one another, and the faults of all of them are reported. So a
result is either a value or a list of faults, and two results are combined with the faults of both, in order.

* `seq_eq_ok`: a combination succeeds exactly when both parts do.
-/

namespace AccessPlan.Schema

/-- A value, or the faults that stand in its way. -/
inductive Checked (α : Type u) where
  | ok (value : α)
  | faulty (faults : List Fault)
  deriving DecidableEq

namespace Checked

variable {α β : Type u}

/-- Both results together: the faults of the first one come first. -/
def seq (f : Checked (α → β)) (x : Checked α) : Checked β :=
  match f, x with
  | ok f, ok a => ok (f a)
  | ok _, faulty es => faulty es
  | faulty ds, ok _ => faulty ds
  | faulty ds, faulty es => faulty (ds ++ es)

def map (f : α → β) : Checked α → Checked β
  | ok a => ok (f a)
  | faulty es => faulty es

instance : Applicative Checked where
  pure := ok
  map := map
  seq f x := seq f (x ())

/-- A further check of a value that has passed the first ones. -/
def andThen (x : Checked α) (check : α → Checked β) : Checked β :=
  match x with
  | ok a => check a
  | faulty es => faulty es

/-- The result as seen from a value that holds the checked one. -/
def under (step : Step) : Checked α → Checked α
  | ok a => ok a
  | faulty es => faulty (es.map (·.under step))

/-- A single fault of the value itself. -/
def fault (cause : Cause) : Checked α := faulty [⟨[], cause⟩]

def toExcept {ε : Type v} (refuse : List Fault → ε) : Checked α → Except ε α
  | ok a => .ok a
  | faulty es => .error (refuse es)

@[simp] theorem pure_eq (a : α) : (pure a : Checked α) = ok a := rfl

@[simp] theorem map_ok (f : α → β) (a : α) : f <$> (ok a) = ok (f a) := rfl

@[simp] theorem seq_ok (f : α → β) (a : α) : ok f <*> ok a = ok (f a) := rfl

@[simp] theorem under_ok (step : Step) (a : α) : (ok a).under step = ok a := rfl

/-- A combination succeeds exactly when both parts do. -/
theorem seq_eq_ok {f : Checked (α → β)} {x : Checked α} {b : β} :
    f <*> x = ok b ↔ ∃ g a, f = ok g ∧ x = ok a ∧ g a = b := by
  change seq f x = ok b ↔ _
  cases f <;> cases x <;> simp [seq]

/-- All results together, in order. -/
def all : List (Checked α) → Checked (List α)
  | [] => ok []
  | x :: xs => List.cons <$> x <*> all xs

end Checked

end AccessPlan.Schema
