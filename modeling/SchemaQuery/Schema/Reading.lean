import SchemaQuery.Event.Logged
import SchemaQuery.Schema.Block
import SchemaQuery.Text.Quoted

/-!
# Readings

Reading a schema leaves events behind and may end in an error. What was logged before the error
stays. The value of a reading follows the laws of plain computations that may fail; its events are
looked at apart.
-/

set_option autoImplicit false

namespace SchemaQuery

inductive SchemaError where
  | malformed (kind : BlockKind) (header : String)
  deriving DecidableEq, Repr

def SchemaError.message : SchemaError → String
  | .malformed kind header =>
    "Invalid " ++ kind.keyword ++ " definition: " ++ String.ofList (Text.quote header.toList)

abbrev Reading := ExceptT SchemaError Logged

namespace Reading

variable {α β : Type}

def ofExcept (x : Except SchemaError α) : Reading α := ExceptT.mk (pure x)

def ofLogged (x : Logged α) : Reading α := ExceptT.mk (Except.ok <$> x)

def result (x : Reading α) : Except SchemaError α := x.run.value

def events (x : Reading α) : List Event := x.run.events

@[simp]
theorem result_pure (a : α) : result (pure a) = .ok a := rfl

@[simp]
theorem result_ofExcept (x : Except SchemaError α) : (ofExcept x).result = x := rfl

@[simp]
theorem result_ofLogged (x : Logged α) : (ofLogged x).result = .ok x.value := rfl

@[simp]
theorem result_bind (x : Reading α) (f : α → Reading β) :
    (x >>= f).result = x.result >>= fun a => (f a).result := by
  show ((x.run >>= ExceptT.bindCont f : Logged _)).value = _
  rw [Logged.value_bind, result]
  cases x.run.value <;> rfl

@[simp]
theorem events_pure (a : α) : events (pure a) = [] := rfl

@[simp]
theorem events_ofExcept (x : Except SchemaError α) : (ofExcept x).events = [] := rfl

@[simp]
theorem events_ofLogged (x : Logged α) : (ofLogged x).events = x.events := Logged.events_map _ _

/-- After an error nothing more is logged. -/
theorem events_bind (x : Reading α) (f : α → Reading β) :
    (x >>= f).events = x.events ++ (match x.result with
      | .ok a => (f a).events
      | .error _ => []) := by
  show ((x.run >>= ExceptT.bindCont f : Logged _)).events = _
  rw [Logged.events_bind, result, events]
  cases x.run.value <;> rfl

@[simp]
theorem result_map (f : α → β) (x : Reading α) : (f <$> x).result = f <$> x.result := by
  rw [map_eq_pure_bind, result_bind]
  cases x.result <;> rfl

theorem result_mapM (f : α → Reading β) (xs : List α) :
    (xs.mapM f).result = xs.mapM fun x => (f x).result := by
  induction xs with
  | nil => rfl
  | cons x xs ih => simp [List.mapM_cons, ih]

end Reading

end SchemaQuery
