import SchemaQuery.Token.Basic

/-!
# Events

Reading a schema and writing a query leave a trail of events for whoever watches: what was skipped,
what was produced, and where a filter does not fit the type of its field.
-/

set_option autoImplicit false

namespace SchemaQuery

inductive Level where
  | trace
  | debug
  | warn
  deriving DecidableEq, Repr

inductive Event where
  | unreadableRelation (error : TokenError)
  | skippedLine (model line : String)
  | readSchema (models enums : Nat) (provider : String)
  | writingQuery (model operation : String) (fields relations : Nat)
  | inapplicableOperator (model field operator typeName : String)
  deriving DecidableEq, Repr

namespace Event

def level : Event → Level
  | unreadableRelation _ | skippedLine _ _ => .trace
  | readSchema _ _ _ | writingQuery _ _ _ _ => .debug
  | inapplicableOperator _ _ _ _ => .warn

def message : Event → String
  | unreadableRelation _ => "unreadable relation arguments"
  | skippedLine _ _ => "skipping non-field line"
  | readSchema _ _ _ => "parsed schema"
  | writingQuery _ _ _ _ => "generating query"
  | inapplicableOperator _ _ _ _ => "operator does not apply to field type"

def details : Event → List (String × String)
  | unreadableRelation error => [("err", error.message)]
  | skippedLine model line => [("model", model), ("line", line)]
  | readSchema models enums provider =>
    [("models", toString models), ("enums", toString enums), ("provider", provider)]
  | writingQuery model operation fields relations =>
    [("model", model), ("operation", operation), ("fields", toString fields),
      ("relations", toString relations)]
  | inapplicableOperator model field operator typeName =>
    [("model", model), ("field", field), ("operator", operator), ("typ", typeName)]

end Event

end SchemaQuery
