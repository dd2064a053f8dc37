import SchemaQuery.Proofs.Json.Decoding
import SchemaQuery.Proofs.Query.Nested

/-!
# Nested values

A JSON text that stands further in is still the text of the same value, and it has the same lines
with more blanks in front of all but the first.
-/

set_option autoImplicit false

namespace SchemaQuery

open SchemaQuery.Text Json.Spacing

theorem Clause.writes_nested (depth : Nat) (v : Json) : Json.Writes (nested depth v) v := by
  refine ⟨indentedBy depth, [], (fun c hc => by cases hc), ?_⟩
  rw [List.append_nil, ← toList_nested, String.ofList_toList]

/-- The lines of a nested value are those of the value at any other depth, but for the blanks in front
of them. -/
theorem Clause.pieces_nested (v : Json) : ∃ (first : List Char) (rest : List (List Char)), ∀ depth,
    pieces '\n' (nested depth v).toList =
      first :: rest.map (List.replicate (2 * depth) ' ' ++ ·) := by
  cases hpieces : pieces '\n' (indented.chars 0 v) with
  | nil => exact absurd hpieces (pieces_ne_nil '\n' _)
  | cons first rest =>
    refine ⟨first, rest, fun depth => ?_⟩
    rw [toList_nested, ← flatMap_chars, pieces_flatMap_indentFeed depth hpieces, indentation,
      String.toList_ofList]

/-- A value is nested without a loss: it is decoded from its text at every depth, the order of its
names included, and all lines of the text but the first are those at depth zero with two blanks more
for each level. -/
theorem nested_keeps_value {v : Json} (h : Json.Exact v) (hnesting : v.nesting ≤ 127)
    (depth : Nat) : Json.decodeText .any (Clause.nested depth v) = .ok v ∧
    ∃ first rest, pieces '\n' (Clause.nested 0 v).toList = first :: rest ∧
      pieces '\n' (Clause.nested depth v).toList =
        first :: rest.map (List.replicate (2 * depth) ' ' ++ ·) := by
  obtain ⟨first, rest, hlines⟩ := Clause.pieces_nested v
  refine ⟨?_, first, rest, ?_, hlines depth⟩
  · exact Json.decodeText_of_gives (Clause.writes_nested depth v) ⟨h, hnesting⟩ (Json.gives_any h)
  · have hzero := hlines 0
    simpa only [Nat.mul_zero, List.replicate_zero, List.nil_append, List.map_id'] using hzero

def ruggedValue : Json := .object [("a\n\n  \"b\r", .array [.text "\r\n\n", .array []]),
  ("n", .array [.number (.int (-9223372036854775808)), .number (.int 18446744073709551615)])]

theorem nested_keeps_value_rugged : Json.Exact ruggedValue ∧ ruggedValue.nesting ≤ 127 ∧
    Json.decodeText .any (Clause.nested 3 ruggedValue) = .ok ruggedValue ∧
    ∃ first rest, pieces '\n' (Clause.nested 0 ruggedValue).toList = first :: rest ∧
      pieces '\n' (Clause.nested 3 ruggedValue).toList =
        first :: rest.map ("      ".toList ++ ·) := by
  have hexact : Json.Exact ruggedValue := by
    apply Json.Exact.object (by decide)
    rw [List.forall_mem_cons, List.forall_mem_singleton]
    constructor
    · apply Json.Exact.array
      rw [List.forall_mem_cons, List.forall_mem_singleton]
      exact ⟨.text _, .array fun _ h => nomatch h⟩
    · apply Json.Exact.array
      rw [List.forall_mem_cons, List.forall_mem_singleton]
      exact ⟨.int (by decide) (by decide), .int (by decide) (by decide)⟩
  have hnesting : ruggedValue.nesting ≤ 127 := by decide
  obtain ⟨hdecode, hlines⟩ := nested_keeps_value hexact hnesting 3
  exact ⟨hexact, hnesting, hdecode, hlines⟩

end SchemaQuery
