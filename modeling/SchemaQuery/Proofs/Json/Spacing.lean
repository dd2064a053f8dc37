import SchemaQuery.Json.Print
import SchemaQuery.Json.Reader
import SchemaQuery.Proofs.Json.Exact

/-!
# The characters of JSON text

A value on one line and a value over several lines differ in the blanks between the same signs. The
characters of a value are given here for any choice of these blanks.
-/

set_option autoImplicit false

namespace SchemaQuery.Json

structure Spacing where
  line : Nat → List Char
  gap : List Char
  line_blank : ∀ depth, ∀ c ∈ line depth, isBlank c = true
  gap_blank : ∀ c ∈ gap, isBlank c = true

def quoteChars (s : String) : List Char := '"' :: (s.toList.flatMap escapeChar ++ ['"'])

namespace Spacing

def tight : Spacing where
  line _ := []
  gap := []
  line_blank _ _ h := by cases h
  gap_blank _ h := by cases h

def indented : Spacing where
  line depth := '\n' :: List.replicate (2 * depth) ' '
  gap := [' ']
  line_blank depth c h := by
    rcases List.mem_cons.1 h with rfl | h
    · rfl
    · rw [List.eq_of_mem_replicate h]
      rfl
  gap_blank c h := by
    rw [List.mem_singleton.1 h]
    rfl

mutual

def chars (sp : Spacing) (depth : Nat) : Json → List Char
  | .null => ['n', 'u', 'l', 'l']
  | .bool b => if b then ['t', 'r', 'u', 'e'] else ['f', 'a', 'l', 's', 'e']
  | .number n => (numberText n).toList
  | .text s => quoteChars s
  | .array [] => ['[', ']']
  | .array items => '[' :: (itemChars sp (depth + 1) items ++ (sp.line depth ++ [']']))
  | .object [] => ['{', '}']
  | .object members => '{' :: (memberChars sp (depth + 1) members ++ (sp.line depth ++ ['}']))

def itemChars (sp : Spacing) (depth : Nat) : List Json → List Char
  | [] => []
  | [item] => sp.line depth ++ chars sp depth item
  | item :: items => sp.line depth ++ (chars sp depth item ++ ',' :: itemChars sp depth items)

def memberChars (sp : Spacing) (depth : Nat) : List (String × Json) → List Char
  | [] => []
  | [(name, value)] =>
    sp.line depth ++ (quoteChars name ++ ':' :: (sp.gap ++ chars sp depth value))
  | (name, value) :: members =>
    sp.line depth ++ (quoteChars name ++ ':' :: (sp.gap ++ (chars sp depth value ++
      ',' :: memberChars sp depth members)))

end

section Containers

variable (sp : Spacing) (depth : Nat)

theorem chars_array {items : List Json} (h : items ≠ []) : sp.chars depth (.array items) =
    '[' :: (sp.itemChars (depth + 1) items ++ (sp.line depth ++ [']'])) := by
  rw [chars]
  exact h

theorem chars_object {members : List (String × Json)} (h : members ≠ []) :
    sp.chars depth (.object members) =
      '{' :: (sp.memberChars (depth + 1) members ++ (sp.line depth ++ ['}'])) := by
  rw [chars]
  exact h

theorem itemChars_cons (item : Json) {items : List Json} (h : items ≠ []) :
    sp.itemChars depth (item :: items) =
      sp.line depth ++ (sp.chars depth item ++ ',' :: sp.itemChars depth items) := by
  rw [itemChars]
  exact h

theorem memberChars_cons (name : String) (value : Json) {members : List (String × Json)}
    (h : members ≠ []) : sp.memberChars depth ((name, value) :: members) =
      sp.line depth ++ (quoteChars name ++ ':' :: (sp.gap ++ (sp.chars depth value ++
        ',' :: sp.memberChars depth members))) := by
  rw [memberChars]
  exact h

end Containers

end Spacing

open Spacing

theorem toList_quoteText (s : String) : (quoteText s).toList = quoteChars s := by
  simp [quoteText, quoteChars]

theorem toList_lineAt (depth : Nat) : (lineAt depth).toList = indented.line depth := by
  simp [lineAt, indented]

theorem toList_compactItems {items : List Json} (depth : Nat)
    (h : ∀ item ∈ items, (compact item).toList = tight.chars depth item) :
    (compactItems items).toList = tight.itemChars depth items := by
  induction items with
  | nil => rfl
  | cons item items ih =>
    have hitem := h item List.mem_cons_self
    have hrest := ih fun x hx => h x (List.mem_cons_of_mem _ hx)
    cases items with
    | nil => exact hitem
    | cons next items =>
      rw [compactItems, itemChars, String.toList_append, String.toList_append, hitem, hrest]
      · simp [tight]
      · simp
      · simp

theorem toList_compactMembers {members : List (String × Json)} (depth : Nat)
    (h : ∀ m ∈ members, (compact m.2).toList = tight.chars depth m.2) :
    (compactMembers members).toList = tight.memberChars depth members := by
  induction members with
  | nil => rfl
  | cons m members ih =>
    obtain ⟨name, value⟩ := m
    have hvalue : (compact value).toList = tight.chars depth value := h _ List.mem_cons_self
    have hrest := ih fun x hx => h x (List.mem_cons_of_mem _ hx)
    cases members with
    | nil =>
      rw [compactMembers, memberChars, String.toList_append, String.toList_append, hvalue,
        toList_quoteText]
      simp [tight]
    | cons next members =>
      rw [compactMembers, memberChars, String.toList_append, String.toList_append,
        String.toList_append, String.toList_append, hvalue, hrest, toList_quoteText]
      · simp [tight]
      · simp
      · simp

/-- The value on one line has no blanks. -/
theorem toList_compact (v : Json) (depth : Nat) : (compact v).toList = tight.chars depth v := by
  induction v using induct generalizing depth with
  | null => rfl
  | bool b => cases b <;> rfl
  | number n => rfl
  | text s => rw [compact, toList_quoteText, chars]
  | array items ih =>
    have hitems := toList_compactItems (depth + 1) fun item hi => ih item hi (depth + 1)
    rw [compact, String.toList_append, String.toList_append, hitems]
    cases items with
    | nil => rfl
    | cons item items => rfl
  | object members ih =>
    have hmembers := toList_compactMembers (depth + 1) fun m hm => ih m hm (depth + 1)
    rw [compact, String.toList_append, String.toList_append, hmembers]
    cases members with
    | nil => rfl
    | cons m members => rfl

theorem toList_prettyItems {items : List Json} (depth : Nat)
    (h : ∀ item ∈ items, (prettyAt depth item).toList = indented.chars depth item) :
    (prettyItems depth items).toList = indented.itemChars depth items := by
  induction items with
  | nil => rfl
  | cons item items ih =>
    have hitem := h item List.mem_cons_self
    have hrest := ih fun x hx => h x (List.mem_cons_of_mem _ hx)
    cases items with
    | nil => rw [prettyItems, itemChars, String.toList_append, hitem, toList_lineAt]
    | cons next items =>
      rw [prettyItems, itemChars, String.toList_append, String.toList_append,
        String.toList_append, hitem, hrest, toList_lineAt]
      · simp
      · simp
      · simp

theorem toList_prettyMembers {members : List (String × Json)} (depth : Nat)
    (h : ∀ m ∈ members, (prettyAt depth m.2).toList = indented.chars depth m.2) :
    (prettyMembers depth members).toList = indented.memberChars depth members := by
  induction members with
  | nil => rfl
  | cons m members ih =>
    obtain ⟨name, value⟩ := m
    have hvalue : (prettyAt depth value).toList = indented.chars depth value :=
      h _ List.mem_cons_self
    have hrest := ih fun x hx => h x (List.mem_cons_of_mem _ hx)
    have hgap : indented.gap = [' '] := rfl
    cases members with
    | nil =>
      rw [prettyMembers, memberChars, String.toList_append, String.toList_append,
        String.toList_append, hvalue, toList_quoteText, toList_lineAt, hgap]
      simp
    | cons next members =>
      rw [prettyMembers, memberChars, String.toList_append, String.toList_append,
        String.toList_append, String.toList_append, String.toList_append, hvalue, hrest,
        toList_quoteText, toList_lineAt, hgap]
      · simp
      · simp
      · simp

/-- The value over several lines is indented. -/
theorem toList_prettyAt (v : Json) (depth : Nat) :
    (prettyAt depth v).toList = indented.chars depth v := by
  induction v using induct generalizing depth with
  | null => rw [prettyAt, chars]; rfl
  | bool b =>
    rw [prettyAt, chars]
    cases b <;> rfl
  | number n => rw [prettyAt, chars]
  | text s => rw [prettyAt, toList_quoteText, chars]
  | array items ih =>
    cases items with
    | nil => rw [prettyAt, chars]; rfl
    | cons item items =>
      have hitems := toList_prettyItems (depth + 1) fun item hi => ih item hi (depth + 1)
      rw [prettyAt, chars, String.toList_append, String.toList_append, String.toList_append, hitems,
        toList_lineAt]
      · simp
      · simp
      · simp
  | object members ih =>
    cases members with
    | nil => rw [prettyAt, chars]; rfl
    | cons m members =>
      have hmembers := toList_prettyMembers (depth + 1) fun m hm => ih m hm (depth + 1)
      rw [prettyAt, chars, String.toList_append, String.toList_append, String.toList_append,
        hmembers, toList_lineAt]
      · simp
      · simp
      · simp

theorem toList_pretty (v : Json) : (pretty v).toList = indented.chars 0 v := toList_prettyAt v 0

end SchemaQuery.Json
