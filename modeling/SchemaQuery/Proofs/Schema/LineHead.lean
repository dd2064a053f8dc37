import SchemaQuery.Proofs.Attribute.Arranged
import SchemaQuery.Proofs.Schema.Layout

/-!
# The head of a field's line

In front of its attributes the line of a field has a name and a type with its marks. It is taken
apart into these and the attributes, whatever white space stands between them.
-/

set_option autoImplicit false

namespace SchemaQuery

open SchemaQuery.Unicode SchemaQuery.Text

def Field.listMark (isList : Bool) : List Char := if isList then ['[', ']'] else []

namespace Declaration

open Attribute (Arranges)

theorem takeMark_of_head {mark s : List Char} {m : Char} (hmark : mark.head? = some m)
    (h : ∀ c ∈ s.head?, c ≠ m) : takeMark mark s = (false, s) := by
  have hnone : after? mark s = none := by
    cases ha : after? mark s with
    | none => rfl
    | some rest =>
      cases mark with
      | nil => cases hmark
      | cons x mark =>
        have hs := after?_eq_some_iff.1 ha
        cases hmark
        exact absurd rfl (h m (by rw [hs]; rfl))
  rw [takeMark, hnone]

theorem takeMark_list (isList : Bool) {s : List Char} (h : ∀ c ∈ s.head?, c ≠ '[') :
    takeMark ['[', ']'] (Field.listMark isList ++ s) = (isList, s) := by
  cases isList with
  | true => rfl
  | false => exact takeMark_of_head rfl h

theorem ofLine?_of_words {line name rest typeName rest' : List Char}
    (hname : word? (trimLeft line) = some (name, rest)) (hgap : opensWhite rest = true)
    (htype : word? (trimLeft rest) = some (typeName, rest')) :
    ofLine? line = some
      { name := String.ofList name
        typeName := String.ofList typeName
        isList := (takeMark ['[', ']'] rest').1
        isOptional := (takeMark ['?'] (trimLeft (takeMark ['[', ']'] rest').2)).1
        attributes := Attribute.scan
          (takeMark ['?'] (trimLeft (takeMark ['[', ']'] rest').2)).2 } := by
  unfold ofLine?
  rw [hname]
  show (guard (opensWhite rest = true) : Option Unit).bind _ = _
  rw [guard_of_pos hgap, Option.bind_some, htype]
  rfl

structure Head where
  margin : List Char
  name : List Char
  gap : List Char
  typeName : List Char
  isList : Bool
  optional : Option (List Char)
  isBlank_margin : isBlank margin = true
  isWord_name : isWord name = true
  isBlank_gap : isBlank gap = true
  gap_ne_nil : gap ≠ []
  isWord_typeName : isWord typeName = true
  isBlank_optional : ∀ pad ∈ optional, isBlank pad = true

namespace Head

def optionalText : Option (List Char) → List Char
  | none => []
  | some pad => pad ++ ['?']

def text (h : Head) : List Char :=
  h.margin ++ (h.name ++ (h.gap ++ (h.typeName ++
    (Field.listMark h.isList ++ optionalText h.optional))))

variable (h : Head) {as : List Attribute} {s : List Char}

/-- A type ends at what may follow it. -/
theorem behindType (hs : Arranges as s) :
    ∀ c ∈ (optionalText h.optional ++ s).head?, isWordChar c = false ∧ c ≠ '[' := by
  have hblank {c : Char} (hc : isWhite c = true) : isWordChar c = false ∧ c ≠ '[' :=
    ⟨isWordChar_of_isWhite hc, by rintro rfl; cases hc⟩
  intro c hc
  cases hpad : h.optional with
  | none =>
    rw [hpad, optionalText, List.nil_append] at hc
    obtain ⟨hname, hmark⟩ := hs.opens c hc
    rw [Attribute.isNameChar, Bool.or_eq_false_iff] at hname
    exact ⟨hname.1, fun heq => hmark (by simp [heq])⟩
  | some pad =>
    rw [hpad, optionalText] at hc
    cases pad with
    | nil =>
      cases hc
      decide
    | cons d pad =>
      cases hc
      exact hblank (isWhite_of_isBlank (h.isBlank_optional _ hpad) List.mem_cons_self)

/-- The question mark is taken off, and what is left is an arrangement still. -/
theorem takeMark_optional (hs : Arranges as s) :
    ∃ rest, takeMark ['?'] (trimLeft (optionalText h.optional ++ s)) = (h.optional.isSome, rest) ∧
      Arranges as rest := by
  cases hpad : h.optional with
  | none =>
    refine ⟨trimLeft s, ?_, hs.trimLeft⟩
    apply takeMark_of_head rfl
    intro c hc heq
    exact (hs.trimLeft.opens c hc).2 (by simp [heq])
  | some pad =>
    refine ⟨s, ?_, hs⟩
    rw [optionalText, List.append_assoc,
      trimLeft_append_of_isBlank (h.isBlank_optional pad hpad)]
    rfl

theorem opensWord_marks (hs : Arranges as s) :
    opensWord (Field.listMark h.isList ++ (optionalText h.optional ++ s)) = false := by
  cases h.isList with
  | true => exact (by decide : isWordChar '[' = false)
  | false =>
    show opensWord (optionalText h.optional ++ s) = false
    have hbehind := h.behindType hs
    cases ht : optionalText h.optional ++ s with
    | nil => rfl
    | cons c t =>
      rw [ht] at hbehind
      exact (hbehind c rfl).1

/-- A name ends at the gap behind it. -/
theorem opens_gap (rest : List Char) :
    opensWhite (h.gap ++ rest) = true ∧ opensWord (h.gap ++ rest) = false := by
  cases hg : h.gap with
  | nil => exact absurd hg h.gap_ne_nil
  | cons c gap =>
    have hc : isWhite c = true := isWhite_of_isBlank h.isBlank_gap (hg ▸ List.mem_cons_self)
    exact ⟨hc, isWordChar_of_isWhite hc⟩

/-- The line is taken apart into what its head says and the attributes that are arranged behind. -/
theorem ofLine?_append (hs : Arranges as s) : ofLine? (h.text ++ s) = some
    { name := String.ofList h.name
      typeName := String.ofList h.typeName
      isList := h.isList
      isOptional := h.optional.isSome
      attributes := Attributes.ofList as } := by
  have hopens := h.opensWord_marks hs
  have hlist := takeMark_list h.isList fun c hc => (h.behindType hs c hc).2
  obtain ⟨rest, hoptional, hrest⟩ := h.takeMark_optional hs
  have htext : h.text ++ s = h.margin ++ (h.name ++ (h.gap ++ (h.typeName ++
      (Field.listMark h.isList ++ (optionalText h.optional ++ s))))) := by
    simp only [text, List.append_assoc]
  generalize Field.listMark h.isList ++ (optionalText h.optional ++ s) = marks at *
  obtain ⟨hwhite, hgap⟩ := h.opens_gap (h.typeName ++ marks)
  have hname : word? (trimLeft (h.text ++ s)) = some (h.name, h.gap ++ (h.typeName ++ marks)) := by
    rw [htext, trimLeft_append_of_isBlank h.isBlank_margin, trimLeft_word h.isWord_name,
      word?_append h.isWord_name hgap]
  have htype : word? (trimLeft (h.gap ++ (h.typeName ++ marks))) = some (h.typeName, marks) := by
    rw [trimLeft_append_of_isBlank h.isBlank_gap, trimLeft_word h.isWord_typeName,
      word?_append h.isWord_typeName hopens]
  have hline := ofLine?_of_words hname hwhite htype
  rw [hlist, hoptional] at hline
  rw [hline, Attribute.scan, Attribute.occurrences_of_arranges hrest]

end Head

end Declaration

end SchemaQuery
