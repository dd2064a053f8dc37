import SchemaQuery.Proofs.Keys
import SchemaQuery.Proofs.Schema.LineHead

/-!
# The order of attributes on a line

What a field is declared to be depends on the attributes behind its type only through the first of
each marker. Their order makes no difference, nor does what stands around them: white space, quoted
texts and a comment at the end.
-/

set_option autoImplicit false

namespace SchemaQuery

open SchemaQuery.Unicode SchemaQuery.Text

namespace Declaration

open Attribute (Arranges)

section Lookups

variable (types : ScalarTypes) {as bs : List Attribute}

/-- Of its attributes a declaration uses those that their markers lead to, and nothing else. -/
theorem field_congr (d : Declaration) {attributes : Attributes}
    (h : ∀ marker, attributes.get? marker = d.attributes.get? marker) :
    ({ d with attributes } : Declaration).field types = d.field types := by
  have hhas (marker : String) : attributes.has marker = d.attributes.has marker := by
    rw [Attributes.has, h, Attributes.has]
  have hargs (marker : String) : attributes.args? marker = d.attributes.args? marker := by
    rw [Attributes.args?, h, Attributes.args?]
  simp only [field, relation, h, hhas, hargs]

/-- Lines with one head declare the same field if each marker leads to the same attribute. -/
theorem read_eq_of_lookups (h : Head) {s t : List Char} (hs : Arranges as s) (ht : Arranges bs t)
    (hget : ∀ marker, bs.find? (·.marker == marker) = as.find? (·.marker == marker)) :
    Field.read types (h.text ++ t) = Field.read types (h.text ++ s) := by
  unfold Field.read
  rw [h.ofLine?_append hs, h.ofLine?_append ht]
  refine congrArg (some <$> ·) ?_
  exact field_congr types ⟨_, _, _, _, Attributes.ofList as⟩ fun marker => by
    rw [Attributes.get?_ofList, Attributes.get?_ofList, hget]

/-- A marker leads to nothing else if an attribute stands again behind the first of its marker. -/
theorem find?_repeated {before between after : List Attribute} {a b : Attribute}
    (h : b.marker = a.marker) (marker : String) :
    (before ++ a :: (between ++ b :: after)).find? (·.marker == marker) =
      (before ++ a :: (between ++ after)).find? (·.marker == marker) := by
  simp only [List.find?_append, List.find?_cons, h]
  cases a.marker == marker <;> rfl

end Lookups

/-- A line declares the same field in whatever order attributes of different markers stand on it,
and whatever stands around them. An attribute that stands again behind another of its marker makes
no difference. -/
theorem read_arranged (types : ScalarTypes) (h : Head) :
    (∀ (as bs : List Attribute) (s t : List Char), (as.map Attribute.marker).Nodup → as.Perm bs →
      Arranges as s → Arranges bs t →
        ∃ field, (Field.read types (h.text ++ s)).value = some field ∧
          Field.read types (h.text ++ t) = Field.read types (h.text ++ s)) ∧
    ∀ (before between after : List Attribute) (a b : Attribute) (s t : List Char),
      b.marker = a.marker → Arranges (before ++ a :: (between ++ b :: after)) s →
      Arranges (before ++ a :: (between ++ after)) t →
        Field.read types (h.text ++ s) = Field.read types (h.text ++ t) := by
  constructor
  · intro as bs s t hdistinct hperm hs ht
    have hfield : ∃ field, (Field.read types (h.text ++ s)).value = some field := by
      unfold Field.read
      rw [h.ofLine?_append hs]
      exact ⟨_, rfl⟩
    obtain ⟨field, hfield⟩ := hfield
    refine ⟨field, hfield, read_eq_of_lookups types h hs ht fun marker => ?_⟩
    exact (find?_key_of_perm hperm hdistinct marker).symm
  · intro before between after a b s t hmarker hs ht
    exact read_eq_of_lookups types h ht hs (find?_repeated hmarker)

def looseHead : Head where
  margin := [' ']
  name := ['a']
  gap := ['\t', ' ']
  typeName := ['T']
  isList := true
  optional := some [' ']
  isBlank_margin := isBlank_space
  isWord_name := by decide
  isBlank_gap := by decide
  gap_ne_nil := List.cons_ne_nil _ _
  isWord_typeName := by decide
  isBlank_optional := by decide

def quotedAttribute : Attribute := ⟨"db.X", some "\")\"", false⟩

def openAttribute : Attribute := ⟨"id", some "( @unique", false⟩

theorem read_arranged_loose :
    (∃ field, (Field.read .standard
        (looseHead.text ++ " @db.X(\")\") \"@\"@id// @unique".toList)).value = some field ∧
      Field.read .standard (looseHead.text ++ "@id @db.X(\")\")".toList) = Field.read .standard
        (looseHead.text ++ " @db.X(\")\") \"@\"@id// @unique".toList)) ∧
    Field.read .standard (looseHead.text ++ "@id @id(( @unique".toList) =
      Field.read .standard (looseHead.text ++ "@id".toList) := by
  have hid : Style.idAttribute.Sound :=
    ⟨by decide, List.all_eq_true.1 (by decide), fun _ hargs => by cases hargs⟩
  have hquoted : quotedAttribute.Sound := by
    refine ⟨by decide, List.all_eq_true.1 (by decide), ?_⟩
    rintro args ⟨⟩
    exact .quoted (.plain (by decide) (by decide) .quote) .nil
  have hopen : Attribute.Unmatched "( @unique".toList := by
    intro args rest _ heq
    have hmem : ')' ∈ "( @unique".toList := by
      rw [heq]
      simp
    exact absurd hmem (by decide)
  have hspace {as : List Attribute} {s : List Char} : Arranges as s → Arranges as (' ' :: s) :=
    .white (by decide)
  have hs : Arranges [quotedAttribute, Style.idAttribute]
      " @db.X(\")\") \"@\"@id// @unique".toList :=
    hspace (.named hquoted (hspace (.quoted (.plain (by decide) (by decide) .quote)
      (.named hid (.comment _)))))
  have ht : Arranges [Style.idAttribute, quotedAttribute] "@id @db.X(\")\")".toList :=
    .named hid (hspace (.named hquoted .nil))
  have hagain : Arranges [Style.idAttribute, openAttribute] "@id @id(( @unique".toList :=
    .named hid (hspace (@Arranges.unclosed false "id".toList "( @unique".toList (by decide)
      (List.all_eq_true.1 (by decide)) hopen))
  have honce : Arranges [Style.idAttribute] "@id".toList := .named hid .nil
  have hall := read_arranged .standard looseHead
  exact ⟨hall.1 _ _ _ _ (by decide) (List.Perm.swap _ _ _) hs ht,
    hall.2 [] [] [] Style.idAttribute openAttribute _ _ rfl hagain honce⟩

end Declaration

end SchemaQuery
