import SchemaQuery.Proofs.Command.Agreement
import SchemaQuery.Proofs.Schema.RoundTrip
import SchemaQuery.Schema.Card

/-!
# Documents are decoded from their JSON

A document, and every part of it, is decoded from any text of its JSON form, whatever its names and
texts hold. What is shown of a schema can therefore be made from its JSON as well.
-/

set_option autoImplicit false

namespace SchemaQuery

open Json (Gives Shallow Writes decodeText)

variable {α : Type}

def ComesBack (encode : α → Json) (decode : Json.Decoder α) (a : α) : Prop :=
  ∀ t : String, Writes t (encode a) → decodeText decode t = .ok a

theorem comesBack_of_gives {encode : α → Json} {decode : Json.Decoder α} {a : α}
    (hgives : Gives decode (encode a) a) {n : Nat} (hshallow : Shallow n (encode a))
    (hn : n ≤ 127) : ComesBack encode decode a :=
  fun _ ht => Json.decodeText_of_gives ht (hshallow.mono hn) hgives

theorem Relation.comesBack (r : Relation) : ComesBack toJson decoder r :=
  comesBack_of_gives r.gives_toJson r.shallow_toJson (by decide)

theorem Field.comesBack (f : Field) : ComesBack toJson decoder f :=
  comesBack_of_gives f.gives_toJson f.shallow_toJson (by decide)

theorem Model.comesBack (m : Model) : ComesBack toJson decoder m :=
  comesBack_of_gives m.gives_toJson m.shallow_toJson (by decide)

theorem Enumeration.comesBack (e : Enumeration) : ComesBack toJson decoder e :=
  comesBack_of_gives e.gives_toJson e.shallow_toJson (by decide)

theorem Document.comesBack (d : Document) : ComesBack toJson decoder d :=
  comesBack_of_gives d.gives_toJson d.shallow_toJson (by decide)

/-- The exported JSON is that of the document, for just the schemas that can be read. -/
theorem Export.parseSchema_eq_ok_iff {s exported : String} :
    (parseSchema s).result = .ok exported ↔
      ∃ d, (Document.read .standard s.toList).result = .ok d ∧ exported = d.toJson.compact := by
  constructor
  · intro h
    cases hread : (Document.read .standard s.toList).result with
    | error e =>
      have hdocument : (document s).run.value = .error (.badSchema e) := by
        show (Document.read .standard s.toList).result.mapError ExportError.badSchema = _
        rw [hread]
        rfl
      have hparse : (parseSchema s).result = .error (.badSchema e) := by
        show ((document s).run >>= ExceptT.bindCont _ : Logged _).value = _
        rw [Logged.value_bind, hdocument]
        rfl
      rw [hparse] at h
      cases h
    | ok d =>
      rw [result_parseSchema hread] at h
      exact ⟨d, rfl, (Except.ok.inj h).symm⟩
  · rintro ⟨d, hread, rfl⟩
    exact result_parseSchema hread

/-- Documents, models and fields come back from every text of their JSON. What is shown of a schema
can therefore be shown of the document that is decoded from its exported JSON. -/
theorem document_comes_back :
    (∀ d : Document, ComesBack Document.toJson Document.decoder d) ∧
    (∀ m : Model, ComesBack Model.toJson Model.decoder m) ∧
    (∀ f : Field, ComesBack Field.toJson Field.decoder f) ∧
    ∀ (s : String) (d : Document), (Document.read .standard s.toList).result = .ok d →
      ∃ exported decoded, (Export.parseSchema s).result = .ok exported ∧
        decodeText Document.decoder exported = .ok decoded ∧
        decoded.graph = d.graph ∧ Card.document decoded = Card.document d := by
  refine ⟨Document.comesBack, Model.comesBack, Field.comesBack, ?_⟩
  intro s d h
  have hexport := Export.parseSchema_eq_ok_iff.2 ⟨d, h, rfl⟩
  have hdecode := d.comesBack _ (Json.writes_compact _)
  exact ⟨_, d, hexport, hdecode, rfl, rfl⟩

def oddField : Field where
  name := "\x07"
  typeName := "größe"
  isRequired := false
  isUnique := true
  defaultText := some "\"\\u0041\t"
  relation := some { references := [""], onDelete := some "Cascade" }

def tagSchema : String :=
  "model Tag \x7b\n  id Int @id @default(0)\n  owner User?\n  @@map(\"t\")\n\x7d\n"

def tagDocument : Document where
  models := [⟨"Tag", some "t", [
    { name := "id", typeName := "Int", isId := true, defaultText := some "0" },
    { name := "owner", typeName := "User", isRequired := false, relation := some {} }]⟩]

theorem document_comes_back_odd :
    decodeText Document.decoder (oddDocument.toJson.pretty ++ "\n") = .ok oddDocument ∧
      decodeText Model.decoder oddModel.toJson.compact = .ok oddModel ∧
      decodeText Field.decoder oddField.toJson.compact = .ok oddField ∧
      (Document.read .standard tagSchema.toList).result = .ok tagDocument ∧
      ∃ exported decoded, (Export.parseSchema tagSchema).result = .ok exported ∧
        decodeText Document.decoder exported = .ok decoded ∧
        decoded.graph = tagDocument.graph ∧
        Card.document decoded = Card.document tagDocument := by
  obtain ⟨hdocument, hmodel, hfield, hschema⟩ := document_comes_back
  have hread : (Document.read .standard tagSchema.toList).result = .ok tagDocument := by
    decide +kernel
  exact ⟨hdocument oddDocument _ (Json.writes_pretty _), hmodel oddModel _ (Json.writes_compact _),
    hfield oddField _ (Json.writes_compact _), hread, hschema tagSchema tagDocument hread⟩

end SchemaQuery
