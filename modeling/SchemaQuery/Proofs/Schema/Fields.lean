import SchemaQuery.Proofs.Schema.Reading

/-!
# Where the fields of a model come from

The fields of a model are those that its lines declare, in order. A field identifies its record if
and only if its declaration says so, and it carries a relation if one is written down or its type is
no scalar and it does not identify its record.
-/

set_option autoImplicit false

namespace SchemaQuery

namespace Declaration

variable (types : ScalarTypes)

def ofMember? : List Char → Option Declaration
  | '@' :: '@' :: _ => none
  | line => ofLine? line

theorem ofMember?_of_not_marked {line : List Char} (h : ∀ rest, line ≠ '@' :: '@' :: rest) :
    ofMember? line = ofLine? line := by
  unfold ofMember?
  split
  · exact absurd rfl (h _)
  · rfl

def declared (d : Declaration) : Field := (d.field types).value

/-- The name and the type of the field and its two marks are as they are written. -/
theorem declared_written (d : Declaration) : (d.declared types).name = d.name ∧
    (d.declared types).typeName = d.typeName ∧ (d.declared types).isId = d.attributes.has "@id" ∧
    (d.declared types).isUnique = d.attributes.has "@unique" := ⟨rfl, rfl, rfl, rfl⟩

theorem isSome_relation_declared (d : Declaration) : (d.declared types).relation.isSome =
    (d.attributes.has "@relation" || !d.attributes.has "@id" && !types.contains d.typeName) := by
  have hrelation : (d.declared types).relation = (d.relation types).value := rfl
  have hwritten : d.attributes.has "@relation" = (d.attributes.get? "@relation").isSome := rfl
  rw [hrelation, relation, hwritten]
  cases d.attributes.get? "@relation" with
  | some a => rfl
  | none =>
    show (if (!d.attributes.has "@id" && !types.contains d.typeName) = true then
      some ({} : Relation) else none).isSome = _
    cases !d.attributes.has "@id" && !types.contains d.typeName <;> rfl

end Declaration

namespace Model

variable (types : ScalarTypes)

/-- A line adds the field that it declares, if it declares one. -/
theorem fields_addLine (m : Model) (line : List Char) : (m.addLine types line).value.fields =
    m.fields ++ ((Declaration.ofMember? line).map (Declaration.declared types)).toList := by
  unfold addLine
  split
  · exact (List.append_nil _).symm
  · rename_i hmarks
    rw [Declaration.ofMember?_of_not_marked hmarks, Logged.value_bind, Field.read]
    cases Declaration.ofLine? line with
    | none => exact (List.append_nil _).symm
    | some d => rfl

theorem fields_build (opened : String × List (List Char)) : (build types opened).fields =
    (opened.2.filterMap Declaration.ofMember?).map (Declaration.declared types) := by
  obtain ⟨name, lines⟩ := opened
  have hadded : ∀ m : Model, (lines.foldl (fun m line => (m.addLine types line).value) m).fields =
      m.fields ++ (lines.filterMap Declaration.ofMember?).map (Declaration.declared types) := by
    induction lines with
    | nil => exact fun m => (List.append_nil _).symm
    | cons line lines ih =>
      intro m
      rw [List.foldl_cons, ih, fields_addLine, List.append_assoc, List.filterMap_cons]
      cases Declaration.ofMember? line <;> rfl
  rw [build, value_foldlM]
  exact hadded _

/-- The first field of a name is the one that is declared first under it. -/
theorem field?_build (opened : String × List (List Char)) (name : String) :
    (build types opened).field? name =
      ((opened.2.filterMap Declaration.ofMember?).find? (·.name == name)).map
        (Declaration.declared types) := by
  rw [field?, fields_build, List.find?_map]
  rfl

end Model

/-- A model of a document is built up from the lines of a block of the text. -/
theorem Document.exists_block {types : ScalarTypes} {s : List Char} {d : Document} {m : Model}
    (h : (Document.read types s).result = .ok d) (hm : m ∈ d.models) :
    ∃ block ∈ BlockKind.model.blocks s, ∃ lines,
      BlockKind.model.open block = .ok (m.name, lines) ∧ m = Model.build types (m.name, lines) := by
  obtain ⟨hmodels, -, -⟩ := Document.read_eq_ok_iff.1 h
  have hforall := mapM_eq_ok_iff.1 hmodels
  obtain ⟨i, hi, hmi⟩ := List.getElem_of_mem hm
  have hblocks : i < (BlockKind.model.blocks s).length := hforall.length_eq ▸ hi
  have hread := List.forall₂_iff_get.1 hforall |>.2 i hblocks hi
  rw [List.get_eq_getElem, List.get_eq_getElem, hmi, Model.read_result] at hread
  refine ⟨_, List.getElem_mem hblocks, ?_⟩
  cases hopen : BlockKind.model.open (BlockKind.model.blocks s)[i] with
  | error e =>
    rw [hopen] at hread
    cases hread
  | ok opened =>
    rw [hopen] at hread
    have hbuild : Model.build types opened = m := Except.ok.inj hread
    obtain ⟨name, lines⟩ := opened
    have hname : m.name = name := by rw [← hbuild, Model.build_name]
    exact ⟨lines, by rw [hname], by rw [hname, hbuild]⟩

end SchemaQuery
