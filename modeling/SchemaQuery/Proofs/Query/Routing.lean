import SchemaQuery.Proofs.Query.Clauses
import SchemaQuery.Proofs.Schema.Fields
import SchemaQuery.Schema.Graph

/-!
# Which fields are selected and which are included

A query fetches each selected name once, under `select` or under `include`. For a model that was
read with the same scalar types, the names under `include` are those of the fields that carry a
relation, and of identifying fields whose type is no scalar. Of these last the graph of the schema
does not say that they lead to other records.
-/

set_option autoImplicit false

namespace SchemaQuery

open Literal

def ListsKeys (key : String) (keys : List String) (clause : String) : Prop :=
  ∃ (value : String) (members : List (String × Literal)), clause = key ++ ": " ++ value ∧
    Literal.read value.toList = some (.object members) ∧ members.map (·.1) = keys

def HasKey (key clause : String) : Prop := ∃ value : String, clause = key ++ ": " ++ value

def otherKeys : List String := ["where", "data", "orderBy", "skip", "take", "cursor"]

theorem hasKey_of_toList {key clause : String} {s : List Char}
    (h : clause.toList = key.toList ++ ':' :: ' ' :: s) : HasKey key clause := by
  refine ⟨String.ofList s, String.toList_inj.1 ?_⟩
  rw [h]
  simp

namespace Clause

/-- The keys are the names, each once, where it is met first. -/
theorem listsKeys_nested (key : String) (value : String → Json) (names : List String) :
    ListsKeys key names.eraseDups (key ++ ": " ++ nested 1
      (.object (Json.Members.ofList (names.map fun name => (name, value name))))) := by
  have hread := (shows_nested 1
    (.object (Json.Members.ofList (names.map fun name => (name, value name))))).read_eq
  rw [ofJson_named] at hread
  refine ⟨_, _, rfl, hread, ?_⟩
  rw [List.map_map]
  exact List.map_id _

theorem listsKeys_select (names : List String) :
    ListsKeys "select" names.eraseDups (select names) :=
  listsKeys_nested "select" (fun _ => .bool true) names

theorem hasKey_block (key line : String) : HasKey key (block key line) := by
  apply hasKey_of_toList
  simp only [block, String.toList_append, List.append_assoc]
  rfl

theorem hasKey_orderBy {sort : Option (List SortKey)} {clause : String}
    (h : clause ∈ orderBy sort) : HasKey "orderBy" clause := by
  match sort with
  | none => cases h
  | some [] => cases h
  | some (key :: keys) =>
    rw [List.mem_singleton.1 h]
    exact ⟨_, rfl⟩

theorem hasKey_page {p : Page} {clause : String} (h : clause ∈ page p) :
    ∃ key ∈ ["skip", "take", "cursor"], HasKey key clause := by
  simp only [page, List.mem_append, Option.mem_toList, Option.map_eq_some_iff] at h
  rcases h with (⟨n, -, rfl⟩ | ⟨n, -, rfl⟩) | ⟨c, -, rfl⟩
  · exact ⟨"skip", by simp, _, rfl⟩
  · exact ⟨"take", by simp, _, rfl⟩
  · refine ⟨"cursor", by simp, ?_⟩
    apply hasKey_of_toList
    simp only [String.toList_append, List.append_assoc]
    rfl

end Clause

namespace Generator

variable (g : Generator) (r : Request)

def call (clauses : List String) : String :=
  "const " ++ binding r.operation ++ " = await " ++ g.client ++ "." ++ r.model.accessor ++ "."
    ++ r.operation.method ++ "(\x7b\n" ++ Text.indent
    ++ String.intercalate (",\n" ++ Text.indent) clauses ++ "\n\x7d);"

/-- The query has one clause with the selected names as its keys, one with the included names as its
keys unless there are none, and no other clause under the keys of these two. -/
def Fetches (selected included : List String) : Prop :=
  ∃ (before after : List String) (selection : String) (inclusion : Option String),
    (g.clauses r (g.selection r.model r.selected)).value =
      before ++ selection :: (inclusion.toList ++ after) ∧
    (g.generate r).value = g.call r (before ++ selection :: (inclusion.toList ++ after)) ∧
    (∀ clause ∈ before ++ after, ∃ key ∈ otherKeys, HasKey key clause) ∧
    ListsKeys "select" selected selection ∧
    (inclusion = none ∧ included = [] ∨
      ∃ clause, inclusion = some clause ∧ included ≠ [] ∧ ListsKeys "include" included clause)

variable {g r}

theorem hasKey_where : HasKey "where" (g.whereClause r).value := by
  apply hasKey_of_toList
  simp only [whereClause, Logged.value_bind, Logged.value_pure, String.toList_append,
    List.append_assoc]
  rfl

/-- What stands behind the fetched fields of a reading is its order and its page. -/
theorem hasKey_behind {sort : Option (List SortKey)} {page : Option Page} {clause : String}
    (h : clause ∈ Clause.orderBy sort ++ (page.map Clause.page).getD []) :
    ∃ key ∈ otherKeys, HasKey key clause := by
  rcases List.mem_append.1 h with h | h
  · exact ⟨"orderBy", by decide, Clause.hasKey_orderBy h⟩
  · cases page with
    | none => cases h
    | some p =>
      obtain ⟨key, hkey, hclause⟩ := Clause.hasKey_page h
      exact ⟨key, List.mem_of_mem_drop (i := 3) hkey, hclause⟩

/-- Names that lead to other records are included, unless the greatest depth is zero. -/
theorem includeRelations_listsKeys (hdepth : r.options.relation.bind (·.maxDepth) ≠ some 0) :
    ∃ inclusion : Option String, Clause.includeRelations g.identity r.options.relation
        (g.selection r.model r.selected).relations = inclusion.toList ∧
      (inclusion = none ∧ (r.selected.filter (g.types.leadsOn r.model)).eraseDups = [] ∨
        ∃ clause, inclusion = some clause ∧
          (r.selected.filter (g.types.leadsOn r.model)).eraseDups ≠ [] ∧
          ListsKeys "include" (r.selected.filter (g.types.leadsOn r.model)).eraseDups clause) := by
  have hnames := g.names_relations r.model r.selected
  generalize (g.selection r.model r.selected).relations = relations at hnames
  rw [← hnames, Clause.includeRelations]
  by_cases hnone : relations = []
  · subst hnone
    exact ⟨none, if_pos (Or.inr rfl), Or.inl ⟨rfl, rfl⟩⟩
  · have honce : (relations.map (·.name)).eraseDups = relations.map (·.name) := by
      rw [hnames, eraseDups_eraseDups]
    have hkeys := Clause.listsKeys_nested "include" (fun name => Clause.inclusion g.identity
      (r.options.relation.bind (·.inclusion? name))) (relations.map (·.name))
    rw [honce, List.map_map] at hkeys
    have hsome : relations.map (·.name) ≠ [] := fun h => hnone (List.map_eq_nil_iff.1 h)
    refine ⟨some _, if_neg (not_or.2 ⟨hdepth, hnone⟩), Or.inr ⟨_, rfl, hsome, hkeys⟩⟩

theorem fetches_of_clauses (hdepth : r.options.relation.bind (·.maxDepth) ≠ some 0)
    (before after : List String)
    (hclauses : (g.clauses r (g.selection r.model r.selected)).value = before ++
      ([Clause.select (g.selection r.model r.selected).regular]
        ++ Clause.includeRelations g.identity r.options.relation
          (g.selection r.model r.selected).relations) ++ after)
    (hothers : ∀ clause ∈ before ++ after, ∃ key ∈ otherKeys, HasKey key clause) :
    g.Fetches r (r.selected.filter fun name => !g.types.leadsOn r.model name).eraseDups
      (r.selected.filter (g.types.leadsOn r.model)).eraseDups := by
  obtain ⟨inclusion, hinclude, hincluded⟩ := includeRelations_listsKeys (g := g) hdepth
  have hselected := Clause.listsKeys_select (g.selection r.model r.selected).regular
  have htext : (g.generate r).value =
      g.call r (g.clauses r (g.selection r.model r.selected)).value := rfl
  rw [hinclude, List.append_assoc, List.append_assoc, List.singleton_append] at hclauses
  rw [hclauses] at htext
  rw [← regular_selection]
  exact ⟨before, after, _, inclusion, hclauses, htext, hothers, hselected, hincluded⟩

/-- Each operation but the computation puts clauses of its own before and behind the two that
fetch. -/
theorem exists_clauses (hoperation : r.operation ≠ .aggregate) :
    ∃ before after, (g.clauses r (g.selection r.model r.selected)).value = before ++
        ([Clause.select (g.selection r.model r.selected).regular]
          ++ Clause.includeRelations g.identity r.options.relation
            (g.selection r.model r.selected).relations) ++ after ∧
      ∀ clause ∈ before ++ after, ∃ key ∈ otherKeys, HasKey key clause := by
  have hwhere : ∃ key ∈ otherKeys, HasKey key (g.whereClause r).value :=
    ⟨"where", by decide, hasKey_where⟩
  have hdata (line : String) : ∃ key ∈ otherKeys, HasKey key (Clause.block "data" line) :=
    ⟨"data", by decide, Clause.hasKey_block _ _⟩
  have htarget (line : String) : ∃ key ∈ otherKeys, HasKey key (Clause.block "where" line) :=
    ⟨"where", by decide, Clause.hasKey_block _ _⟩
  cases hop : r.operation with
  | aggregate => exact absurd hop hoperation
  | create =>
    refine ⟨[Clause.block "data" createPlaceholder], [], ?_, ?_⟩
    · simp [clauses, hop]
    · simpa using hdata _
  | read =>
    refine ⟨[(g.whereClause r).value],
      Clause.orderBy r.options.sort ++ (r.options.page.map Clause.page).getD [], ?_, ?_⟩
    · simp [clauses, hop]
    · intro clause hclause
      rcases List.mem_append.1 hclause with hclause | hclause
      · rw [List.mem_singleton.1 hclause]
        exact hwhere
      · exact hasKey_behind hclause
  | update =>
    refine ⟨[Clause.block "where" updateTarget, Clause.block "data" updatePlaceholder], [], ?_, ?_⟩
    · simp [clauses, hop]
    · simpa using ⟨htarget _, hdata _⟩
  | delete =>
    refine ⟨[Clause.block "where" deleteTarget], [], ?_, ?_⟩
    · simp [clauses, hop]
    · simpa using htarget _

/-- Every selected name is fetched, in one way or the other. -/
theorem fetches (hoperation : r.operation ≠ .aggregate)
    (hdepth : r.options.relation.bind (·.maxDepth) ≠ some 0) :
    g.Fetches r (r.selected.filter fun name => !g.types.leadsOn r.model name).eraseDups
      (r.selected.filter (g.types.leadsOn r.model)).eraseDups := by
  obtain ⟨before, after, hclauses, hothers⟩ := exists_clauses (g := g) hoperation
  exact fetches_of_clauses hdepth before after hclauses hothers

end Generator

def Graph.row? (graph : Graph) (model field : String) : Option Row :=
  (graph.nodes.find? (·.id == model)).bind fun node => node.rows.find? (·.name == field)

theorem Document.row?_graph {d : Document} {m : Model} (h : d.model? m.name = some m)
    (name : String) : d.graph.row? m.name name = (m.field? name).map Field.row := by
  have hnode : d.graph.nodes.find? (·.id == m.name) = some m.node := by
    have hfind : d.graph.nodes.find? (·.id == m.name) =
        (d.models.find? (·.name == m.name)).map Model.node := List.find?_map
    rw [hfind]
    exact congrArg (Option.map Model.node) h
  rw [Graph.row?, hnode]
  exact List.find?_map

namespace Declaration

variable (types : ScalarTypes) (d : Declaration)

/-- A declared field leads to other records if it carries a relation, and also if it identifies its
record by a type that is no scalar. -/
theorem isRelation_declared : types.isRelation (d.declared types) = true ↔
    (d.declared types).relation.isSome = true ∨
      (d.declared types).isId = true ∧ ¬ types.contains (d.declared types).typeName = true := by
  have hrelation := d.isSome_relation_declared types
  obtain ⟨-, htype, hid, -⟩ := d.declared_written types
  rw [ScalarTypes.isRelation, hrelation, htype, hid]
  cases d.attributes.has "@relation" <;> cases d.attributes.has "@id" <;>
    cases types.contains d.typeName <;> simp

/-- The two ways to tell whether a field leads to other records differ for just the fields that are
written to identify their record, with no relation and a type that is no scalar. -/
theorem isRelation_differs : ¬ (types.isRelation (d.declared types) = true ↔
      (d.declared types).row.isRelation = true) ↔
    d.attributes.has "@id" = true ∧ ¬ d.attributes.has "@relation" = true ∧
      ¬ types.contains d.typeName = true := by
  have hrow : (d.declared types).row.isRelation = (d.declared types).relation.isSome := rfl
  have hrelation := d.isSome_relation_declared types
  obtain ⟨-, htype, -, -⟩ := d.declared_written types
  rw [hrow, ScalarTypes.isRelation, hrelation, htype]
  cases d.attributes.has "@relation" <;> cases d.attributes.has "@id" <;>
    cases types.contains d.typeName <;> simp

end Declaration

/-- The names under which fields are fetched are parted by whether their first field leads on. -/
theorem ScalarTypes.parted (types : ScalarTypes) (m : Model) (names : List String) :
    ((names.filter fun name => !types.leadsOn m name).eraseDups ++
      (names.filter (types.leadsOn m)).eraseDups).Nodup := by
  rw [List.nodup_append]
  refine ⟨nodup_eraseDups _, nodup_eraseDups _, ?_⟩
  rintro name hselected _ hincluded rfl
  simp only [List.mem_eraseDups, List.mem_filter, Bool.not_eq_true'] at hselected hincluded
  rw [hselected.2] at hincluded
  cases hincluded.2

/-- Schema, graph and query tell alike which fields of a model lead to other records, except for the
fields that are written to identify their record with a type that is no scalar and no relation:
these are included in a query, and the graph does not call them relations. -/
theorem routing_agrees {types : ScalarTypes} {s : List Char} {d : Document} {m : Model}
    {g : Generator} {r : Request} (hread : (Document.read types s).result = .ok d)
    (hmodel : d.model? m.name = some m) (htypes : g.types = types) (hr : r.model = m)
    (hoperation : r.operation ≠ .aggregate)
    (hselected : ∀ name, name ∈ r.selected ↔ name ∈ m.fields.map (·.name))
    (hdepth : r.options.relation.bind (·.maxDepth) ≠ some 0) :
    ∃ selected included block lines, g.Fetches r selected included ∧
      (selected ++ included).Nodup ∧
      (∀ name, name ∈ selected ++ included ↔ name ∈ m.fields.map (·.name)) ∧
      block ∈ BlockKind.model.blocks s ∧ BlockKind.model.open block = .ok (m.name, lines) ∧
      ∀ name f, m.field? name = some f →
        (name ∈ included ↔
          f.relation.isSome = true ∨ f.isId = true ∧ ¬ types.contains f.typeName = true) ∧
        ∃ row declaration, d.graph.row? m.name name = some row ∧
          (lines.filterMap Declaration.ofMember?).find? (·.name == name) = some declaration ∧
          (¬ (name ∈ included ↔ row.isRelation = true) ↔
            declaration.attributes.has "@id" = true ∧
              ¬ declaration.attributes.has "@relation" = true ∧
              ¬ types.contains declaration.typeName = true) := by
  subst htypes hr
  have hmem : r.model ∈ d.models := List.mem_of_find?_eq_some hmodel
  obtain ⟨block, hblock, lines, hopen, hbuild⟩ := Document.exists_block hread hmem
  refine ⟨_, _, block, lines, Generator.fetches hoperation hdepth, g.types.parted _ _, ?_, hblock,
    hopen, ?_⟩
  · intro name
    rw [← hselected]
    simp only [List.mem_append, List.mem_eraseDups, List.mem_filter, Bool.not_eq_true']
    cases g.types.leadsOn r.model name <;> simp
  · intro name f hf
    have hdeclared := Model.field?_build g.types (r.model.name, lines) name
    rw [← hbuild, hf] at hdeclared
    obtain ⟨declaration, hfind, rfl⟩ := Option.map_eq_some_iff.1 hdeclared.symm
    have hnamed := List.find?_some (p := fun x : Field => x.name == name) hf
    have hname : name ∈ r.model.fields.map (·.name) :=
      List.mem_map.2 ⟨_, List.mem_of_find?_eq_some hf, eq_of_beq hnamed⟩
    have hleads : g.types.leadsOn r.model name =
        g.types.isRelation (declaration.declared g.types) := by
      rw [ScalarTypes.leadsOn, hf]
      rfl
    have hincluded : name ∈ (r.selected.filter (g.types.leadsOn r.model)).eraseDups ↔
        g.types.isRelation (declaration.declared g.types) = true := by
      rw [List.mem_eraseDups, List.mem_filter, hleads, hselected]
      exact and_iff_right hname
    have hrow := Document.row?_graph hmodel name
    rw [hf] at hrow
    refine ⟨hincluded.trans (declaration.isRelation_declared g.types), _, declaration, hrow, hfind,
      ?_⟩
    rw [hincluded]
    exact declaration.isRelation_differs g.types

def taggedSchema : String :=
  "model Tag \x7b\n  id Uuid @id\n  id Int\n  role Role @relation(\"r\")\n  posts Post[]\n\x7d\n" ++
    "model Tag \x7b\n\x7d\n"

def taggedModel : Model := ⟨"Tag", none, [{ name := "id", typeName := "Uuid", isId := true },
  { name := "id", typeName := "Int" },
  { name := "role", typeName := "Role", relation := some { name := some "r" } },
  { name := "posts", typeName := "Post", isList := true, relation := some {} }]⟩

def taggedGenerator : Generator where
  types := .insert .standard "Role"

def taggedRequest : Request where
  model := taggedModel
  operation := .update
  selected := ["role", "posts", "id"]

theorem routing_agrees_tagged :
    ∃ d, (Document.read (.insert .standard "Role") taggedSchema.toList).result = .ok d ∧
      d.model? "Tag" = some taggedModel ∧
      ∃ selected included,
        taggedGenerator.Fetches taggedRequest selected included ∧
        "id" ∈ included ∧ "role" ∈ included ∧
        d.graph.row? "Tag" "id" = some ⟨"id", "Uuid", true, false, false⟩ := by
  have hread : (Document.read (.insert .standard "Role") taggedSchema.toList).result =
      .ok { models := [taggedModel, ⟨"Tag", none, []⟩] } := by
    decide +kernel
  have hselected : ∀ name, name ∈ taggedRequest.selected ↔
      name ∈ taggedModel.fields.map (·.name) := by
    intro name
    simp only [taggedRequest, taggedModel, List.map_cons, List.map_nil, List.mem_cons,
      List.not_mem_nil, or_false]
    tauto
  obtain ⟨selected, included, block, lines, hfetches, -, -, -, -, hfields⟩ :=
    routing_agrees (g := taggedGenerator) (r := taggedRequest) hread
      (m := taggedModel) rfl rfl rfl (by decide) hselected (by decide)
  have hid := (hfields "id" _ rfl).1.2 (Or.inr ⟨rfl, by decide⟩)
  have hrole := (hfields "role" _ rfl).1.2 (Or.inl rfl)
  exact ⟨_, hread, rfl, selected, included, hfetches, hid, hrole, rfl⟩

end SchemaQuery
