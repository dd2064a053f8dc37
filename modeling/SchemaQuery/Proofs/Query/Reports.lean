import SchemaQuery.Proofs.Query.ReadBack

/-!
# The events of writing a query

Writing a query is announced once. Only operations that filter look at conditions, and each
condition whose operator does not fit the type of its field is reported, in the order of the list. A
condition that is reported is written like any other.
-/

set_option autoImplicit false

namespace SchemaQuery

/-- The first field of the condition's name holds a value itself, and the operator is not among
those for its type. -/
structure Condition.Misfits (types : ScalarTypes) (m : Model) (c : Condition) (f : Field) :
    Prop where
  found : m.field? c.field = some f
  unrelated : f.relation = none
  scalar : types.contains f.typeName = true
  unoffered : c.operator ∉ Operator.offered f.typeName

structure Event.Reports (m : Model) (c : Condition) (f : Field) (e : Event) : Prop where
  level : e.level = .warn
  message : e.message = "operator does not apply to field type"
  details : e.details = [("model", m.name), ("field", c.field), ("operator", c.operator.name),
    ("typ", f.typeName)]

structure Event.Announces (g : Generator) (r : Request) (e : Event) : Prop where
  level : e.level = .debug
  message : e.message = "generating query"
  details : e.details = [("model", r.model.name), ("operation", r.operation.name),
    ("fields", toString (g.selection r.model r.selected).regular.length),
    ("relations", toString (g.selection r.model r.selected).relations.length)]

namespace Condition

variable {types : ScalarTypes} {m : Model} {c : Condition} {f : Field}

theorem misfits_iff : c.Misfits types m f ↔
    m.field? c.field = some f ∧ types.isRelation f = false ∧
      c.operator.appliesTo f.typeName = false := by
  have hrelation : types.isRelation f = false ↔
      f.relation = none ∧ types.contains f.typeName = true := by
    rw [ScalarTypes.isRelation, Bool.or_eq_false_iff, Option.isSome_eq_false_iff,
      Option.isNone_iff_eq_none, Bool.not_eq_false']
  have hoffered : c.operator.appliesTo f.typeName = false ↔
      c.operator ∉ Operator.offered f.typeName := by
    rw [Operator.appliesTo, ← Bool.not_eq_true, List.contains_iff_mem]
  rw [hrelation, hoffered]
  exact ⟨fun ⟨hfound, hunrelated, hscalar, hnot⟩ => ⟨hfound, ⟨hunrelated, hscalar⟩, hnot⟩,
    fun ⟨hfound, ⟨hunrelated, hscalar⟩, hnot⟩ => ⟨hfound, hunrelated, hscalar, hnot⟩⟩

def misfit? (types : ScalarTypes) (m : Model) (c : Condition) : Option Field :=
  (m.field? c.field).filter fun f => !types.isRelation f && !c.operator.appliesTo f.typeName

theorem misfit?_eq_some_iff : c.misfit? types m = some f ↔ c.Misfits types m f := by
  rw [misfit?, Option.filter_eq_some_iff, misfits_iff, Bool.and_eq_true, Bool.not_eq_true',
    Bool.not_eq_true']

instance (types : ScalarTypes) (m : Model) (c : Condition) :
    Decidable (∃ f, c.Misfits types m f) :=
  decidable_of_iff ((c.misfit? types m).isSome = true) (by
    rw [Option.isSome_iff_exists]
    simp only [misfit?_eq_some_iff])

/-- A condition is reported at most once, when it is written. -/
theorem events_render : (c.render types m).events = (c.misfit? types m).toList.map fun f =>
    .inapplicableOperator m.name c.field c.operator.name f.typeName := by
  unfold render misfit?
  cases m.field? c.field with
  | none => rfl
  | some f =>
    cases hrelation : types.isRelation f with
    | true => simp [hrelation]
    | false =>
      cases happlies : c.operator.appliesTo f.typeName with
      | true => simp [hrelation, happlies, check]
      | false => simp [Option.filter_some, hrelation, happlies, check, Logged.log]

theorem exists_report (h : ∃ f, c.Misfits types m f) : ∃ e, (c.render types m).events = [e] ∧
    ∃ f, c.Misfits types m f ∧ e.Reports m c f := by
  obtain ⟨f, hf⟩ := h
  refine ⟨.inapplicableOperator m.name c.field c.operator.name f.typeName, ?_, f, hf, rfl, rfl, rfl⟩
  rw [events_render, misfit?_eq_some_iff.2 hf]
  rfl

theorem events_render_eq_nil (h : ¬ ∃ f, c.Misfits types m f) : (c.render types m).events = [] := by
  have hnone : c.misfit? types m = none := by
    rw [Option.eq_none_iff_forall_not_mem]
    exact fun f hf => h ⟨f, misfit?_eq_some_iff.1 hf⟩
  rw [events_render, hnone]
  rfl

/-- Over a list the misfits are reported one by one. -/
theorem reports_flatMap (types : ScalarTypes) (m : Model) (conditions : List Condition) :
    List.Forall₂ (fun c e => ∃ f, c.Misfits types m f ∧ e.Reports m c f)
      (conditions.filter fun c => ∃ f, c.Misfits types m f)
      (conditions.flatMap fun c => (c.render types m).events) := by
  induction conditions with
  | nil => exact .nil
  | cons c conditions ih =>
    rw [List.flatMap_cons]
    by_cases hc : ∃ f, c.Misfits types m f
    · obtain ⟨e, he, hreports⟩ := exists_report hc
      rw [List.filter_cons_of_pos (by simpa using hc), he]
      exact .cons hreports ih
    · rw [List.filter_cons_of_neg (by simpa using hc), events_render_eq_nil hc]
      exact ih

end Condition

/-- Writing a filter raises the events of its conditions. -/
theorem Filter.events_render (types : ScalarTypes) (m : Model) (depth : Nat) (f : Filter) :
    (f.render types m depth).events =
      f.conditions.flatMap fun c => (c.render types m).events := by
  have hgroup (key : String) (conditions : List Condition) :
      (renderGroup types m depth key conditions).events =
        conditions.flatMap fun c => (c.render types m).events := by
    rw [renderGroup, Logged.events_bind, Logged.events_mapM, Logged.events_pure, List.append_nil]
  cases f with
  | everything => rfl
  | conjunction conditions => exact hgroup "AND" conditions
  | disjunction conditions => exact hgroup "OR" conditions
  | single c =>
    rw [render, Logged.events_map, conditions, List.flatMap_singleton]

namespace Generator

variable (g : Generator) (r : Request)

def filtered : List Condition :=
  if r.operation = .read ∨ r.operation = .aggregate then r.options.filter.conditions else []

theorem events_clauses : (g.clauses r (g.selection r.model r.selected)).events =
    (filtered r).flatMap fun c => (c.render g.types r.model).events := by
  have hwhere : (g.whereClause r).events =
      r.options.filter.conditions.flatMap fun c => (c.render g.types r.model).events := by
    rw [whereClause, Logged.events_bind, Logged.events_pure, List.append_nil, Filter.events_render]
  unfold clauses filtered
  cases r.operation with
  | create | update | delete => rfl
  | read | aggregate => simp [hwhere]

/-- The announcement comes first. -/
theorem events_generate : (g.generate r).events =
    .writingQuery r.model.name r.operation.name (g.selection r.model r.selected).regular.length
      (g.selection r.model r.selected).relations.length ::
        (filtered r).flatMap fun c => (c.render g.types r.model).events := by
  rw [← events_clauses]
  unfold generate
  rw [Logged.events_bind, Logged.events_bind, Logged.events_pure, List.append_nil]
  rfl

end Generator

section Texts

theorem infix_intercalate (separator : String) {s : String} {strings : List String}
    (h : s ∈ strings) : s.toList <:+: (String.intercalate separator strings).toList := by
  induction strings with
  | nil => cases h
  | cons first strings ih =>
    by_cases hlast : strings = []
    · subst hlast
      have hwhole : String.intercalate separator [first] = s := by
        rw [List.mem_singleton.1 h, String.intercalate_singleton]
      exact hwhole ▸ List.infix_rfl
    · rw [String.intercalate_cons_of_ne_nil hlast, String.toList_append, String.toList_append]
      rcases List.mem_cons.1 h with rfl | h
      · rw [List.append_assoc]
        exact (List.prefix_append _ _).isInfix
      · exact (ih h).trans (List.suffix_append _ _).isInfix

/-- Each condition is written somewhere in its filter. -/
theorem Filter.infix_render (types : ScalarTypes) (m : Model) (depth : Nat) {f : Filter}
    {c : Condition} (h : c ∈ f.conditions) :
    (c.render types m).value.toList <:+: (f.render types m depth).value.toList := by
  have hgroup (key : String) {conditions : List Condition} (hc : c ∈ conditions) :
      (c.render types m).value.toList <:+:
        (renderGroup types m depth key conditions).value.toList := by
    have hline : (c.render types m).value.toList <:+: (groupLine types m depth c).toList := by
      refine ⟨(Text.indentation depth ++ Text.indent ++ "\x7b ").toList, " \x7d".toList, ?_⟩
      simp [groupLine]
    have hlines := infix_intercalate ",\n" (List.mem_map_of_mem (f := groupLine types m depth) hc)
    refine (hline.trans hlines).trans ?_
    rw [value_renderGroup types m depth key (List.ne_nil_of_mem hc)]
    refine ⟨(Text.indentation depth ++ key ++ ": [\n").toList,
      ("\n" ++ Text.indentation depth ++ "]").toList, ?_⟩
    simp
  cases f with
  | everything => cases h
  | conjunction conditions => exact hgroup "AND" h
  | disjunction conditions => exact hgroup "OR" h
  | single condition =>
    rw [List.mem_singleton.1 h]
    refine ⟨(Text.indentation depth).toList, [], ?_⟩
    simp [render]

namespace Generator

variable {g : Generator} {r : Request}

theorem whereClause_mem (h : r.operation = .read ∨ r.operation = .aggregate) :
    (g.whereClause r).value ∈ (g.clauses r (g.selection r.model r.selected)).value := by
  unfold clauses
  rcases h with hread | haggregate
  · rw [hread]
    exact List.mem_cons_self
  · rw [haggregate]
    exact List.mem_cons_self

/-- Each condition of a query that filters is written somewhere in the query. -/
theorem infix_generate (h : r.operation = .read ∨ r.operation = .aggregate) {c : Condition}
    (hc : c ∈ r.options.filter.conditions) :
    (c.render g.types r.model).value.toList <:+: (g.generate r).value.toList := by
  have hfilter := Filter.infix_render g.types r.model 2 hc
  have hclause : (r.options.filter.render g.types r.model 2).value.toList <:+:
      (g.whereClause r).value.toList := by
    refine ⟨"where: \x7b\n".toList, ("\n" ++ Text.indent ++ "\x7d").toList, ?_⟩
    simp [whereClause]
  have hclauses := infix_intercalate (",\n" ++ Text.indent) (whereClause_mem (g := g) h)
  refine ((hfilter.trans hclause).trans hclauses).trans ?_
  rw [value_generate, argument]
  refine ⟨("const " ++ binding r.operation ++ " = await " ++ g.client ++ "." ++ r.model.accessor
    ++ "." ++ r.operation.method ++ "(\x7b\n" ++ Text.indent).toList, "\n\x7d);".toList, ?_⟩
  simp

end Generator

end Texts

/-- Writing a query is announced, and behind the announcement stand the reports: one for each
condition of the list that does not fit its field, in the order of the list, if the operation
filters, and none if it does not. A query that filters holds every condition of the list, and what
it holds of a condition depends on the field and not on whether the operator fits. -/
theorem query_events (g : Generator) (r : Request) :
    ∃ announcement reports, (g.generate r).events = announcement :: reports ∧
      announcement.Announces g r ∧
      (r.operation = .read ∨ r.operation = .aggregate →
        List.Forall₂ (fun c e => ∃ f, c.Misfits g.types r.model f ∧ e.Reports r.model c f)
          (r.options.filter.conditions.filter fun c => ∃ f, c.Misfits g.types r.model f) reports ∧
        ∀ c ∈ r.options.filter.conditions,
          (if g.types.leadsOn r.model c.field then c.through else c.direct).toList <:+:
            (g.generate r).value.toList) ∧
      (r.operation = .create ∨ r.operation = .update ∨ r.operation = .delete → reports = []) := by
  refine ⟨_, _, g.events_generate r, ⟨rfl, rfl, rfl⟩, fun h => ⟨?_, fun c hc => ?_⟩, ?_⟩
  · rw [Generator.filtered, if_pos h]
    exact Condition.reports_flatMap g.types r.model _
  · rw [← Condition.value_render]
    exact Generator.infix_generate h hc
  · rintro (h | h | h)
    all_goals
      rw [Generator.filtered, h]
      rfl

def misfitRequest : Request where
  model := { name := "User", fields := [{ name := "id", typeName := "Int" },
    { name := "name", typeName := "String" },
    { name := "posts", typeName := "Post", isList := true }] }
  operation := .aggregate
  options := { filter := .conjunction [⟨"id", .lte, .null⟩, ⟨"id", .contains, .null⟩,
    ⟨"posts", .gt, .null⟩, ⟨"nobody", .gt, .null⟩, ⟨"name", .contains, .null⟩,
    ⟨"name", .lte, .null⟩] }

theorem query_events_misfits : ∃ announcement reports,
    (Generator.generate {} misfitRequest).events = announcement :: reports ∧
      announcement.Announces {} misfitRequest ∧ reports.map Event.details =
        [[("model", "User"), ("field", "id"), ("operator", "contains"), ("typ", "Int")],
          [("model", "User"), ("field", "name"), ("operator", "lte"), ("typ", "String")]] := by
  obtain ⟨announcement, reports, hevents, hannounces, hfiltered, -⟩ := query_events {} misfitRequest
  obtain ⟨hreports, -⟩ := hfiltered (.inr rfl)
  have hmisfits : (misfitRequest.options.filter.conditions.filter fun c =>
      ∃ f, c.Misfits .standard misfitRequest.model f) =
        [⟨"id", .contains, .null⟩, ⟨"name", .lte, .null⟩] := rfl
  rw [hmisfits] at hreports
  refine ⟨announcement, reports, hevents, hannounces, ?_⟩
  cases hreports with
  | cons hid hrest =>
    cases hrest with
    | cons hname hnone =>
      cases hnone
      obtain ⟨f, ⟨⟨⟩, -, -, -⟩, hidReport⟩ := hid
      obtain ⟨f, ⟨⟨⟩, -, -, -⟩, hnameReport⟩ := hname
      rw [List.map_cons, List.map_singleton, hidReport.details, hnameReport.details]
      rfl

end SchemaQuery
