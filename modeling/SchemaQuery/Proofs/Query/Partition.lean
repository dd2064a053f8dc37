import SchemaQuery.Proofs.Query.Clauses
import SchemaQuery.Proofs.Query.Routing

/-!
# The two sides of a selection

Relation fields are gathered one by one and compared by name, all other names go into an object that
keeps the first place of each. Either way a name is kept where it is met first, so names that are
selected later only come behind those that are there.
-/

set_option autoImplicit false

namespace SchemaQuery

/-- Those names of the list of which `p` holds, each once, in the order in which they are met
first. -/
structure Firsts (names : List String) (p : String → Prop) (firsts : List String) : Prop where
  mem_iff : ∀ name, name ∈ firsts ↔ name ∈ names ∧ p name
  nodup : firsts.Nodup
  ordered : firsts.Pairwise fun a b => names.idxOf a < names.idxOf b

section Firsts

variable {names : List String} {p : String → Bool}

theorem mem_eraseDups_filter {name : String} :
    name ∈ (names.filter p).eraseDups ↔ name ∈ names ∧ p name = true := by
  rw [List.mem_eraseDups, List.mem_filter]

/-- Names behind a list do not change where those in it are met first. -/
theorem pairwise_concat {firsts : List String} (hfirsts : ∀ name ∈ firsts, name ∈ names)
    (h : firsts.Pairwise fun a b => names.idxOf a < names.idxOf b) (name : String) :
    firsts.Pairwise fun a b => (names ++ [name]).idxOf a < (names ++ [name]).idxOf b := by
  refine h.imp_of_mem fun {a b} ha hb hlt => ?_
  rwa [List.idxOf_append_of_mem (hfirsts a ha), List.idxOf_append_of_mem (hfirsts b hb)]

theorem ordered_eraseDups_filter (names : List String) (p : String → Bool) :
    (names.filter p).eraseDups.Pairwise fun a b => names.idxOf a < names.idxOf b := by
  induction names using List.reverseRecOn with
  | nil => exact .nil
  | append_singleton names name ih =>
    have hmem : ∀ a ∈ (names.filter p).eraseDups, a ∈ names := fun a ha =>
      (mem_eraseDups_filter.1 ha).1
    have hkept := pairwise_concat hmem ih name
    rw [List.filter_append]
    cases hp : p name with
    | false =>
      rw [List.filter_cons_of_neg (by simp [hp]), List.filter_nil, List.append_nil]
      exact hkept
    | true =>
      rw [List.filter_cons_of_pos hp, List.filter_nil]
      by_cases hname : name ∈ names.filter p
      · rw [eraseDups_concat_of_mem hname]
        exact hkept
      · have hnew : name ∉ names := fun h => hname (List.mem_filter.2 ⟨h, hp⟩)
        rw [eraseDups_concat_of_notMem hname]
        refine List.pairwise_append.2 ⟨hkept, List.pairwise_singleton _ _, fun a ha b hb => ?_⟩
        rw [List.mem_singleton.1 hb, List.idxOf_append_of_mem (hmem a ha),
          List.idxOf_append_of_notMem hnew]
        exact Nat.lt_add_right _ (List.idxOf_lt_length_of_mem (hmem a ha))

theorem firsts_eraseDups_filter {q : String → Prop} (hq : ∀ name, p name = true ↔ q name)
    (names : List String) : Firsts names q (names.filter p).eraseDups where
  mem_iff name := by rw [mem_eraseDups_filter, hq]
  nodup := nodup_eraseDups _
  ordered := ordered_eraseDups_filter names p

/-- Names that come behind others are kept behind them. -/
theorem eraseDups_filter_append (names extra : List String) (p : String → Bool) :
    ∃ more, ((names ++ extra).filter p).eraseDups = (names.filter p).eraseDups ++ more := by
  rw [List.filter_append, List.eraseDups_append]
  exact ⟨_, rfl⟩

end Firsts

def ScalarTypes.Leads (types : ScalarTypes) (m : Model) (name : String) : Prop :=
  ∃ f, m.field? name = some f ∧ (f.relation.isSome = true ∨ ¬ types.contains f.typeName = true)

theorem ScalarTypes.leadsOn_iff {types : ScalarTypes} {m : Model} {name : String} :
    types.leadsOn m name = true ↔ types.Leads m name := by
  rw [leadsOn, Option.any_eq_true]
  simp only [isRelation, Bool.or_eq_true, Bool.not_eq_true', Leads, Bool.not_eq_true]

theorem ScalarTypes.not_leadsOn_iff {types : ScalarTypes} {m : Model} {name : String} :
    (!types.leadsOn m name) = true ↔ ¬ types.Leads m name := by
  rw [← leadsOn_iff, Bool.not_eq_true', Bool.not_eq_true]

namespace Generator

variable (g : Generator) (m : Model)

theorem exists_addOnce (fields list : List Field) :
    ∃ more, list.foldl addOnce fields = fields ++ more := by
  induction list generalizing fields with
  | nil => exact ⟨[], (List.append_nil _).symm⟩
  | cons f list ih =>
    obtain ⟨more, hmore⟩ := ih (addOnce fields f)
    rw [List.foldl_cons, hmore]
    by_cases h : fields.any (·.name == f.name) = true
    · rw [addOnce, if_pos h]
      exact ⟨more, rfl⟩
    · rw [addOnce, if_neg h, List.append_assoc]
      exact ⟨_, rfl⟩

theorem mem_of_mem_addOnce {fields list : List Field} {f : Field}
    (h : f ∈ list.foldl addOnce fields) : f ∈ fields ∨ f ∈ list := by
  induction list generalizing fields with
  | nil => exact Or.inl h
  | cons first list ih =>
    rcases ih h with hmem | hmem
    · by_cases hany : fields.any (·.name == first.name) = true
      · rw [addOnce, if_pos hany] at hmem
        exact Or.inl hmem
      · rw [addOnce, if_neg hany, List.mem_append, List.mem_singleton] at hmem
        rcases hmem with hmem | rfl
        · exact Or.inl hmem
        · exact Or.inr List.mem_cons_self
    · exact Or.inr (List.mem_cons_of_mem _ hmem)

/-- What is gathered of a name is the first field of the name. -/
theorem field?_of_mem_relations {selected : List String} {f : Field}
    (h : f ∈ (g.selection m selected).relations) : m.field? f.name = some f := by
  rcases mem_of_mem_addOnce h with hnone | hmem
  · cases hnone
  · obtain ⟨name, -, hf⟩ := List.mem_filterMap.1 hmem
    rw [g.name_of_relationField? m hf]
    exact (Option.filter_eq_some_iff.1 hf).1

theorem exists_relations_append (selected extra : List String) :
    ∃ more, (g.selection m (selected ++ extra)).relations =
      (g.selection m selected).relations ++ more := by
  rw [selection, selection, List.filterMap_append, List.foldl_append]
  exact exists_addOnce _ _

/-- The selected names are parted into `keys`, which stand in the object that a query selects by,
and the names of `fields`, which are gathered as relations. -/
structure Parts (selected keys : List String) (fields : List Field) : Prop where
  keys_firsts : Firsts selected (fun name => ¬ g.types.Leads m name) keys
  fields_firsts : Firsts selected (g.types.Leads m) (fields.map (·.name))
  one_side : ∀ name ∈ selected, name ∈ keys ∧ name ∉ fields.map (·.name) ∨
    name ∉ keys ∧ name ∈ fields.map (·.name)
  first_field : ∀ f ∈ fields, m.field? f.name = some f
  gathered : (g.selection m selected).relations = fields
  rendered : ∃ clause, ListsKeys "select" keys clause ∧
    ∀ r : Request, r.model = m → r.selected = selected → r.operation ≠ .aggregate →
      ∃ before after, (g.generate r).value = g.call r (before ++ clause :: after)

variable {g m}

theorem parts_selection (selected : List String) :
    g.Parts m selected (selected.filter fun name => !g.types.leadsOn m name).eraseDups
      (g.selection m selected).relations where
  keys_firsts := firsts_eraseDups_filter (fun _ => ScalarTypes.not_leadsOn_iff) selected
  fields_firsts := by
    rw [names_relations]
    exact firsts_eraseDups_filter (fun _ => ScalarTypes.leadsOn_iff) selected
  one_side name hname := by
    rw [names_relations, mem_eraseDups_filter, mem_eraseDups_filter]
    cases g.types.leadsOn m name <;> simp [hname]
  first_field f hf := g.field?_of_mem_relations m hf
  gathered := rfl
  rendered := by
    refine ⟨Clause.select (g.selection m selected).regular, ?_, ?_⟩
    · rw [← regular_selection]
      exact Clause.listsKeys_select _
    · rintro r rfl rfl hoperation
      obtain ⟨before, after, hclauses, -⟩ := exists_clauses (g := g) hoperation
      have htext : (g.generate r).value =
          g.call r (g.clauses r (g.selection r.model r.selected)).value := rfl
      rw [List.append_assoc, List.append_assoc, List.singleton_append] at hclauses
      rw [hclauses] at htext
      exact ⟨before, _, htext⟩

end Generator

/-- Every list of selected names is parted into names to select and relation fields to gather, each
in the order in which its names are met first. What is selected behind the list comes behind either
part and changes nothing in it. -/
theorem selection_parted (g : Generator) (m : Model) (selected : List String) :
    ∃ keys fields, g.Parts m selected keys fields ∧
      ∀ extra, ∃ more further,
        g.Parts m (selected ++ extra) (keys ++ more) (fields ++ further) := by
  refine ⟨_, _, Generator.parts_selection selected, fun extra => ?_⟩
  obtain ⟨more, hmore⟩ := eraseDups_filter_append selected extra fun name =>
    !g.types.leadsOn m name
  obtain ⟨further, hfurther⟩ := g.exists_relations_append m selected extra
  refine ⟨more, further, ?_⟩
  rw [← hmore, ← hfurther]
  exact Generator.parts_selection (selected ++ extra)

/-- Repeated names, a name of no field, and a second field of a name that leads on. -/
example : let g : Generator := {}
    let m : Model := ⟨"M", none, [⟨"a", "Int", true, false, false, false, none, none⟩,
      ⟨"p", "Post", true, true, false, false, none, none⟩,
      ⟨"a", "Post", true, false, false, false, none, none⟩]⟩
    (g.selection m ["x", "p", "a", "p", "x"]).regular = ["x", "a", "x"] ∧
      (g.selection m ["x", "p", "a", "p", "x"]).relations.map (·.name) = ["p"] := by
  decide

end SchemaQuery
