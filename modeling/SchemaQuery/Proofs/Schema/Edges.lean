import Mathlib.Data.List.Dedup
import Mathlib.Data.List.Forall2
import SchemaQuery.Schema.Graph

/-!
# The edges of a graph

Every model is a node, and every field whose type names a model is an edge. An edge begins at one
node, whatever models share their names, so that the edges that leave the nodes are together the
edges of the graph.
-/

set_option autoImplicit false

namespace SchemaQuery

section Lists

variable {α β κ : Type}

/-- What is kept of a list stands opposite to what is made of it. -/
theorem forall₂_filter_filterMap {R : α → β → Prop} {p : α → Prop} [DecidablePred p]
    {f : α → Option β} (hmade : ∀ a, p a → ∃ b, f a = some b ∧ R a b)
    (hleft : ∀ a, ¬ p a → f a = none) (xs : List α) :
    List.Forall₂ R (xs.filter (p ·)) (xs.filterMap f) := by
  induction xs with
  | nil => exact .nil
  | cons a xs ih =>
    by_cases ha : p a
    · obtain ⟨b, hb, hR⟩ := hmade a ha
      rw [List.filter_cons_of_pos (by simpa using ha), List.filterMap_cons_some hb]
      exact .cons hR ih
    · rw [List.filter_cons_of_neg (by simpa using ha), List.filterMap_cons_none (hleft a ha)]
      exact ih

variable [DecidableEq κ] {key : β → κ}

/-- Entries gathered key by key are the entries in some order. -/
theorem perm_flatMap_filter {keys : List κ} (hd : keys.Nodup) {entries : List β}
    (h : ∀ b ∈ entries, key b ∈ keys) :
    (keys.flatMap fun k => entries.filter (key · == k)).Perm entries := by
  induction keys generalizing entries with
  | nil =>
    have hnil : entries = [] := List.eq_nil_iff_forall_not_mem.2 fun b hb => nomatch h b hb
    rw [hnil]
    exact .nil
  | cons k keys ih =>
    rw [List.nodup_cons] at hd
    have hothers : ∀ b ∈ entries.filter (fun b => !(key b == k)), key b ∈ keys := by
      intro b hb
      obtain ⟨hmem, hne⟩ := List.mem_filter.1 hb
      rcases List.mem_cons.1 (h b hmem) with heq | hin
      · simp [heq] at hne
      · exact hin
    have hsame : (keys.flatMap fun k' => entries.filter (key · == k')) =
        keys.flatMap fun k' => (entries.filter fun b => !(key b == k)).filter (key · == k') := by
      refine List.flatMap_congr fun k' hk' => ?_
      rw [List.filter_filter]
      refine List.filter_congr fun b _ => ?_
      by_cases hb : key b = k'
      · have hne : key b ≠ k := fun he => hd.1 (he ▸ hb ▸ hk')
        simp [hb, hb ▸ hne]
      · simp [hb]
    rw [List.flatMap_cons, hsame]
    exact ((ih hd.2 hothers).append_left _).trans (List.filter_append_perm _ _)

/-- Where groups have different keys, the entries of one key are one group. -/
theorem filter_flatMap_of_mem {name : α → κ} {group : α → List β}
    (hkey : ∀ a, ∀ b ∈ group a, key b = name a) {xs : List α} (hd : (xs.map name).Nodup) {a : α}
    (ha : a ∈ xs) : (xs.flatMap group).filter (key · == name a) = group a := by
  have hnone {x : α} (hx : name x ≠ name a) : (group x).filter (key · == name a) = [] := by
    rw [List.filter_eq_nil_iff]
    intro b hb hbeq
    exact hx ((hkey x b hb).symm.trans (eq_of_beq hbeq))
  induction xs with
  | nil => cases ha
  | cons x xs ih =>
    rw [List.map_cons, List.nodup_cons] at hd
    rw [List.flatMap_cons, List.filter_append]
    rcases List.mem_cons.1 ha with rfl | hin
    · have hall : (group a).filter (key · == name a) = group a :=
        List.filter_eq_self.2 fun b hb => beq_iff_eq.2 (hkey a b hb)
      have hrest : (xs.flatMap group).filter (key · == name a) = [] := by
        rw [List.filter_eq_nil_iff]
        intro b hb hbeq
        obtain ⟨y, hy, hby⟩ := List.mem_flatMap.1 hb
        have hname : name y = name a := (hkey y b hby).symm.trans (eq_of_beq hbeq)
        exact hd.1 (hname ▸ List.mem_map_of_mem hy)
      rw [hall, hrest, List.append_nil]
    · have hx : name x ≠ name a := fun he => hd.1 (he ▸ List.mem_map_of_mem hin)
      rw [hnone hx, List.nil_append]
      exact ih hd.2 hin

end Lists

structure Node.StandsFor (n : Node) (m : Model) : Prop where
  id : n.id = m.name
  tableName : n.tableName = m.tableName
  rows : n.rows.map (·.name) = m.fields.map (·.name)

namespace Document

variable (d : Document)

def placedFields : List (Model × Field) := d.models.flatMap fun m => m.fields.map fun f => (m, f)

def NamesModel (f : Field) : Prop := ∃ m ∈ d.models, m.name = f.typeName

instance : DecidablePred d.NamesModel := fun f =>
  inferInstanceAs (Decidable (∃ m ∈ d.models, m.name = f.typeName))

def RefersToUnique (f : Field) : Prop :=
  ∃ r, f.relation = some r ∧ ∃ target, d.model? f.typeName = some target ∧
    ∃ name ∈ r.references, ∃ g, target.field? name = some g ∧ g.isUnique = true

end Document

structure Edge.Draws (d : Document) (m : Model) (f : Field) (e : Edge) : Prop where
  source : e.source = m.name
  target : e.target = f.typeName
  field : e.field = f.name
  label : e.label = f.relation.bind (·.name)
  oneToMany : e.kind = .oneToMany ↔ f.isList = true
  oneToOne : e.kind = .oneToOne ↔
    ¬ f.isList = true ∧ (f.isUnique = true ∨ d.RefersToUnique f)
  manyToOne : e.kind = .manyToOne ↔
    ¬ f.isList = true ∧ ¬ (f.isUnique = true ∨ d.RefersToUnique f)

namespace Document

variable {d : Document} {m : Model} {f : Field}

theorem exists_model?_iff : (∃ target, d.model? f.typeName = some target) ↔ d.NamesModel f := by
  rw [← Option.isSome_iff_exists, model?, List.find?_isSome]
  simp only [beq_iff_eq, NamesModel]

theorem name_of_model? {name : String} {target : Model} (h : d.model? name = some target) :
    target.name = name := by
  have hfound := List.find?_some h
  exact eq_of_beq hfound

theorem refersToUnique_iff {target : Model} (h : d.model? f.typeName = some target) :
    f.refersToUnique target = true ↔ d.RefersToUnique f := by
  unfold Field.refersToUnique RefersToUnique
  cases hrelation : f.relation with
  | none => simp
  | some r => simp [h, Option.any_eq_true]

/-- The kind of an edge is told by three questions. -/
theorem multiplicity_cases {target : Model} (h : d.model? f.typeName = some target) :
    (f.multiplicity target = .oneToMany ↔ f.isList = true) ∧
    (f.multiplicity target = .oneToOne ↔
      ¬ f.isList = true ∧ (f.isUnique = true ∨ d.RefersToUnique f)) ∧
    (f.multiplicity target = .manyToOne ↔
      ¬ f.isList = true ∧ ¬ (f.isUnique = true ∨ d.RefersToUnique f)) := by
  rw [← refersToUnique_iff h, Field.multiplicity, ← Bool.or_eq_true]
  by_cases hlist : f.isList = true
  · simp [hlist]
  · by_cases hone : (f.isUnique || f.refersToUnique target) = true
    · simp [hlist, hone]
    · simp [hlist, hone]

/-- A field whose type names a model is drawn. -/
theorem exists_edge? (m : Model) (h : d.NamesModel f) :
    ∃ e, d.edge? m f = some e ∧ e.Draws d m f := by
  obtain ⟨target, htarget⟩ := exists_model?_iff.2 h
  have hedge : d.edge? m f = some ⟨m.name, target.name, f.name, f.multiplicity target,
      f.relation.bind (·.name)⟩ := by
    rw [edge?, htarget]
    rfl
  obtain ⟨hmany, hone, hrest⟩ := multiplicity_cases htarget
  exact ⟨_, hedge, rfl, name_of_model? htarget, rfl, rfl, hmany, hone, hrest⟩

theorem edge?_eq_none (m : Model) (h : ¬ d.NamesModel f) : d.edge? m f = none := by
  have hnone : d.model? f.typeName = none := by
    rw [← Option.not_isSome_iff_eq_none, Option.isSome_iff_exists, exists_model?_iff]
    exact h
  rw [edge?, hnone]
  rfl

theorem draws_of_edge? {e : Edge} (h : d.edge? m f = some e) :
    d.NamesModel f ∧ e.Draws d m f := by
  by_cases hnames : d.NamesModel f
  · obtain ⟨e', he', hdraws⟩ := exists_edge? m hnames
    rw [h] at he'
    exact ⟨hnames, Option.some.inj he' ▸ hdraws⟩
  · rw [edge?_eq_none m hnames] at h
    cases h

theorem edges_graph : d.graph.edges = d.placedFields.filterMap fun p => d.edge? p.1 p.2 := by
  rw [placedFields, List.filterMap_flatMap]
  simp only [List.filterMap_map]
  rfl

theorem ids_graph : d.graph.nodes.map (·.id) = d.models.map (·.name) := by
  simp [graph, Model.node]

/-- Edges are grouped by the models at which they begin. -/
theorem source_of_mem {e : Edge} (h : e ∈ m.fields.filterMap (d.edge? m)) :
    e.source = m.name := by
  obtain ⟨f, -, hf⟩ := List.mem_filterMap.1 h
  exact (draws_of_edge? hf).2.source

theorem ends_of_mem {e : Edge} (h : e ∈ d.graph.edges) :
    e.source ∈ d.models.map (·.name) ∧ e.target ∈ d.models.map (·.name) := by
  obtain ⟨m, hm, he⟩ := List.mem_flatMap.1 h
  obtain ⟨f, -, hf⟩ := List.mem_filterMap.1 he
  obtain ⟨⟨target, htarget, hname⟩, hdraws⟩ := draws_of_edge? hf
  rw [hdraws.source, hdraws.target, ← hname]
  exact ⟨List.mem_map_of_mem hm, List.mem_map_of_mem htarget⟩

end Document

theorem Graph.mem_edgesFrom_iff {g : Graph} {id : String} {e : Edge} :
    e ∈ g.edgesFrom id ↔ e ∈ g.edges ∧ e.source = id := by
  rw [edgesFrom, List.mem_filter, beq_iff_eq]

/-- The graph has a node for each model and an edge for each field whose type names a model, in the
order of the document, and its edges are those that leave its nodes. -/
structure Graph.Depicts (g : Graph) (d : Document) : Prop where
  nodes : List.Forall₂ (fun m n => n.StandsFor m) d.models g.nodes
  edges : List.Forall₂ (fun (p : Model × Field) e => e.Draws d p.1 p.2)
    (d.placedFields.filter (d.NamesModel ·.2)) g.edges
  ends : ∀ e ∈ g.edges, e.source ∈ g.nodes.map (·.id) ∧ e.target ∈ g.nodes.map (·.id)
  one_node : ∀ e ∈ g.edges, ∃! id, id ∈ g.nodes.map (·.id) ∧ e ∈ g.edgesFrom id
  all_nodes : ((g.nodes.map (·.id)).dedup.flatMap g.edgesFrom).Perm g.edges
  in_order : (d.models.map (·.name)).Nodup →
    (g.nodes.map (·.id)).flatMap g.edgesFrom = g.edges

/-- The graph of a document depicts the document, whatever its models and fields are. -/
theorem graph_depicts (d : Document) : d.graph.Depicts d where
  nodes := by
    rw [Document.graph, List.forall₂_map_right_iff, List.forall₂_same]
    intro m _
    exact ⟨rfl, rfl, by simp [Model.node, Field.row]⟩
  edges := by
    rw [Document.edges_graph]
    exact forall₂_filter_filterMap (fun p hp => Document.exists_edge? p.1 hp)
      (fun p hp => Document.edge?_eq_none p.1 hp) d.placedFields
  ends := by
    rw [Document.ids_graph]
    exact fun e he => Document.ends_of_mem he
  one_node e he := by
    refine ⟨e.source, ⟨?_, Graph.mem_edgesFrom_iff.2 ⟨he, rfl⟩⟩, ?_⟩
    · rw [Document.ids_graph]
      exact (Document.ends_of_mem he).1
    · intro id hid
      exact (Graph.mem_edgesFrom_iff.1 hid.2).2.symm
  all_nodes := by
    apply perm_flatMap_filter (List.nodup_dedup _)
    intro e he
    rw [List.mem_dedup, Document.ids_graph]
    exact (Document.ends_of_mem he).1
  in_order hd := by
    rw [Document.ids_graph, List.flatMap_map]
    exact List.flatMap_congr fun m hm =>
      filter_flatMap_of_mem (fun _ _ he => Document.source_of_mem he) hd hm

/-- Two models of one name, a field that leads back to its own model and one that leads nowhere. -/
example : let d : Document := { models := [
      ⟨"A", none, [⟨"a", "A", true, false, false, false, none, none⟩,
        ⟨"b", "B", true, true, false, false, none, none⟩]⟩,
      ⟨"A", none, [⟨"c", "A", true, false, false, true, none, none⟩]⟩] }
    d.graph.edges = [⟨"A", "A", "a", .manyToOne, none⟩, ⟨"A", "A", "c", .oneToOne, none⟩] ∧
      d.graph.nodes.map (·.id) = ["A", "A"] ∧ d.graph.edgesFrom "A" = d.graph.edges := by
  decide

end SchemaQuery
