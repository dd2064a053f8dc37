import SchemaQuery.Proofs.Json.Records
import SchemaQuery.Proofs.Schema.Json
import SchemaQuery.Query.Generator
import SchemaQuery.Query.Json

/-!
# The order of keys in a request

The members of the objects in a request may come in any order, except in the values that conditions
and cursors compare with: these are written into the query as they are.
-/

set_option autoImplicit false

namespace SchemaQuery

open Json (Fault Lifts Places Reordered Respects Slot respects_any respects_choice
  respects_fixed respects_flag respects_integer respects_natural respects_record respects_scalar
  respects_text toTree)
open Json.Slot (Commutes commutes_map)

section Anywhere

variable {π : Type} {places : Places π} (p : π)

theorem respects_optional_text : Respects places p (.optional .text) Eq :=
  (respects_text p).optional_eq

theorem respects_texts : Respects places p (.list .text) Eq := .list fun _ => respects_text _

theorem Relation.respects : Respects places p decoder Eq := by
  refine respects_record (fun _ => rfl) ?_ ?_
  · exact .plain respects_optional_text <| .plain respects_texts <| .plain respects_texts <|
      .plain respects_optional_text <| .plain respects_optional_text <| .nil _
  · simp [Slot.spare, commutes_map]

theorem Field.respects : Respects places p decoder Eq := by
  refine respects_record (fun _ => rfl) ?_ ?_
  · exact .plain respects_text <| .plain respects_text <| .plain respects_flag <|
      .plain respects_flag <| .plain respects_flag <| .plain respects_flag <|
      .plain respects_optional_text <| .plain (fun _ => (Relation.respects _).optional_eq) <| .nil _
  · simp [Slot.needed, Slot.spare, commutes_map]

theorem Model.respects : Respects places p decoder Eq := by
  refine respects_record (fun _ => rfl) ?_ ?_
  · exact .plain respects_text <| .plain respects_optional_text <|
      .plain (fun _ => .list fun _ => Field.respects _) <| .nil _
  · simp [Slot.needed, Slot.spare, commutes_map]

theorem Operator.respects : Respects places p decoder Eq := respects_choice _ p

theorem Operation.respects : Respects places p decoder Eq :=
  respects_scalar (fun _ _ => ⟨_, rfl⟩) (fun _ _ => ⟨_, rfl⟩) p

theorem SortKey.respects : Respects places p decoder Eq := by
  refine respects_record (fun _ => rfl) ?_ ?_
  · exact .plain respects_text <| .plain (respects_choice _) <| .nil _
  · simp [Slot.needed, commutes_map]

theorem respects_sort : Respects places p (.optional (.list SortKey.decoder)) Eq :=
  Respects.optional_eq <| .list fun _ => SortKey.respects _

theorem respects_fields : Respects places p fieldsDecoder Eq := by
  refine respects_record (fun _ => rfl) ?_ ?_
  · exact .plain respects_texts <| .nil _
  · simp

/-- Which fault a list of fields has makes no difference to a count. -/
theorem Count.alike_fields {x y : Except Fault (List String)} : Alike Eq x y →
    Alike Eq
      (match x with
        | .ok names => pure (fields names)
        | .error _ => Except.error Fault.mismatched)
      (match y with
        | .ok names => pure (fields names)
        | .error _ => Except.error Fault.mismatched) := by
  intro h
  cases h with
  | ok heq => exact .ok (congrArg fields heq)
  | error => exact .error _ _

theorem Count.respects : Respects places p decoder Eq := by
  intro scope v w h
  have hread := respects_any p scope v w h
  have hfields := alike_fields (respects_fields p scope v w h)
  cases h with
  | same => exact Alike.refl (fun _ => rfl) _
  | array | object => exact hread.bind fun _ _ _ => hfields

theorem Aggregation.respects : Respects places p decoder Eq := by
  have hfields (q : π) : Respects places q (.optional fieldsDecoder) Eq :=
    (respects_fields q).optional_eq
  refine respects_record (fun _ => rfl) ?_ ?_
  · exact .plain (fun _ => (Count.respects _).optional_eq) <| .plain hfields <| .plain hfields <|
      .plain hfields <| .plain hfields <| .nil _
  · simp [Slot.spare, commutes_map]

end Anywhere

inductive Place where
  | request
  | filter
  | conditions
  | condition
  | page
  | cursor
  | relation
  | inclusions
  | inclusion
  | value
  | other
  deriving DecidableEq

namespace Place

def member (p : Place) (name : String) : Place :=
  match p with
  | request =>
    if name = "conditions" then filter
    else if name = "pagination" then page
    else if name = "relation" then relation
    else other
  | filter =>
    if name = "AND" ∨ name = "OR" then conditions else if name = "value" then value else other
  | condition | cursor => if name = "value" then value else other
  | page => if name = "cursor" then cursor else other
  | relation => if name = "include" then inclusions else other
  | inclusions => inclusion
  | inclusion => if name = "pagination" then page else other
  | conditions | value | other => other

def item (p : Place) (i : Nat) : Place :=
  match p, i with
  | filter, 0 | filter, 1 => conditions
  | filter, 4 | condition, 2 | cursor, 1 => value
  | conditions, _ => condition
  | page, 2 => cursor
  | relation, 1 => inclusions
  | inclusion, 2 => page
  | _, _ => other

def places : Places Place where
  member := member
  item := item
  fixed p := p == value

end Place

open Place (places)

theorem Condition.respects : Respects places .condition decoder Eq := by
  refine respects_record (fun _ => rfl) ?_ ?_
  · exact .plain respects_text <| .plain Operator.respects <|
      .same (respects_fixed rfl _) (respects_fixed rfl _) <| .nil _
  · simp [Slot.needed, commutes_map]

theorem OpenFilter.respects : Respects places .filter decoder Eq := by
  have hconditions : Respects places .conditions (.optional (.list Condition.decoder)) Eq :=
    Respects.optional_eq <| .list fun _ => Condition.respects
  refine respects_record (fun _ => rfl) ?_ ?_
  · exact .same hconditions hconditions <| .same hconditions hconditions <|
      .plain respects_optional_text <| .plain (fun _ => (Operator.respects _).optional_eq) <|
      .same (respects_fixed rfl _) (respects_fixed rfl _) <| .nil _
  · simp [Slot.spare, commutes_map]

theorem Filter.respects : Respects places .filter decoder Eq :=
  OpenFilter.respects.map fun _ _ => congrArg OpenFilter.resolve

theorem Cursor.respects : Respects places .cursor decoder Eq := by
  refine respects_record (fun _ => rfl) ?_ ?_
  · exact .plain respects_text <|
      .same (respects_fixed rfl _) (respects_fixed rfl _) <| .nil _
  · simp [Slot.needed, commutes_map]

theorem Page.respects : Respects places .page decoder Eq := by
  refine respects_record (fun _ => rfl) ?_ ?_
  · exact .plain (fun _ => (respects_natural _).optional_eq) <|
      .plain (fun _ => (respects_integer _).optional_eq) <|
      .same Cursor.respects.optional_eq Cursor.respects.optional_eq <| .nil _
  · simp [Slot.spare, commutes_map]

theorem Inclusion.respects : Respects places .inclusion decoder Eq := by
  refine respects_record (fun _ => rfl) ?_ ?_
  · exact .plain (fun _ => (respects_texts _).optional_eq) <| .plain respects_sort <|
      .same Page.respects.optional_eq Page.respects.optional_eq <| .nil _
  · simp [Slot.spare, commutes_map]

structure RelationOptions.Same (o o' : RelationOptions) : Prop where
  maxDepth : o'.maxDepth = o.maxDepth
  inclusion? : ∀ name, o'.inclusion? name = o.inclusion? name

theorem RelationOptions.respects : Respects places .relation decoder Same := by
  have hinclusions : Respects places .inclusions (.dictionary Inclusion.decoder) _ :=
    .dictionary fun _ => Inclusion.respects
  refine respects_record (fun _ => ⟨rfl, fun _ => rfl⟩) ?_ ?_
  · refine .put ?_ (respects_natural _).optional_eq (respects_natural _).optional_eq <|
      .put ?_ hinclusions hinclusions <| .nil _
    · rintro a _ rfl o o' h
      exact ⟨rfl, h.inclusion?⟩
    · intro es fs hsame o o' h
      exact ⟨h.maxDepth, hsame⟩
  · simp [Slot.spare, commutes_map]

structure Options.Same (o o' : Options) : Prop where
  filter : o'.filter = o.filter
  sort : o'.sort = o.sort
  page : o'.page = o.page
  relation : Option.Rel RelationOptions.Same o.relation o'.relation
  aggregation : o'.aggregation = o.aggregation

theorem same_relation_refl (o : Option RelationOptions) : Option.Rel RelationOptions.Same o o := by
  cases o with
  | none => exact .none
  | some o => exact .some ⟨rfl, fun _ => rfl⟩

/-- Each option is decoded to the same, at its place in a request. -/
theorem Options.respects_slots : ∀ slot ∈ slots,
    Respects places (places.member .request slot.name) slot.take (Lifts Same) := by
  have hpage : Respects places .page (.optional Page.decoder) Eq := Page.respects.optional_eq
  have hrelation : Respects places .relation (.optional RelationOptions.decoder)
      (Option.Rel RelationOptions.Same) :=
    RelationOptions.respects.optional same_relation_refl fun _ _ => .some
  have haggregation : Respects places .other (.optional Aggregation.decoder) Eq :=
    (Aggregation.respects _).optional_eq
  simp only [slots, List.forall_mem_cons]
  refine ⟨Filter.respects.map ?_, (respects_sort Place.other).map ?_, hpage.map ?_,
    hrelation.map ?_, haggregation.map ?_, List.forall_mem_nil _⟩
  · rintro a _ rfl o o' h
    exact ⟨rfl, h.sort, h.page, h.relation, h.aggregation⟩
  · rintro a _ rfl o o' h
    exact ⟨h.filter, rfl, h.page, h.relation, h.aggregation⟩
  · rintro a _ rfl o o' h
    exact ⟨h.filter, h.sort, rfl, h.relation, h.aggregation⟩
  · intro a b hab o o' h
    exact ⟨h.filter, h.sort, h.page, hab, h.aggregation⟩
  · rintro a _ rfl o o' h
    exact ⟨h.filter, h.sort, h.page, h.relation, rfl⟩

theorem Options.commutes_slots : slots.Pairwise Commutes := by
  simp [slots, Slot.spare, commutes_map]

structure Request.Same (r r' : Request) : Prop where
  model : r'.model = r.model
  operation : r'.operation = r.operation
  selected : r'.selected = r.selected
  options : r.options.Same r'.options

namespace Request

theorem respects_slots : ∀ slot ∈ slots,
    Respects places (places.member .request slot.name) slot.take (Lifts Same) := by
  rw [slots]
  simp only [List.forall_mem_append, List.forall_mem_cons, List.forall_mem_map]
  refine ⟨⟨(Model.respects Place.other).map ?_, (Operation.respects Place.other).map ?_,
    (respects_texts Place.other).map ?_, List.forall_mem_nil _⟩, fun slot hslot => ?_⟩
  · rintro a _ rfl r r' h
    exact ⟨rfl, h.operation, h.selected, h.options⟩
  · rintro a _ rfl r r' h
    exact ⟨h.model, rfl, h.selected, h.options⟩
  · rintro a _ rfl r r' h
    exact ⟨h.model, h.operation, rfl, h.options⟩
  · refine (Options.respects_slots slot hslot).map fun f g hfg r r' h => ?_
    exact ⟨h.model, h.operation, h.selected, hfg _ _ h.options⟩

theorem commutes_slots : slots.Pairwise Commutes := by
  rw [slots, List.pairwise_append]
  refine ⟨by simp [Slot.needed, Slot.spare, commutes_map], ?_, ?_⟩
  · rw [List.pairwise_map]
    refine Options.commutes_slots.imp fun h => h.within fun f g hfg r => ?_
    rw [hfg]
  · simp only [List.forall_mem_cons, List.forall_mem_map]
    exact ⟨fun _ _ => commutes_map fun _ _ _ => rfl, fun _ _ => commutes_map fun _ _ _ => rfl,
      fun _ _ => commutes_map fun _ _ _ => rfl, List.forall_mem_nil _⟩

variable {v w : Json}

theorem rel_ofJson? (h : Reordered places .request v w) :
    Option.Rel Same (ofJson? v) (ofJson? w) := by
  have hrefl (r : Request) : r.Same r :=
    ⟨rfl, rfl, rfl, rfl, rfl, rfl, same_relation_refl _, rfl⟩
  cases h with
  | same =>
    cases ofJson? v with
    | none => exact .none
    | some r => exact .some (hrefl r)
  | array => exact .none
  | @object _ a b _ hnames hperm hmembers =>
    rw [ofJson?, ofJson?]
    refine Alike.toOption ?_
    rw [toTree, toTree]
    exact (Alike.refl (fun _ => rfl) _).bind fun inner _ hinner => hinner ▸
      Json.alike_fromMembers respects_slots commutes_slots hnames hperm hmembers (hrefl _)

theorem operationName?_eq (h : Reordered places .request v w) :
    operationName? w = operationName? v := by
  cases h with
  | same => rfl
  | array => rfl
  | @object _ a b _ _ hperm hmembers =>
    have hget := Json.rel_get? hperm hmembers "operation"
    simp only [operationName?]
    generalize Json.Members.get? a "operation" = x at *
    generalize Json.Members.get? b "operation" = y at *
    cases hget with
    | none => rfl
    | some h => cases h <;> rfl

end Request

namespace Generator

/-- What is included does not depend on the order in which it was asked for. -/
theorem includeRelations_congr {o o' : Option RelationOptions}
    (h : Option.Rel RelationOptions.Same o o') (identity : String) (relations : List Field) :
    Clause.includeRelations identity o' relations =
      Clause.includeRelations identity o relations := by
  cases h with
  | none => rfl
  | some h =>
    unfold Clause.includeRelations
    simp only [Option.bind_some, h.maxDepth, h.inclusion?]

theorem generate_congr (g : Generator) {r r' : Request} (h : r.Same r') :
    g.generate r' = g.generate r := by
  obtain ⟨hmodel, hoperation, hselected, hfilter, hsort, hpage, hrelation, haggregation⟩ := h
  unfold generate clauses whereClause
  simp only [hmodel, hoperation, hselected, hfilter, hsort, hpage, haggregation,
    includeRelations_congr hrelation]

end Generator

namespace Request

variable {s t : String} {v w : Json}

/-- Once the texts are read as values, their requests lead to the same queries. -/
theorem map_ofText_eq (hs : Json.decodeText .any s = .ok v) (ht : Json.decodeText .any t = .ok w)
    (h : Reordered places .request v w) (g : Generator) :
    (ofText t).map g.generate = (ofText s).map g.generate := by
  have hrel := rel_ofJson? h
  unfold ofText
  rw [hs, ht]
  simp only [Except.mapError, bind, Except.bind, operationName?_eq h]
  generalize ofJson? v = x at *
  generalize ofJson? w = y at *
  cases hrel with
  | none => rfl
  | some hsame =>
    have hquery := g.generate_congr hsame
    cases operationName? v with
    | none => exact congrArg Except.ok hquery
    | some name =>
      dsimp only
      split
      · rfl
      · exact congrArg Except.ok hquery

end Request

/-- Of two texts whose values differ in nothing but the order of keys outside of the values of
conditions and cursors, both are requests that lead to the same query and to the same events, or
both fail in the same way. This holds for texts that are decoded, and also for texts of values that
are nested too deep for it. -/
theorem request_key_order :
    (∀ s t v w, Json.decodeText .any s = .ok v → Json.decodeText .any t = .ok w →
      Reordered places .request v w → ∀ g : Generator,
        (Request.ofText t).map g.generate = (Request.ofText s).map g.generate) ∧
    ∀ s t v w, Json.readTree s.toList = (toTree v, true) →
      Json.readTree t.toList = (toTree w, true) →
      Reordered places .request v w → ∀ g : Generator,
        (Request.ofText t).map g.generate = (Request.ofText s).map g.generate := by
  refine ⟨fun s t v w => Request.map_ofText_eq, fun s t v w hs ht h g => ?_⟩
  have hread := respects_any Place.request {} v w h
  rw [← Json.decodeText_of_readTree .any hs, ← Json.decodeText_of_readTree .any ht] at hread
  cases hv : Json.decodeText .any s with
  | ok v' =>
    rw [hv] at hread
    obtain ⟨w', hw, h'⟩ := hread.ok_right
    exact Request.map_ofText_eq hv hw h' g
  | error e =>
    rw [hv] at hread
    obtain ⟨e', hw⟩ := hread.error_right
    have hsame : e' = e := by
      rw [Json.decodeText_of_readTree .any hs] at hv
      rw [Json.decodeText_of_readTree .any ht] at hw
      rw [Json.error_of_toJson v {} hv, Json.error_of_toJson w {} hw]
    unfold Request.ofText
    rw [hv, hw, hsame]

def objectCondition : Json.Members := [("field", .text "id"), ("operator", .text "equals"),
  ("value", .object [("b", .null), ("a", .null)])]

def conditioned (condition : Json.Members) : Json.Members :=
  [("model", Model.toJson { name := "User" }), ("operation", .text "read"),
    ("conditions", .object condition)]

theorem request_key_order_reversed :
    (∃ r, Request.ofText (Json.object (conditioned objectCondition)).compact = .ok r) ∧
    ∀ g : Generator,
      (Request.ofText (Json.object (conditioned objectCondition.reverse).reverse).compact).map
          g.generate =
        (Request.ofText (Json.object (conditioned objectCondition)).compact).map g.generate ∧
      (Request.ofText ((Json.object (conditioned objectCondition.reverse).reverse).pretty ++
          "\n")).map g.generate =
        (Request.ofText (Json.object (conditioned objectCondition)).compact).map g.generate := by
  have hvalue : Json.Shallow 4 (.object [("b", .null), ("a", .null)]) :=
    .object (.cons .null (.cons .null .nil)) (by decide : ["b", "a"].Nodup)
  have hv : Json.Shallow 6 (.object (conditioned objectCondition)) := by
    refine .object ?_ (by decide : ["model", "operation", "conditions"].Nodup)
    refine .cons (Model.shallow_toJson _) (.cons (.text _) (.cons ?_ .nil))
    exact .object (.cons (.text _) (.cons (.text _) (.cons hvalue .nil)))
      (by decide : ["field", "operator", "value"].Nodup)
  have hw : Json.Shallow 6 (.object (conditioned objectCondition.reverse).reverse) := by
    refine .object ?_ (by decide : ["conditions", "operation", "model"].Nodup)
    refine .cons ?_ (.cons (.text _) (.cons (Model.shallow_toJson _) .nil))
    exact .object (.cons hvalue (.cons (.text _) (.cons (.text _) .nil)))
      (by decide : ["value", "operator", "field"].Nodup)
  have hcondition : Reordered places .filter (.object objectCondition)
      (.object objectCondition.reverse) := by
    refine .of_perm rfl (by decide) ?_ (List.reverse_perm _).symm
    exact List.forall₂_same.2 fun m _ => ⟨rfl, .same _ _⟩
  have hreordered : Reordered places .request (.object (conditioned objectCondition))
      (.object (conditioned objectCondition.reverse).reverse) := by
    refine .of_perm rfl (by decide) ?_ (List.reverse_perm _).symm
    exact .cons ⟨rfl, .same _ _⟩ (.cons ⟨rfl, .same _ _⟩ (.cons ⟨rfl, hcondition⟩ .nil))
  have hread {v : Json} (h : Json.Shallow 6 v) : Json.decodeText .any v.compact = .ok v :=
    Json.decodeText_of_gives (Json.writes_compact v) (h.mono (by decide)) (Json.gives_any h.exact)
  obtain ⟨hdecoded, htrees⟩ := request_key_order
  refine ⟨?_, fun g => ⟨hdecoded _ _ _ _ (hread hv) (hread hw) hreordered g, ?_⟩⟩
  · unfold Request.ofText
    rw [hread hv]
    exact ⟨_, rfl⟩
  · exact htrees _ _ _ _ (Json.readTree_of_writes (Json.writes_compact _) hv.exact)
      (Json.readTree_of_writes (Json.writes_pretty _) hw.exact) hreordered g

end SchemaQuery
