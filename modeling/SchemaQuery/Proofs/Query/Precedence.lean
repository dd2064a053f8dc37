import SchemaQuery.Proofs.Json.Decoding
import SchemaQuery.Proofs.Json.Lookup
import SchemaQuery.Proofs.Keys
import SchemaQuery.Proofs.Schema.Json
import SchemaQuery.Query.Generator

/-!
# Precedence in open filters

An open filter may hold several kinds of conditions at once. One kind counts: a conjunction before a
disjunction, a disjunction before a single condition. What does not count has no influence on the
query or on the events of its writing, as long as it can be decoded at all.
-/

set_option autoImplicit false

namespace SchemaQuery

namespace Json.Slot

/-- A member that is taken in as part of a larger record leaves alone what it leaves alone in its
own. -/
theorem keeps_within {σ τ β : Type} {view : σ → β} (lift : τ → σ) {update : (σ → σ) → τ → τ}
    {slot : Slot σ} (hslot : slot.Keeps view) (h : ∀ set r, lift (update set r) = set (lift r)) :
    (slot.within update).Keeps fun r => view (lift r) := by
  intro inner tree set htake r
  obtain ⟨take, hinner, rfl⟩ :=
    map_eq_ok_iff.1 (htake : (slot.take inner tree).map update = .ok set)
  show view (lift (update take r)) = _
  rw [h, hslot inner tree take hinner]

end Json.Slot

open Json (Decoder Scope Slot Tree TreeMembers treeMembers toTree)
open Json.Slot (Sets keeps_map keeps_within map_eq_ok_iff fromMembers_congr)

inductive FilterPart where
  | conjunction (conditions : Tree)
  | disjunction (conditions : Tree)
  | single (field operator : Tree) (value : Option Tree)
  | nothing

namespace FilterPart

def ofMembers (members : TreeMembers) : FilterPart :=
  match members.given? "AND", members.given? "OR", members.given? "field",
    members.given? "operator" with
  | some conditions, _, _, _ => conjunction conditions
  | none, some conditions, _, _ => disjunction conditions
  | none, none, some field, some operator => single field operator (members.given? "value")
  | none, none, _, _ => nothing

inductive Means (inner : Scope) : FilterPart → Filter → Prop
  | conjunction {tree : Tree} {conditions : List Condition} :
      Decoder.list Condition.decoder inner tree = .ok conditions →
      Means inner (conjunction tree) (.conjunction conditions)
  | disjunction {tree : Tree} {conditions : List Condition} :
      Decoder.list Condition.decoder inner tree = .ok conditions →
      Means inner (disjunction tree) (.disjunction conditions)
  | single {field operator : Tree} {value : Option Tree} {c : Condition} :
      Decoder.text inner field = .ok c.field → Operator.decoder inner operator = .ok c.operator →
      (∀ tree ∈ value, Decoder.any inner tree = .ok c.value) →
      (value = none → c.value = .null) →
      Means inner (single field operator value) (.single c)
  | nothing : Means inner nothing .everything

theorem Means.eq {inner : Scope} {part : FilterPart} {f g : Filter} (hf : Means inner part f)
    (hg : Means inner part g) : g = f := by
  cases hf with
  | conjunction hlist =>
    cases hg with
    | conjunction hlist' => rw [Except.ok.inj (hlist'.symm.trans hlist)]
  | disjunction hlist =>
    cases hg with
    | disjunction hlist' => rw [Except.ok.inj (hlist'.symm.trans hlist)]
  | @single field operator value c hfield hoperator hvalue hnull =>
    cases hg with
    | @single _ _ _ c' hfield' hoperator' hvalue' hnull' =>
      have hsame : c'.value = c.value := by
        cases value with
        | none => rw [hnull rfl, hnull' rfl]
        | some tree => exact Except.ok.inj ((hvalue' tree rfl).symm.trans (hvalue tree rfl))
      obtain ⟨field', operator', value'⟩ := c'
      cases Except.ok.inj (hfield'.symm.trans hfield)
      cases Except.ok.inj (hoperator'.symm.trans hoperator)
      cases hsame
      rfl
  | nothing =>
    cases hg with
    | nothing => rfl

end FilterPart

namespace OpenFilter

def slots : List (Slot OpenFilter) := [
  .spare "AND" (.optional (.list Condition.decoder)) fun v f => { f with conjunction := v },
  .spare "OR" (.optional (.list Condition.decoder)) fun v f => { f with disjunction := v },
  .spare "field" (.optional .text) fun v f => { f with field := v },
  .spare "operator" (.optional Operator.decoder) fun v f => { f with operator := v },
  .spare "value" (.optional .any) fun v f => { f with value := v }]

theorem decoder_eq : decoder = .record slots {} := rfl

theorem sets_conjunction : Sets slots "AND" (.optional (.list Condition.decoder)) conjunction where
  found := ⟨false, _, rfl, fun _ _ => rfl⟩
  others := by
    simp only [slots, List.forall_mem_cons]
    exact ⟨fun h => absurd rfl h, fun _ => keeps_map fun _ _ => rfl,
      fun _ => keeps_map fun _ _ => rfl, fun _ => keeps_map fun _ _ => rfl,
      fun _ => keeps_map fun _ _ => rfl, List.forall_mem_nil _⟩

theorem sets_disjunction : Sets slots "OR" (.optional (.list Condition.decoder)) disjunction where
  found := ⟨false, _, rfl, fun _ _ => rfl⟩
  others := by
    simp only [slots, List.forall_mem_cons]
    exact ⟨fun _ => keeps_map fun _ _ => rfl, fun h => absurd rfl h,
      fun _ => keeps_map fun _ _ => rfl, fun _ => keeps_map fun _ _ => rfl,
      fun _ => keeps_map fun _ _ => rfl, List.forall_mem_nil _⟩

theorem sets_field : Sets slots "field" (.optional .text) field where
  found := ⟨false, _, rfl, fun _ _ => rfl⟩
  others := by
    simp only [slots, List.forall_mem_cons]
    exact ⟨fun _ => keeps_map fun _ _ => rfl, fun _ => keeps_map fun _ _ => rfl,
      fun h => absurd rfl h, fun _ => keeps_map fun _ _ => rfl,
      fun _ => keeps_map fun _ _ => rfl, List.forall_mem_nil _⟩

theorem sets_operator : Sets slots "operator" (.optional Operator.decoder) operator where
  found := ⟨false, _, rfl, fun _ _ => rfl⟩
  others := by
    simp only [slots, List.forall_mem_cons]
    exact ⟨fun _ => keeps_map fun _ _ => rfl, fun _ => keeps_map fun _ _ => rfl,
      fun _ => keeps_map fun _ _ => rfl, fun h => absurd rfl h,
      fun _ => keeps_map fun _ _ => rfl, List.forall_mem_nil _⟩

theorem sets_value : Sets slots "value" (.optional .any) value where
  found := ⟨false, _, rfl, fun _ _ => rfl⟩
  others := by
    simp only [slots, List.forall_mem_cons]
    exact ⟨fun _ => keeps_map fun _ _ => rfl, fun _ => keeps_map fun _ _ => rfl,
      fun _ => keeps_map fun _ _ => rfl, fun _ => keeps_map fun _ _ => rfl,
      fun h => absurd rfl h, List.forall_mem_nil _⟩

structure Holds (inner : Scope) (members : TreeMembers) (f : OpenFilter) : Prop where
  conjunction : Option.Rel (fun tree a => Decoder.list Condition.decoder inner tree = .ok a)
    (members.given? "AND") f.conjunction
  disjunction : Option.Rel (fun tree a => Decoder.list Condition.decoder inner tree = .ok a)
    (members.given? "OR") f.disjunction
  field : Option.Rel (fun tree a => Decoder.text inner tree = .ok a)
    (members.given? "field") f.field
  operator : Option.Rel (fun tree a => Operator.decoder inner tree = .ok a)
    (members.given? "operator") f.operator
  value : Option.Rel (fun tree a => Decoder.any inner tree = .ok a)
    (members.given? "value") f.value

theorem holds_of_fromMembers {inner : Scope} {members : TreeMembers} {f : OpenFilter}
    (h : Slot.fromMembers slots inner members [] {} = .ok f) : f.Holds inner members where
  conjunction := sets_conjunction.rel_given? h rfl
  disjunction := sets_disjunction.rel_given? h rfl
  field := sets_field.rel_given? h rfl
  operator := sets_operator.rel_given? h rfl
  value := sets_value.rel_given? h rfl

/-- What counts in the open filter is what counts among the members. -/
theorem Holds.means {inner : Scope} {members : TreeMembers} {f : OpenFilter}
    (h : f.Holds inner members) : (FilterPart.ofMembers members).Means inner f.resolve := by
  obtain ⟨hconjunction, hdisjunction, hfield, hoperator, hvalue⟩ := h
  obtain ⟨conjunction, disjunction, field, operator, value⟩ := f
  unfold FilterPart.ofMembers
  generalize members.given? "AND" = first at *
  generalize members.given? "OR" = second at *
  generalize members.given? "field" = third at *
  generalize members.given? "operator" = fourth at *
  generalize members.given? "value" = fifth at *
  cases hconjunction with
  | some hlist => exact .conjunction hlist
  | none =>
    cases hdisjunction with
    | some hlist => exact .disjunction hlist
    | none =>
      cases hfield with
      | none => exact .nothing
      | some hfield =>
        cases hoperator with
        | none => exact .nothing
        | some hoperator =>
          cases hvalue with
          | none => exact .single hfield hoperator nofun fun _ => rfl
          | some hvalue =>
            refine .single hfield hoperator ?_ nofun
            rintro tree ⟨⟩
            exact hvalue

end OpenFilter

/-- An object that is decoded as a filter means what the part of it that counts means. -/
theorem Filter.means_of_decoder {scope : Scope} {members : TreeMembers} {f : Filter}
    (h : decoder scope (.object members) = .ok f) :
    ∃ inner, scope.enter = .ok inner ∧ (FilterPart.ofMembers members).Means inner f := by
  obtain ⟨o, ho, rfl⟩ := map_eq_ok_iff.1
    (h : (OpenFilter.decoder scope (.object members)).map OpenFilter.resolve = .ok f)
  cases henter : scope.enter with
  | error fault =>
    rw [OpenFilter.decoder_eq, Decoder.record, henter] at ho
    cases ho
  | ok inner =>
    rw [OpenFilter.decoder_eq, Decoder.record, henter] at ho
    exact ⟨inner, rfl, (OpenFilter.holds_of_fromMembers ho).means⟩

/-- Objects of which the same part counts are decoded to the same filter. -/
theorem Filter.decoder_eq_of_part {scope : Scope} {a b : TreeMembers} {f g : Filter}
    (ha : decoder scope (.object a) = .ok f) (hb : decoder scope (.object b) = .ok g)
    (hpart : FilterPart.ofMembers b = FilterPart.ofMembers a) : g = f := by
  obtain ⟨inner, henter, hf⟩ := means_of_decoder ha
  obtain ⟨inner', henter', hg⟩ := means_of_decoder hb
  cases henter.symm.trans henter'
  rw [hpart] at hg
  exact hf.eq hg

namespace FilterPart

variable {a b : TreeMembers}

/-- The keys by which the part that counts is told: its own, and those that would count before it
and are absent. All others have no influence. -/
def keys (members : TreeMembers) : List String :=
  match members.given? "AND", members.given? "OR", members.given? "field",
    members.given? "operator" with
  | some _, _, _, _ => ["AND"]
  | none, some _, _, _ => ["AND", "OR"]
  | none, none, some _, some _ => ["AND", "OR", "field", "operator", "value"]
  | none, none, none, _ => ["AND", "OR", "field"]
  | none, none, some _, none => ["AND", "OR", "operator"]

theorem ofMembers_congr (h : ∀ key ∈ keys a, b.given? key = a.given? key) :
    ofMembers b = ofMembers a := by
  unfold keys at h
  unfold ofMembers
  -- The kinds are looked for in `a` by precedence; each key that is looked at is among the keys.
  cases hand : a.given? "AND" with
  | some conditions =>
    simp only [hand, List.forall_mem_cons] at h
    simp only [h.1]
  | none =>
    cases hor : a.given? "OR" with
    | some conditions =>
      simp only [hand, hor, List.forall_mem_cons] at h
      simp only [h.1, h.2.1]
    | none =>
      cases hfield : a.given? "field" with
      | none =>
        simp only [hand, hor, hfield, List.forall_mem_cons] at h
        simp only [h.1, h.2.1, h.2.2.1]
      | some field =>
        cases hoperator : a.given? "operator" with
        | none =>
          simp only [hand, hor, hfield, hoperator, List.forall_mem_cons] at h
          simp only [h.1, h.2.1, h.2.2.1]
          cases b.given? "field" <;> rfl
        | some operator =>
          simp only [hand, hor, hfield, hoperator, List.forall_mem_cons] at h
          simp only [h.1, h.2.1, h.2.2.1, h.2.2.2.1, h.2.2.2.2.1]

/-- The order of the members makes no difference. -/
theorem ofMembers_perm {a b : Json.Members} (hdistinct : (a.map Prod.fst).Nodup) (h : a.Perm b) :
    ofMembers (treeMembers b) = ofMembers (treeMembers a) := by
  have hgiven (key : String) : (treeMembers b).given? key = (treeMembers a).given? key := by
    apply Json.given?_treeMembers_congr
    exact congrArg (Option.map Prod.snd) (find?_key_of_perm h hdistinct key).symm
  exact ofMembers_congr fun key _ => hgiven key

end FilterPart

namespace Request

def inside : Scope := { depth := 127, lax := true }

/-- The filter of a request is what its conditions are decoded to. -/
theorem sets_filter : Sets slots "conditions" Filter.decoder fun r => r.options.filter where
  found := by
    refine ⟨false, fun f r => { r with options := { r.options with filter := f } }, ?_,
      fun _ _ => rfl⟩
    have hmap : (Filter.decoder.map fun f (o : Options) => { o with filter := f }).map
        (fun update (r : Request) => { r with options := update r.options }) =
        Filter.decoder.map fun f r => { r with options := { r.options with filter := f } } := by
      funext scope tree
      simp only [Decoder.map]
      cases Filter.decoder scope tree <;> rfl
    rw [← hmap]
    rfl
  others := by
    simp only [slots, Options.slots, List.map_cons, List.map_nil, List.forall_mem_cons,
      List.cons_append, List.nil_append]
    have hoption {slot : Slot Options} (hslot : slot.Keeps Options.filter) :
        (slot.within fun update r => { r with options := update r.options } : Slot Request).Keeps
          fun r => r.options.filter :=
      keeps_within Request.options hslot fun _ _ => rfl
    exact ⟨fun _ => keeps_map fun _ _ => rfl, fun _ => keeps_map fun _ _ => rfl,
      fun _ => keeps_map fun _ _ => rfl, fun h => absurd rfl h,
      fun _ => hoption (keeps_map fun _ _ => rfl), fun _ => hoption (keeps_map fun _ _ => rfl),
      fun _ => hoption (keeps_map fun _ _ => rfl), fun _ => hoption (keeps_map fun _ _ => rfl),
      List.forall_mem_nil _⟩

variable {before after : Json.Members} {v w : Json}

theorem exists_conditions_slot :
    ∃ slot : Slot Request, slots.find? (·.name == "conditions") = some slot ∧
      ∀ v w, Filter.decoder inside w = Filter.decoder inside v →
        slot.take inside w = slot.take inside v := by
  refine ⟨_, rfl, fun v w h => ?_⟩
  simp only [Slot.within, Slot.spare, Decoder.map, h]

/-- Of its conditions a request depends on what they are decoded to. -/
theorem ofJson?_congr (h : Filter.decoder inside (toTree w) = Filter.decoder inside (toTree v)) :
    ofJson? (.object (before ++ ("conditions", w) :: after)) =
      ofJson? (.object (before ++ ("conditions", v) :: after)) := by
  obtain ⟨slot, hslot, htake⟩ := exists_conditions_slot
  exact congrArg Except.toOption (fromMembers_congr hslot (htake _ _ h) before after [] _)

theorem operationName?_congr : operationName? (.object (before ++ ("conditions", w) :: after)) =
    operationName? (.object (before ++ ("conditions", v) :: after)) := by
  have hget : Json.Members.get? (before ++ ("conditions", w) :: after) "operation" =
      Json.Members.get? (before ++ ("conditions", v) :: after) "operation" := by
    simp only [Json.Members.get?, List.find?_append]
    rfl
  simp only [operationName?, hget]

theorem ofText_congr {s t : String}
    (hs : Json.decodeText .any s = .ok (.object (before ++ ("conditions", v) :: after)))
    (ht : Json.decodeText .any t = .ok (.object (before ++ ("conditions", w) :: after)))
    (h : Filter.decoder inside (toTree w) = Filter.decoder inside (toTree v)) :
    ofText t = ofText s := by
  unfold ofText
  rw [hs, ht]
  simp only [Except.mapError, bind, Except.bind, operationName?_congr (v := v) (w := w),
    ofJson?_congr h]

theorem fromMembers_of_ofText {s : String} {members : Json.Members} {r : Request}
    (hs : Json.decodeText .any s = .ok (.object members)) (h : ofText s = .ok r) :
    ∃ blank, Slot.fromMembers slots inside (treeMembers members) [] blank = .ok r := by
  have hjson : ofJson? (.object members) = some r := by
    unfold ofText at h
    rw [hs] at h
    simp only [Except.mapError, bind, Except.bind] at h
    cases hjson : ofJson? (.object members) with
    | none =>
      simp only [hjson] at h
      split at h
      · split at h <;> cases h
      · cases h
    | some request =>
      simp only [hjson] at h
      split at h
      · split at h
        · cases h
        · exact congrArg some (Except.ok.inj h)
      · exact congrArg some (Except.ok.inj h)
  refine ⟨{ model := { name := "" }, operation := .read }, ?_⟩
  have hoption : (Slot.fromMembers slots inside (treeMembers members) []
    { model := { name := "" }, operation := .read }).toOption = some r := hjson
  cases hread : Slot.fromMembers slots inside (treeMembers members) []
      { model := { name := "" }, operation := .read } with
  | error fault =>
    rw [hread] at hoption
    cases hoption
  | ok request =>
    rw [hread] at hoption
    exact congrArg Except.ok (Option.some.inj hoption)

/-- The conditions of a text are decoded to the filter of its request. -/
theorem filter_of_ofText {s : String} {members : Json.Members} {conditions : Json} {r : Request}
    (hs : Json.decodeText .any s = .ok (.object members))
    (hconditions : members.get? "conditions" = some conditions) (h : ofText s = .ok r) :
    Filter.decoder inside (toTree conditions) = .ok r.options.filter := by
  obtain ⟨blank, hmembers⟩ := fromMembers_of_ofText hs h
  rcases sets_filter.view_eq hmembers with ⟨hnone, -⟩ | ⟨tree, htree, -, hd⟩
  · rw [Json.get?_treeMembers, hconditions] at hnone
    cases hnone
  · rw [Json.get?_treeMembers, hconditions] at htree
    rwa [Option.some.inj htree]

end Request

/-- A filter that is decoded from an object is the part of the object that counts. Other keys have
no influence on this part, nor has the order of the keys, and objects of which the same part counts
are the same filter. So a query and the events of its writing are the same whichever of two such
objects stands for the conditions of the request. -/
theorem filter_precedence :
    (∀ scope members f, Filter.decoder scope (.object members) = .ok f →
      ∃ inner, scope.enter = .ok inner ∧ (FilterPart.ofMembers members).Means inner f) ∧
    (∀ a b : TreeMembers, (∀ key ∈ FilterPart.keys a, b.given? key = a.given? key) →
      FilterPart.ofMembers b = FilterPart.ofMembers a) ∧
    (∀ a b : Json.Members, (a.map Prod.fst).Nodup → a.Perm b →
      FilterPart.ofMembers (treeMembers b) = FilterPart.ofMembers (treeMembers a)) ∧
    (∀ scope a b f g, Filter.decoder scope (.object a) = .ok f →
      Filter.decoder scope (.object b) = .ok g →
        FilterPart.ofMembers b = FilterPart.ofMembers a → g = f) ∧
    (∀ s (members conditions : Json.Members) r, Json.decodeText .any s = .ok (.object members) →
      members.get? "conditions" = some (.object conditions) → Request.ofText s = .ok r →
        ∃ inner, Request.inside.enter = .ok inner ∧
          (FilterPart.ofMembers (treeMembers conditions)).Means inner r.options.filter) ∧
    ∀ s t before after (a b : Json.Members) f g,
      Json.decodeText .any s = .ok (.object (before ++ ("conditions", .object a) :: after)) →
      Json.decodeText .any t = .ok (.object (before ++ ("conditions", .object b) :: after)) →
      Filter.decoder Request.inside (.object (treeMembers a)) = .ok f →
      Filter.decoder Request.inside (.object (treeMembers b)) = .ok g →
      FilterPart.ofMembers (treeMembers b) = FilterPart.ofMembers (treeMembers a) →
        ∀ generator : Generator,
          (Request.ofText t).map generator.generate =
            (Request.ofText s).map generator.generate := by
  refine ⟨fun _ _ _ h => Filter.means_of_decoder h, fun _ _ h => FilterPart.ofMembers_congr h,
    fun _ _ hdistinct h => FilterPart.ofMembers_perm hdistinct h,
    fun _ _ _ _ _ ha hb hpart => Filter.decoder_eq_of_part ha hb hpart, ?_, ?_⟩
  · intro s members conditions r hs hconditions h
    exact Filter.means_of_decoder (Request.filter_of_ofText hs hconditions h)
  · intro s t before after a b f g hs ht ha hb hpart generator
    have hsame : g = f := Filter.decoder_eq_of_part ha hb hpart
    have hdecoder : Filter.decoder Request.inside (.object (treeMembers b)) =
        Filter.decoder Request.inside (.object (treeMembers a)) := by rw [ha, hb, hsame]
    rw [Request.ofText_congr hs ht hdecoder]

def contested (conditions : Json.Members) : Json.Members :=
  [("model", Model.toJson { name := "User" }), ("operation", .text "read")] ++
    ("conditions", .object conditions) :: []

def hidingConditions : Json.Members := [("AND", .array []), ("field", .text "id"),
  ("operator", .text "not"), ("value", .text "secret")]

def otherConditions : Json.Members := [("OR", .array []), ("value", .null), ("AND", .array [])]

theorem decodeText_contested {conditions : Json.Members}
    (h : Json.Shallow 5 (.object conditions)) :
    Json.decodeText .any (Json.object (contested conditions)).compact =
      .ok (.object (contested conditions)) := by
  have hshallow : Json.Shallow 6 (.object (contested conditions)) := by
    refine .object ?_ (by decide : ["model", "operation", "conditions"].Nodup)
    exact .cons (Model.shallow_toJson _) (.cons (.text _) (.cons h .nil))
  exact Json.decodeText_of_gives (Json.writes_compact _)
    (hshallow.mono (by decide)) (Json.gives_any hshallow.exact)

def contestedRequest : Request where
  model := { name := "User" }
  operation := .read
  options := { filter := .conjunction [] }

theorem filter_precedence_hiding :
    (∃ inner, Request.inside.enter = .ok inner ∧
      (FilterPart.ofMembers (treeMembers hidingConditions)).Means inner (.conjunction [])) ∧
    FilterPart.ofMembers (treeMembers otherConditions) =
      FilterPart.ofMembers (treeMembers hidingConditions) ∧
    FilterPart.ofMembers (treeMembers hidingConditions.reverse) =
      FilterPart.ofMembers (treeMembers hidingConditions) ∧
    (∃ inner, Request.inside.enter = .ok inner ∧
      (FilterPart.ofMembers (treeMembers hidingConditions)).Means inner
        contestedRequest.options.filter) ∧
    Request.ofText (Json.object (contested hidingConditions)).compact = .ok contestedRequest ∧
    ∀ generator : Generator,
      (Request.ofText (Json.object (contested otherConditions)).compact).map generator.generate =
        (Request.ofText (Json.object (contested hidingConditions)).compact).map
          generator.generate := by
  obtain ⟨hmeans, hkeys, horder, -, hrequest, hqueries⟩ := filter_precedence
  have ha : Filter.decoder Request.inside (.object (treeMembers hidingConditions)) =
      .ok (.conjunction []) := rfl
  have hb : Filter.decoder Request.inside (.object (treeMembers otherConditions)) =
      .ok (.conjunction []) := rfl
  have hagree : ∀ key ∈ FilterPart.keys (treeMembers hidingConditions),
      (treeMembers otherConditions).given? key = (treeMembers hidingConditions).given? key := by
    have hlist : FilterPart.keys (treeMembers hidingConditions) = ["AND"] := rfl
    rw [hlist, List.forall_mem_singleton]
    rfl
  have hpart := hkeys _ _ hagree
  have hdistinct : (hidingConditions.map Prod.fst).Nodup := by decide
  have hs : Json.decodeText .any (Json.object (contested hidingConditions)).compact =
      .ok (.object (contested hidingConditions)) := by
    apply decodeText_contested
    refine .object ?_ (by decide : ["AND", "field", "operator", "value"].Nodup)
    exact .cons (.strings []) (.cons (.text _) (.cons (.text _) (.cons (.text _) .nil)))
  have ht : Json.decodeText .any (Json.object (contested otherConditions)).compact =
      .ok (.object (contested otherConditions)) := by
    apply decodeText_contested
    refine .object ?_ (by decide : ["OR", "value", "AND"].Nodup)
    exact .cons (.strings []) (.cons .null (.cons (.strings []) .nil))
  have hr : Request.ofText (Json.object (contested hidingConditions)).compact =
      .ok contestedRequest := by
    unfold Request.ofText
    rw [hs]
    rfl
  exact ⟨hmeans _ _ _ ha, hpart, horder _ _ hdistinct (List.reverse_perm _).symm,
    hrequest _ _ _ _ hs rfl hr, hr, hqueries _ _ _ _ _ _ _ _ hs ht ha hb hpart⟩

end SchemaQuery
