import SchemaQuery.Proofs.Schema.Json

/-!
# Requests are given back by their JSON

Options and requests are decoded from their JSON form if it is exact, and a request is read from
any text of that form.
-/

set_option autoImplicit false

namespace SchemaQuery

open Json (Decoder Slot Exact Gives Takes Members gives_record gives_text gives_list gives_strings
  gives_any gives_choice gives_optional)

namespace Operator

theorem gives_toJson (operator : Operator) : Gives decoder operator.toJson operator :=
  gives_choice (ofName?_name operator)

end Operator

namespace Condition

theorem gives_toJson {c : Condition} (h : Exact c.toJson) : Gives decoder c.toJson c := by
  have hvalue : Exact c.value := h.members.2 ("value", c.value) (by simp)
  apply gives_record
  · apply Takes.needed (gives_text _)
    apply Takes.needed c.operator.gives_toJson
    apply Takes.needed (gives_any hvalue)
    exact Takes.nil c
  · decide

theorem gives_list {conditions : List Condition}
    (h : Exact (.array (conditions.map toJson))) :
    Gives (.list decoder) (.array (conditions.map toJson)) conditions :=
  Json.gives_list fun _ hc => gives_toJson (h.items _ (List.mem_map_of_mem hc))

end Condition

namespace OpenFilter

/-- Null stands for the value of a single condition where it is missing. -/
theorem takes_value {v : Json} (h : Exact v) (f : OpenFilter) :
    ∃ value : Option Json, value.getD .null = v ∧
      Takes [.spare "value" (.optional .any) fun v f => { f with value := v }] [("value", v)] f
        { f with value } := by
  by_cases hv : v = .null
  · subst hv
    refine ⟨none, rfl, ?_⟩
    apply Takes.spare
    · exact fun _ _ => rfl
    · exact Takes.nil _
  · refine ⟨some v, rfl, ?_⟩
    apply Takes.spare (gives_optional (gives_any h) hv)
    exact Takes.nil _

end OpenFilter

namespace Filter

theorem gives_everything : Gives decoder (toJson .everything) .everything := by
  apply Json.gives_map OpenFilter.resolve (a := {})
  apply gives_record
  · iterate 5 apply Takes.skip rfl
    exact Takes.nil _
  · decide

theorem gives_conjunction {conditions : List Condition}
    (h : Exact (toJson (.conjunction conditions))) :
    Gives decoder (toJson (.conjunction conditions)) (.conjunction conditions) := by
  have hconditions : Exact (.array (conditions.map Condition.toJson)) :=
    h.members.2 _ List.mem_cons_self
  apply Json.gives_map OpenFilter.resolve (a := { conjunction := some conditions })
  apply gives_record
  · apply Takes.spare (gives_optional (Condition.gives_list hconditions) (by simp))
    iterate 4 apply Takes.skip rfl
    exact Takes.nil _
  · decide

theorem gives_disjunction {conditions : List Condition}
    (h : Exact (toJson (.disjunction conditions))) :
    Gives decoder (toJson (.disjunction conditions)) (.disjunction conditions) := by
  have hconditions : Exact (.array (conditions.map Condition.toJson)) :=
    h.members.2 _ List.mem_cons_self
  apply Json.gives_map OpenFilter.resolve (a := { disjunction := some conditions })
  apply gives_record
  · apply Takes.skip rfl
    apply Takes.spare (gives_optional (Condition.gives_list hconditions) (by simp))
    iterate 3 apply Takes.skip rfl
    exact Takes.nil _
  · decide

theorem gives_single {c : Condition} (h : Exact (toJson (.single c))) :
    Gives decoder (toJson (.single c)) (.single c) := by
  have hvalue : Exact c.value := h.members.2 ("value", c.value) (by simp)
  obtain ⟨value, hget, htakes⟩ := OpenFilter.takes_value hvalue
    { field := some c.field, operator := some c.operator }
  have hresolve : OpenFilter.resolve { field := some c.field, operator := some c.operator, value } =
      .single c := by
    show Filter.single ⟨c.field, c.operator, value.getD .null⟩ = _
    rw [hget]
  have hopen : Gives OpenFilter.decoder (toJson (.single c))
      { field := some c.field, operator := some c.operator, value } := by
    apply gives_record
    · apply Takes.skip rfl
      apply Takes.skip rfl
      apply Takes.spare (gives_optional (gives_text _) (by simp))
      apply Takes.spare (gives_optional c.operator.gives_toJson (by simp [Operator.toJson]))
      exact htakes
    · decide
  have hgives := Json.gives_map OpenFilter.resolve hopen
  rwa [hresolve] at hgives

theorem gives_toJson {f : Filter} (h : Exact f.toJson) : Gives decoder f.toJson f := by
  cases f with
  | everything => exact gives_everything
  | conjunction conditions => exact gives_conjunction h
  | disjunction conditions => exact gives_disjunction h
  | single c => exact gives_single h

end Filter

namespace SortKey

theorem gives_toJson (key : SortKey) : Gives decoder key.toJson key := by
  apply gives_record
  · apply Takes.needed (gives_text _)
    apply Takes.needed (gives_choice (Direction.ofName?_name key.direction))
    exact Takes.nil key
  · decide

end SortKey

theorem gives_sort (keys : List SortKey) : Gives (.list SortKey.decoder) (sortToJson keys) keys :=
  gives_list fun key _ => key.gives_toJson

namespace Cursor

theorem gives_toJson {c : Cursor} (h : Exact c.toJson) : Gives decoder c.toJson c := by
  have hvalue : Exact c.value := h.members.2 ("value", c.value) (by simp)
  apply gives_record
  · apply Takes.needed (gives_text _)
    apply Takes.needed (gives_any hvalue)
    exact Takes.nil c
  · decide

end Cursor

theorem mem_memberOf {α : Type} {name : String} {encode : α → Json} {value : Option α} {a : α}
    (h : a ∈ value) : (name, encode a) ∈ Json.memberOf name encode value := by
  cases h
  exact List.mem_cons_self

namespace Page

theorem gives_toJson {p : Page} (h : Exact p.toJson) : Gives decoder p.toJson p := by
  have hcursor : ∀ c ∈ p.cursor, Exact c.toJson := fun c hc =>
    h.members.2 ("cursor", c.toJson) (List.mem_append_right _ (mem_memberOf hc))
  apply gives_record
  · simp only [List.append_assoc]
    apply Takes.memberOf (fun n _ => Json.gives_natural n) (by simp [Json.ofUInt64, Json.ofInt]) rfl
    apply Takes.memberOf (fun n _ => Json.gives_integer n) (by simp [Json.ofInt64, Json.ofInt]) rfl
    exact Takes.memberOf_last (fun c hc => c.gives_toJson (hcursor c hc)) (by simp [Cursor.toJson])
      rfl
  · decide

end Page

namespace Inclusion

theorem gives_toJson {i : Inclusion} (h : Exact i.toJson) : Gives decoder i.toJson i := by
  have hpage : ∀ p ∈ i.page, Exact p.toJson := fun p hp =>
    h.members.2 ("pagination", p.toJson) (List.mem_append_right _ (mem_memberOf hp))
  apply gives_record
  · simp only [List.append_assoc]
    apply Takes.memberOf (fun names _ => gives_strings names) (by simp [Json.ofStrings]) rfl
    apply Takes.memberOf (fun keys _ => gives_sort keys) (by simp [sortToJson]) rfl
    exact Takes.memberOf_last (fun p hp => p.gives_toJson (hpage p hp)) (by simp [Page.toJson]) rfl
  · decide

end Inclusion

namespace RelationOptions

theorem gives_toJson {o : RelationOptions} (h : Exact o.toJson) : Gives decoder o.toJson o := by
  have hinclude : Exact (.object (o.inclusions.map fun entry => (entry.1, entry.2.toJson))) := by
    apply h.members.2 ("include", _)
    exact List.mem_append_right _ List.mem_cons_self
  have hnames : (o.inclusions.map (·.1)).Nodup := by
    have hmembers := hinclude.members.1
    rwa [List.map_map] at hmembers
  have hinclusions : ∀ entry ∈ o.inclusions, Exact entry.2.toJson := fun entry he =>
    hinclude.members.2 (entry.1, entry.2.toJson) (List.mem_map_of_mem he)
  apply gives_record
  · apply Takes.memberOf (fun n _ => Json.gives_natural n) (by simp [Json.ofUInt64, Json.ofInt]) rfl
    apply Takes.spare (Json.gives_dictionary
      (fun entry he => entry.2.gives_toJson (hinclusions entry he)) hnames)
    exact Takes.nil o
  · decide

end RelationOptions

theorem gives_fields (names : List String) : Gives fieldsDecoder (fieldsToJson names) names := by
  apply gives_record
  · apply Takes.needed (gives_strings _)
    exact Takes.nil names
  · decide

theorem shallow_fieldsToJson (names : List String) : Json.Shallow 2 (fieldsToJson names) := by
  refine Json.Shallow.object ?_ (by decide : ["select"].Nodup)
  exact .cons (.strings names) .nil

namespace Count

theorem gives_toJson (c : Count) : Gives decoder c.toJson c := by
  intro scope hdepth
  cases c with
  | whole wanted => rfl
  | fields names =>
    have hany : (fieldsToJson names).toTree.toJson scope = .ok (fieldsToJson names) :=
      gives_any (shallow_fieldsToJson names).exact scope hdepth
    have hfields := gives_fields names scope hdepth
    rw [toJson, decoder]
    · rw [hany, hfields]
      rfl
    · rw [fieldsToJson, Json.toTree]
      simp

end Count

namespace Aggregation

theorem gives_toJson (a : Aggregation) : Gives decoder a.toJson a := by
  apply gives_record
  · simp only [List.append_assoc]
    apply Takes.memberOf (fun c _ => c.gives_toJson)
      (by intro c; cases c <;> simp [Count.toJson, fieldsToJson]) rfl
    apply Takes.memberOf (fun names _ => gives_fields names) (by simp [fieldsToJson]) rfl
    apply Takes.memberOf (fun names _ => gives_fields names) (by simp [fieldsToJson]) rfl
    apply Takes.memberOf (fun names _ => gives_fields names) (by simp [fieldsToJson]) rfl
    exact Takes.memberOf_last (fun names _ => gives_fields names) (by simp [fieldsToJson]) rfl
  · decide

end Aggregation

namespace Options

theorem takes_members {o : Options} (h : Exact o.toJson) : Takes slots o.members {} o := by
  have hfilter : Exact o.filter.toJson :=
    h.members.2 ("conditions", o.filter.toJson) (by simp [members])
  have hpage : ∀ p ∈ o.page, Exact p.toJson := fun p hp =>
    h.members.2 ("pagination", p.toJson) (by simp [members, mem_memberOf hp])
  have hrelation : ∀ r ∈ o.relation, Exact r.toJson := fun r hr =>
    h.members.2 ("relation", r.toJson) (by simp [members, mem_memberOf hr])
  simp only [members, List.append_assoc, List.cons_append, List.nil_append]
  apply Takes.spare (Filter.gives_toJson hfilter)
  apply Takes.memberOf (fun keys _ => gives_sort keys) (by simp [sortToJson]) rfl
  apply Takes.memberOf (fun p hp => p.gives_toJson (hpage p hp)) (by simp [Page.toJson]) rfl
  apply Takes.memberOf (fun r hr => r.gives_toJson (hrelation r hr))
    (by simp [RelationOptions.toJson]) rfl
  exact Takes.memberOf_last (fun a _ => a.gives_toJson) (by simp [Aggregation.toJson]) rfl

/-- Options are decoded from their JSON form if it is exact. -/
theorem gives_toJson {o : Options} (h : Exact o.toJson) : Gives decoder o.toJson o :=
  gives_record (takes_members h) (by decide)

end Options

theorem Operation.gives_name (operation : Operation) :
    Gives decoder (.text operation.name) operation := by
  intro scope _
  cases operation <;> rfl

namespace Request

variable {r : Request}

theorem toJson_eq (r : Request) : r.toJson =
    .object (("model", r.model.toJson) :: ("operation", .text r.operation.name) ::
      ("selectedFields", .ofStrings r.selected) :: r.options.members) := rfl

/-- The options stand beside the other members, and each is taken in as part of the request. -/
theorem takes_toJson (h : Exact r.options.toJson) :
    Takes slots (("model", r.model.toJson) :: ("operation", .text r.operation.name) ::
      ("selectedFields", .ofStrings r.selected) :: r.options.members)
        { model := { name := "" }, operation := .read } r := by
  have hoptions : Takes (Options.slots.map (.within fun update r =>
      { r with options := update r.options })) r.options.members { r with options := {} } r :=
    Takes.within (fun o => { r with options := o }) (fun set o => rfl) (Options.takes_members h)
  apply Takes.needed r.model.gives_toJson
  apply Takes.needed r.operation.gives_name
  apply Takes.spare (gives_strings _)
  exact hoptions

theorem names_slots_nodup : (slots.map (·.name)).Nodup := by decide

theorem gives_toJson (h : Exact r.options.toJson) :
    Gives (.record slots { model := { name := "" }, operation := .read }) r.toJson r :=
  gives_record (takes_toJson h) names_slots_nodup

theorem shallow_toJson (h : Json.Shallow 127 r.options.toJson) : Json.Shallow 127 r.toJson := by
  rw [toJson_eq]
  refine Json.Shallow.object ⟨(takes_toJson h.exact).names_sublist, ?_⟩ names_slots_nodup
  intro m hm
  rcases List.mem_cons.1 hm with rfl | hm
  · exact r.model.shallow_toJson.mono (by decide)
  · rcases List.mem_cons.1 hm with rfl | hm
    · exact .text _
    · rcases List.mem_cons.1 hm with rfl | hm
      · exact .strings r.selected
      · exact ⟨h.exact.members.2 m hm, Json.nesting_object.1 h.nesting_le m hm⟩

theorem operationName?_toJson (r : Request) : operationName? r.toJson = some r.operation.name := by
  rw [toJson_eq]
  rfl

theorem ofJson?_toJson (h : Exact r.options.toJson) (hnesting : r.toJson.nesting ≤ 127) :
    ofJson? r.toJson = some r := by
  have hgives := gives_toJson h { lax := true } (Nat.lt_succ_of_le hnesting)
  show (Json.Decoder.record slots { model := { name := "" }, operation := .read } { lax := true }
    r.toJson.toTree).toOption = _
  rw [hgives]
  rfl

/-- A request is read from every text of its JSON form. -/
theorem ofText_of_writes {t : String} (ht : Json.Writes t r.toJson)
    (h : Json.Shallow 127 r.options.toJson) : ofText t = .ok r := by
  have hshallow := shallow_toJson h
  have hany := Json.decodeText_of_gives ht hshallow (gives_any hshallow.exact)
  have hname : (Operation.ofName? r.operation.name).isNone = false := by
    rw [Operation.ofName?_name]
    rfl
  unfold ofText
  rw [hany]
  simp only [Except.mapError, bind, Except.bind, operationName?_toJson, hname,
    ofJson?_toJson h.exact hshallow.nesting_le]
  rfl

end Request

end SchemaQuery
