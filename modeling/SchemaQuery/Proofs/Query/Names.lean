import Mathlib.Data.List.Induction
import SchemaQuery.Proofs.Json.Decoding
import SchemaQuery.Proofs.Query.Meaning

/-!
# Names that are met again

A name that is selected again changes nothing, whether names are put into an object or relation
fields are gathered: the names are kept in the order in which they are met first.
-/

set_option autoImplicit false

namespace SchemaQuery

open Json (Members)
open Literal (ofJson ofItems ofMembers)

section Names

variable {names : List String} {name : String}

theorem eraseDups_concat_of_mem (h : name ∈ names) :
    (names ++ [name]).eraseDups = names.eraseDups := by
  have hgone : [name].removeAll names = [] := by simp [List.removeAll, h]
  rw [List.eraseDups_append, hgone, List.eraseDups_nil, List.append_nil]

theorem eraseDups_concat_of_notMem (h : name ∉ names) :
    (names ++ [name]).eraseDups = names.eraseDups ++ [name] := by
  have hkept : [name].removeAll names = [name] := by simp [List.removeAll, h]
  rw [List.eraseDups_append, hkept]
  rfl

theorem eraseDups_eraseDups (names : List String) :
    names.eraseDups.eraseDups = names.eraseDups := by
  induction names using List.reverseRecOn with
  | nil => rfl
  | append_singleton names name ih =>
    by_cases h : name ∈ names
    · rw [eraseDups_concat_of_mem h, ih]
    · have hdups : name ∉ names.eraseDups := fun hmem => h (List.mem_eraseDups.1 hmem)
      rw [eraseDups_concat_of_notMem h, eraseDups_concat_of_notMem hdups, ih]

theorem nodup_eraseDups (names : List String) : names.eraseDups.Nodup := by
  induction names using List.reverseRecOn with
  | nil => exact List.nodup_nil
  | append_singleton names name ih =>
    by_cases h : name ∈ names
    · rw [eraseDups_concat_of_mem h]
      exact ih
    · have hdups : name ∉ names.eraseDups := fun hmem => h (List.mem_eraseDups.1 hmem)
      rw [eraseDups_concat_of_notMem h]
      exact List.nodup_append.2 ⟨ih, by simp,
        fun a ha b hb hab => hdups (List.mem_singleton.1 hb ▸ hab ▸ ha)⟩

end Names

section Put

variable (value : String → Json)

theorem put_of_mem {names : List String} {name : String} (h : name ∈ names) :
    Members.put (names.map fun n => (n, value n)) name (value name) =
      names.map fun n => (n, value n) := by
  induction names with
  | nil => cases h
  | cons n names ih =>
    rw [List.map_cons, Members.put]
    by_cases hn : n = name
    · rw [if_pos hn, hn]
    · have hmem : name ∈ names := by
        rcases List.mem_cons.1 h with he | hmem
        · exact absurd he.symm hn
        · exact hmem
      rw [if_neg hn, ih hmem]

/-- Values that depend on the names alone. -/
theorem ofList_map (names : List String) :
    Members.ofList (names.map fun n => (n, value n)) =
      names.eraseDups.map fun n => (n, value n) := by
  induction names using List.reverseRecOn with
  | nil => rfl
  | append_singleton names name ih =>
    have hput : Members.ofList ((names ++ [name]).map fun n => (n, value n)) =
        (Members.ofList (names.map fun n => (n, value n))).put name (value name) := by
      simp [Members.ofList]
    by_cases h : name ∈ names
    · rw [hput, ih, put_of_mem value (List.mem_eraseDups.2 h), eraseDups_concat_of_mem h]
    · have hkeys : name ∉ (names.eraseDups.map fun n => (n, value n)).map (·.1) := by
        simpa using h
      rw [hput, ih, Json.put_eq_putEntry, Json.putEntry_of_notMem hkeys,
        eraseDups_concat_of_notMem h, List.map_append]
      rfl

end Put

namespace Generator

variable (g : Generator) (m : Model)

theorem isSome_relationField? (name : String) :
    (g.relationField? m name).isSome = g.types.leadsOn m name := by
  rw [relationField?, ScalarTypes.leadsOn]
  cases m.field? name with
  | none => rfl
  | some f => cases h : g.types.isRelation f <;> simp [Option.filter, h]

theorem name_of_relationField? {name : String} {f : Field} (h : g.relationField? m name = some f) :
    f.name = name := by
  have hfield : m.fields.find? (·.name == name) = some f := (Option.filter_eq_some_iff.1 h).1
  have hname := List.find?_some (p := fun x : Field => x.name == name) hfield
  exact eq_of_beq hname

theorem names_relationField? (selected : List String) :
    (selected.filterMap (g.relationField? m)).map (·.name) =
      selected.filter (g.types.leadsOn m) := by
  induction selected with
  | nil => rfl
  | cons name selected ih =>
    have hsome := g.isSome_relationField? m name
    cases hf : g.relationField? m name with
    | none =>
      rw [hf] at hsome
      rw [List.filterMap_cons_none hf, ih, List.filter_cons_of_neg (by simp [← hsome])]
    | some f =>
      rw [hf] at hsome
      rw [List.filterMap_cons_some hf, List.map_cons, ih, g.name_of_relationField? m hf,
        List.filter_cons_of_pos (by simp [← hsome])]

theorem names_addOnce (fields : List Field) :
    (fields.foldl addOnce []).map (·.name) = (fields.map (·.name)).eraseDups := by
  induction fields using List.reverseRecOn with
  | nil => rfl
  | append_singleton fields f ih =>
    rw [List.foldl_append, List.map_append]
    show (addOnce (fields.foldl addOnce []) f).map (·.name) =
      (fields.map (·.name) ++ [f.name]).eraseDups
    by_cases h : f.name ∈ fields.map (·.name)
    · have hmem : f.name ∈ (fields.foldl addOnce []).map (·.name) := by
        rw [ih]
        exact List.mem_eraseDups.2 h
      have hany : (fields.foldl addOnce []).any (·.name == f.name) = true := by
        obtain ⟨x, hx, hname⟩ := List.mem_map.1 hmem
        exact List.any_eq_true.2 ⟨x, hx, beq_iff_eq.2 hname⟩
      rw [addOnce, if_pos hany, ih, eraseDups_concat_of_mem h]
    · have hany : ¬ (fields.foldl addOnce []).any (·.name == f.name) = true := by
        intro hany
        obtain ⟨x, hx, hname⟩ := List.any_eq_true.1 hany
        have hmem : f.name ∈ (fields.foldl addOnce []).map (·.name) :=
          List.mem_map.2 ⟨x, hx, eq_of_beq hname⟩
        rw [ih] at hmem
        exact h (List.mem_eraseDups.1 hmem)
      rw [addOnce, if_neg hany, List.map_append, ih, eraseDups_concat_of_notMem h]
      rfl

theorem regular_selection (selected : List String) : (g.selection m selected).regular =
    selected.filter fun name => !g.types.leadsOn m name := by
  apply List.filter_congr
  intro name _
  rw [← g.isSome_relationField? m name]
  cases g.relationField? m name <;> rfl

theorem names_relations (selected : List String) :
    (g.selection m selected).relations.map (·.name) =
      (selected.filter (g.types.leadsOn m)).eraseDups := by
  rw [selection, names_addOnce, names_relationField?]

end Generator

theorem Literal.ofItems_eq (items : List Json) : ofItems items = items.map ofJson := by
  induction items with
  | nil => rfl
  | cons item items ih => rw [ofItems, ih, List.map_cons]

theorem Literal.ofMembers_eq (members : List (String × Json)) :
    ofMembers members = members.map fun m => (m.1, ofJson m.2) := by
  induction members with
  | nil => rfl
  | cons m members ih => rw [ofMembers, ih, List.map_cons]

/-- An object with a value for each of some names. -/
theorem ofJson_named (value : String → Json) (names : List String) :
    ofJson (.object (Members.ofList (names.map fun name => (name, value name)))) =
      .object (names.eraseDups.map fun name => (name, ofJson (value name))) := by
  rw [ofList_map, ofJson, Literal.ofMembers_eq, List.map_map]
  rfl

theorem ofJson_chosen (names : List String) :
    ofJson (Clause.chosen names) = chosenMeaning names :=
  ofJson_named (fun _ => .bool true) names

end SchemaQuery
