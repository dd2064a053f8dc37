import SchemaQuery.Schema.Json

/-!
# Exact values

A value is exact if its numbers are whole and fit into 64 bits and no object of it has two members
of one name. How deep its containers are nested is counted from the value outwards.
-/

set_option autoImplicit false

namespace SchemaQuery.Json

/-- Induction over a value, by way of its items or of the values of its members. -/
@[elab_as_elim]
theorem induct {p : Json → Prop} (null : p .null) (bool : ∀ b, p (.bool b))
    (number : ∀ n, p (.number n)) (text : ∀ s, p (.text s))
    (array : ∀ items, (∀ item ∈ items, p item) → p (.array items))
    (object : ∀ members, (∀ m ∈ members, p m.2) → p (.object members)) (v : Json) : p v := by
  refine @Json.rec p (fun items => ∀ item ∈ items, p item) (fun members => ∀ m ∈ members, p m.2)
    (fun m => p m.2) null bool number text array object ?_ ?_ ?_ ?_ ?_ v
  · intro item h
    cases h
  · intro item items hitem hitems x hx
    rcases List.mem_cons.1 hx with rfl | hx
    · exact hitem
    · exact hitems x hx
  · intro m h
    cases h
  · intro m members hm hmembers x hx
    rcases List.mem_cons.1 hx with rfl | hx
    · exact hm
    · exact hmembers x hx
  · intro name value hvalue
    exact hvalue

inductive Exact : Json → Prop
  | null : Exact .null
  | bool (b : Bool) : Exact (.bool b)
  | int {n : Int} : -signedLimit ≤ n → n < unsignedLimit → Exact (.number (.int n))
  | text (s : String) : Exact (.text s)
  | array {items : List Json} : (∀ item ∈ items, Exact item) → Exact (.array items)
  | object {members : List (String × Json)} : (members.map (·.1)).Nodup →
      (∀ m ∈ members, Exact m.2) → Exact (.object members)

theorem Exact.items {items : List Json} (h : Exact (.array items)) :
    ∀ item ∈ items, Exact item := by
  cases h with
  | array h => exact h

theorem Exact.members {members : List (String × Json)} (h : Exact (.object members)) :
    (members.map (·.1)).Nodup ∧ ∀ m ∈ members, Exact m.2 := by
  cases h with
  | object hnames hvalues => exact ⟨hnames, hvalues⟩

mutual

def nesting : Json → Nat
  | .array items => nestingItems items + 1
  | .object members => nestingMembers members + 1
  | .null | .bool _ | .number _ | .text _ => 0

def nestingItems : List Json → Nat
  | [] => 0
  | item :: items => max (nesting item) (nestingItems items)

def nestingMembers : List (String × Json) → Nat
  | [] => 0
  | (_, value) :: members => max (nesting value) (nestingMembers members)

end

theorem nestingItems_le {items : List Json} {n : Nat} :
    nestingItems items ≤ n ↔ ∀ item ∈ items, nesting item ≤ n := by
  induction items with
  | nil => simp [nestingItems]
  | cons item items ih => simp only [nestingItems, Nat.max_le, ih, List.mem_cons, forall_eq_or_imp]

theorem nestingMembers_le {members : List (String × Json)} {n : Nat} :
    nestingMembers members ≤ n ↔ ∀ m ∈ members, nesting m.2 ≤ n := by
  induction members with
  | nil => simp [nestingMembers]
  | cons m members ih =>
    obtain ⟨name, value⟩ := m
    simp only [nestingMembers, Nat.max_le, ih, List.mem_cons, forall_eq_or_imp]

theorem nesting_array {items : List Json} {n : Nat} :
    nesting (.array items) ≤ n + 1 ↔ ∀ item ∈ items, nesting item ≤ n := by
  rw [nesting, Nat.add_le_add_iff_right, nestingItems_le]

theorem nesting_object {members : List (String × Json)} {n : Nat} :
    nesting (.object members) ≤ n + 1 ↔ ∀ m ∈ members, nesting m.2 ≤ n := by
  rw [nesting, Nat.add_le_add_iff_right, nestingMembers_le]

structure Shallow (n : Nat) (v : Json) : Prop where
  exact : Exact v
  nesting_le : nesting v ≤ n

structure Listed (n : Nat) (names : List String) (members : Members) : Prop where
  names_sublist : (members.map (·.1)).Sublist names
  shallow : ∀ m ∈ members, Shallow n m.2

namespace Listed

variable {n : Nat} {name : String} {names : List String} {members : Members}

theorem nil : Listed n [] [] := ⟨List.Sublist.refl _, fun _ h => by cases h⟩

theorem cons {v : Json} (hv : Shallow n v) (h : Listed n names members) :
    Listed n (name :: names) ((name, v) :: members) := by
  refine ⟨h.names_sublist.cons_cons name, ?_⟩
  intro m hm
  rcases List.mem_cons.1 hm with rfl | hm
  · exact hv
  · exact h.shallow m hm

theorem memberOf {α : Type} {encode : α → Json} {value : Option α}
    (hvalue : ∀ a ∈ value, Shallow n (encode a)) (h : Listed n names members) :
    Listed n (name :: names) (Json.memberOf name encode value ++ members) := by
  cases value with
  | none => exact ⟨h.names_sublist.cons name, h.shallow⟩
  | some a => exact cons (hvalue a rfl) h

theorem memberOf_last {α : Type} {encode : α → Json} {value : Option α}
    (hvalue : ∀ a ∈ value, Shallow n (encode a)) :
    Listed n [name] (Json.memberOf name encode value) := by
  have h := @memberOf n name [] [] α encode value hvalue nil
  rwa [List.append_nil] at h

end Listed

namespace Shallow

variable {n : Nat}

theorem mono {k : Nat} {v : Json} (h : Shallow k v) (hk : k ≤ n) : Shallow n v :=
  ⟨h.exact, Nat.le_trans h.nesting_le hk⟩

theorem null : Shallow n .null := ⟨.null, Nat.zero_le n⟩

theorem text (s : String) : Shallow n (.text s) := ⟨.text s, Nat.zero_le n⟩

theorem int {i : Int} (hlow : -signedLimit ≤ i) (hhigh : i < unsignedLimit) :
    Shallow n (.ofInt i) := ⟨.int hlow hhigh, Nat.zero_le n⟩

theorem bool (b : Bool) : Shallow n (.bool b) := ⟨.bool b, Nat.zero_le n⟩

theorem array {α : Type} {encode : α → Json} {as : List α} (h : ∀ a ∈ as, Shallow n (encode a)) :
    Shallow (n + 1) (.array (as.map encode)) := by
  constructor
  · apply Exact.array
    intro item hi
    obtain ⟨a, ha, rfl⟩ := List.mem_map.1 hi
    exact (h a ha).exact
  · apply nesting_array.2
    intro item hi
    obtain ⟨a, ha, rfl⟩ := List.mem_map.1 hi
    exact (h a ha).nesting_le

theorem strings (strings : List String) : Shallow (n + 1) (.ofStrings strings) :=
  array fun s _ => text s

theorem object {names : List String} {members : Members} (h : Listed n names members)
    (hnames : names.Nodup) : Shallow (n + 1) (.object members) :=
  ⟨.object (hnames.sublist h.names_sublist) fun m hm => (h.shallow m hm).exact,
    nesting_object.2 fun m hm => (h.shallow m hm).nesting_le⟩

end Shallow

end SchemaQuery.Json
