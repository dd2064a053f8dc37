import SchemaQuery.Json.Decoder

/-!
# Members by name

A record that is decoded from an object holds, in each of its parts, what the member of that name
was decoded to. Other members have no influence on the part, and neither has the order in which they
come.
-/

set_option autoImplicit false

namespace SchemaQuery.Json

namespace TreeMembers

def get? : TreeMembers → String → Option Tree
  | .member key value rest, name => if key = some name then some value else rest.get? name
  | .close, _ | .stop _, _ | .nameless _ _, _ => none

def given? (members : TreeMembers) (name : String) : Option Tree :=
  match members.get? name with
  | some .null => none
  | entry => entry

end TreeMembers

theorem get?_treeMembers (members : Members) (name : String) :
    (treeMembers members).get? name = (members.get? name).map toTree := by
  induction members with
  | nil => rfl
  | cons m members ih =>
    obtain ⟨key, value⟩ := m
    rw [treeMembers, TreeMembers.get?, ih, Members.get?, Members.get?]
    by_cases h : key = name
    · simp [h]
    · simp [h]

theorem given?_treeMembers_congr {a b : Members} {name : String}
    (h : b.get? name = a.get? name) :
    (treeMembers b).given? name = (treeMembers a).given? name := by
  rw [TreeMembers.given?, get?_treeMembers, h, ← get?_treeMembers, ← TreeMembers.given?]

namespace Slot

variable {σ α β : Type}

def Keeps (view : σ → β) (slot : Slot σ) : Prop :=
  ∀ inner tree set, slot.take inner tree = .ok set → ∀ r, view (set r) = view r

theorem map_eq_ok_iff {ε : Type} {f : α → β} {x : Except ε α} {b : β} :
    x.map f = .ok b ↔ ∃ a, x = .ok a ∧ f a = b := by
  cases x <;> simp [Except.map]

/-- An optional value is absent if it is null and nothing else. -/
theorem of_optional {decode : Decoder α} {inner : Scope} {tree : Tree} {entry : Option α}
    (h : Decoder.optional decode inner tree = .ok entry) : tree = .null ∧ entry = none ∨
      tree ≠ .null ∧ ∃ a, decode inner tree = .ok a ∧ entry = some a := by
  unfold Decoder.optional at h
  split at h
  · cases h
    exact Or.inl ⟨rfl, rfl⟩
  · cases h
  · rename_i hnull _
    obtain ⟨a, ha, rfl⟩ := map_eq_ok_iff.1 h
    exact Or.inr ⟨hnull, a, ha, rfl⟩

theorem keeps_map {view : σ → β} {name : String} {required : Bool} {decode : Decoder α}
    {put : α → σ → σ} (h : ∀ a r, view (put a r) = view r) :
    (⟨name, required, decode.map put⟩ : Slot σ).Keeps view := by
  intro inner tree set htake r
  obtain ⟨a, -, rfl⟩ := map_eq_ok_iff.1 (htake : (decode inner tree).map put = .ok set)
  exact h a r

structure Sets (slots : List (Slot σ)) (name : String) (decode : Decoder α) (view : σ → α) :
    Prop where
  found : ∃ required put, slots.find? (·.name == name) = some ⟨name, required, decode.map put⟩ ∧
    ∀ a r, view (put a r) = a
  others : ∀ slot ∈ slots, slot.name ≠ name → slot.Keeps view

variable {slots : List (Slot σ)} {name : String} {decode : Decoder α} {view : σ → α}
  {inner : Scope} {r r' : σ}

/-- The part is what the member of the name is decoded to, and is left alone if there is none. -/
theorem Sets.view_eq (hsets : Sets slots name decode view) {members : TreeMembers}
    {seen : List String} (h : fromMembers slots inner members seen r = .ok r') :
    members.get? name = none ∧ view r' = view r ∨
      ∃ tree, members.get? name = some tree ∧ name ∉ seen ∧
        decode inner tree = .ok (view r') := by
  obtain ⟨required, put, hfound, hput⟩ := hsets.found
  fun_induction fromMembers slots inner members seen r with
  | case1 seen r hall =>
    cases h
    exact Or.inl ⟨rfl, rfl⟩
  | case2 | case3 | case4 | case5 | case7 => cases h
  | case6 key value rest seen r hnone ih =>
    have hne : key ≠ name := by
      rintro rfl
      cases hnone.symm.trans hfound
    have hrest : fromMembers slots inner rest seen r = .ok r' := by
      cases hskip : value.skip with
      | error fault =>
        rw [hskip] at h
        cases h
      | ok u =>
        rw [hskip] at h
        exact h
    rw [TreeMembers.get?, if_neg (by simpa using hne)]
    exact ih hrest
  | case8 key value rest seen r slot hslot hseen ih =>
    cases htake : slot.take inner value with
    | error fault =>
      rw [htake] at h
      cases h
    | ok set =>
      rw [htake] at h
      by_cases hkey : key = name
      · subst hkey
        cases hslot.symm.trans hfound
        obtain ⟨a, ha, rfl⟩ := map_eq_ok_iff.1 htake
        rw [TreeMembers.get?, if_pos rfl]
        -- The name is seen now, so that the rest does not hold it again.
        rcases ih _ h with ⟨-, hview⟩ | ⟨-, -, hagain, -⟩
        · have hfresh : key ∉ seen := by simpa using hseen
          exact Or.inr ⟨value, rfl, hfresh, by rw [hview, hput]; exact ha⟩
        · exact absurd List.mem_cons_self hagain
      · have hname : slot.name ≠ name := by
          have hfoundName := List.find?_some hslot
          rwa [eq_of_beq hfoundName]
        have hkept : view (set r) = view r :=
          hsets.others slot (List.mem_of_find?_eq_some hslot) hname inner value set htake r
        rw [TreeMembers.get?, if_neg (by simpa using hkey), ← hkept]
        rcases ih set h with hnone | ⟨tree, hget, hfresh, hd⟩
        · exact Or.inl hnone
        · exact Or.inr ⟨tree, hget, fun hmem => hfresh (List.mem_cons_of_mem _ hmem), hd⟩

/-- The part is there if the member is, and null is no member. -/
theorem Sets.rel_given? {decode : Decoder α} {view : σ → Option α}
    (hsets : Sets slots name (.optional decode) view) {members : TreeMembers}
    (h : fromMembers slots inner members [] r = .ok r') (hblank : view r = none) :
    Option.Rel (fun tree a => decode inner tree = .ok a) (members.given? name) (view r') := by
  rcases hsets.view_eq h with ⟨hget, hview⟩ | ⟨tree, hget, -, hd⟩
  · rw [TreeMembers.given?, hget, hview, hblank]
    exact .none
  · rcases of_optional hd with ⟨rfl, hview⟩ | ⟨hne, a, ha, hview⟩
    · rw [TreeMembers.given?, hget, hview]
      exact .none
    · have hgiven : members.given? name = some tree := by
        unfold TreeMembers.given?
        rw [hget]
        split
        · rename_i hnull
          exact absurd (Option.some.inj hnull) hne
        · rfl
      rw [hgiven, hview]
      exact .some ha

/-- A record is decoded alike if one of the members is replaced by one that is decoded alike. -/
theorem fromMembers_congr {slot : Slot σ} {v w : Json}
    (hslot : slots.find? (·.name == name) = some slot)
    (htake : slot.take inner (toTree w) = slot.take inner (toTree v))
    (before after : Members) (seen : List String) (r : σ) :
    fromMembers slots inner (treeMembers (before ++ (name, w) :: after)) seen r =
      fromMembers slots inner (treeMembers (before ++ (name, v) :: after)) seen r := by
  induction before generalizing seen r with
  | nil =>
    show fromMembers slots inner (treeMembers ((name, w) :: after)) seen r =
      fromMembers slots inner (treeMembers ((name, v) :: after)) seen r
    rw [treeMembers, treeMembers, fromMembers, fromMembers, hslot]
    simp only [htake]
  | cons m before ih =>
    obtain ⟨key, value⟩ := m
    rw [List.cons_append, List.cons_append, treeMembers, treeMembers, fromMembers,
      fromMembers]
    simp only [ih]

end Slot

end SchemaQuery.Json
