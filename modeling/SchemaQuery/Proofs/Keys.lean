import Mathlib.Data.List.Find
import Mathlib.Data.List.Nodup

/-!
# Looking up by key

Entries with different keys are found whatever their order. A list of entries may be made of slots:
each has a key of its own, under which an entry stands or nothing.
-/

set_option autoImplicit false

namespace SchemaQuery

variable {α κ : Type} {key : α → κ}

def present (slots : List (κ × Option α)) : List α := slots.flatMap fun slot => slot.2.toList

def Keyed (key : α → κ) (slots : List (κ × Option α)) : Prop :=
  ∀ slot ∈ slots, ∀ a ∈ slot.2, key a = slot.1

theorem keys_present_sublist {slots : List (κ × Option α)} (h : Keyed key slots) :
    ((present slots).map key).Sublist (slots.map Prod.fst) := by
  induction slots with
  | nil => exact List.Sublist.refl _
  | cons slot slots ih =>
    have hrest := ih fun s hs => h s (List.mem_cons_of_mem _ hs)
    obtain ⟨k, entry⟩ := slot
    cases entry with
    | none => exact hrest.cons k
    | some a =>
      have ha : key a = k := h _ List.mem_cons_self a rfl
      subst ha
      exact hrest.cons_cons (key a)

theorem keys_present_nodup {slots : List (κ × Option α)} (h : Keyed key slots)
    (hd : (slots.map Prod.fst).Nodup) : ((present slots).map key).Nodup :=
  hd.sublist (keys_present_sublist h)

variable [BEq κ] [LawfulBEq κ]

/-- Where the keys of a list differ, its order does not matter to a search for a key. -/
theorem find?_key_of_perm {xs ys : List α} (hp : xs.Perm ys) (hd : (xs.map key).Nodup) (k : κ) :
    xs.find? (key · == k) = ys.find? (key · == k) := by
  apply List.find?_eq_find?_of_perm hp
  intro x hx y hy
  have hkey : key x = key y := (eq_of_beq hx.2).trans (eq_of_beq hy.2).symm
  exact List.inj_on_of_nodup_map hd hx.1 hy.1 hkey

theorem find?_present_of_notMem {slots : List (κ × Option α)} (h : Keyed key slots) {k : κ}
    (hk : k ∉ slots.map Prod.fst) : (present slots).find? (key · == k) = none := by
  apply List.find?_eq_none.2
  intro a ha hkey
  have hmem : key a ∈ slots.map Prod.fst :=
    (keys_present_sublist h).subset (List.mem_map_of_mem ha)
  rw [eq_of_beq hkey] at hmem
  exact hk hmem

theorem find?_present {slots : List (κ × Option α)} (h : Keyed key slots)
    (hd : (slots.map Prod.fst).Nodup) {k : κ} {entry : Option α} (hmem : (k, entry) ∈ slots) :
    (present slots).find? (key · == k) = entry := by
  induction slots with
  | nil => cases hmem
  | cons slot slots ih =>
    obtain ⟨k', entry'⟩ := slot
    have hrest : Keyed key slots := fun s hs => h s (List.mem_cons_of_mem _ hs)
    rw [List.map_cons, List.nodup_cons] at hd
    rcases List.mem_cons.1 hmem with heq | hin
    · cases heq
      cases entry with
      | none => exact find?_present_of_notMem hrest hd.1
      | some a =>
        have ha : key a = k := h _ List.mem_cons_self a rfl
        exact List.find?_cons_of_pos (by simp [ha])
    · have hne : k' ≠ k := by
        rintro rfl
        exact hd.1 (List.mem_map.2 ⟨_, hin, rfl⟩)
      cases entry' with
      | none => exact ih hrest hd.2 hin
      | some a =>
        have ha : key a = k' := h _ List.mem_cons_self a rfl
        rw [← ih hrest hd.2 hin]
        exact List.find?_cons_of_neg (by simp [ha, hne])

end SchemaQuery
