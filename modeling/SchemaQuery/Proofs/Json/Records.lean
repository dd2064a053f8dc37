import Mathlib.Data.List.Pairwise
import Mathlib.Data.List.Perm.Basic
import SchemaQuery.Proofs.Json.Lookup
import SchemaQuery.Proofs.Json.Reordered

/-!
# Records and the order of members

The members of an object are taken into a record one by one. If the names differ and taking in one
member commutes with taking in another, their order does not matter to the record.
-/

set_option autoImplicit false

namespace SchemaQuery.Json

theorem skip_toTree (v : Json) : (toTree v).skip = .ok () := by
  induction v using induct with
  | null | bool b | number n | text s => rfl
  | array items ih =>
    rw [toTree, Tree.skip]
    induction items with
    | nil => rfl
    | cons v items ihitems =>
      rw [treeItems, TreeItems.skip, ih v List.mem_cons_self]
      exact ihitems fun w hw => ih w (List.mem_cons_of_mem _ hw)
  | object members ih =>
    rw [toTree, Tree.skip]
    induction members with
    | nil => rfl
    | cons m members ihmembers =>
      obtain ⟨name, v⟩ := m
      rw [treeMembers, TreeMembers.skip, ih (name, v) List.mem_cons_self]
      exact ihmembers fun n hn => ih n (List.mem_cons_of_mem _ hn)

def Lifts {σ : Type} (R : σ → σ → Prop) (f g : σ → σ) : Prop := ∀ r s, R r s → R (f r) (g s)

theorem lifts_eq {α σ : Type} (put : α → σ → σ) (a b : α) (h : a = b) :
    Lifts Eq (put a) (put b) := by
  intro r s hrs
  rw [h, hrs]

namespace Slot

variable {α β σ τ : Type}

def Commutes (s t : Slot σ) : Prop :=
  ∀ inner x y f g, s.take inner x = .ok f → t.take inner y = .ok g → ∀ r, g (f r) = f (g r)

theorem Commutes.symm {s t : Slot σ} (h : Commutes s t) : Commutes t s :=
  fun inner x y f g hf hg r => (h inner y x g f hg hf r).symm

instance : Std.Symm (Commutes (σ := σ)) where
  symm _ _ := Commutes.symm

theorem commutes_map {name name' : String} {required required' : Bool} {decode : Decoder α}
    {decode' : Decoder β} {put : α → σ → σ} {put' : β → σ → σ}
    (h : ∀ a b r, put' b (put a r) = put a (put' b r)) :
    Commutes ⟨name, required, decode.map put⟩ ⟨name', required', decode'.map put'⟩ := by
  intro inner x y f g hf hg r
  obtain ⟨a, -, rfl⟩ := map_eq_ok_iff.1 (hf : (decode inner x).map put = .ok f)
  obtain ⟨b, -, rfl⟩ := map_eq_ok_iff.1 (hg : (decode' inner y).map put' = .ok g)
  exact h a b r

theorem Commutes.within {update : (σ → σ) → τ → τ} {s t : Slot σ} (h : Commutes s t)
    (hupdate : ∀ f g, (∀ r, g (f r) = f (g r)) →
      ∀ r, update g (update f r) = update f (update g r)) :
    Commutes (s.within update) (t.within update) := by
  intro inner x y f g hf hg
  obtain ⟨f', hf', rfl⟩ := map_eq_ok_iff.1 (hf : (s.take inner x).map update = .ok f)
  obtain ⟨g', hg', rfl⟩ := map_eq_ok_iff.1 (hg : (t.take inner y).map update = .ok g)
  exact hupdate f' g' (h inner x y f' g' hf' hg')

variable {slots : List (Slot σ)} {inner : Scope}

def takeMember (slots : List (Slot σ)) (inner : Scope) (r : σ) (m : String × Json) :
    Except Fault σ :=
  match slots.find? (·.name == m.1) with
  | none => .ok r
  | some slot => (slot.take inner (toTree m.2)).map fun set => set r

variable {slot : Slot σ} {m n : String × Json} {name : String}

theorem name_of_find? (h : slots.find? (·.name == name) = some slot) : slot.name = name := by
  have hname := List.find?_some h
  exact eq_of_beq hname

theorem takeMember_unknown (h : slots.find? (·.name == m.1) = none) (r : σ) :
    takeMember slots inner r m = pure r := by
  rw [takeMember, h]
  rfl

theorem takeMember_known (h : slots.find? (·.name == m.1) = some slot) (r : σ) :
    takeMember slots inner r m = (slot.take inner (toTree m.2)).map fun set => set r := by
  rw [takeMember, h]

def complete (slots : List (Slot σ)) (names : List String) : Bool :=
  slots.all fun s => !s.required || names.contains s.name

theorem complete_congr {names names' : List String}
    (h : ∀ s ∈ slots, s.name ∈ names ↔ s.name ∈ names') :
    complete slots names = complete slots names' := by
  rw [Bool.eq_iff_iff]
  simp only [complete, List.all_eq_true, Bool.or_eq_true, List.contains_iff_mem]
  exact forall₂_congr fun s hs => or_congr_right (h s hs)

/-- Members of different names are taken in one by one, and then it is seen whether any is
missing. -/
theorem fromMembers_eq {a : Members} {seen : List String}
    (hnames : (seen ++ a.map Prod.fst).Nodup) (r : σ) :
    fromMembers slots inner (treeMembers a) seen r =
      a.foldlM (takeMember slots inner) r >>= fun s =>
        if complete slots (seen ++ a.map Prod.fst) then .ok s else .error .mismatched := by
  induction a generalizing seen r with
  | nil =>
    rw [List.map_nil, List.append_nil]
    rfl
  | cons m a ih =>
    obtain ⟨name, v⟩ := m
    rw [treeMembers, fromMembers, List.foldlM_cons, bind_assoc, takeMember]
    cases hslot : slots.find? (·.name == name) with
    | none =>
      have hrest : (seen ++ a.map Prod.fst).Nodup :=
        hnames.sublist ((List.sublist_cons_self _ _).append_left seen)
      have hunknown : ∀ s ∈ slots, s.name ≠ name := by
        simpa using hslot
      have hcomplete : complete slots (seen ++ a.map Prod.fst) =
          complete slots (seen ++ List.map Prod.fst ((name, v) :: a)) := by
        refine complete_congr fun s hs => ?_
        simp [hunknown s hs]
      simp only [skip_toTree, ih hrest, hcomplete]
      rfl
    | some slot =>
      have hfresh : seen.contains name = false := by
        rw [Bool.eq_false_iff]
        intro hmem
        exact (List.nodup_append.1 hnames).2.2 _ (List.contains_iff_mem.1 hmem) _
          List.mem_cons_self rfl
      have hrest : (name :: seen ++ a.map Prod.fst).Nodup := List.nodup_middle.1 hnames
      have hcomplete : complete slots (name :: seen ++ a.map Prod.fst) =
          complete slots (seen ++ List.map Prod.fst ((name, v) :: a)) :=
        complete_congr fun s _ => List.perm_middle.symm.mem_iff
      simp only [hfresh, ih hrest, hcomplete]
      cases slot.take inner (toTree v) <;> rfl

/-- Of two members of different names any may be taken in first. -/
theorem alike_takeMember_swap (hcommute : slots.Pairwise Commutes) (hne : m.1 ≠ n.1) (r : σ) :
    Alike Eq (takeMember slots inner r m >>= fun s => takeMember slots inner s n)
      (takeMember slots inner r n >>= fun s => takeMember slots inner s m) := by
  cases hm : slots.find? (·.name == m.1) with
  | none =>
    simp only [takeMember_unknown hm, pure_bind, bind_pure]
    exact Alike.refl (fun _ => rfl) _
  | some s =>
    cases hn : slots.find? (·.name == n.1) with
    | none =>
      simp only [takeMember_unknown hn, pure_bind, bind_pure]
      exact Alike.refl (fun _ => rfl) _
    | some t =>
      have hst : s ≠ t := by
        rintro rfl
        exact hne ((name_of_find? hm).symm.trans (name_of_find? hn))
      have hpair : Commutes s t :=
        hcommute.forall (List.mem_of_find?_eq_some hm) (List.mem_of_find?_eq_some hn) hst
      simp only [takeMember_known hm, takeMember_known hn]
      cases hs : s.take inner (toTree m.2) with
      | error e =>
        cases ht : t.take inner (toTree n.2) with
        | error e' => exact .error e e'
        | ok g => exact .error e e
      | ok f =>
        cases ht : t.take inner (toTree n.2) with
        | error e' => exact .error e' e'
        | ok g => exact .ok (hpair inner _ _ f g hs ht r)

theorem alike_foldlM_of_perm (hcommute : slots.Pairwise Commutes) {a b : Members} (h : a.Perm b)
    (hnames : (a.map Prod.fst).Nodup) (r : σ) :
    Alike Eq (a.foldlM (takeMember slots inner) r) (b.foldlM (takeMember slots inner) r) := by
  induction h generalizing r with
  | nil => exact .ok rfl
  | cons m _ ih =>
    rw [List.foldlM_cons, List.foldlM_cons]
    refine (Alike.refl (fun _ => rfl) _).bind fun s s' hs => ?_
    rw [← hs]
    exact ih (List.nodup_cons.1 hnames).2 s
  | swap m n a =>
    have hne : n.1 ≠ m.1 := by
      intro heq
      exact (List.nodup_cons.1 hnames).1 (heq ▸ List.mem_cons_self)
    simp only [List.foldlM_cons, ← bind_assoc]
    refine (alike_takeMember_swap hcommute hne r).bind fun s s' hs => ?_
    rw [hs]
    exact Alike.refl (fun _ => rfl) _
  | trans hab hbc ihab ihbc =>
    exact (ihab hnames r).trans_eq (ihbc ((hab.map Prod.fst).nodup_iff.1 hnames) r)

variable {π : Type} {places : Places π} {p : π} {R : σ → σ → Prop}

theorem alike_takeMember
    (hslots : ∀ slot ∈ slots, Respects places (places.member p slot.name) slot.take (Lifts R))
    {v w : Json} (h : Reordered places (places.member p name) v w) {r s : σ}
    (hrs : R r s) :
    Alike R (takeMember slots inner r (name, v)) (takeMember slots inner s (name, w)) := by
  cases hslot : slots.find? (·.name == name) with
  | none =>
    rw [takeMember_unknown hslot, takeMember_unknown hslot]
    exact .ok hrs
  | some slot =>
    rw [takeMember_known hslot, takeMember_known hslot]
    have htake := hslots slot (List.mem_of_find?_eq_some hslot) inner v w (name_of_find? hslot ▸ h)
    exact htake.map fun f g hfg => hfg r s hrs

theorem alike_foldlM_of_forall₂
    (hslots : ∀ slot ∈ slots, Respects places (places.member p slot.name) slot.take (Lifts R))
    {a c : Members}
    (h : List.Forall₂ (fun m n => n.1 = m.1 ∧ Reordered places (places.member p m.1) m.2 n.2) a c)
    {r s : σ} (hrs : R r s) :
    Alike R (a.foldlM (takeMember slots inner) r) (c.foldlM (takeMember slots inner) s) := by
  induction h generalizing r s with
  | nil => exact .ok hrs
  | @cons m n _ _ hmn _ ih =>
    obtain ⟨name, v⟩ := m
    obtain ⟨name', w⟩ := n
    obtain ⟨hname, hvw⟩ := hmn
    cases hname
    rw [List.foldlM_cons, List.foldlM_cons]
    exact (alike_takeMember hslots hvw hrs).bind fun r' s' => ih

end Slot

variable {α σ π : Type} {places : Places π} {p : π}

/-- The members of the second object may be brought into the order of the first. -/
theorem exists_sorted {a b : Members} (hperm : (a.map Prod.fst).Perm (b.map Prod.fst))
    (h : ∀ name v w, (name, v) ∈ a → (name, w) ∈ b →
      Reordered places (places.member p name) v w) :
    ∃ c, List.Forall₂ (fun m n => n.1 = m.1 ∧ Reordered places (places.member p m.1) m.2 n.2) a c ∧
      c.Perm b := by
  have hb : List.Forall₂ (fun name (n : String × Json) => n.1 = name) (b.map Prod.fst) b := by
    rw [List.forall₂_map_left_iff, List.forall₂_same]
    exact fun _ _ => rfl
  obtain ⟨c, hac, hcb⟩ := List.perm_comp_forall₂ hperm hb
  rw [List.forall₂_map_left_iff] at hac
  refine ⟨c, ?_, hcb⟩
  have hmem : ∀ n ∈ c, n ∈ b := fun n hn => hcb.mem_iff.1 hn
  clear hcb hb hperm
  induction hac with
  | nil => exact .nil
  | @cons m n a c hmn _ ih =>
    obtain ⟨name, v⟩ := m
    obtain ⟨name', w⟩ := n
    cases hmn
    refine .cons ⟨rfl, h name v w List.mem_cons_self (hmem _ List.mem_cons_self)⟩ (ih ?_ ?_)
    · exact fun name v w hv hw => h name v w (List.mem_cons_of_mem _ hv) hw
    · exact fun n hn => hmem n (List.mem_cons_of_mem _ hn)

variable {slots : List (Slot σ)} {R : σ → σ → Prop}

/-- Objects that differ in the order of members are taken into alike records. -/
theorem alike_fromMembers
    (hslots : ∀ slot ∈ slots, Respects places (places.member p slot.name) slot.take (Lifts R))
    (hcommute : slots.Pairwise Slot.Commutes) {inner : Scope} {a b : Members}
    (hnames : (a.map Prod.fst).Nodup) (hperm : (a.map Prod.fst).Perm (b.map Prod.fst))
    (h : ∀ name v w, (name, v) ∈ a → (name, w) ∈ b →
      Reordered places (places.member p name) v w) {r s : σ} (hrs : R r s) :
    Alike R (Slot.fromMembers slots inner (treeMembers a) [] r)
      (Slot.fromMembers slots inner (treeMembers b) [] s) := by
  obtain ⟨c, hac, hcb⟩ := exists_sorted hperm h
  have hb : (b.map Prod.fst).Nodup := hperm.nodup_iff.1 hnames
  have hc : (c.map Prod.fst).Nodup := (hcb.map Prod.fst).nodup_iff.2 hb
  have hfold : Alike R (a.foldlM (Slot.takeMember slots inner) r)
      (b.foldlM (Slot.takeMember slots inner) s) :=
    (Slot.alike_foldlM_of_forall₂ hslots hac hrs).trans_eq
      (Slot.alike_foldlM_of_perm hcommute hcb hc s)
  have hcomplete : Slot.complete slots ([] ++ a.map Prod.fst) =
      Slot.complete slots ([] ++ b.map Prod.fst) :=
    Slot.complete_congr fun slot _ => hperm.mem_iff
  rw [Slot.fromMembers_eq hnames, Slot.fromMembers_eq hb, hcomplete]
  refine hfold.bind fun r' s' hrs' => ?_
  cases Slot.complete slots ([] ++ b.map Prod.fst) with
  | false => exact .error _ _
  | true => exact .ok hrs'

inductive Fits (places : Places π) (p : π) (R : σ → σ → Prop) : Nat → List (Slot σ) → Prop
  | nil (i : Nat) : Fits places p R i []
  | cons {i : Nat} {slot : Slot σ} {slots : List (Slot σ)} :
      Respects places (places.member p slot.name) slot.take (Lifts R) →
      Respects places (places.item p i) slot.take (Lifts R) →
      Fits places p R (i + 1) slots → Fits places p R i (slot :: slots)

theorem Fits.members {i : Nat} (h : Fits places p R i slots) :
    ∀ slot ∈ slots, Respects places (places.member p slot.name) slot.take (Lifts R) := by
  induction h with
  | nil => exact List.forall_mem_nil _
  | cons hmember _ _ ih => exact List.forall_mem_cons.2 ⟨hmember, ih⟩

theorem alike_fromItems {i : Nat} (hfits : Fits places p R i slots) {inner : Scope}
    {as bs : List Json} (h : Aligned (fun i => Reordered places (places.item p i)) i as bs)
    {r s : σ} (hrs : R r s) : Alike R (Slot.fromItems inner slots (treeItems as) r)
      (Slot.fromItems inner slots (treeItems bs) s) := by
  induction hfits generalizing as bs r s with
  | nil =>
    cases h with
    | nil => exact .ok hrs
    | cons => exact .error _ _
  | @cons i slot slots _ hitem _ ih =>
    cases h with
    | nil =>
      show Alike R
        (if (slot :: slots).all fun s => !s.required then .ok r else .error Fault.mismatched)
        (if (slot :: slots).all fun s => !s.required then .ok s else .error Fault.mismatched)
      cases (slot :: slots).all fun s => !s.required with
      | false => exact .error _ _
      | true => exact .ok hrs
    | cons hvw hrest =>
      rw [treeItems, treeItems, Slot.fromItems, Slot.fromItems]
      exact (hitem inner _ _ hvw).bind fun f g hfg => ih hrest (hfg r s hrs)

theorem respects_record {blank : σ} (hR : ∀ r, R r r) (hfits : Fits places p R 0 slots)
    (hcommute : slots.Pairwise Slot.Commutes) :
    Respects places p (.record slots blank) R := by
  intro scope v w h
  cases h with
  | same => exact Alike.refl hR _
  | array hfree hlength hitems =>
    rw [toTree, toTree]
    refine (Alike.refl (fun _ => rfl) scope.enter).bind fun inner _ hinner => ?_
    rw [← hinner]
    refine alike_fromItems hfits (aligned_of_getElem? hlength fun j v w hv hw => ?_) (hR blank)
    rw [Nat.zero_add]
    exact hitems j v w hv hw
  | object hfree hnames hperm hmembers =>
    rw [toTree, toTree]
    refine (Alike.refl (fun _ => rfl) scope.enter).bind fun inner _ hinner => ?_
    rw [← hinner]
    exact alike_fromMembers hfits.members hcommute hnames hperm hmembers (hR blank)

/-- A member that is put into its part of the record. -/
theorem Fits.put {put : α → σ → σ} {decode : Decoder α} {S : α → α → Prop} {name : String}
    {required : Bool} {i : Nat} (hput : ∀ a b, S a b → Lifts R (put a) (put b))
    (hmember : Respects places (places.member p name) decode S)
    (hitem : Respects places (places.item p i) decode S) (h : Fits places p R (i + 1) slots) :
    Fits places p R i (⟨name, required, decode.map put⟩ :: slots) :=
  .cons (hmember.map hput) (hitem.map hput) h

/-- A member that is decoded to the same at both of its places. -/
theorem Fits.same {put : α → σ → σ} {decode : Decoder α} {name : String} {required : Bool} {i : Nat}
    (hmember : Respects places (places.member p name) decode Eq)
    (hitem : Respects places (places.item p i) decode Eq) (h : Fits places p Eq (i + 1) slots) :
    Fits places p Eq i (⟨name, required, decode.map put⟩ :: slots) :=
  .put (lifts_eq put) hmember hitem h

/-- A member that is decoded to the same at every place. -/
theorem Fits.plain {put : α → σ → σ} {decode : Decoder α} {name : String} {required : Bool}
    {i : Nat} (hdecode : ∀ q, Respects places q decode Eq) (h : Fits places p Eq (i + 1) slots) :
    Fits places p Eq i (⟨name, required, decode.map put⟩ :: slots) :=
  .same (hdecode _) (hdecode _) h

end SchemaQuery.Json
