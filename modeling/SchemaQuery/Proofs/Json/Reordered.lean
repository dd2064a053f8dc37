import Mathlib.Data.List.Forall2
import SchemaQuery.Proofs.Json.Decoding
import SchemaQuery.Proofs.Keys

/-!
# Values that differ in the order of members

Two values may differ in nothing but the order in which objects have their members. Some places may
be exempt: what stands there is the same in both values. A decoder respects such a difference if it
gives alike results, that is, it fails on both values or makes related things of them.
-/

set_option autoImplicit false

namespace SchemaQuery

inductive Alike {ε α β : Type} (R : α → β → Prop) : Except ε α → Except ε β → Prop
  | ok {a : α} {b : β} : R a b → Alike R (.ok a) (.ok b)
  | error (e e' : ε) : Alike R (.error e) (.error e')

namespace Alike

variable {ε α β γ δ : Type} {R : α → β → Prop} {x : Except ε α} {y : Except ε β}

theorem refl {R : α → α → Prop} (h : ∀ a, R a a) (x : Except ε α) : Alike R x x := by
  cases x with
  | error e => exact .error e e
  | ok a => exact .ok (h a)

theorem mono {S : α → β → Prop} (h : Alike R x y) (hRS : ∀ a b, R a b → S a b) : Alike S x y := by
  cases h with
  | ok hR => exact .ok (hRS _ _ hR)
  | error e e' => exact .error e e'

theorem bind {S : γ → δ → Prop} {f : α → Except ε γ} {g : β → Except ε δ} (h : Alike R x y)
    (hfg : ∀ a b, R a b → Alike S (f a) (g b)) : Alike S (x >>= f) (y >>= g) := by
  cases h with
  | ok hR => exact hfg _ _ hR
  | error e e' => exact .error e e'

theorem map {S : γ → δ → Prop} {f : α → γ} {g : β → δ} (h : Alike R x y)
    (hfg : ∀ a b, R a b → S (f a) (g b)) : Alike S (x.map f) (y.map g) := by
  cases h with
  | ok hR => exact .ok (hfg _ _ hR)
  | error e e' => exact .error e e'

theorem trans_eq {z : Except ε β} (h : Alike R x y) (hyz : Alike Eq y z) : Alike R x z := by
  cases h with
  | ok hR =>
    cases hyz with
    | ok heq => exact .ok (heq ▸ hR)
  | error e e' =>
    cases hyz with
    | error _ e'' => exact .error e e''

theorem ok_right {a : α} (h : Alike R (.ok a) y) : ∃ b, y = .ok b ∧ R a b := by
  cases h with
  | ok hR => exact ⟨_, rfl, hR⟩

/-- The second fails as the first does. -/
theorem error_right {e : ε} (h : Alike R (.error e) y) : ∃ e', y = .error e' := by
  cases h with
  | error _ e' => exact ⟨e', rfl⟩

theorem error_left {e : ε} (h : Alike R x (.error e)) : ∃ e', x = .error e' := by
  cases h with
  | error e' _ => exact ⟨e', rfl⟩

theorem toOption (h : Alike R x y) : Option.Rel R x.toOption y.toOption := by
  cases h with
  | ok hR => exact .some hR
  | error e e' => exact .none

end Alike

section Rows

variable {α β : Type} {R : Nat → α → β → Prop}

inductive Aligned (R : Nat → α → β → Prop) : Nat → List α → List β → Prop
  | nil (i : Nat) : Aligned R i [] []
  | cons {i : Nat} {a : α} {b : β} {as : List α} {bs : List β} :
      R i a b → Aligned R (i + 1) as bs → Aligned R i (a :: as) (b :: bs)

theorem aligned_of_getElem? {i : Nat} {as : List α} {bs : List β} (hlength : as.length = bs.length)
    (h : ∀ j a b, as[j]? = some a → bs[j]? = some b → R (i + j) a b) : Aligned R i as bs := by
  induction as generalizing i bs with
  | nil =>
    rw [List.eq_nil_of_length_eq_zero hlength.symm]
    exact .nil i
  | cons a as ih =>
    cases bs with
    | nil => cases hlength
    | cons b bs =>
      refine .cons (h 0 a b rfl rfl) (ih (Nat.succ.inj hlength) fun j x y hx hy => ?_)
      rw [Nat.add_right_comm]
      exact h (j + 1) x y hx hy

theorem Aligned.length_eq {i : Nat} {as : List α} {bs : List β} (h : Aligned R i as bs) :
    as.length = bs.length := by
  induction h with
  | nil => rfl
  | cons _ _ ih => rw [List.length_cons, List.length_cons, ih]

theorem Aligned.getElem? {i : Nat} {as : List α} {bs : List β} (h : Aligned R i as bs) {j : Nat}
    {a : α} {b : β} (ha : as[j]? = some a) (hb : bs[j]? = some b) : R (i + j) a b := by
  induction h generalizing j with
  | nil => cases ha
  | cons hR _ ih =>
    cases j with
    | zero =>
      cases ha
      cases hb
      exact hR
    | succ j =>
      rw [← Nat.add_assoc, Nat.add_right_comm]
      exact ih ha hb

theorem Aligned.eq {i : Nat} {as bs : List α} (h : Aligned (fun _ => Eq) i as bs) : as = bs := by
  induction h with
  | nil => rfl
  | cons hab _ ih => rw [hab, ih]

theorem exists_mem_of_forall₂ {S : α → β → Prop} {as : List α} {bs : List β}
    (h : List.Forall₂ S as bs) {b : β} (hb : b ∈ bs) : ∃ a ∈ as, S a b := by
  induction h with
  | nil => cases hb
  | cons hS _ ih =>
    rcases List.mem_cons.1 hb with rfl | hb
    · exact ⟨_, List.mem_cons_self, hS⟩
    · obtain ⟨a, ha, hab⟩ := ih hb
      exact ⟨a, List.mem_cons_of_mem _ ha, hab⟩

end Rows

namespace Json

structure Places (π : Type) where
  member : π → String → π
  item : π → Nat → π
  fixed : π → Bool

variable {π : Type}

/-- The values differ at most in the order of members, and nowhere in what stands at a fixed
place. -/
inductive Reordered (places : Places π) : π → Json → Json → Prop
  | same (p : π) (v : Json) : Reordered places p v v
  | array {p : π} {as bs : List Json} : places.fixed p = false → as.length = bs.length →
      (∀ i v w, as[i]? = some v → bs[i]? = some w → Reordered places (places.item p i) v w) →
      Reordered places p (.array as) (.array bs)
  | object {p : π} {a b : Members} : places.fixed p = false → (a.map Prod.fst).Nodup →
      (a.map Prod.fst).Perm (b.map Prod.fst) →
      (∀ name v w, (name, v) ∈ a → (name, w) ∈ b →
        Reordered places (places.member p name) v w) →
      Reordered places p (.object a) (.object b)

variable {places : Places π} {p : π}

theorem Reordered.eq_of_fixed {v w : Json} (h : Reordered places p v w)
    (hp : places.fixed p = true) : w = v := by
  cases h with
  | same => rfl
  | array hfree => cases hp.symm.trans hfree
  | object hfree => cases hp.symm.trans hfree

theorem value_eq_of_mem {α : Type} {members : List (String × α)}
    (hnames : (members.map Prod.fst).Nodup) {name : String} {v w : α} (hv : (name, v) ∈ members)
    (hw : (name, w) ∈ members) : v = w :=
  congrArg Prod.snd (List.inj_on_of_nodup_map hnames hv hw rfl)

/-- Members may be changed one by one and then be put in another order. -/
theorem Reordered.of_perm {a b c : Members} (hp : places.fixed p = false)
    (hnames : (a.map Prod.fst).Nodup)
    (h : List.Forall₂ (fun m n => n.1 = m.1 ∧ Reordered places (places.member p m.1) m.2 n.2) a c)
    (hperm : c.Perm b) : Reordered places p (.object a) (.object b) := by
  have hsame : c.map Prod.fst = a.map Prod.fst := by
    rw [← List.forall₂_eq_eq_eq, List.forall₂_map_left_iff, List.forall₂_map_right_iff]
    exact h.flip.imp fun m n hmn => hmn.1
  refine .object hp hnames (hsame ▸ hperm.map Prod.fst) fun name v w hv hw => ?_
  obtain ⟨⟨name', v'⟩, hv', hname, hvw⟩ := exists_mem_of_forall₂ h (hperm.mem_iff.2 hw)
  cases hname
  rw [value_eq_of_mem hnames hv hv']
  exact hvw

theorem mem_of_get? {members : Members} {name : String} {v : Json}
    (h : members.get? name = some v) : (name, v) ∈ members := by
  obtain ⟨⟨key, w⟩, hfind, rfl⟩ := Option.map_eq_some_iff.1 h
  have hkey := List.find?_some hfind
  rw [← eq_of_beq hkey]
  exact List.mem_of_find?_eq_some hfind

theorem mem_names_iff_get? {members : Members} {name : String} :
    name ∈ members.map Prod.fst ↔ (members.get? name).isSome = true := by
  rw [Members.get?, Option.isSome_map, List.find?_isSome, List.mem_map]
  simp only [beq_iff_eq]

/-- What stands under a name in one object and in the other. -/
theorem rel_get? {a b : Members} (hperm : (a.map Prod.fst).Perm (b.map Prod.fst))
    (h : ∀ name v w, (name, v) ∈ a → (name, w) ∈ b →
      Reordered places (places.member p name) v w) (name : String) :
    Option.Rel (Reordered places (places.member p name)) (a.get? name) (b.get? name) := by
  have hsome : (a.get? name).isSome = true ↔ (b.get? name).isSome = true := by
    rw [← mem_names_iff_get?, ← mem_names_iff_get?]
    exact hperm.mem_iff
  cases ha : a.get? name with
  | none =>
    cases hb : b.get? name with
    | none => exact .none
    | some w => simp [ha, hb] at hsome
  | some v =>
    cases hb : b.get? name with
    | none => simp [ha, hb] at hsome
    | some w => exact .some (h name v w (mem_of_get? ha) (mem_of_get? hb))

def Respects {α : Type} (places : Places π) (p : π) (decode : Decoder α) (R : α → α → Prop) :
    Prop :=
  ∀ scope v w, Reordered places p v w → Alike R (decode scope (toTree v)) (decode scope (toTree w))

variable {α β : Type} {decode : Decoder α} {R : α → α → Prop}

theorem respects_fixed (hp : places.fixed p = true) (decode : Decoder α) :
    Respects places p decode Eq := by
  intro scope v w h
  rw [h.eq_of_fixed hp]
  exact Alike.refl (fun _ => rfl) _

/-- A decoder that takes neither arrays nor objects respects any order. -/
theorem respects_scalar (harray : ∀ scope items, ∃ e, decode scope (.array items) = .error e)
    (hobject : ∀ scope members, ∃ e, decode scope (.object members) = .error e) (p : π) :
    Respects places p decode Eq := by
  intro scope v w h
  cases h with
  | same => exact Alike.refl (fun _ => rfl) _
  | @array _ as bs =>
    obtain ⟨e, he⟩ := harray scope (treeItems as)
    obtain ⟨e', he'⟩ := harray scope (treeItems bs)
    rw [toTree, toTree, he, he']
    exact .error e e'
  | @object _ a b =>
    obtain ⟨e, he⟩ := hobject scope (treeMembers a)
    obtain ⟨e', he'⟩ := hobject scope (treeMembers b)
    rw [toTree, toTree, he, he']
    exact .error e e'

theorem respects_text (p : π) : Respects places p .text Eq :=
  respects_scalar (fun _ _ => ⟨_, rfl⟩) (fun _ _ => ⟨_, rfl⟩) p

theorem respects_flag (p : π) : Respects places p .flag Eq :=
  respects_scalar (fun _ _ => ⟨_, rfl⟩) (fun _ _ => ⟨_, rfl⟩) p

theorem respects_natural (p : π) : Respects places p .natural Eq :=
  respects_scalar (fun _ _ => ⟨_, rfl⟩) (fun _ _ => ⟨_, rfl⟩) p

theorem respects_integer (p : π) : Respects places p .integer Eq :=
  respects_scalar (fun _ _ => ⟨_, rfl⟩) (fun _ _ => ⟨_, rfl⟩) p

theorem Respects.map {S : β → β → Prop} {f : α → β} (h : Respects places p decode R)
    (hf : ∀ a b, R a b → S (f a) (f b)) : Respects places p (decode.map f) S :=
  fun scope v w hvw => (h scope v w hvw).map hf

theorem Respects.optional {S : Option α → Option α → Prop} (h : Respects places p decode R)
    (hrefl : ∀ o, S o o) (hsome : ∀ a b, R a b → S (some a) (some b)) :
    Respects places p (.optional decode) S := by
  intro scope v w hvw
  have hdecode := (h scope v w hvw).map hsome
  cases hvw with
  | same => exact Alike.refl hrefl _
  | array | object =>
    rw [toTree, toTree] at hdecode ⊢
    exact hdecode

theorem Respects.optional_eq (h : Respects places p decode Eq) :
    Respects places p (.optional decode) Eq :=
  h.optional (fun _ => rfl) fun _ _ => congrArg some

/-- Items that are decoded to related things one by one. -/
theorem alike_items {R : Nat → α → α → Prop} {inner : Scope} {i : Nat} {as bs : List Json}
    (h : Aligned (fun i v w => Alike (R i) (decode inner (toTree v)) (decode inner (toTree w)))
      i as bs) : Alike (Aligned R i) (Decoder.items decode inner (treeItems as))
        (Decoder.items decode inner (treeItems bs)) := by
  induction h with
  | nil i => exact .ok (.nil i)
  | cons hvw _ ih =>
    rw [treeItems, treeItems, Decoder.items, Decoder.items]
    exact hvw.bind fun a b hab => ih.bind fun as bs has => .ok (.cons hab has)

theorem Respects.list (h : ∀ i, Respects places (places.item p i) decode Eq) :
    Respects places p (.list decode) Eq := by
  intro scope v w hvw
  cases hvw with
  | same => exact Alike.refl (fun _ => rfl) _
  | array hfree hlength hitems =>
    have halign (inner : Scope) : Aligned (fun _ v w =>
        Alike Eq (decode inner (toTree v)) (decode inner (toTree w))) 0 _ _ :=
      aligned_of_getElem? hlength fun j v w hv hw => h j inner v w (hitems j v w hv hw)
    rw [toTree, toTree]
    refine (Alike.refl (fun _ => rfl) scope.enter).bind fun inner inner' hinner => ?_
    rw [← hinner]
    exact (alike_items (R := fun _ => Eq) (halign inner)).mono fun _ _ => Aligned.eq
  | object => exact .error _ _

section Entries

variable {inner : Scope}

/-- Members of different names are decoded one by one: if one of them fails, all do, and otherwise
there is an entry for each. -/
theorem entries_cases (decode : Decoder α) (inner : Scope) (done : List (String × α)) {a : Members}
    (hnames : (done.map Prod.fst ++ a.map Prod.fst).Nodup) :
    (∃ m ∈ a, ∃ e, decode inner (toTree m.2) = .error e ∧
      Decoder.entries decode inner (treeMembers a) done = .error e) ∨
    ∃ es, Decoder.entries decode inner (treeMembers a) done = .ok (done ++ es) ∧
      List.Forall₂ (fun m e => e.1 = m.1 ∧ decode inner (toTree m.2) = .ok e.2) a es := by
  induction a generalizing done with
  | nil => exact .inr ⟨[], by rw [List.append_nil]; rfl, .nil⟩
  | cons m a ih =>
    obtain ⟨name, v⟩ := m
    have hentries : Decoder.entries decode inner (treeMembers ((name, v) :: a)) done =
        decode inner (toTree v) >>= fun x =>
          Decoder.entries decode inner (treeMembers a) (Decoder.putEntry done name x) := by
      rw [treeMembers, Decoder.entries]
    rw [hentries]
    cases hv : decode inner (toTree v) with
    | error e => exact .inl ⟨_, List.mem_cons_self, e, hv, rfl⟩
    | ok x =>
      have hfresh : name ∉ done.map Prod.fst := by
        intro hmem
        exact (List.nodup_append.1 hnames).2.2 _ hmem _ List.mem_cons_self rfl
      have hrest : ((done ++ [(name, x)]).map Prod.fst ++ a.map Prod.fst).Nodup := by
        rw [List.map_append, List.append_assoc]
        exact hnames
      simp only [bind, Except.bind, putEntry_of_notMem hfresh]
      rcases ih _ hrest with ⟨m, hm, e, hme, he⟩ | ⟨es, hes, hall⟩
      · exact .inl ⟨m, List.mem_cons_of_mem _ hm, e, hme, he⟩
      · refine .inr ⟨(name, x) :: es, ?_, .cons ⟨rfl, hv⟩ hall⟩
        rw [List.append_cons done (name, x) es]
        exact hes

structure SameNames (R : String → α → α → Prop) (es fs : List (String × α)) : Prop where
  nodup : (es.map Prod.fst).Nodup
  perm : (es.map Prod.fst).Perm (fs.map Prod.fst)
  related : ∀ name x y, (name, x) ∈ es → (name, y) ∈ fs → R name x y

theorem exists_entry {entries : List (String × α)} {name : String}
    (h : name ∈ entries.map Prod.fst) : ∃ x, (name, x) ∈ entries := by
  obtain ⟨⟨_, x⟩, hx, rfl⟩ := List.mem_map.1 h
  exact ⟨x, hx⟩

theorem SameNames.exists_of_mem_right {R : String → α → α → Prop} {es fs : List (String × α)}
    (h : SameNames R es fs) {name : String} {y : α} (hy : (name, y) ∈ fs) :
    ∃ x, (name, x) ∈ es :=
  exists_entry (h.perm.mem_iff.2 (List.mem_map_of_mem hy))

theorem SameNames.exists_of_mem_left {R : String → α → α → Prop} {es fs : List (String × α)}
    (h : SameNames R es fs) {name : String} {x : α} (hx : (name, x) ∈ es) :
    ∃ y, (name, y) ∈ fs :=
  exists_entry (h.perm.mem_iff.1 (List.mem_map_of_mem hx))

theorem SameNames.perm_of_eq {es fs : List (String × α)} (h : SameNames (fun _ => Eq) es fs) :
    es.Perm fs := by
  have hes : es.Nodup := List.Nodup.of_map _ h.nodup
  have hfs : fs.Nodup := List.Nodup.of_map _ (h.perm.nodup_iff.1 h.nodup)
  refine (List.perm_ext_iff_of_nodup hes hfs).2 fun ⟨name, x⟩ => ⟨fun hx => ?_, fun hx => ?_⟩
  · obtain ⟨y, hy⟩ := h.exists_of_mem_left hx
    exact h.related name x y hx hy ▸ hy
  · obtain ⟨y, hy⟩ := h.exists_of_mem_right hx
    exact h.related name y x hy hx ▸ hy

theorem alike_entries {R : String → α → α → Prop} (decode : Decoder α) (inner : Scope)
    {a b : Members} (h : SameNames (fun name v w =>
      Alike (R name) (decode inner (toTree v)) (decode inner (toTree w))) a b) :
    Alike (SameNames R) (Decoder.entries decode inner (treeMembers a) [])
      (Decoder.entries decode inner (treeMembers b) []) := by
  have hb : (b.map Prod.fst).Nodup := h.perm.nodup_iff.1 h.nodup
  rcases entries_cases decode inner [] h.nodup with
    ⟨⟨name, v⟩, hm, e, hv, he⟩ | ⟨es, hes, hall⟩
  · rcases entries_cases decode inner [] hb with ⟨-, -, e', -, he'⟩ | ⟨fs, -, hall⟩
    · rw [he, he']
      exact .error e e'
    · -- The member of `b` that has the name of the failing one is not decoded either.
      obtain ⟨w, hw⟩ := h.exists_of_mem_left hm
      obtain ⟨e', he'⟩ := (hv ▸ h.related name v w hm hw).error_right
      obtain ⟨x, -, -, hx⟩ := exists_mem_of_forall₂ hall.flip hw
      cases he'.symm.trans hx
  · rcases entries_cases decode inner [] hb with
      ⟨⟨name, w⟩, hm, e, hw, -⟩ | ⟨fs, hfs, hall'⟩
    · obtain ⟨v, hv⟩ := h.exists_of_mem_right hm
      obtain ⟨e', he'⟩ := (hw ▸ h.related name v w hv hm).error_left
      obtain ⟨x, -, -, hx⟩ := exists_mem_of_forall₂ hall.flip hv
      cases he'.symm.trans hx
    · have hnames {a : Members} {es : List (String × α)} (hall : List.Forall₂
          (fun m e => e.1 = m.1 ∧ decode inner (toTree m.2) = .ok e.2) a es) :
          es.map Prod.fst = a.map Prod.fst := by
        rw [← List.forall₂_eq_eq_eq, List.forall₂_map_left_iff, List.forall₂_map_right_iff]
        exact hall.flip.imp fun m n hmn => hmn.1
      rw [hes, hfs]
      refine .ok ⟨?_, ?_, fun name x y hx hy => ?_⟩
      · rw [List.nil_append, hnames hall]
        exact h.nodup
      · rw [List.nil_append, List.nil_append, hnames hall, hnames hall']
        exact h.perm
      · obtain ⟨⟨_, v⟩, hv, hname, hdv⟩ := exists_mem_of_forall₂ hall hx
        cases hname
        obtain ⟨⟨_, w⟩, hw, hname, hdw⟩ := exists_mem_of_forall₂ hall' hy
        cases hname
        have hvw := h.related name v w hv hw
        rw [hdv, hdw] at hvw
        cases hvw with
        | ok hR => exact hR

end Entries

/-- What is found under a name in a dictionary does not depend on the order of the names. -/
theorem Respects.dictionary (h : ∀ name, Respects places (places.member p name) decode Eq) :
    Respects places p (.dictionary decode) fun es fs => ∀ name : String,
      (fs.find? (·.1 == name)).map (·.2) = (es.find? (·.1 == name)).map (·.2) := by
  intro scope v w hvw
  cases hvw with
  | same => exact Alike.refl (fun _ _ => rfl) _
  | array => exact .error _ _
  | @object _ a b hfree hnames hperm hmembers =>
    rw [toTree, toTree]
    refine (Alike.refl (fun _ => rfl) scope.enter).bind fun inner inner' hinner => ?_
    rw [← hinner]
    have hentries := alike_entries (R := fun _ => Eq) decode inner
      ⟨hnames, hperm, fun name v w hv hw => h name inner v w (hmembers name v w hv hw)⟩
    refine hentries.mono fun es fs hsame name => ?_
    rw [find?_key_of_perm hsame.perm_of_eq hsame.nodup]

section Choice

variable {table : String → Option α}

/-- What stands for the contents of a choice that has none looks the same in any order. -/
theorem alike_nothing (scope : Scope) {v w : Json} (h : Reordered places p v w) :
    Alike Eq (Decoder.nothing scope (toTree v)) (Decoder.nothing scope (toTree w)) := by
  cases h with
  | same => exact Alike.refl (fun _ => rfl) _
  | array => exact .error _ _
  | @object _ a b _ _ hperm =>
    cases a with
    | nil =>
      have hb : b = [] := List.map_eq_nil_iff.1 hperm.nil_eq.symm
      rw [hb]
      exact Alike.refl (fun _ => rfl) _
    | cons m a =>
      cases b with
      | nil =>
        have hnil := hperm.eq_nil
        cases hnil
      | cons n b => exact .error _ _

/-- A choice with two members is none. -/
theorem choice_of_two (table : String → Option α) (scope : Scope) (m n : String × Json)
    (members : Members) :
    ∃ e, Decoder.choice table scope (.object (treeMembers (m :: n :: members))) = .error e := by
  have hchoice : Decoder.choice table scope (.object (treeMembers (m :: n :: members))) =
      (scope.enter >>= fun inner => Decoder.choice.pick table m.1 >>= fun a =>
        Decoder.nothing inner (toTree m.2) >>= fun _ => .error .malformed) := rfl
  rw [hchoice]
  cases scope.enter with
  | error e => exact ⟨e, rfl⟩
  | ok inner =>
    cases Decoder.choice.pick table m.1 with
    | error e => exact ⟨e, rfl⟩
    | ok a =>
      cases hnothing : Decoder.nothing inner (toTree m.2) with
      | error e => exact ⟨e, by simp only [bind, Except.bind, hnothing]⟩
      | ok u => exact ⟨.malformed, by simp only [bind, Except.bind, hnothing]⟩

/-- A choice with one member is the choice of its name. -/
theorem choice_of_one (table : String → Option α) (scope : Scope) (name : String) (v : Json) :
    Decoder.choice table scope (.object (treeMembers [(name, v)])) =
      (scope.enter >>= fun inner => Decoder.choice.pick table name >>= fun a =>
        Decoder.nothing inner (toTree v) >>= fun _ => .ok a) := rfl

theorem respects_choice (table : String → Option α) (p : π) :
    Respects places p (.choice table) Eq := by
  intro scope v w h
  cases h with
  | same => exact Alike.refl (fun _ => rfl) _
  | array => exact .error _ _
  | @object _ a b _ hnames hperm hmembers =>
    rw [toTree, toTree]
    cases a with
    | nil =>
      have hb : b = [] := List.map_eq_nil_iff.1 hperm.nil_eq.symm
      rw [hb]
      exact Alike.refl (fun _ => rfl) _
    | cons m a =>
      cases a with
      | nil =>
        obtain ⟨name, v⟩ := m
        obtain ⟨⟨_, w⟩, rfl, rfl⟩ := List.map_eq_singleton_iff.1 (List.singleton_perm.1 hperm).symm
        have hvw := hmembers _ v w List.mem_cons_self List.mem_cons_self
        rw [choice_of_one, choice_of_one]
        refine (Alike.refl (fun _ => rfl) scope.enter).bind fun inner _ hinner => ?_
        refine (Alike.refl (fun _ => rfl) _).bind fun a _ ha => ?_
        rw [← hinner, ← ha]
        exact (alike_nothing inner hvw).bind fun _ _ _ => .ok rfl
      | cons m' a =>
        have hlength : b.length = a.length + 2 := by simpa using hperm.length_eq.symm
        obtain ⟨n, b, rfl⟩ := List.exists_cons_of_length_eq_add_one hlength
        obtain ⟨n', b, rfl⟩ := List.exists_cons_of_length_eq_add_one (Nat.succ.inj hlength)
        obtain ⟨e, he⟩ := choice_of_two table scope m m' a
        obtain ⟨e', he'⟩ := choice_of_two table scope n n' b
        rw [he, he']
        exact .error e e'

end Choice

section Any

theorem toJson_items (items : List Json) (scope : Scope) :
    (treeItems items).toJson scope = Decoder.items .any scope (treeItems items) := by
  induction items with
  | nil => rfl
  | cons v items ih =>
    rw [treeItems, TreeItems.toJson, Decoder.items, ih]
    rfl

theorem toJson_members (members done : Members) (scope : Scope) :
    (treeMembers members).toJson done scope =
      Decoder.entries .any scope (treeMembers members) done := by
  induction members generalizing done with
  | nil => rfl
  | cons m members ih =>
    obtain ⟨name, v⟩ := m
    rw [treeMembers, TreeMembers.toJson, Decoder.entries]
    simp only [ih, put_eq_putEntry]
    rfl

/-- Values that are read as what they are still differ in the order of members only. -/
theorem respects_any (p : π) : Respects places p .any (Reordered places p) := by
  intro scope v w h
  induction h generalizing scope with
  | same p v => exact Alike.refl (fun v => .same p v) _
  | @array p as bs hfree hlength hitems ih =>
    have halign (inner : Scope) : Aligned (fun i v w => Alike (Reordered places (places.item p i))
        (Decoder.any inner (toTree v)) (Decoder.any inner (toTree w))) 0 as bs := by
      refine aligned_of_getElem? hlength fun j v w hv hw => ?_
      rw [Nat.zero_add]
      exact ih j v w hv hw inner
    show Alike _ (scope.enter >>= fun inner => (treeItems as).toJson inner >>= fun items =>
        pure (Json.array items))
      (scope.enter >>= fun inner => (treeItems bs).toJson inner >>= fun items =>
        pure (Json.array items))
    refine (Alike.refl (fun _ => rfl) scope.enter).bind fun inner _ hinner => ?_
    rw [← hinner, toJson_items, toJson_items]
    refine (alike_items (halign inner)).bind fun as' bs' has => .ok ?_
    refine .array hfree has.length_eq fun i v w hv hw => ?_
    have hvw := has.getElem? hv hw
    rwa [Nat.zero_add] at hvw
  | @object p a b hfree hnames hperm hmembers ih =>
    show Alike _ (scope.enter >>= fun inner => (treeMembers a).toJson [] inner >>= fun members =>
        pure (Json.object members))
      (scope.enter >>= fun inner => (treeMembers b).toJson [] inner >>= fun members =>
        pure (Json.object members))
    refine (Alike.refl (fun _ => rfl) scope.enter).bind fun inner _ hinner => ?_
    rw [← hinner, toJson_members, toJson_members]
    have hentries := alike_entries
      (R := fun name => Reordered places (places.member p name)) .any inner
      ⟨hnames, hperm, fun name v w hv hw => ih name v w hv hw inner⟩
    exact hentries.bind fun a' b' hsame => .ok (.object hfree hsame.nodup hsame.perm hsame.related)

theorem error_of_bind {x : Except Fault α} {f : α → Except Fault β} {e : Fault}
    (h : x >>= f = .error e) : x = .error e ∨ ∃ a, x = .ok a ∧ f a = .error e := by
  cases x with
  | error fault =>
    cases h
    exact .inl rfl
  | ok a => exact .inr ⟨a, rfl, h⟩

theorem error_of_items {inner : Scope} {items : List Json} {e : Fault}
    (h : Decoder.items decode inner (treeItems items) = .error e) :
    ∃ v ∈ items, decode inner (toTree v) = .error e := by
  induction items with
  | nil => cases h
  | cons v items ih =>
    rw [treeItems, Decoder.items] at h
    rcases error_of_bind h with hv | ⟨x, -, h⟩
    · exact ⟨v, List.mem_cons_self, hv⟩
    · rcases error_of_bind h with hrest | ⟨rest, -, h⟩
      · obtain ⟨w, hw, he⟩ := ih hrest
        exact ⟨w, List.mem_cons_of_mem _ hw, he⟩
      · cases h

theorem error_of_entries {inner : Scope} {members : Members} {done : List (String × α)} {e : Fault}
    (h : Decoder.entries decode inner (treeMembers members) done = .error e) :
    ∃ m ∈ members, decode inner (toTree m.2) = .error e := by
  induction members generalizing done with
  | nil => cases h
  | cons m members ih =>
    obtain ⟨name, v⟩ := m
    rw [treeMembers, Decoder.entries] at h
    rcases error_of_bind h with hv | ⟨x, -, h⟩
    · exact ⟨_, List.mem_cons_self, hv⟩
    · obtain ⟨n, hn, he⟩ := ih h
      exact ⟨n, List.mem_cons_of_mem _ hn, he⟩

theorem error_of_enter {scope : Scope} {e : Fault} (h : scope.enter = .error e) :
    e = .malformed := by
  unfold Scope.enter at h
  split at h
  · cases h
    rfl
  · cases h

/-- A value is not read if its containers are nested too deep, and for no other reason. -/
theorem error_of_toJson (v : Json) (scope : Scope) {e : Fault}
    (h : (toTree v).toJson scope = .error e) : e = .malformed := by
  induction v using induct generalizing scope with
  | null | bool b | number n | text s => cases h
  | array items ih =>
    rw [toTree, Tree.toJson] at h
    rcases error_of_bind h with henter | ⟨inner, -, h⟩
    · exact error_of_enter henter
    · rcases error_of_bind h with hitems | ⟨_, -, h⟩
      · rw [toJson_items] at hitems
        obtain ⟨v, hv, he⟩ := error_of_items hitems
        exact ih v hv inner he
      · cases h
  | object members ih =>
    rw [toTree, Tree.toJson] at h
    rcases error_of_bind h with henter | ⟨inner, -, h⟩
    · exact error_of_enter henter
    · rcases error_of_bind h with hmembers | ⟨_, -, h⟩
      · rw [toJson_members] at hmembers
        obtain ⟨m, hm, he⟩ := error_of_entries hmembers
        exact ih m hm inner he
      · cases h

end Any

end Json

end SchemaQuery
