import SchemaQuery.Proofs.Json.ReadBack
import SchemaQuery.Query.Json

/-!
# Decoders and the values they are for

A decoder gives back what a value was written for, as deep as its containers are nested. A record is
given back if its members come in the order of its slots and only spare slots are left out.
-/

set_option autoImplicit false

namespace SchemaQuery.Json

variable {α β σ τ : Type}

/-- The decoder makes `a` of the value, wherever its containers may be nested that deep. -/
def Gives (decode : Decoder α) (v : Json) (a : α) : Prop :=
  ∀ scope : Scope, nesting v < scope.depth → decode scope (toTree v) = .ok a

/-- A value that is not nested too deep is decoded from its text. -/
theorem decodeText_of_gives {decode : Decoder α} {t : String} {v : Json} {a : α} (ht : Writes t v)
    (hv : Shallow 127 v) (ha : Gives decode v a) : decodeText decode t = .ok a := by
  rw [decodeText_of_writes decode ht hv.exact]
  exact ha {} (Nat.lt_succ_of_le hv.nesting_le)

theorem enter_of_lt {scope : Scope} {n : Nat} (h : n + 1 < scope.depth) :
    ∃ inner, scope.enter = .ok inner ∧ n < inner.depth := by
  have hdeep : ¬ scope.depth ≤ 1 := by omega
  refine ⟨{ scope with depth := scope.depth - 1 }, ?_, ?_⟩
  · rw [Scope.enter, if_neg hdeep]
  · show n < scope.depth - 1
    omega

theorem gives_text (s : String) : Gives .text (.text s) s := fun _ _ => rfl

theorem gives_flag (b : Bool) : Gives .flag (.bool b) b := fun _ _ => rfl

theorem gives_whole {low high n : Int} (hlow : low ≤ n) (hhigh : n < high) :
    Gives (.whole low high) (ofInt n) n := by
  intro scope _
  show (if low ≤ n ∧ n < high then Except.ok n else _) = _
  rw [if_pos ⟨hlow, hhigh⟩]

theorem gives_map (f : α → β) {decode : Decoder α} {v : Json} {a : α} (h : Gives decode v a) :
    Gives (decode.map f) v (f a) := by
  intro scope hdepth
  rw [Decoder.map, h scope hdepth]
  rfl

theorem gives_natural (n : UInt64) : Gives .natural (ofUInt64 n) n := by
  have hlow : (0 : Int) ≤ n.toNat := Int.natCast_nonneg _
  have hhigh : (n.toNat : Int) < unsignedLimit := Int.ofNat_lt.2 n.toNat_lt
  have hwhole : Gives (.whole 0 unsignedLimit) (ofUInt64 n) n.toNat := gives_whole hlow hhigh
  have hgives := gives_map (fun n => UInt64.ofNat n.toNat) hwhole
  rw [Int.toNat_natCast, UInt64.ofNat_toNat] at hgives
  exact hgives

theorem gives_integer (n : Int64) : Gives .integer (ofInt64 n) n := by
  have hlow : -(signedLimit : Int) ≤ n.toInt := n.le_toInt
  have hhigh : n.toInt < signedLimit := n.toInt_lt
  have hwhole : Gives (.whole (-signedLimit) signedLimit) (ofInt64 n) n.toInt :=
    gives_whole hlow hhigh
  have hgives := gives_map Int64.ofInt hwhole
  rw [Int64.ofInt_toInt] at hgives
  exact hgives

theorem gives_optional {decode : Decoder α} {v : Json} {a : α} (h : Gives decode v a)
    (hne : v ≠ .null) : Gives (.optional decode) v (some a) := by
  intro scope hdepth
  have ha := h scope hdepth
  cases v with
  | null => exact absurd rfl hne
  | bool | number | text | array | object =>
    rw [toTree] at ha ⊢
    rw [Decoder.optional, ha]
    · rfl
    · simp
    · simp

theorem gives_choice {table : String → Option α} {name : String} {a : α} (h : table name = some a) :
    Gives (.choice table) (.text name) a := by
  intro scope _
  show Decoder.choice.pick table name = _
  rw [Decoder.choice.pick, h]

theorem toJson_treeItems {items : List Json} (h : ∀ item ∈ items, Gives .any item item)
    {scope : Scope} (hdepth : ∀ item ∈ items, nesting item < scope.depth) :
    (treeItems items).toJson scope = .ok items := by
  induction items with
  | nil => rfl
  | cons item items ih =>
    have hitem : (toTree item).toJson scope = .ok item :=
      h item List.mem_cons_self scope (hdepth item List.mem_cons_self)
    have hrest := ih (fun x hx => h x (List.mem_cons_of_mem _ hx))
      (fun x hx => hdepth x (List.mem_cons_of_mem _ hx))
    rw [treeItems, TreeItems.toJson, hitem]
    show (TreeItems.toJson (treeItems items) scope >>= fun rest => pure (item :: rest)) = _
    rw [hrest]
    rfl

theorem putEntry_of_notMem {entries : List (String × α)} {name : String}
    (h : name ∉ entries.map (·.1)) (a : α) :
    Decoder.putEntry entries name a = entries ++ [(name, a)] := by
  induction entries with
  | nil => rfl
  | cons entry entries ih =>
    obtain ⟨n, b⟩ := entry
    rw [List.map_cons, List.mem_cons, not_or] at h
    rw [Decoder.putEntry, if_neg (Ne.symm h.1), ih h.2, List.cons_append]

theorem put_eq_putEntry (members : Members) (name : String) (v : Json) :
    members.put name v = Decoder.putEntry members name v := by
  induction members with
  | nil => rfl
  | cons m members ih =>
    obtain ⟨n, w⟩ := m
    rw [Members.put, Decoder.putEntry, ih]

theorem notMem_of_nodup_append {name : α → String} {done rest : List α} {a : α}
    (h : ((done ++ a :: rest).map name).Nodup) : name a ∉ done.map name := by
  rw [List.map_append, List.map_cons, List.nodup_append] at h
  intro hmem
  exact h.2.2 _ hmem _ List.mem_cons_self rfl

theorem toJson_treeMembers (done : Members) {members : Members}
    (h : ∀ m ∈ members, Gives .any m.2 m.2) (hnames : ((done ++ members).map (·.1)).Nodup)
    {scope : Scope} (hdepth : ∀ m ∈ members, nesting m.2 < scope.depth) :
    (treeMembers members).toJson done scope = .ok (done ++ members) := by
  induction members generalizing done with
  | nil =>
    rw [List.append_nil]
    rfl
  | cons m members ih =>
    obtain ⟨name, v⟩ := m
    have hv : (toTree v).toJson scope = .ok v :=
      h _ List.mem_cons_self scope (hdepth _ List.mem_cons_self)
    have hput : done.put name v = done ++ [(name, v)] := by
      rw [put_eq_putEntry, putEntry_of_notMem (notMem_of_nodup_append hnames)]
    have hsplit : done ++ (name, v) :: members = done ++ [(name, v)] ++ members := by simp
    rw [hsplit] at hnames ⊢
    have hrest := ih _ (fun x hx => h x (List.mem_cons_of_mem _ hx)) hnames
      (fun x hx => hdepth x (List.mem_cons_of_mem _ hx))
    rw [treeMembers, TreeMembers.toJson, hv]
    show TreeMembers.toJson (treeMembers members) (done.put name v) scope = _
    rw [hput, hrest]

/-- An exact value is read as itself. -/
theorem gives_any {v : Json} (h : Exact v) : Gives .any v v := by
  induction h with
  | null | bool | int | text => exact fun _ _ => rfl
  | @array items h ih =>
    intro scope hdepth
    rw [nesting] at hdepth
    obtain ⟨inner, henter, hinner⟩ := enter_of_lt hdepth
    have hitems := toJson_treeItems ih fun item hi =>
      Nat.lt_of_le_of_lt (nestingItems_le.1 (Nat.le_refl _) item hi) hinner
    rw [toTree, Decoder.any, Tree.toJson, henter]
    show ((treeItems items).toJson inner >>= fun items => pure (Json.array items)) = _
    rw [hitems]
    rfl
  | @object members hnames h ih =>
    intro scope hdepth
    rw [nesting] at hdepth
    obtain ⟨inner, henter, hinner⟩ := enter_of_lt hdepth
    have hmembers := toJson_treeMembers [] ih hnames fun m hm =>
      Nat.lt_of_le_of_lt (nestingMembers_le.1 (Nat.le_refl _) m hm) hinner
    rw [toTree, Decoder.any, Tree.toJson, henter]
    show ((treeMembers members).toJson [] inner >>= fun members => pure (Json.object members)) = _
    rw [hmembers]
    rfl

section Containers

variable {decode : Decoder α} {encode : α → Json}

theorem items_treeItems {as : List α} (h : ∀ a ∈ as, Gives decode (encode a) a) {scope : Scope}
    (hdepth : ∀ a ∈ as, nesting (encode a) < scope.depth) :
    Decoder.items decode scope (treeItems (as.map encode)) = .ok as := by
  induction as with
  | nil => rfl
  | cons a as ih =>
    have ha := h a List.mem_cons_self scope (hdepth a List.mem_cons_self)
    have hrest := ih (fun x hx => h x (List.mem_cons_of_mem _ hx))
      (fun x hx => hdepth x (List.mem_cons_of_mem _ hx))
    rw [List.map_cons, treeItems, Decoder.items, ha]
    show (Decoder.items decode scope (treeItems (as.map encode)) >>= fun rest =>
      pure (a :: rest)) = _
    rw [hrest]
    rfl

theorem gives_list {as : List α} (h : ∀ a ∈ as, Gives decode (encode a) a) :
    Gives (.list decode) (.array (as.map encode)) as := by
  intro scope hdepth
  rw [nesting] at hdepth
  obtain ⟨inner, henter, hinner⟩ := enter_of_lt hdepth
  have hitems := items_treeItems h fun a ha =>
    Nat.lt_of_le_of_lt (nestingItems_le.1 (Nat.le_refl _) _ (List.mem_map_of_mem ha)) hinner
  show (scope.enter >>= fun inner => Decoder.items decode inner (treeItems (as.map encode))) = _
  rw [henter]
  exact hitems

theorem gives_strings (strings : List String) : Gives (.list .text) (ofStrings strings) strings :=
  gives_list fun s _ => gives_text s

theorem entries_treeMembers (done : List (String × α)) {entries : List (String × α)}
    (h : ∀ e ∈ entries, Gives decode (encode e.2) e.2)
    (hnames : ((done ++ entries).map (·.1)).Nodup) {scope : Scope}
    (hdepth : ∀ e ∈ entries, nesting (encode e.2) < scope.depth) :
    Decoder.entries decode scope (treeMembers (entries.map fun e => (e.1, encode e.2))) done =
      .ok (done ++ entries) := by
  induction entries generalizing done with
  | nil =>
    rw [List.append_nil]
    rfl
  | cons entry entries ih =>
    obtain ⟨name, a⟩ := entry
    have ha : decode scope (toTree (encode a)) = .ok a :=
      h _ List.mem_cons_self scope (hdepth _ List.mem_cons_self)
    have hput := putEntry_of_notMem (notMem_of_nodup_append hnames) a
    have hsplit : done ++ (name, a) :: entries = done ++ [(name, a)] ++ entries := by simp
    rw [hsplit] at hnames ⊢
    have hrest := ih _ (fun x hx => h x (List.mem_cons_of_mem _ hx)) hnames
      (fun x hx => hdepth x (List.mem_cons_of_mem _ hx))
    rw [List.map_cons, treeMembers, Decoder.entries, ha]
    show Decoder.entries decode scope _ (Decoder.putEntry done name a) = _
    rw [hput, hrest]

theorem gives_dictionary {entries : List (String × α)}
    (h : ∀ e ∈ entries, Gives decode (encode e.2) e.2) (hnames : (entries.map (·.1)).Nodup) :
    Gives (.dictionary decode) (.object (entries.map fun e => (e.1, encode e.2))) entries := by
  intro scope hdepth
  rw [nesting] at hdepth
  obtain ⟨inner, henter, hinner⟩ := enter_of_lt hdepth
  have hentries := entries_treeMembers [] h hnames fun e he =>
    have hmem := List.mem_map_of_mem (f := fun e => (e.1, encode e.2)) he
    Nat.lt_of_le_of_lt (nestingMembers_le.1 (Nat.le_refl _) _ hmem) hinner
  show (scope.enter >>= fun inner => Decoder.entries decode inner _ []) = _
  rw [henter]
  exact hentries

end Containers

inductive Takes : List (Slot σ) → Members → σ → σ → Prop
  | nil (r : σ) : Takes [] [] r r
  | skip {slot : Slot σ} {slots : List (Slot σ)} {members : Members} {r s : σ} :
    slot.required = false → Takes slots members r s → Takes (slot :: slots) members r s
  | take (slot : Slot σ) {slots : List (Slot σ)} {v : Json} {set : σ → σ} {members : Members}
    {r s : σ} : Gives slot.take v set → Takes slots members (set r) s →
      Takes (slot :: slots) ((slot.name, v) :: members) r s

namespace Takes

variable {slots : List (Slot σ)} {members : Members} {r s : σ} {name : String}
  {decode : Decoder α} {encode : α → Json} {set : α → σ → σ} {v : Json} {a : α}

theorem needed (ha : Gives decode v a) (h : Takes slots members (set a r) s) :
    Takes (.needed name decode set :: slots) ((name, v) :: members) r s :=
  .take (.needed name decode set) (gives_map set ha) h

theorem spare (ha : Gives decode v a) (h : Takes slots members (set a r) s) :
    Takes (.spare name decode set :: slots) ((name, v) :: members) r s :=
  .take (.spare name decode set) (gives_map set ha) h

/-- A member that is left out leaves the record as it is. -/
theorem memberOf {set : Option α → σ → σ} {value : Option α}
    (hgives : ∀ a ∈ value, Gives decode (encode a) a) (hnull : ∀ a, encode a ≠ .null)
    (hnone : set none r = r) (h : Takes slots members (set value r) s) :
    Takes (.spare name (.optional decode) set :: slots)
      (Json.memberOf name encode value ++ members) r s := by
  cases value with
  | none =>
    rw [hnone] at h
    exact .skip rfl h
  | some a => exact spare (gives_optional (hgives a rfl) (hnull a)) h

theorem memberOf_last {set : Option α → σ → σ} {value : Option α}
    (hgives : ∀ a ∈ value, Gives decode (encode a) a) (hnull : ∀ a, encode a ≠ .null)
    (hnone : set none r = r) : Takes [.spare name (.optional decode) set]
      (Json.memberOf name encode value) r (set value r) := by
  have h : Takes [.spare name (.optional decode) set] (Json.memberOf name encode value ++ []) r
      (set value r) := memberOf hgives hnull hnone (.nil _)
  rwa [List.append_nil] at h

theorem names_sublist (h : Takes slots members r s) :
    (members.map (·.1)).Sublist (slots.map (·.name)) := by
  induction h with
  | nil => exact List.Sublist.refl _
  | skip hspare h ih => exact ih.cons _
  | take slot hv h ih => exact ih.cons_cons _

theorem within {update : (σ → σ) → τ → τ} (lift : σ → τ)
    (hlift : ∀ set r, update set (lift r) = lift (set r)) (h : Takes slots members r s) :
    Takes (slots.map (.within update)) members (lift r) (lift s) := by
  induction h with
  | nil => exact .nil _
  | skip hspare h ih => exact .skip hspare ih
  | @take slot slots v set members r s hv h ih =>
    rw [← hlift] at ih
    exact .take (slot.within update) (gives_map update hv) ih

end Takes

structure Passed (done : List (Slot σ)) (seen : List String) : Prop where
  known : ∀ name ∈ seen, name ∈ done.map (·.name)
  complete : ∀ slot ∈ done, slot.required = true → slot.name ∈ seen

namespace Passed

variable {done : List (Slot σ)} {seen : List String} {slot : Slot σ}

theorem nil : Passed ([] : List (Slot σ)) [] where
  known _ h := by cases h
  complete _ h := by cases h

theorem skip (h : Passed done seen) (hspare : slot.required = false) :
    Passed (done ++ [slot]) seen := by
  constructor
  · intro name hname
    rw [List.map_append]
    exact List.mem_append_left _ (h.known name hname)
  · intro x hx hreq
    rcases List.mem_append.1 hx with hx | hx
    · exact h.complete x hx hreq
    · rw [List.mem_singleton.1 hx, hspare] at hreq
      cases hreq

theorem take (h : Passed done seen) : Passed (done ++ [slot]) (slot.name :: seen) := by
  constructor
  · intro name hname
    rw [List.map_append]
    rcases List.mem_cons.1 hname with rfl | hname
    · exact List.mem_append_right _ List.mem_cons_self
    · exact List.mem_append_left _ (h.known name hname)
  · intro x hx hreq
    rcases List.mem_append.1 hx with hx | hx
    · exact List.mem_cons_of_mem _ (h.complete x hx hreq)
    · rw [List.mem_singleton.1 hx]
      exact List.mem_cons_self

theorem all_seen (h : Passed done seen) :
    (done.all fun s => !s.required || seen.contains s.name) = true := by
  rw [List.all_eq_true]
  intro slot hslot
  cases hreq : slot.required with
  | false => rfl
  | true => simp [h.complete slot hslot hreq]

end Passed

theorem find?_slot {done slots : List (Slot σ)} {slot : Slot σ}
    (h : slot.name ∉ done.map (·.name)) :
    (done ++ slot :: slots).find? (·.name == slot.name) = some slot := by
  have hnone : done.find? (·.name == slot.name) = none := by
    rw [List.find?_eq_none]
    intro x hx hname
    exact h (eq_of_beq hname ▸ List.mem_map_of_mem hx)
  rw [List.find?_append, hnone, Option.none_or, List.find?_cons_of_pos (by simp)]

/-- The members that are left are taken in behind the slots that have been passed. -/
theorem fromMembers_of_takes (done : List (Slot σ)) (seen : List String) {slots : List (Slot σ)}
    {members : Members} {r s : σ} (h : Takes slots members r s) {scope : Scope}
    (hnames : ((done ++ slots).map (·.name)).Nodup) (hpassed : Passed done seen)
    (hdepth : ∀ m ∈ members, nesting m.2 < scope.depth) :
    Slot.fromMembers (done ++ slots) scope (treeMembers members) seen r = .ok s := by
  induction h generalizing done seen with
  | nil r =>
    rw [List.append_nil, treeMembers, Slot.fromMembers, hpassed.all_seen]
    rfl
  | @skip slot slots members r s hspare h ih =>
    rw [List.append_cons] at hnames ⊢
    exact ih _ _ hnames (hpassed.skip hspare) hdepth
  | @take slot slots v set members r s hv h ih =>
    have hnotMem : slot.name ∉ done.map (·.name) := notMem_of_nodup_append hnames
    have hfresh : seen.contains slot.name = false := by
      rw [Bool.eq_false_iff]
      intro hmem
      exact hnotMem (hpassed.known _ (List.contains_iff_mem.1 hmem))
    have htake := hv scope (hdepth _ List.mem_cons_self)
    have hrest : Slot.fromMembers (done ++ slot :: slots) scope (treeMembers members)
        (slot.name :: seen) (set r) = .ok s := by
      rw [List.append_cons] at hnames ⊢
      exact ih _ _ hnames hpassed.take fun m hm => hdepth m (List.mem_cons_of_mem _ hm)
    rw [treeMembers, Slot.fromMembers, find?_slot hnotMem]
    simp only [hfresh, htake]
    exact hrest

/-- A record is given back by its members. -/
theorem gives_record {slots : List (Slot σ)} {members : Members} {blank r : σ}
    (h : Takes slots members blank r) (hnames : (slots.map (·.name)).Nodup) :
    Gives (.record slots blank) (.object members) r := by
  intro scope hdepth
  rw [nesting] at hdepth
  obtain ⟨inner, henter, hinner⟩ := enter_of_lt hdepth
  have hmembers := fromMembers_of_takes [] [] h hnames Passed.nil fun m hm =>
    Nat.lt_of_le_of_lt (nestingMembers_le.1 (Nat.le_refl _) m hm) hinner
  show (scope.enter >>= fun inner =>
    Slot.fromMembers slots inner (treeMembers members) [] blank) = _
  rw [henter]
  exact hmembers

end SchemaQuery.Json
