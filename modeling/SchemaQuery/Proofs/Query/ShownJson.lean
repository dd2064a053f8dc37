import SchemaQuery.Proofs.Json.DecimalText
import SchemaQuery.Proofs.Query.Shown

/-!
# JSON texts are literals

A JSON text shows the same value as a literal, whatever its spacing.
-/

set_option autoImplicit false

namespace SchemaQuery.Literal

open SchemaQuery.Unicode SchemaQuery.Text
open Json (NumberText Spacing quoteChars)

def ofNumber : Number → Literal
  | .int n => .number (toString n)
  | .float x => if x.isFinite then .number (Json.floatText x) else .null

mutual

def ofJson : Json → Literal
  | .null => .null
  | .bool b => .bool b
  | .number n => ofNumber n
  | .text s => .text s
  | .array items => .array (ofItems items)
  | .object members => .object (ofMembers members)

def ofItems : List Json → List Literal
  | [] => []
  | item :: items => ofJson item :: ofItems items

def ofMembers : List (String × Json) → List (String × Literal)
  | [] => []
  | (name, value) :: members => (name, ofJson value) :: ofMembers members

end

theorem isPlain_of_isDecimalDigit {c : Char} (h : isDecimalDigit c = true) : isPlain c = true := by
  simp [isPlain, isWordChar_of_isDecimalDigit h]

theorem isPlain_of_mem_chars {n : NumberText} (h : n.Proper) {c : Char} (hc : c ∈ n.chars) :
    isPlain c = true := by
  have hdigits {ds : List Char} (hds : Json.AllDigits ds) (hc : c ∈ ds) : isPlain c = true :=
    isPlain_of_isDecimalDigit (hds c hc)
  rw [NumberText.chars, List.mem_append, List.mem_append, List.mem_append] at hc
  rcases hc with hc | hc | hc | hc
  · split at hc
    · rw [List.mem_singleton.1 hc]
      decide
    · cases hc
  · exact hdigits h.whole_digits hc
  · cases hf : n.fraction with
    | nil =>
      rw [hf] at hc
      cases hc
    | cons d ds =>
      rw [hf, NumberText.fractionChars, ← hf] at hc
      · rcases List.mem_cons.1 hc with rfl | hc
        · decide
        · exact hdigits h.fraction_digits hc
      · simp
  · cases he : n.exponent with
    | none =>
      rw [he] at hc
      cases hc
    | some e =>
      obtain ⟨down, ds⟩ := e
      rw [he, NumberText.exponentChars] at hc
      rcases List.mem_cons.1 hc with rfl | hc
      · decide
      · rcases List.mem_cons.1 hc with rfl | hc
        · cases down <;> decide
        · exact hdigits (h.exponent_digits _ he).2 hc

theorem shows_number {w : String} {n : NumberText} (h : n.Proper) (hw : w.toList = n.chars) :
    Shows w.toList (.number w) := by
  have hread : NumberText.read w.toList = .ok (n, []) := by
    have hchars := NumberText.read_chars h Json.stops_nil
    rwa [List.append_nil, ← hw] at hchars
  have hne : w.toList ≠ [] := by
    intro hnil
    rw [hnil] at hread
    cases hread
  have hword {v : String} {fault : Json.Fault} (hv : NumberText.read v.toList = .error fault) :
      w ≠ v := by
    rintro rfl
    rw [hread] at hv
    cases hv
  apply Shows.word hne
  · intro c hc
    rw [hw] at hc
    exact isPlain_of_mem_chars h hc
  · have hnull : w ≠ "null" := hword rfl
    have htrue : w ≠ "true" := hword rfl
    have hfalse : w ≠ "false" := hword rfl
    rw [scalar?, if_neg hnull, if_neg htrue, if_neg hfalse, hread]

theorem shows_null : Shows ['n', 'u', 'l', 'l'] .null :=
  Shows.word (w := "null") (by decide) (List.all_eq_true.1 (by decide)) rfl

theorem shows_bool (b : Bool) :
    Shows (if b then ['t', 'r', 'u', 'e'] else ['f', 'a', 'l', 's', 'e']) (.bool b) := by
  cases b with
  | true => exact Shows.word (w := "true") (by decide) (List.all_eq_true.1 (by decide)) rfl
  | false => exact Shows.word (w := "false") (by decide) (List.all_eq_true.1 (by decide)) rfl

theorem shows_numberText (n : Number) : Shows (Json.numberText n).toList (ofNumber n) := by
  cases n with
  | int n => exact shows_number (NumberText.proper_ofInt n) (NumberText.toList_toString n)
  | float x =>
    rw [Json.numberText, ofNumber]
    by_cases hx : x.isFinite = true
    · obtain ⟨n, hn, hchars, -⟩ := Json.floatText_denotes hx
      rw [if_pos hx]
      exact shows_number hn hchars
    · rw [if_neg hx, Json.floatText, if_neg hx]
      exact shows_null

/-- The digits of a number denote it; only a double that is no number has none. -/
theorem ofNumber_denotes (n : Number) :
    (∃ t : NumberText, t.Proper ∧ ofNumber n = .number (String.ofList t.chars) ∧ t.Denotes n) ∨
      ∃ x : Float, n = .float x ∧ x.isFinite = false ∧ ofNumber n = .null := by
  cases n with
  | int k =>
    refine Or.inl ⟨.ofInt k, NumberText.proper_ofInt k, ?_, NumberText.denotes_ofInt k⟩
    rw [ofNumber, ← NumberText.toList_toString, String.ofList_toList]
  | float x =>
    cases hx : x.isFinite with
    | true =>
      obtain ⟨t, ht, hchars, hdenotes⟩ := Json.floatText_denotes hx
      refine Or.inl ⟨t, ht, ?_, hdenotes⟩
      rw [ofNumber, if_pos hx, ← hchars, String.ofList_toList]
    | false => exact Or.inr ⟨x, rfl, hx, by simp [ofNumber, hx]⟩

theorem isPlain_of_mem_numberText {n : Number} {c : Char} (hc : c ∈ (Json.numberText n).toList) :
    isPlain c = true := by
  cases n with
  | int n =>
    rw [Json.numberText, NumberText.toList_toString] at hc
    exact isPlain_of_mem_chars (NumberText.proper_ofInt n) hc
  | float x =>
    rw [Json.numberText] at hc
    by_cases hx : x.isFinite = true
    · obtain ⟨n, hn, hchars, -⟩ := Json.floatText_denotes hx
      rw [hchars] at hc
      exact isPlain_of_mem_chars hn hc
    · rw [Json.floatText, if_neg hx] at hc
      exact List.all_eq_true.1 (by decide : "null".toList.all isPlain = true) c hc

theorem numberText_ne_nil (n : Number) : (Json.numberText n).toList ≠ [] := by
  have hchars {n : NumberText} (h : n.Proper) : n.chars ≠ [] := by
    simp [NumberText.chars, h.whole_ne]
  cases n with
  | int n =>
    rw [Json.numberText, NumberText.toList_toString]
    exact hchars (NumberText.proper_ofInt n)
  | float x =>
    rw [Json.numberText]
    by_cases hx : x.isFinite = true
    · obtain ⟨n, hn, heq, -⟩ := Json.floatText_denotes hx
      rw [heq]
      exact hchars hn
    · rw [Json.floatText, if_neg hx]
      decide

section Containers

variable {sp : Spacing} {depth : Nat}

theorem gap_of_isBlank {blanks : List Char} (h : ∀ c ∈ blanks, Json.isBlank c = true) :
    Gap blanks := by
  induction blanks with
  | nil => exact Gap.nil
  | cons c blanks ih =>
    have hc := h c List.mem_cons_self
    have hwhite : isWhite c = true := by
      simp only [Json.isBlank, Bool.or_eq_true, beq_iff_eq] at hc
      rcases hc with ((rfl | rfl) | rfl) | rfl
      all_goals decide
    exact Gap.white hwhite (ih fun d hd => h d (List.mem_cons_of_mem _ hd))

theorem shows_itemChars {items : List Json}
    (h : ∀ item ∈ items, Shows (sp.chars depth item) (ofJson item)) (hne : items ≠ [])
    {g : List Char} (hg : Gap g) : ShowsItems (sp.itemChars depth items ++ g) (ofItems items) := by
  induction items with
  | nil => exact absurd rfl hne
  | cons item items ih =>
    have hitem := h item List.mem_cons_self
    have hline := gap_of_isBlank (sp.line_blank depth)
    by_cases hlast : items = []
    · subst hlast
      rw [Spacing.itemChars, List.append_assoc]
      exact (ShowsItems.last hitem hg).gap hline
    · have hrest := ih (fun x hx => h x (List.mem_cons_of_mem _ hx)) hlast
      rw [sp.itemChars_cons depth item hlast, List.append_assoc, List.append_assoc,
        List.cons_append]
      exact (ShowsItems.cons hitem hrest).gap hline

theorem shows_memberChars {members : List (String × Json)}
    (h : ∀ m ∈ members, Shows (sp.chars depth m.2) (ofJson m.2)) (hne : members ≠ [])
    {g : List Char} (hg : Gap g) :
    ShowsMembers (sp.memberChars depth members ++ g) (ofMembers members) := by
  induction members with
  | nil => exact absurd rfl hne
  | cons m members ih =>
    obtain ⟨name, value⟩ := m
    have hvalue : Shows (sp.chars depth value) (ofJson value) := h _ List.mem_cons_self
    have hline := gap_of_isBlank (sp.line_blank depth)
    have hmember : ShowsMember (quoteChars name ++ ':' :: (sp.gap ++ sp.chars depth value))
        (name, ofJson value) :=
      ⟨_, _, _, rfl, ShowsKey.quoted name, gap_of_isBlank sp.gap_blank, hvalue⟩
    by_cases hlast : members = []
    · subst hlast
      rw [Spacing.memberChars, List.append_assoc]
      exact (ShowsMembers.last hmember hg).gap hline
    · have hrest := ih (fun x hx => h x (List.mem_cons_of_mem _ hx)) hlast
      have hcons := (ShowsMembers.cons hmember hrest).gap hline
      rw [sp.memberChars_cons depth name value hlast, ofMembers]
      simpa only [List.append_assoc, List.cons_append] using hcons

end Containers

/-- A JSON value is shown by its characters. -/
theorem shows_chars (sp : Spacing) (depth : Nat) (v : Json) :
    Shows (sp.chars depth v) (ofJson v) := by
  induction v using Json.induct generalizing depth with
  | null =>
    rw [Spacing.chars, ofJson]
    exact shows_null
  | bool b =>
    rw [Spacing.chars, ofJson]
    exact shows_bool b
  | number n =>
    rw [Spacing.chars, ofJson]
    exact shows_numberText n
  | text s =>
    rw [Spacing.chars, ofJson]
    exact Shows.text s
  | array items ih =>
    by_cases hne : items = []
    · subst hne
      rw [Spacing.chars, ofJson, ofItems]
      exact Shows.array_nil Gap.nil
    · have hitems := shows_itemChars (fun item hi => ih item hi (depth + 1)) hne
        (gap_of_isBlank (sp.line_blank depth))
      rw [sp.chars_array depth hne, ofJson, ← List.append_assoc]
      exact Shows.array hitems
  | object members ih =>
    by_cases hne : members = []
    · subst hne
      rw [Spacing.chars, ofJson, ofMembers]
      exact Shows.object_nil Gap.nil
    · have hmembers := shows_memberChars (fun m hm => ih m hm (depth + 1)) hne
        (gap_of_isBlank (sp.line_blank depth))
      rw [sp.chars_object depth hne, ofJson, ← List.append_assoc]
      exact Shows.object hmembers

theorem shows_compact (v : Json) : Shows v.compact.toList (ofJson v) := by
  rw [Json.toList_compact v 0]
  exact shows_chars .tight 0 v

end SchemaQuery.Literal
