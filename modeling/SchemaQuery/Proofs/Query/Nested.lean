import SchemaQuery.Proofs.Query.ShownJson
import SchemaQuery.Proofs.Text.Indent
import SchemaQuery.Query.Clause

/-!
# JSON texts inside a query

A JSON text over several lines has no empty line, and it has line feeds only between its signs. It
can therefore be nested, and what it shows stays the same.
-/

set_option autoImplicit false

namespace SchemaQuery

open SchemaQuery.Text
open Json (Spacing quoteChars)

theorem Json.oneLine_escapeChar (c : Char) : OneLine (Json.escapeChar c) := by
  have hhex : ∀ n < 32, Nat.digitChar (n / 16) ≠ '\n' ∧ Nat.digitChar (n / 16) ≠ '\r' ∧
      Nat.digitChar (n % 16) ≠ '\n' ∧ Nat.digitChar (n % 16) ≠ '\r' := by decide
  unfold Json.escapeChar
  cases he : Json.shortEscape? c with
  | some e =>
    unfold Json.shortEscape? at he
    split at he
    all_goals
      cases he
    all_goals exact ⟨by decide, by decide⟩
  | none =>
    by_cases hc : c.toNat < 0x20
    · obtain ⟨h₁, h₂, h₃, h₄⟩ := hhex c.toNat hc
      simp [hc, OneLine, h₁.symm, h₂.symm, h₃.symm, h₄.symm]
    · have hfeed : c ≠ '\n' := by
        rintro rfl
        exact hc (by decide)
      have hreturn : c ≠ '\r' := by
        rintro rfl
        exact hc (by decide)
      simp [hc, OneLine, hfeed.symm, hreturn.symm]

theorem Json.oneLine_quoteChars (s : String) : OneLine (quoteChars s) := by
  have hflat : OneLine (s.toList.flatMap Json.escapeChar) := by
    apply oneLine_of_forall
    intro c hc
    obtain ⟨d, -, hd⟩ := List.mem_flatMap.1 hc
    have hline := Json.oneLine_escapeChar d
    exact ⟨fun he => hline.1 (he ▸ hd), fun he => hline.2 (he ▸ hd)⟩
  have hquote : OneLine ['"'] := ⟨by decide, by decide⟩
  exact oneLine_append hquote (oneLine_append hflat hquote)

theorem Json.oneLine_numberText (n : Number) : OneLine (Json.numberText n).toList := by
  apply oneLine_of_forall
  intro c hc
  have hplain := Literal.isPlain_of_mem_numberText hc
  constructor
  · rintro rfl
    exact absurd hplain (by decide)
  · rintro rfl
    exact absurd hplain (by decide)

namespace Json.Spacing

def lineFrom (base depth : Nat) : List Char :=
  '\n' :: ((indentation base).toList ++ List.replicate (2 * depth) ' ')

theorem isBlank_of_mem_replicate {n : Nat} {c : Char} (h : c ∈ List.replicate n ' ') :
    isBlank c = true := by
  rw [List.eq_of_mem_replicate h]
  rfl

theorem isBlank_of_mem_lineFrom (base depth : Nat) {c : Char} (h : c ∈ lineFrom base depth) :
    isBlank c = true := by
  rw [lineFrom, indentation, String.toList_ofList] at h
  rcases List.mem_cons.1 h with rfl | h
  · rfl
  · rcases List.mem_append.1 h with h | h
    · exact isBlank_of_mem_replicate h
    · exact isBlank_of_mem_replicate h

def indentedBy (base : Nat) : Spacing where
  line := lineFrom base
  gap := indented.gap
  line_blank depth _ h := isBlank_of_mem_lineFrom base depth h
  gap_blank := indented.gap_blank

/-- What indenting does to the characters of a value. -/
theorem flatMap_line (base depth : Nat) :
    (indented.line depth).flatMap (indentFeed base) = (indentedBy base).line depth := by
  have hspaces : '\n' ∉ List.replicate (2 * depth) ' ' := by
    intro h
    cases List.eq_of_mem_replicate h
  show ('\n' :: List.replicate (2 * depth) ' ').flatMap (indentFeed base) = _
  rw [List.flatMap_cons, flatMap_indentFeed hspaces, indentFeed, if_pos rfl]
  rfl

theorem flatMap_sign {c : Char} (h : c ≠ '\n') (base : Nat) (s : List Char) :
    (c :: s).flatMap (indentFeed base) = c :: s.flatMap (indentFeed base) := by
  rw [List.flatMap_cons, indentFeed, if_neg h]
  rfl

theorem flatMap_quoteChars (base : Nat) (s : String) :
    (quoteChars s).flatMap (indentFeed base) = quoteChars s :=
  flatMap_indentFeed (oneLine_quoteChars s).1 base

section Shift

variable {base depth : Nat}

theorem flatMap_itemChars {items : List Json} (h : ∀ item ∈ items,
    (indented.chars depth item).flatMap (indentFeed base) = (indentedBy base).chars depth item) :
    (indented.itemChars depth items).flatMap (indentFeed base) =
      (indentedBy base).itemChars depth items := by
  induction items with
  | nil => rfl
  | cons item items ih =>
    have hitem := h item List.mem_cons_self
    have hrest := ih fun x hx => h x (List.mem_cons_of_mem _ hx)
    by_cases hlast : items = []
    · subst hlast
      rw [itemChars, itemChars, List.flatMap_append, flatMap_line, hitem]
    · rw [itemChars_cons _ _ _ hlast, itemChars_cons _ _ _ hlast, List.flatMap_append, flatMap_line,
        List.flatMap_append, hitem, flatMap_sign (by decide), hrest]

theorem flatMap_memberChars {members : List (String × Json)} (h : ∀ m ∈ members,
    (indented.chars depth m.2).flatMap (indentFeed base) = (indentedBy base).chars depth m.2) :
    (indented.memberChars depth members).flatMap (indentFeed base) =
      (indentedBy base).memberChars depth members := by
  have hgap : indented.gap.flatMap (indentFeed base) = (indentedBy base).gap := rfl
  induction members with
  | nil => rfl
  | cons m members ih =>
    obtain ⟨name, value⟩ := m
    have hvalue : (indented.chars depth value).flatMap (indentFeed base) =
        (indentedBy base).chars depth value := h _ List.mem_cons_self
    have hrest := ih fun x hx => h x (List.mem_cons_of_mem _ hx)
    by_cases hlast : members = []
    · subst hlast
      rw [memberChars, memberChars, List.flatMap_append, flatMap_line, List.flatMap_append,
        flatMap_quoteChars, flatMap_sign (by decide), List.flatMap_append, hgap, hvalue]
    · rw [memberChars_cons _ _ _ _ hlast, memberChars_cons _ _ _ _ hlast, List.flatMap_append,
        flatMap_line, List.flatMap_append, flatMap_quoteChars, flatMap_sign (by decide),
        List.flatMap_append, hgap, List.flatMap_append, hvalue, flatMap_sign (by decide), hrest]

end Shift

/-- Indented lines are those of the same value further in. -/
theorem flatMap_chars (base depth : Nat) (v : Json) :
    (indented.chars depth v).flatMap (indentFeed base) = (indentedBy base).chars depth v := by
  induction v using Json.induct generalizing depth with
  | null =>
    rw [chars, chars]
    rfl
  | bool b =>
    rw [chars, chars]
    cases b <;> rfl
  | number n =>
    rw [chars, chars]
    exact flatMap_indentFeed (oneLine_numberText n).1 base
  | text s =>
    rw [chars, chars]
    exact flatMap_quoteChars base s
  | array items ih =>
    have hitems := flatMap_itemChars fun item hi => ih item hi (depth + 1)
    by_cases hne : items = []
    · subst hne
      rw [chars, chars]
      rfl
    · rw [chars_array _ _ hne, chars_array _ _ hne, flatMap_sign (by decide), List.flatMap_append,
        hitems, List.flatMap_append, flatMap_line]
      rfl
  | object members ih =>
    have hmembers := flatMap_memberChars fun m hm => ih m hm (depth + 1)
    by_cases hne : members = []
    · subst hne
      rw [chars, chars]
      rfl
    · rw [chars_object _ _ hne, chars_object _ _ hne, flatMap_sign (by decide), List.flatMap_append,
        hmembers, List.flatMap_append, flatMap_line]
      rfl

theorem oneLine_replicate (n : Nat) : OneLine (List.replicate n ' ') := by
  apply oneLine_of_forall
  intro c hc
  rw [List.eq_of_mem_replicate hc]
  exact ⟨by decide, by decide⟩

/-- A line that is begun within a text without empty lines. -/
theorem filled_line {s t : List Char} (hs : Filled s) (ht : Filled t) (depth : Nat) :
    Filled (s ++ (indented.line depth ++ t)) :=
  hs.append_feed (ht.prepend (oneLine_replicate (2 * depth)))

section Filled

variable {depth : Nat} {s : List Char}

theorem filled_itemChars {items : List Json}
    (h : ∀ item ∈ items, Filled (indented.chars depth item)) (hs : Filled s) :
    Filled (s ++ indented.itemChars depth items) := by
  induction items generalizing s with
  | nil =>
    rw [itemChars, List.append_nil]
    exact hs
  | cons item items ih =>
    have hitem := h item List.mem_cons_self
    by_cases hlast : items = []
    · subst hlast
      rw [itemChars]
      exact filled_line hs hitem depth
    · have hcomma : Filled (indented.chars depth item ++ [',']) :=
        hitem.append ⟨by decide, by decide⟩
      have hrest := ih (fun x hx => h x (List.mem_cons_of_mem _ hx)) (filled_line hs hcomma depth)
      rw [itemChars_cons _ _ _ hlast]
      simpa only [List.append_assoc, List.singleton_append] using hrest

theorem filled_memberChars {members : List (String × Json)}
    (h : ∀ m ∈ members, Filled (indented.chars depth m.2)) (hs : Filled s) :
    Filled (s ++ indented.memberChars depth members) := by
  have hgap : OneLine [':', ' '] := ⟨by decide, by decide⟩
  induction members generalizing s with
  | nil =>
    rw [memberChars, List.append_nil]
    exact hs
  | cons m members ih =>
    obtain ⟨name, value⟩ := m
    have hvalue : Filled (indented.chars depth value) := h _ List.mem_cons_self
    have hmember :
        Filled (quoteChars name ++ ':' :: (indented.gap ++ indented.chars depth value)) :=
      (hvalue.prepend hgap).prepend (oneLine_quoteChars name)
    by_cases hlast : members = []
    · subst hlast
      rw [memberChars]
      exact filled_line hs hmember depth
    · have hcomma := hmember.append (⟨by decide, by decide⟩ : OneLine [','])
      have hrest := ih (fun x hx => h x (List.mem_cons_of_mem _ hx)) (filled_line hs hcomma depth)
      rw [memberChars_cons _ _ _ _ hlast]
      simpa only [List.append_assoc, List.cons_append, List.nil_append] using hrest

end Filled

theorem filled_chars (depth : Nat) (v : Json) : Filled (indented.chars depth v) := by
  have hclose {c : Char} (hc : OneLine [c]) : Filled [c] := .line (by simp) hc
  induction v using Json.induct generalizing depth with
  | null =>
    rw [chars]
    exact .line (by simp) ⟨by decide, by decide⟩
  | bool b =>
    rw [chars]
    cases b <;> exact .line (by simp) ⟨by decide, by decide⟩
  | number n =>
    rw [chars]
    exact .line (Literal.numberText_ne_nil n) (oneLine_numberText n)
  | text s =>
    rw [chars]
    exact .line (by simp [quoteChars]) (oneLine_quoteChars s)
  | array items ih =>
    by_cases hne : items = []
    · subst hne
      rw [chars]
      exact .line (by simp) ⟨by decide, by decide⟩
    · have hopen : Filled ['['] := hclose ⟨by decide, by decide⟩
      have hitems := filled_itemChars (fun item hi => ih item hi (depth + 1)) hopen
      rw [chars_array _ _ hne]
      have hall := filled_line hitems (hclose (⟨by decide, by decide⟩ : OneLine [']'])) depth
      simpa only [List.append_assoc, List.cons_append, List.nil_append] using hall
  | object members ih =>
    by_cases hne : members = []
    · subst hne
      rw [chars]
      exact .line (by simp) ⟨by decide, by decide⟩
    · have hopen : Filled ['{'] := hclose ⟨by decide, by decide⟩
      have hmembers := filled_memberChars (fun m hm => ih m hm (depth + 1)) hopen
      rw [chars_object _ _ hne]
      have hall := filled_line hmembers (hclose (⟨by decide, by decide⟩ : OneLine ['}'])) depth
      simpa only [List.append_assoc, List.cons_append, List.nil_append] using hall

end Json.Spacing

open Json.Spacing

theorem Clause.toList_nested (depth : Nat) (v : Json) :
    (Clause.nested depth v).toList = (indentedBy depth).chars 0 v := by
  have hchars : v.pretty = String.ofList (indented.chars 0 v) := by
    rw [← Json.toList_pretty, String.ofList_toList]
  rw [Clause.nested, hchars, toList_nest (filled_chars 0 v), flatMap_chars]

theorem Literal.shows_nested (depth : Nat) (v : Json) :
    Shows (Clause.nested depth v).toList (ofJson v) := by
  rw [Clause.toList_nested]
  exact shows_chars _ 0 v

end SchemaQuery
