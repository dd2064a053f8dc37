import SchemaQuery.Proofs.Attribute.Pieces

/-!
# Attributes with other text around them

Attributes are found in the order in which they stand, with white space and quoted texts around them
and a comment behind. What is arranged so begins with nothing that could go on with the text in
front of it.
-/

set_option autoImplicit false

namespace SchemaQuery.Attribute

open SchemaQuery.Unicode SchemaQuery.Text

/-- The text holds the attributes in this order, with white space and quoted texts around them. A
comment may come last, or an attribute whose argument text runs to the end. -/
inductive Arranges : List Attribute → List Char → Prop
  | nil : Arranges [] []
  | comment (inner : List Char) : Arranges [] ('/' :: '/' :: inner)
  | white {as : List Attribute} {c : Char} {s : List Char} : isWhite c = true → Arranges as s →
      Arranges as (c :: s)
  | quoted {as : List Attribute} {q s : List Char} : Closed q → Arranges as s →
      Arranges as ('"' :: (q ++ s))
  | named {a : Attribute} {as : List Attribute} {s : List Char} : a.Sound → Arranges as s →
      Arranges (a :: as) (a.written ++ s)
  | unclosed {block : Bool} {name args : List Char} : name ≠ [] →
      (∀ c ∈ name, isNameChar c = true) → Unmatched args →
      Arranges [⟨String.ofList name, some (String.ofList args), block⟩]
        (Piece.named block name (.unclosed args)).text

section Arrangements

variable {as : List Attribute} {s : List Char}

theorem Arranges.first (h : Arranges as s) :
    ∀ c ∈ s.head?, isWhite c = true ∨ c ∈ ['/', '"', '@'] := by
  intro c hc
  cases h with
  | nil => cases hc
  | white hwhite _ =>
    cases hc
    exact Or.inl hwhite
  | @named a _ _ _ _ =>
    obtain ⟨rest, ha⟩ := a.written_head
    rw [ha] at hc
    cases hc
    exact Or.inr (by simp)
  | comment | quoted | unclosed =>
    cases hc
    exact Or.inr (by simp)

/-- An arrangement goes on with neither a name nor a mark of what comes before it. -/
theorem Arranges.opens (h : Arranges as s) :
    ∀ c ∈ s.head?, isNameChar c = false ∧ c ∉ ['(', '[', '?'] := by
  have hmarks : ['(', '[', '?'].all (fun c => !isWhite c) = true := by decide
  intro c hc
  rcases h.first c hc with hwhite | hmark
  · constructor
    · cases hname : isNameChar c with
      | false => rfl
      | true =>
        rw [isWhite_of_isNameChar hname] at hwhite
        cases hwhite
    · intro hmem
      have hsolid := List.all_eq_true.1 hmarks c hmem
      rw [hwhite] at hsolid
      cases hsolid
  · simp only [List.mem_cons, List.not_mem_nil, or_false] at hmark
    rcases hmark with rfl | rfl | rfl
    · exact ⟨by decide, by decide⟩
    · exact ⟨by decide, by decide⟩
    · exact ⟨by decide, by decide⟩

theorem Arranges.apart (h : Arranges as s) : Apart s := fun c hc =>
  ⟨(h.opens c hc).1, fun heq => (h.opens c hc).2 (by simp [heq])⟩

theorem occurrences_white {c : Char} (h : isWhite c = true) (s : List Char) :
    occurrences (c :: s) = occurrences s := by
  have hne {m : Char} (hm : isWhite m = false) : c ≠ m := by
    rintro rfl
    rw [hm] at h
    cases h
  have hstep : step c s = (none, s) := by
    unfold step
    rw [if_neg (hne (by decide)), if_neg (hne (by decide)), if_neg fun hc => hne (by decide) hc.1]
  rw [occurrences_cons, hstep]
  rfl

/-- The scan finds the attributes that are arranged, and no others. -/
theorem occurrences_of_arranges (h : Arranges as s) : occurrences s = as := by
  induction h with
  | nil => exact occurrences_nil
  | comment inner =>
    rw [occurrences_cons]
    exact occurrences_nil
  | white hwhite _ ih => rw [occurrences_white hwhite, ih]
  | quoted hq _ ih =>
    rw [occurrences_cons, ← ih]
    unfold step
    rw [if_pos rfl, skipQuoted_of_closed hq]
    rfl
  | named ha hrest ih => rw [occurrences_written ha hrest.apart, ih]
  | @unclosed block name args hne hname hargs =>
    have hstands : (Piece.named block name (.unclosed args)).Stands [] :=
      .named hne hname (And.intro hargs rfl)
    have hsplits := occurrences_of_splits (.cons hstands .nil)
    rwa [List.append_nil] at hsplits

theorem Arranges.trimLeft (h : Arranges as s) : Arranges as (trimLeft s) := by
  induction h with
  | white hwhite _ ih => rwa [Text.trimLeft, List.dropWhile_cons_of_pos hwhite]
  | nil => exact .nil
  | comment inner => exact .comment inner
  | quoted hq hrest _ => exact .quoted hq hrest
  | @named a as s ha hrest _ =>
    obtain ⟨rest, hhead⟩ := a.written_head
    have hsolid : Text.trimLeft (a.written ++ s) = a.written ++ s := by
      rw [hhead]
      rfl
    rw [hsolid]
    exact .named ha hrest
  | unclosed hne hname hargs => exact .unclosed hne hname hargs

theorem arranges_row {as : List Attribute} (h : ∀ a ∈ as, a.Sound) : Arranges as (row as) := by
  induction as with
  | nil => exact .nil
  | cons a as ih =>
    have ha : a.Sound := h a List.mem_cons_self
    exact .white isWhite_space (.named ha (ih fun b hb => h b (List.mem_cons_of_mem _ hb)))

end Arrangements

end SchemaQuery.Attribute
