import SchemaQuery.Proofs.Token.Spelling

/-!
# Gaps

White space and comments stand between tokens. A gap is passed over whole, and what the reader then
looks at opens no gap any more.
-/

set_option autoImplicit false

namespace SchemaQuery.Text

open SchemaQuery.Unicode
open Token (skipGap skipGap_of_isWhite skipGap_of_solid)

inductive Gap : List Char → Prop
  | nil : Gap []
  | white {c : Char} {g : List Char} : isWhite c = true → Gap g → Gap (c :: g)
  | comment {s g : List Char} : '\n' ∉ s → Gap g → Gap ('/' :: '/' :: (s ++ '\n' :: g))

theorem Gap.append {g h : List Char} (hg : Gap g) (hh : Gap h) : Gap (g ++ h) := by
  induction hg with
  | nil => exact hh
  | white hc hg ih => exact Gap.white hc ih
  | comment hs hg ih =>
    rw [List.cons_append, List.cons_append, List.append_assoc, List.cons_append]
    exact Gap.comment hs ih

theorem gap_spaces (n : Nat) : Gap (List.replicate n ' ') := by
  induction n with
  | zero => exact Gap.nil
  | succ n ih => exact Gap.white isWhite_space ih

/-- The end of a line and the spaces that the next one begins with. -/
theorem gap_line (n : Nat) : Gap ('\n' :: List.replicate n ' ') :=
  Gap.white (by decide) (gap_spaces n)

def OpenComment (s : List Char) : Prop := ∃ line, '\n' ∉ line ∧ s = '/' :: '/' :: line

def OpensNoGap (s : List Char) : Prop :=
  ∀ c rest, s = c :: rest → isWhite c = false ∧ ¬ (c = '/' ∧ rest.head? = some '/')

theorem opensNoGap_cons {c : Char} (hw : isWhite c = false) (hc : c ≠ '/') (s : List Char) :
    OpensNoGap (c :: s) := by
  intro d rest h
  cases h
  exact ⟨hw, fun hslash => hc hslash.1⟩

theorem skipGap_slashes (s : List Char) : skipGap false ('/' :: '/' :: s) = skipGap true s := rfl

/-- A comment goes on up to the next line feed. -/
theorem skipGap_line {line : List Char} (h : '\n' ∉ line) (s : List Char) :
    skipGap true (line ++ s) = skipGap true s := by
  induction line with
  | nil => rfl
  | cons c line ih =>
    rw [List.mem_cons, not_or] at h
    have hc : (c != '\n') = true := by simp [Ne.symm h.1]
    rw [List.cons_append, skipGap, hc, ih h.2]

theorem skipGap_openComment {s : List Char} (h : OpenComment s) : skipGap false s = [] := by
  obtain ⟨line, hline, rfl⟩ := h
  have hskip := skipGap_line hline []
  rw [List.append_nil] at hskip
  rw [skipGap_slashes, hskip]
  rfl

theorem Gap.skip {g : List Char} (h : Gap g) (s : List Char) :
    skipGap false (g ++ s) = skipGap false s := by
  induction h with
  | nil => rfl
  | white hc hg ih => rw [List.cons_append, skipGap_of_isWhite hc, ih]
  | comment hs hg ih =>
    rw [List.cons_append, List.cons_append, List.append_assoc, List.cons_append, skipGap_slashes,
      skipGap_line hs, ← ih]
    rfl

theorem skipGap_of_opensNoGap {s : List Char} (h : OpensNoGap s) : skipGap false s = s := by
  cases s with
  | nil => rfl
  | cons c s =>
    obtain ⟨hwhite, hcomment⟩ := h c s rfl
    by_cases hc : c = '/'
    · subst hc
      cases s with
      | nil => rfl
      | cons d s =>
        have hd : d ≠ '/' := fun e => hcomment ⟨rfl, congrArg some e⟩
        rw [skipGap, if_neg (by decide), if_pos rfl]
        intro tail ht
        exact hd (List.cons.inj ht).1
    · exact skipGap_of_solid hwhite hc s

/-- Every text begins with a gap behind which no gap begins, unless a comment runs to its end. -/
theorem exists_gap (s : List Char) :
    ∃ g rest, Gap g ∧ s = g ++ rest ∧ (OpensNoGap rest ∨ OpenComment rest) := by
  induction hn : s.length using Nat.strongRecOn generalizing s with
  | _ n ih =>
  subst hn
  by_cases hp : OpensNoGap s
  · exact ⟨[], s, Gap.nil, rfl, Or.inl hp⟩
  · simp only [OpensNoGap, not_forall] at hp
    obtain ⟨c, tail, rfl, hopen⟩ := hp
    cases hw : isWhite c with
    | true =>
      obtain ⟨g, rest, hg, rfl, hrest⟩ := ih tail.length (Nat.lt_succ_self _) tail rfl
      exact ⟨c :: g, rest, Gap.white hw hg, rfl, hrest⟩
    | false =>
      have hslashes : c = '/' ∧ tail.head? = some '/' := by
        by_contra h
        exact hopen ⟨hw, h⟩
      obtain ⟨rfl, hhead⟩ := hslashes
      obtain ⟨text, rfl⟩ : ∃ text, tail = '/' :: text := by
        cases tail with
        | nil => cases hhead
        | cons d text => exact ⟨text, by rw [Option.some.inj hhead]⟩
      by_cases hfeed : '\n' ∈ text
      · obtain ⟨line, behind, rfl, hline⟩ := List.eq_append_cons_of_mem hfeed
        have hlt : behind.length < ('/' :: '/' :: (line ++ '\n' :: behind)).length := by
          simp only [List.length_cons, List.length_append]
          omega
        obtain ⟨g, rest, hg, rfl, hrest⟩ := ih behind.length hlt behind rfl
        refine ⟨_, rest, Gap.comment hline hg, ?_, hrest⟩
        simp
      · exact ⟨[], _, Gap.nil, rfl, Or.inr ⟨text, hfeed, rfl⟩⟩

end SchemaQuery.Text
