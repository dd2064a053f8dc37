import Mathlib.Data.List.Basic
import SchemaQuery.Proofs.Attribute.Listed

/-!
# Segments of an argument text

Commas outside of all groups cut a sequence of tokens into segments. A segment of a nested sequence
is nested itself, and what stands in it behind the mark that opens a group holds the mark that
closes the group.
-/

set_option autoImplicit false

namespace SchemaQuery.Argument

open Token

def extend (token : Token) : List (List Token) → List (List Token)
  | [] => [[token]]
  | g :: gs => (token :: g) :: gs

/-- The tokens between the commas outside of all groups, where `depth` groups are open in front. -/
def segments : (depth : Nat) → List Token → List (List Token)
  | _, [] => [[]]
  | depth, token :: rest =>
    if opens token then extend token (segments (depth + 1) rest)
    else if closes token then extend token (segments (depth - 1) rest)
    else if token = .comma ∧ depth = 0 then [] :: segments 0 rest
    else extend token (segments depth rest)

structure Segment (g : List Token) : Prop where
  nested : Nested g
  noComma : Token.comma ∉ outside 0 g

inductive Cut : (tokens : List Token) → (gs : List (List Token)) → Prop
  | last {g : List Token} : Segment g → Cut g [g]
  | comma {g rest : List Token} {gs : List (List Token)} : Segment g → Cut rest gs →
      Cut (g ++ .comma :: rest) (g :: gs)

section Cutting

variable {g rest : List Token} {gs : List (List Token)}

theorem segment_nil : Segment [] := ⟨.nil, by simp [outside]⟩

theorem Segment.plain {token : Token} (ho : opens token = false) (hc : closes token = false)
    (hne : token ≠ .comma) (h : Segment g) : Segment (token :: g) := by
  refine ⟨.plain ho hc h.nested, ?_⟩
  rw [outside_plain ho hc, List.mem_cons, not_or]
  exact ⟨Ne.symm hne, h.noComma⟩

theorem Segment.group {first last : Token} {inner : List Token}
    (hmarks : closing? first = some last) (hinner : Nested inner) (h : Segment g) :
    Segment (first :: (inner ++ last :: g)) := by
  refine ⟨.group hmarks hinner h.nested, ?_⟩
  rw [outside_group hmarks hinner]
  exact h.noComma

theorem foldr_extend (front g : List Token) (gs : List (List Token)) :
    front.foldr extend (g :: gs) = (front ++ g) :: gs := by
  induction front with
  | nil => rfl
  | cons token front ih => rw [List.foldr_cons, ih]; rfl

/-- What can stand in front of any segment can stand in front of the first. -/
theorem Cut.prepend {front : List Token} (hfront : ∀ g, Segment g → Segment (front ++ g))
    (h : Cut rest gs) : Cut (front ++ rest) (front.foldr extend gs) := by
  cases h with
  | last hg =>
    rw [foldr_extend]
    exact .last (hfront _ hg)
  | comma hg hrest =>
    rw [foldr_extend, ← List.append_assoc]
    exact .comma (hfront _ hg) hrest

theorem segments_succ (depth : Nat) (token : Token) (rest : List Token) :
    segments (depth + 1) (token :: rest) = extend token (
      if opens token then segments (depth + 2) rest
      else if closes token then segments depth rest
      else segments (depth + 1) rest) := by
  rw [segments]
  split
  · rfl
  · split
    · rfl
    · rw [if_neg (by simp)]

/-- Inside of a group all tokens belong to one segment. -/
theorem segments_nested (hg : Nested g) (depth : Nat) (rest : List Token) :
    segments (depth + 1) (g ++ rest) = g.foldr extend (segments (depth + 1) rest) := by
  induction hg generalizing depth rest with
  | nil => rfl
  | plain ho hc _ ih =>
    rw [List.cons_append, segments_succ, ho, hc, List.foldr_cons]
    exact congrArg _ (ih depth rest)
  | group hmarks _ _ ihinner ihrest =>
    obtain ⟨hopen, hclose⟩ := closing?_eq_some hmarks
    rw [List.cons_append, segments_succ, if_pos hopen, List.append_assoc, ihinner, List.cons_append,
      segments_succ, opens_of_closes hclose, if_pos hclose, List.foldr_cons, List.foldr_append,
      List.foldr_cons, ← ihrest]
    rfl

theorem segments_group {first last : Token} {inner : List Token}
    (hmarks : closing? first = some last) (hinner : Nested inner) (rest : List Token) :
    segments 0 (first :: (inner ++ last :: rest)) =
      (first :: (inner ++ [last])).foldr extend (segments 0 rest) := by
  obtain ⟨hopen, hclose⟩ := closing?_eq_some hmarks
  rw [segments, if_pos hopen, segments_nested hinner, segments_succ, opens_of_closes hclose,
    if_pos hclose, List.foldr_cons, List.foldr_append]
  rfl

/-- The segments of a nested sequence are what the commas outside of its groups set apart. -/
theorem cut_segments {tokens : List Token} (h : Nested tokens) :
    Cut tokens (segments 0 tokens) := by
  induction h with
  | nil => exact .last segment_nil
  | @plain token rest ho hc _ ih =>
    rw [segments, ho, hc]
    by_cases hcomma : token = .comma
    · subst hcomma
      exact .comma segment_nil ih
    · have hcut : Cut ([token] ++ rest) ([token].foldr extend (segments 0 rest)) :=
        ih.prepend fun g hg => hg.plain ho hc hcomma
      simp only [hcomma, Bool.false_eq_true, false_and, if_false]
      exact hcut
  | @group first last inner rest hmarks hinner _ _ ih =>
    have hfront (g : List Token) :
        (first :: (inner ++ [last])) ++ g = first :: (inner ++ last :: g) := by simp
    rw [segments_group hmarks hinner, ← hfront]
    exact ih.prepend fun g hg => hfront g ▸ hg.group hmarks hinner

theorem Segment.first_ne {token : Token} (h : Segment (token :: g)) : token ≠ .comma := by
  rintro rfl
  apply h.noComma
  rw [outside_plain rfl rfl]
  exact List.mem_cons_self

theorem Cut.segment {tokens : List Token} (h : Cut tokens gs) : ∀ g ∈ gs, Segment g := by
  induction h with
  | last hg => simpa using hg
  | comma hg _ ih => exact List.forall_mem_cons.mpr ⟨hg, ih⟩

theorem Cut.ne_nil {tokens : List Token} (h : Cut tokens gs) : gs ≠ [] := by cases h <;> simp

/-- The first segment is empty only if a comma or nothing is there. -/
theorem Cut.ends {tokens : List Token} (h : Cut tokens ([] :: gs)) : Ends tokens := by
  cases h with
  | last => exact Or.inl rfl
  | @comma _ rest => exact Or.inr ⟨rest, rfl⟩

end Cutting

section Ends

variable {g rest : List Token} {token first last : Token}

inductive Trailing : List Token → Prop
  | nested {g : List Token} : Nested g → Trailing g
  | closing {g rest : List Token} {last : Token} : Nested g → closes last = true → Trailing rest →
      Trailing (g ++ last :: rest)

theorem Trailing.append (hg : Trailing g) (hlast : closes last = true) (hrest : Trailing rest) :
    Trailing (g ++ last :: rest) := by
  induction hg with
  | nested hg => exact .closing hg hlast hrest
  | closing hg hclose _ ih =>
    rw [List.append_assoc, List.cons_append]
    exact .closing hg hclose ih

theorem Nested.of_cons (h : Nested (token :: g)) (ho : opens token = false) :
    Nested g := by
  cases h with
  | plain _ _ hg => exact hg
  | group hmarks =>
    rw [(closing?_eq_some hmarks).1] at ho
    cases ho

/-- A comma at the very end stands outside of all groups. -/
theorem Nested.comma_outside (h : Nested g) (hlast : g.getLast? = some .comma) :
    Token.comma ∈ outside 0 g := by
  induction h with
  | nil => cases hlast
  | @plain token rest ho hc _ ih =>
    rw [outside_plain ho hc]
    cases rest with
    | nil =>
      cases hlast
      exact List.mem_cons_self
    | cons next rest =>
      rw [List.getLast?_cons_cons] at hlast
      exact List.mem_cons_of_mem _ (ih hlast)
  | @group first last inner rest hmarks hinner _ _ ih =>
    rw [outside_group hmarks hinner]
    rw [← List.cons_append, List.getLast?_append_of_ne_nil _ (List.cons_ne_nil last rest)] at hlast
    cases rest with
    | nil =>
      cases hlast
      cases (closing?_eq_some hmarks).2
    | cons next rest =>
      rw [List.getLast?_cons_cons] at hlast
      exact ih hlast

theorem trailing_of_nested_cons (h : Nested (token :: g)) : Trailing g := by
  cases h with
  | plain _ _ h => exact .nested h
  | group hmarks hinner hrest =>
    exact .closing hinner (closing?_eq_some hmarks).2 (.nested hrest)

theorem Trailing.of_cons (h : Trailing (token :: g)) : Trailing g := by
  generalize hs : token :: g = s at h
  cases h with
  | nested h =>
    subst hs
    exact trailing_of_nested_cons h
  | @closing front rest last hfront hclose hrest =>
    cases front with
    | nil =>
      cases hs
      exact hrest
    | cons _ front =>
      cases hs
      exact (trailing_of_nested_cons hfront).append hclose hrest

theorem Trailing.group (h : Trailing (first :: g)) (hmarks : closing? first = some last) :
    ∃ inner rest, Nested inner ∧ g = inner ++ last :: rest := by
  have hopen := (closing?_eq_some hmarks).1
  have hnested {g : List Token} (h : Nested (first :: g)) :
      ∃ inner rest, Nested inner ∧ g = inner ++ last :: rest := by
    cases h with
    | plain ho => rw [hopen] at ho; cases ho
    | group hmarks' hinner _ =>
      rw [hmarks] at hmarks'
      cases hmarks'
      exact ⟨_, _, hinner, rfl⟩
  generalize hs : first :: g = s at h
  cases h with
  | nested h =>
    subst hs
    exact hnested h
  | @closing front rest last' hfront hclose _ =>
    cases front with
    | nil =>
      cases hs
      rw [opens_of_closes hclose] at hopen
      cases hopen
    | cons _ front =>
      cases hs
      obtain ⟨inner, tail, hinner, rfl⟩ := hnested hfront
      exact ⟨inner, tail ++ last' :: rest, hinner, by simp⟩

end Ends

end SchemaQuery.Argument
