import SchemaQuery.Proofs.Text.Lines
import SchemaQuery.Text.Indent

/-!
# Indenting lines that are not empty

Where no line of a text is empty, indenting all lines but the first puts the same blanks behind
every line feed.
-/

set_option autoImplicit false

namespace SchemaQuery.Text

def OneLine (s : List Char) : Prop := '\n' ∉ s ∧ '\r' ∉ s

inductive Filled : List Char → Prop
  | line {s : List Char} : s ≠ [] → OneLine s → Filled s
  | feed {s t : List Char} : s ≠ [] → OneLine s → Filled t → Filled (s ++ '\n' :: t)

def indentFeed (depth : Nat) (c : Char) : List Char :=
  if c = '\n' then '\n' :: (indentation depth).toList else [c]

theorem oneLine_append {s t : List Char} (hs : OneLine s) (ht : OneLine t) : OneLine (s ++ t) := by
  simp only [OneLine, List.mem_append, not_or]
  exact ⟨⟨hs.1, ht.1⟩, hs.2, ht.2⟩

theorem oneLine_of_forall {s : List Char} (h : ∀ c ∈ s, c ≠ '\n' ∧ c ≠ '\r') : OneLine s :=
  ⟨fun hc => (h _ hc).1 rfl, fun hc => (h _ hc).2 rfl⟩

theorem Filled.append_feed {s t : List Char} (hs : Filled s) (ht : Filled t) :
    Filled (s ++ '\n' :: t) := by
  induction hs with
  | line hne hline => exact .feed hne hline ht
  | feed hne hline hs ih =>
    rw [List.append_assoc, List.cons_append]
    exact .feed hne hline ih

theorem Filled.prepend {s t : List Char} (hs : OneLine s) (ht : Filled t) : Filled (s ++ t) := by
  cases ht with
  | line hne hline => exact .line (by simp [hne]) (oneLine_append hs hline)
  | feed hne hline ht =>
    rw [← List.append_assoc]
    exact .feed (by simp [hne]) (oneLine_append hs hline) ht

theorem Filled.append {s t : List Char} (hs : Filled s) (ht : OneLine t) : Filled (s ++ t) := by
  induction hs with
  | line hne hline => exact .line (by simp [hne]) (oneLine_append hline ht)
  | feed hne hline hs ih =>
    rw [List.append_assoc, List.cons_append]
    exact .feed hne hline ih

theorem dropReturn_of_notMem {s : List Char} (h : '\r' ∉ s) : dropReturn s = s := by
  fun_induction dropReturn s with
  | case1 => rfl
  | case2 => simp at h
  | case3 c s _ ih => rw [ih fun hs => h (List.mem_cons_of_mem _ hs)]

theorem flatMap_indentFeed {s : List Char} (h : '\n' ∉ s) (depth : Nat) :
    s.flatMap (indentFeed depth) = s := by
  induction s with
  | nil => rfl
  | cons c s ih =>
    rw [List.mem_cons, not_or] at h
    rw [List.flatMap_cons, ih h.2, indentFeed, if_neg (Ne.symm h.1)]
    rfl

/-- Blanks behind every line feed stand in front of every line but the first. -/
theorem pieces_flatMap_indentFeed (depth : Nat) {s first : List Char} {rest : List (List Char)}
    (h : pieces '\n' s = first :: rest) : pieces '\n' (s.flatMap (indentFeed depth)) =
      first :: rest.map ((indentation depth).toList ++ ·) := by
  have hspaces : '\n' ∉ (indentation depth).toList := by
    rw [indentation, String.toList_ofList]
    intro hfeed
    cases List.eq_of_mem_replicate hfeed
  induction s generalizing first rest with
  | nil =>
    cases h
    rfl
  | cons c s ih =>
    cases hs : pieces '\n' s with
    | nil => exact absurd hs (pieces_ne_nil '\n' s)
    | cons p ps =>
      have hindented := ih hs
      by_cases hc : c = '\n'
      · subst hc
        rw [pieces, if_pos rfl, hs] at h
        cases h
        rw [List.flatMap_cons, indentFeed, if_pos rfl, List.cons_append, pieces, if_pos rfl,
          pieces_append_head hspaces hindented, List.map_cons]
      · rw [pieces, if_neg hc, hs] at h
        cases h
        rw [List.flatMap_cons, indentFeed, if_neg hc, List.singleton_append, pieces, if_neg hc,
          hindented]

/-- The lines of the text, and the text with its lines indented. -/
theorem lines_of_filled {s : List Char} (h : Filled s) (depth : Nat) :
    ∃ first rest, lines s = first :: rest ∧ first ≠ [] ∧
      s.flatMap (indentFeed depth) = first ++ rest.flatMap (nestedLine depth) := by
  induction h with
  | @line s hne hline =>
    refine ⟨s, [], ?_, hne, ?_⟩
    · rw [lines, pieces_of_notMem hline.1, endLines, if_neg hne]
    · rw [flatMap_indentFeed hline.1, List.flatMap_nil, List.append_nil]
  | @feed s t hne hline ht ih =>
    obtain ⟨first, rest, hlines, hfirst, hflat⟩ := ih
    refine ⟨s, first :: rest, ?_, hne, ?_⟩
    · have hcons : lines (s ++ '\n' :: t) = dropReturn s :: lines t := by
        rw [lines, pieces_append hline.1, lines]
        cases hp : pieces '\n' t with
        | nil => exact absurd hp (pieces_ne_nil '\n' t)
        | cons p ps => rfl
      rw [hcons, hlines, dropReturn_of_notMem hline.2]
    · rw [List.flatMap_append, List.flatMap_cons, hflat, flatMap_indentFeed hline.1,
        List.flatMap_cons, nestedLine, if_neg hfirst, indentFeed, if_pos rfl]
      simp

theorem toList_nest {s : List Char} (h : Filled s) (depth : Nat) :
    (nest depth (String.ofList s)).toList = s.flatMap (indentFeed depth) := by
  obtain ⟨first, rest, hlines, -, hflat⟩ := lines_of_filled h depth
  rw [nest, String.toList_ofList, hlines, hflat]
  exact String.toList_ofList

end SchemaQuery.Text
