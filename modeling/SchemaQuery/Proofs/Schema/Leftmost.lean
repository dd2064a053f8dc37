import SchemaQuery.Proofs.Schema.Recognition

/-!
# Blocks from left to right

Blocks are taken one after another: each begins at the leftmost place where a block could begin and
that does not lie before the end of the block taken last. What is taken in this way is settled by
the text, and it is what the search finds. The blocks lie apart, in the order of the text, and no
block could begin outside of them.
-/

set_option autoImplicit false

namespace SchemaQuery

open SchemaQuery.Unicode SchemaQuery.Text

namespace BlockKind

/-- A block could begin here: the keyword opens its line and is not prolonged, and behind it come
words and white space up to a brace, with a closing brace anywhere behind that. -/
def OpensAt (kind : BlockKind) (s : List Char) (start : Nat) : Prop :=
  ∃ front header tail, s = front ++ (kind.keyword.toList ++ (header ++ '{' :: tail)) ∧
    front.length = start ∧ OpensLine front ∧
    (∀ c ∈ header, isWordChar c = true ∨ isWhite c = true) ∧ opensWord header = false ∧ '}' ∈ tail

inductive Leftmost (kind : BlockKind) (s : List Char) : Nat → List (Nat × List Char) → Prop
  | done {place : Nat} : (∀ start, place ≤ start → ¬ kind.OpensAt s start) →
      Leftmost kind s place []
  | next {place start : Nat} {text : List Char} {spans : List (Nat × List Char)} :
      place ≤ start → kind.Candidate s start text →
      (∀ earlier, place ≤ earlier → earlier < start → ¬ kind.OpensAt s earlier) →
      Leftmost kind s (start + text.length) spans → Leftmost kind s place ((start, text) :: spans)

section Places

variable {kind : BlockKind} {s text : List Char} {start place : Nat}
  {spans other : List (Nat × List Char)}

/-- Where a block could begin, one does, and it ends at the first closing brace. -/
theorem opensAt_iff : kind.OpensAt s start ↔ ∃ text, kind.Candidate s start text := by
  constructor
  · rintro ⟨front, header, tail, rfl, hlength, hline, hheader, hopens, hbrace⟩
    obtain ⟨body, rest, rfl, hbody⟩ := List.eq_append_cons_of_mem hbrace
    exact ⟨_, front, rest, by simp, hlength, hline, header, body, rfl, hheader, hopens, hbody⟩
  · rintro ⟨text, front, rest, rfl, hlength, hline, header, body, rfl, hheader, hopens, -⟩
    exact ⟨front, header, body ++ '}' :: rest, by simp, hlength, hline, hheader, hopens, by simp⟩

theorem Candidate.opensAt (h : kind.Candidate s start text) : kind.OpensAt s start :=
  opensAt_iff.2 ⟨text, h⟩

/-- A candidate is a piece of the text. -/
theorem Candidate.slice (h : kind.Candidate s start text) :
    (s.drop start).take text.length = text := by
  obtain ⟨front, rest, rfl, rfl, -⟩ := h
  rw [List.drop_left, List.take_left]

/-- A place where no block could begin is passed over. -/
theorem Leftmost.skip (hnone : ¬ kind.OpensAt s place) (h : kind.Leftmost s (place + 1) spans) :
    kind.Leftmost s place spans := by
  cases h with
  | done hfree =>
    refine .done fun start hle => ?_
    rcases Nat.eq_or_lt_of_le hle with rfl | hlt
    · exact hnone
    · exact hfree start hlt
  | next hle hcandidate hfree hrest =>
    refine .next (Nat.le_of_succ_le hle) hcandidate (fun earlier hge hlt => ?_) hrest
    rcases Nat.eq_or_lt_of_le hge with rfl | hgt
    · exact hnone
    · exact hfree earlier hgt hlt

/-- The text settles which blocks are taken. -/
theorem Leftmost.eq (h : kind.Leftmost s place spans) (h' : kind.Leftmost s place other) :
    other = spans := by
  induction h generalizing other with
  | done hfree =>
    cases h' with
    | done => rfl
    | next hle hcandidate => exact absurd hcandidate.opensAt (hfree _ hle)
  | @next place start text spans hle hcandidate hfree _ ih =>
    cases h' with
    | done hfree' => exact absurd hcandidate.opensAt (hfree' _ hle)
    | @next _ start' text' spans' hle' hcandidate' hfree' hrest' =>
      -- neither of the two places lies before the other
      have hstart : start' = start := by
        rcases Nat.lt_trichotomy start' start with hlt | heq | hgt
        · exact absurd hcandidate'.opensAt (hfree _ hle' hlt)
        · exact heq
        · exact absurd hcandidate.opensAt (hfree' _ hle hgt)
      subst hstart
      obtain rfl := hcandidate'.text_eq hcandidate
      rw [ih hrest']

theorem Leftmost.candidate (h : kind.Leftmost s place spans) :
    ∀ span ∈ spans, place ≤ span.1 ∧ kind.Candidate s span.1 span.2 := by
  induction h with
  | done => simp
  | @next place start text spans hle hcandidate _ _ ih =>
    intro span hspan
    rcases List.mem_cons.1 hspan with rfl | hspan
    · exact ⟨hle, hcandidate⟩
    · obtain ⟨hge, hother⟩ := ih span hspan
      exact ⟨by omega, hother⟩

/-- Of two blocks that are taken, the one taken first ends before the other begins. -/
theorem Leftmost.apart (h : kind.Leftmost s place spans) :
    spans.Pairwise fun a b => a.1 + a.2.length ≤ b.1 := by
  induction h with
  | done => exact List.Pairwise.nil
  | next _ _ _ hrest ih =>
    exact List.Pairwise.cons (fun span hspan => (hrest.candidate span hspan).1) ih

/-- No place where a block could begin is missed. -/
theorem Leftmost.covers (h : kind.Leftmost s place spans) (hle : place ≤ start)
    (hopens : kind.OpensAt s start) :
    ∃ span ∈ spans, span.1 ≤ start ∧ start < span.1 + span.2.length := by
  induction h with
  | done hfree => exact absurd hopens (hfree start hle)
  | @next place first text spans _ _ hfree _ ih =>
    by_cases hbefore : start < first
    · exact absurd hopens (hfree start hle hbefore)
    by_cases hbehind : first + text.length ≤ start
    · obtain ⟨span, hspan, hwithin⟩ := ih hbehind
      exact ⟨span, List.mem_cons_of_mem _ hspan, hwithin⟩
    · exact ⟨(first, text), List.mem_cons_self, Nat.le_of_not_lt hbefore, Nat.lt_of_not_le hbehind⟩

end Places

/-- The search goes from one leftmost block to the next. -/
theorem leftmost_spansFrom {kind : BlockKind} {s front tail : List Char} {opening : Bool}
    (hs : s = front ++ tail) (hopening : opening = true ↔ OpensLine front) :
    kind.Leftmost s front.length (kind.spansFrom opening front.length tail) := by
  generalize hplace : front.length = place
  fun_induction spansFrom kind opening place tail generalizing front with
  | case1 opening place =>
    subst hplace
    refine .done fun start hle hopens => ?_
    obtain ⟨text, hcandidate⟩ := opensAt_iff.1 hopens
    have hlength := hcandidate.length_le
    rw [hs, List.append_nil] at hlength
    omega
  | case2 opening place c tail text rest hblock ih =>
    subst hplace
    cases opening with
    | false => cases hblock
    | true =>
    rw [dif_pos rfl] at hblock
    have hcandidate : kind.Candidate s front.length text :=
      (candidate_iff hs).2 ⟨hopening.1 rfl, rest, hblock⟩
    obtain ⟨hisBlock, htail⟩ := block?_eq_some_iff.1 hblock
    have hcut : s = (front ++ text) ++ rest := by rw [hs, htail, List.append_assoc]
    have hrest := ih hcut (by simp [hisBlock.not_opensLine]) List.length_append
    refine .next (Nat.le_refl _) hcandidate (fun earlier hge hlt => ?_) hrest
    exact absurd hlt (Nat.not_lt.2 hge)
  | case3 opening place c tail hblock ih =>
    subst hplace
    have hnone : ¬ kind.OpensAt s front.length := by
      intro hopens
      obtain ⟨text, hcandidate⟩ := opensAt_iff.1 hopens
      obtain ⟨hline, rest, hrest⟩ := (candidate_iff hs).1 hcandidate
      rw [dif_pos (hopening.2 hline), hrest] at hblock
      cases hblock
    have hcut : s = (front ++ [c]) ++ tail := by rw [hs, List.append_assoc, List.singleton_append]
    exact .skip hnone (ih hcut (by simp [opensLine_append_singleton, hopening]) (by simp))

theorem leftmost_spans (kind : BlockKind) (s : List Char) : kind.Leftmost s 0 (kind.spans s) :=
  leftmost_spansFrom (List.nil_append s).symm (iff_of_true rfl opensLine_nil)

/-- The blocks of a text are those that are taken from left to right, each from its keyword to the
first closing brace behind its own brace. They are pieces of the text that lie apart, in the order
in which they stand; none has a closing brace before its end; and where a block could begin, there
is one of them. -/
theorem blocks_leftmost (kind : BlockKind) (s : List Char) :
    ∃ spans, (∀ other, kind.Leftmost s 0 other ↔ other = spans) ∧
      kind.blocks s = spans.map (·.2) ∧
      (∀ span ∈ spans, (s.drop span.1).take span.2.length = span.2 ∧
        ∃ inner, span.2 = inner ++ ['}'] ∧ '}' ∉ inner) ∧
      spans.Pairwise (fun a b => a.1 + a.2.length ≤ b.1) ∧
      ∀ start, kind.OpensAt s start →
        ∃ span ∈ spans, span.1 ≤ start ∧ start < span.1 + span.2.length := by
  have hspans := kind.leftmost_spans s
  refine ⟨kind.spans s, fun other => ⟨hspans.eq, fun heq => heq ▸ hspans⟩, (kind.map_spans s).symm,
    fun span hspan => ?_, hspans.apart, fun start hopens => hspans.covers (Nat.zero_le _) hopens⟩
  obtain ⟨-, hcandidate⟩ := hspans.candidate span hspan
  have hblock : kind.IsBlock span.2 := by
    obtain ⟨front, rest, -, -, -, hblock⟩ := hcandidate
    exact hblock
  exact ⟨hcandidate.slice, hblock.eq_append⟩

example :
    blocks .model "model A \x7b\nmodel B \x7b\x7d\n\x7d model C \x7b\x7d\n\tmodel\n x y\x7b \x7d".toList =
      ["model A \x7b\nmodel B \x7b\x7d".toList, "model\n x y\x7b \x7d".toList] := by
  decide +kernel

end BlockKind

end SchemaQuery
