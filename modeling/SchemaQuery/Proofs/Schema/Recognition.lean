import SchemaQuery.Proofs.Schema.Blocks

/-!
# Which blocks are recognised

A block may begin where its keyword opens a line. Of the places where one may begin, those count
that do not lie inside an earlier block that counts. This is said of offsets in the whole text, and
the search from left to right finds exactly these blocks.
-/

set_option autoImplicit false

namespace SchemaQuery

open SchemaQuery.Unicode SchemaQuery.Text

def OpensLine (front : List Char) : Prop :=
  ∀ c ∈ front.reverse.takeWhile (· != '\n'), isWhite c = true

theorem opensLine_nil : OpensLine [] := fun c hc => by cases hc

theorem opensLine_append_singleton {front : List Char} {c : Char} :
    OpensLine (front ++ [c]) ↔ c = '\n' ∨ (OpensLine front ∧ isWhite c = true) := by
  unfold OpensLine
  rw [List.reverse_append, List.reverse_singleton, List.singleton_append, List.takeWhile_cons]
  by_cases hc : c = '\n'
  · simp [hc]
  · simp [hc, and_comm]

namespace BlockKind

/-- A block with this text could begin here: it is made like a block, and its keyword opens its
line. -/
def Candidate (kind : BlockKind) (s : List Char) (start : Nat) (text : List Char) : Prop :=
  ∃ front rest, s = front ++ (text ++ rest) ∧ front.length = start ∧ OpensLine front ∧
    kind.IsBlock text

/-- A candidate that does not begin inside an earlier recognised block of its kind. -/
def Recognised (kind : BlockKind) (s : List Char) (start : Nat) (text : List Char) : Prop :=
  kind.Candidate s start text ∧ ∀ earlier, (_ : earlier < start) → ∀ other,
    kind.Recognised s earlier other → earlier + other.length ≤ start
termination_by start

def spansFrom (kind : BlockKind) (opening : Bool) (start : Nat) (s : List Char) :
    List (Nat × List Char) :=
  match s with
  | [] => []
  | c :: s =>
    match _h : if opening then kind.block? (c :: s) else none with
    | some (text, rest) => (start, text) :: kind.spansFrom false (start + text.length) rest
    | none => kind.spansFrom (c == '\n' || (opening && isWhite c)) (start + 1) s
termination_by s.length
decreasing_by
  · split at _h
    · exact length_block?_lt _h
    · simp at _h
  · simp

def spans (kind : BlockKind) (s : List Char) : List (Nat × List Char) := kind.spansFrom true 0 s

theorem IsBlock.length_pos {kind : BlockKind} {text : List Char} (h : kind.IsBlock text) :
    0 < text.length := by
  obtain ⟨header, body, rfl, -⟩ := h
  simp only [List.length_append, List.length_cons]
  omega

/-- A block leaves its line open to nothing. -/
theorem IsBlock.not_opensLine {kind : BlockKind} {text : List Char} (h : kind.IsBlock text)
    (front : List Char) : ¬ OpensLine (front ++ text) := by
  obtain ⟨header, body, rfl, -⟩ := h
  have hlast : front ++ (kind.keyword.toList ++ (header ++ '{' :: (body ++ ['}']))) =
      (front ++ (kind.keyword.toList ++ (header ++ '{' :: body))) ++ ['}'] := by simp
  rw [hlast, opensLine_append_singleton]
  rintro (hfeed | ⟨-, hwhite⟩)
  · exact absurd hfeed (by decide)
  · exact absurd hwhite (by decide)

section Offsets

variable {kind : BlockKind} {s front tail text other : List Char} {start : Nat}

theorem candidate_iff (hs : s = front ++ tail) :
    kind.Candidate s front.length text ↔
      OpensLine front ∧ ∃ rest, kind.block? tail = some (text, rest) := by
  constructor
  · rintro ⟨front', rest, hs', hlength, hopens, hblock⟩
    obtain ⟨rfl, htail⟩ := List.append_inj (hs'.symm.trans hs) hlength
    exact ⟨hopens, rest, block?_eq_some_iff.2 ⟨hblock, htail.symm⟩⟩
  · rintro ⟨hopens, rest, hrest⟩
    obtain ⟨hblock, htail⟩ := block?_eq_some_iff.1 hrest
    exact ⟨front, rest, by rw [hs, htail], rfl, hopens, hblock⟩

theorem Candidate.text_eq (h : kind.Candidate s start text) (h' : kind.Candidate s start other) :
    text = other := by
  obtain ⟨front, rest, hs, rfl, hopens, hblock⟩ := h
  obtain ⟨-, rest', hother⟩ := (candidate_iff hs).1 h'
  rw [block?_eq_some_iff.2 ⟨hblock, rfl⟩] at hother
  cases hother
  rfl

theorem Candidate.length_le (h : kind.Candidate s start text) :
    start < start + text.length ∧ start + text.length ≤ s.length := by
  obtain ⟨front, rest, hs, rfl, -, hblock⟩ := h
  have hpos := hblock.length_pos
  simp only [hs, List.length_append]
  omega

def Settled (kind : BlockKind) (s : List Char) (start : Nat) : Prop :=
  ∀ earlier, earlier < start → ∀ other, kind.Recognised s earlier other →
    earlier + other.length ≤ start

theorem recognised_iff :
    kind.Recognised s start text ↔ kind.Candidate s start text ∧ kind.Settled s start := by
  rw [Recognised, Settled]

theorem Settled.end (h : kind.Settled s start) (hc : kind.Candidate s start text) :
    kind.Settled s (start + text.length) := by
  intro earlier hlt other hother
  have hrecognised : kind.Recognised s start text := recognised_iff.2 ⟨hc, h⟩
  rcases Nat.lt_trichotomy earlier start with hbefore | rfl | hbehind
  · exact Nat.le_trans (h earlier hbefore other hother) (Nat.le_add_right _ _)
  · rw [(recognised_iff.1 hother).1.text_eq hc]
  · have hend := (recognised_iff.1 hother).2 start hbehind text hrecognised
    omega

theorem Settled.next (h : kind.Settled s start) (hc : ∀ text, ¬ kind.Candidate s start text) :
    kind.Settled s (start + 1) := by
  intro earlier hlt other hother
  rcases Nat.lt_or_eq_of_le (Nat.le_of_lt_succ hlt) with hbefore | rfl
  · exact Nat.le_trans (h earlier hbefore other hother) (Nat.le_add_right _ _)
  · exact absurd (recognised_iff.1 hother).1 (hc other)

end Offsets

section Spans

variable {kind : BlockKind} {opening : Bool} {start : Nat} {s : List Char}

/-- The texts of the spans are the blocks. -/
theorem map_spansFrom : (kind.spansFrom opening start s).map (·.2) = kind.blocksFrom opening s := by
  fun_induction spansFrom kind opening start s with
  | case1 => rw [blocksFrom_nil]; rfl
  | case2 opening start c s text rest hblock ih =>
    rw [List.map_cons, ih, blocksFrom]
    split <;> simp_all
  | case3 opening start c s hblock ih =>
    rw [ih]
    conv => rhs; rw [blocksFrom]
    split <;> simp_all

theorem le_of_mem_spansFrom {span : Nat × List Char} (h : span ∈ kind.spansFrom opening start s) :
    start ≤ span.1 := by
  fun_induction spansFrom kind opening start s with
  | case1 => cases h
  | case2 opening start c s text rest hblock ih =>
    rcases List.mem_cons.1 h with rfl | h
    · exact Nat.le_refl _
    · exact Nat.le_trans (Nat.le_add_right _ _) (ih h)
  | case3 opening start c s hblock ih => exact Nat.le_of_succ_le (ih h)

theorem pairwise_spansFrom :
    (kind.spansFrom opening start s).Pairwise fun a b => a.1 < b.1 := by
  fun_induction spansFrom kind opening start s with
  | case1 => exact List.Pairwise.nil
  | case2 opening start c s text rest hblock ih =>
    refine List.Pairwise.cons (fun span hspan => ?_) ih
    have hpos : 0 < text.length := by
      split at hblock
      · exact (block?_eq_some_iff.1 hblock).1.length_pos
      · cases hblock
    have hle := le_of_mem_spansFrom hspan
    omega
  | case3 opening start c s hblock ih => exact ih

/-- From a place on that no recognised block crosses, the spans are the recognised blocks. -/
theorem mem_spansFrom_iff {front tail : List Char} (hs : s = front ++ tail)
    (hopening : opening = true ↔ OpensLine front) (hsettled : kind.Settled s front.length)
    {span : Nat × List Char} :
    span ∈ kind.spansFrom opening front.length tail ↔
      front.length ≤ span.1 ∧ kind.Recognised s span.1 span.2 := by
  generalize hstart : front.length = start at hsettled ⊢
  fun_induction spansFrom kind opening start tail generalizing front with
  | case1 opening start =>
    subst hstart
    simp only [List.not_mem_nil, false_iff, not_and]
    intro hle hrecognised
    have hlength := (recognised_iff.1 hrecognised).1.length_le
    rw [hs, List.append_nil] at hlength
    omega
  | case2 opening start c tail text rest hblock ih =>
    subst hstart
    cases opening with
    | false => cases hblock
    | true =>
    rw [dif_pos rfl] at hblock
    have hcandidate : kind.Candidate s front.length text :=
      (candidate_iff hs).2 ⟨hopening.1 rfl, rest, hblock⟩
    obtain ⟨hisBlock, htail⟩ := block?_eq_some_iff.1 hblock
    have hcut : s = (front ++ text) ++ rest := by rw [hs, htail, List.append_assoc]
    have hrest := ih hcut (by simp [hisBlock.not_opensLine]) (by simp) (hsettled.end hcandidate)
    rw [List.mem_cons, hrest]
    constructor
    · rintro (rfl | ⟨hle, hrecognised⟩)
      · exact ⟨Nat.le_refl _, recognised_iff.2 ⟨hcandidate, hsettled⟩⟩
      · exact ⟨Nat.le_trans (Nat.le_add_right _ _) hle, hrecognised⟩
    · rintro ⟨hle, hrecognised⟩
      obtain ⟨hother, hfree⟩ := recognised_iff.1 hrecognised
      rcases Nat.lt_or_eq_of_le hle with hlt | heq
      · exact Or.inr ⟨hfree _ hlt _ (recognised_iff.2 ⟨hcandidate, hsettled⟩), hrecognised⟩
      · rw [← heq] at hother
        exact Or.inl (Prod.ext heq.symm (hother.text_eq hcandidate))
  | case3 opening start c tail hblock ih =>
    subst hstart
    have hnone : ∀ text, ¬ kind.Candidate s front.length text := by
      intro text hcandidate
      obtain ⟨hopens, rest, hrest⟩ := (candidate_iff hs).1 hcandidate
      rw [dif_pos (hopening.2 hopens), hrest] at hblock
      cases hblock
    have hcut : s = (front ++ [c]) ++ tail := by rw [hs, List.append_assoc, List.singleton_append]
    have hnext := ih hcut
      (by simp [opensLine_append_singleton, hopening]) (by simp) (hsettled.next hnone)
    rw [hnext]
    constructor
    · rintro ⟨hle, hrecognised⟩
      exact ⟨Nat.le_of_succ_le hle, hrecognised⟩
    · rintro ⟨hle, hrecognised⟩
      refine ⟨Nat.lt_of_le_of_ne hle fun heq => ?_, hrecognised⟩
      have hcandidate := (recognised_iff.1 hrecognised).1
      rw [← heq] at hcandidate
      exact hnone _ hcandidate

end Spans

theorem map_spans (kind : BlockKind) (s : List Char) :
    (kind.spans s).map (·.2) = kind.blocks s :=
  map_spansFrom

theorem pairwise_spans (kind : BlockKind) (s : List Char) :
    (kind.spans s).Pairwise fun a b => a.1 < b.1 :=
  pairwise_spansFrom

/-- The search finds exactly the recognised blocks. -/
theorem mem_spans_iff {kind : BlockKind} {s : List Char} {span : Nat × List Char} :
    span ∈ kind.spans s ↔ kind.Recognised s span.1 span.2 := by
  have hsettled : kind.Settled s 0 := fun earlier h => absurd h (Nat.not_lt_zero _)
  have hall : span ∈ kind.spansFrom true ([] : List Char).length s ↔
      0 ≤ span.1 ∧ kind.Recognised s span.1 span.2 :=
    mem_spansFrom_iff rfl (iff_of_true rfl opensLine_nil) hsettled
  exact hall.trans (and_iff_right (Nat.zero_le _))

theorem isBlock_of_recognised {kind : BlockKind} {s text : List Char} {start : Nat}
    (h : kind.Recognised s start text) : kind.IsBlock text := by
  obtain ⟨front, rest, -, -, -, hblock⟩ := (recognised_iff.1 h).1
  exact hblock

theorem isBlock_of_mem_blocks {kind : BlockKind} {s text : List Char} (h : text ∈ kind.blocks s) :
    kind.IsBlock text := by
  rw [← map_spans, List.mem_map] at h
  obtain ⟨span, hspan, rfl⟩ := h
  exact isBlock_of_recognised (mem_spans_iff.1 hspan)

instance (kind : BlockKind) (s : List Char) (start : Nat) (text : List Char) :
    Decidable (kind.Recognised s start text) :=
  decidable_of_iff ((start, text) ∈ kind.spans s) mem_spans_iff

end BlockKind

end SchemaQuery
