import SchemaQuery.Proofs.Text.Cuts
import SchemaQuery.Schema.Block

/-!
# Single blocks

What the text of one block is made of, and how the search for blocks goes on where none begins. Only
a keyword begins a block, so white space, ends of lines and other words are passed over.
-/

set_option autoImplicit false

namespace SchemaQuery

open SchemaQuery.Unicode SchemaQuery.Text

namespace BlockKind

theorem keyword_ne_nil (kind : BlockKind) : kind.keyword.toList ≠ [] := by
  cases kind <;> decide

theorem isWhite_of_mem_keyword (kind : BlockKind) {c : Char} (hc : c ∈ kind.keyword.toList) :
    isWhite c = false := by
  have hall : kind.keyword.toList.all (fun c => !isWhite c) = true := by
    cases kind <;> decide
  simpa using List.all_eq_true.1 hall c hc

theorem brace_notMem_keyword (kind : BlockKind) : '}' ∉ kind.keyword.toList := by
  cases kind <;> decide

theorem isHeaderChar_brace : isHeaderChar '}' = false ∧ isHeaderChar '{' = false := by
  decide

theorem block?_of_head (kind : BlockKind) {c : Char} (h : kind.keyword.toList.head? ≠ some c)
    (s : List Char) : kind.block? (c :: s) = none := by
  have hnone : after? kind.keyword.toList (c :: s) = none := by
    cases ha : after? kind.keyword.toList (c :: s) with
    | none => rfl
    | some rest =>
      have hs := after?_eq_some_iff.1 ha
      cases hk : kind.keyword.toList with
      | nil => exact absurd hk kind.keyword_ne_nil
      | cons k word =>
        rw [hk, List.cons_append, List.cons.injEq] at hs
        rw [hk, ← hs.1] at h
        exact absurd rfl h
  rw [block?, hnone]

/-- No block begins with a white character. -/
theorem block?_of_isWhite (kind : BlockKind) {c : Char} (hc : isWhite c = true) (s : List Char) :
    kind.block? (c :: s) = none := by
  apply kind.block?_of_head
  intro h
  have hw := kind.isWhite_of_mem_keyword (List.mem_of_mem_head? h)
  rw [hc] at hw
  cases hw

/-- After a line feed the blocks are those of the text that follows. -/
theorem blocksFrom_lineFeed (kind : BlockKind) (opening : Bool) (s : List Char) :
    kind.blocksFrom opening ('\n' :: s) = kind.blocks s := by
  cases opening with
  | false => rw [blocksFrom_false_cons]; rfl
  | true => rw [blocksFrom_true_cons (kind.block?_of_isWhite (by decide) s)]; rfl

theorem blocksFrom_false_line (kind : BlockKind) {s : List Char} (h : '\n' ∉ s) (t : List Char) :
    kind.blocksFrom false (s ++ '\n' :: t) = kind.blocks t := by
  induction s with
  | nil => exact kind.blocksFrom_lineFeed false t
  | cons c s ih =>
    have hs : '\n' ∉ s := fun hs => h (List.mem_cons_of_mem _ hs)
    have hc : c ≠ '\n' := fun e => h (by simp [e])
    rw [List.cons_append, blocksFrom_false_cons, beq_false_of_ne hc, ih hs]

theorem blocks_blank (kind : BlockKind) {blanks : List Char} (h : isBlank blanks = true)
    (s : List Char) : kind.blocks (blanks ++ s) = kind.blocks s := by
  induction blanks with
  | nil => rfl
  | cons c blanks ih =>
    simp only [isBlank, List.all_cons, Bool.and_eq_true] at h
    have hnone := kind.block?_of_isWhite h.1 (blanks ++ s)
    rw [List.cons_append, blocks, blocksFrom_true_cons hnone, h.1, Bool.or_true]
    exact ih h.2

/-- A keyword, a header of words and white space that does not prolong the keyword, and a body in
braces without a closing brace in it. -/
def IsBlock (kind : BlockKind) (text : List Char) : Prop :=
  ∃ header body, text = kind.keyword.toList ++ (header ++ '{' :: (body ++ ['}'])) ∧
    (∀ c ∈ header, isWordChar c = true ∨ isWhite c = true) ∧ opensWord header = false ∧ '}' ∉ body

theorem isHeaderChar_iff {c : Char} :
    isHeaderChar c = true ↔ isWordChar c = true ∨ isWhite c = true := by
  rw [isHeaderChar, Bool.or_eq_true]

/-- The block that begins a text is the piece of it that is made like a block. -/
theorem block?_eq_some_iff {kind : BlockKind} {s text rest : List Char} :
    kind.block? s = some (text, rest) ↔ kind.IsBlock text ∧ s = text ++ rest := by
  constructor
  · intro h
    refine ⟨?_, eq_append_of_block? h⟩
    unfold block? at h
    split at h
    · cases h
    · rename_i tail htail
      split at h
      · cases h
      · rename_i hopens
        split at h
        · rename_i body hbody
          split at h
          · rename_i close after hafter
            cases h
            have hclose : close = '}' := by
              have hstop := of_mem_head?_dropWhile (p := (· != '}')) (s := body) (c := close)
                (by rw [hafter]; rfl)
              simpa using hstop
            refine ⟨tail.takeWhile isHeaderChar, body.takeWhile (· != '}'), by simp [hclose],
              fun c hc => isHeaderChar_iff.1 (List.mem_takeWhile_imp hc), ?_, fun hc => ?_⟩
            · have htail : tail.takeWhile isHeaderChar ++ '{' :: body = tail := by
                rw [← hbody, List.takeWhile_append_dropWhile]
              rw [← htail] at hopens
              cases hheader : tail.takeWhile isHeaderChar with
              | nil => rfl
              | cons c header => simpa [hheader, opensWord] using hopens
            · simpa using List.mem_takeWhile_imp hc
          · cases h
        · cases h
  · rintro ⟨⟨header, body, rfl, hheader, hopens, hbody⟩, rfl⟩
    have hstart : opensWord (header ++ '{' :: (body ++ '}' :: rest)) = false := by
      cases header with
      | nil => rfl
      | cons c header => exact hopens
    have hheads : ∀ c ∈ header, isHeaderChar c = true :=
      fun c hc => isHeaderChar_iff.2 (hheader c hc)
    have hinner : ∀ c ∈ body, (c != '}') = true := fun c hc => by
      rw [bne_iff_ne]
      rintro rfl
      exact hbody hc
    rw [List.append_assoc, List.append_assoc, List.cons_append, List.append_assoc,
      List.singleton_append, block?, after?_append]
    simp only [hstart, dropWhile_append_cons hheads isHeaderChar_brace.2,
      takeWhile_append_cons hheads isHeaderChar_brace.2]
    rw [dropWhile_append_cons hinner (by simp), takeWhile_append_cons hinner (by simp)]
    simp

/-- A block opens with a brace. -/
theorem blocksFrom_of_noBrace (kind : BlockKind) (opening : Bool) {s : List Char} (h : '{' ∉ s) :
    kind.blocksFrom opening s = [] := by
  induction s generalizing opening with
  | nil => exact kind.blocksFrom_nil opening
  | cons c s ih =>
    have hs : '{' ∉ s := fun hs => h (List.mem_cons_of_mem _ hs)
    cases opening with
    | false => rw [blocksFrom_false_cons, ih _ hs]
    | true =>
      have hnone : kind.block? (c :: s) = none := by
        cases hb : kind.block? (c :: s) with
        | none => rfl
        | some found =>
          obtain ⟨text, rest⟩ := found
          obtain ⟨⟨header, body, htext, -⟩, hsplit⟩ := block?_eq_some_iff.1 hb
          exact absurd (by rw [hsplit, htext]; simp) h
      rw [blocksFrom_true_cons hnone, ih _ hs]

theorem IsBlock.eq_append {kind : BlockKind} {text : List Char} (h : kind.IsBlock text) :
    ∃ front, text = front ++ ['}'] ∧ '}' ∉ front := by
  obtain ⟨header, body, rfl, hheader, -, hbody⟩ := h
  refine ⟨kind.keyword.toList ++ (header ++ '{' :: body), by simp, ?_⟩
  have hwords : '}' ∉ header := fun hc => by
    have hchar := isHeaderChar_iff.2 (hheader _ hc)
    rw [isHeaderChar_brace.1] at hchar
    cases hchar
  simp only [List.mem_append, List.mem_cons, not_or]
  exact ⟨kind.brace_notMem_keyword, hwords, by decide, hbody⟩

/-- A text settles whether a block begins it where the first closing brace is in it. -/
theorem block?_append_of_brace (kind : BlockKind) {s t : List Char} (h : '}' ∈ s ∨ '}' ∉ t) :
    kind.block? (s ++ t) = (kind.block? s).map fun found => (found.1, found.2 ++ t) := by
  cases hs : kind.block? s with
  | some found =>
    obtain ⟨text, rest⟩ := found
    obtain ⟨hblock, rfl⟩ := block?_eq_some_iff.1 hs
    exact block?_eq_some_iff.2 ⟨hblock, List.append_assoc _ _ _⟩
  | none =>
    cases hst : kind.block? (s ++ t) with
    | none => rfl
    | some found =>
      obtain ⟨text, rest⟩ := found
      obtain ⟨hblock, hsplit⟩ := block?_eq_some_iff.1 hst
      obtain ⟨front, rfl, hfront⟩ := hblock.eq_append
      rw [List.append_assoc, List.singleton_append] at hsplit
      -- the brace of that block cannot be in `t`, so that `s` would begin with the block
      obtain ⟨rest', rfl⟩ : ∃ rest', s = front ++ '}' :: rest' := by
        rcases List.append_eq_append_iff.1 hsplit with ⟨more, rfl, ht⟩ | ⟨more, hs, hmore⟩
        · rw [List.mem_append, not_or] at hfront
          exact absurd (h.resolve_right (by rw [ht]; simp)) hfront.1
        · cases more with
          | nil =>
            rw [hs, List.append_nil] at h
            exact absurd (h.resolve_right (by rw [← List.nil_append t, ← hmore]; simp)) hfront
          | cons c more =>
            rw [List.cons_append, List.cons.injEq] at hmore
            exact ⟨more, by rw [hs, hmore.1]⟩
      have hbegins : kind.block? (front ++ '}' :: rest') = some (front ++ ['}'], rest') :=
        block?_eq_some_iff.2 ⟨hblock, by rw [List.append_assoc, List.singleton_append]⟩
      rw [hs] at hbegins
      cases hbegins

/-- Where what follows a text neither adds to the blocks that begin in it nor takes any away, the
blocks are found apart. -/
theorem blocksFrom_append_of_apart (kind : BlockKind) {s t : List Char} {found : List (List Char)}
    (hapart : ∀ c rest, c :: rest <:+ s → kind.block? (c :: (rest ++ t)) =
      (kind.block? (c :: rest)).map fun r => (r.1, r.2 ++ t))
    (hfound : ∀ opening, kind.blocksFrom opening t = found) (opening : Bool) :
    kind.blocksFrom opening (s ++ t) = kind.blocksFrom opening s ++ found := by
  induction hn : s.length using Nat.strongRecOn generalizing opening s with
  | _ n ih =>
  cases s with
  | nil => rw [List.nil_append, blocksFrom_nil, hfound, List.nil_append]
  | cons c s =>
    have hstep (next : Bool) : kind.blocksFrom next (s ++ t) = kind.blocksFrom next s ++ found :=
      ih s.length (by simp [← hn]) (fun d rest h => hapart d rest (h.trans (List.suffix_cons c s)))
        next rfl
    cases opening with
    | false => rw [List.cons_append, blocksFrom_false_cons, blocksFrom_false_cons, hstep]
    | true =>
      have hb := hapart c s (List.suffix_refl _)
      cases hk : kind.block? (c :: s) with
      | none =>
        rw [hk] at hb
        rw [List.cons_append, blocksFrom_true_cons hb, blocksFrom_true_cons hk, hstep]
      | some r =>
        obtain ⟨text, rest⟩ := r
        rw [hk] at hb
        have hrest : rest <:+ c :: s := ⟨text, (eq_append_of_block? hk).symm⟩
        rw [List.cons_append, blocksFrom_of_block? hb, blocksFrom_of_block? hk,
          ih rest.length (hn ▸ length_block?_lt hk) (fun d u h => hapart d u (h.trans hrest)) false
            rfl, List.cons_append]

end BlockKind

end SchemaQuery
