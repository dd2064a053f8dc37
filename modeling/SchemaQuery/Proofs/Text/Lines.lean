import SchemaQuery.Proofs.Text.Cuts
import SchemaQuery.Text.Lines

/-!
# Lines that are put together

Lines without line feeds come back when the text they make up is cut again, but for the carriage
returns at their ends. White space around a line, a carriage return included, is trimmed away.
-/

set_option autoImplicit false

namespace SchemaQuery.Text

open SchemaQuery.Unicode

theorem pieces_of_notMem {separator : Char} {s : List Char} (h : separator ∉ s) :
    pieces separator s = [s] := by
  induction s with
  | nil => rfl
  | cons c s ih =>
    have hc : c ≠ separator := fun e => h (by simp [e])
    have hs : separator ∉ s := fun hs => h (List.mem_cons_of_mem _ hs)
    rw [pieces, if_neg hc, ih hs]

theorem pieces_append_head {separator : Char} {w s p : List Char} {ps : List (List Char)}
    (hw : separator ∉ w) (h : pieces separator s = p :: ps) :
    pieces separator (w ++ s) = (w ++ p) :: ps := by
  induction w with
  | nil => exact h
  | cons c w ih =>
    rw [List.mem_cons, not_or] at hw
    rw [List.cons_append, pieces, if_neg (Ne.symm hw.1), ih hw.2]
    rfl

theorem pieces_append_separator (separator : Char) (s t : List Char) :
    pieces separator (s ++ separator :: t) = pieces separator s ++ pieces separator t := by
  induction s with
  | nil => simp [pieces]
  | cons c s ih =>
    by_cases hc : c = separator
    · rw [List.cons_append, pieces, if_pos hc, ih, pieces, if_pos hc, List.cons_append]
    · have hhead : separator ∉ [c] := by simp [Ne.symm hc]
      cases hs : pieces separator s with
      | nil => exact absurd hs (pieces_ne_nil separator s)
      | cons p ps =>
        rw [hs, List.cons_append] at ih
        have hfront := pieces_append_head hhead hs
        have hwhole := pieces_append_head hhead ih
        exact hwhole.trans (congrArg (· ++ pieces separator t) hfront).symm

theorem pieces_append {separator : Char} {s : List Char} (h : separator ∉ s) (t : List Char) :
    pieces separator (s ++ separator :: t) = s :: pieces separator t := by
  rw [pieces_append_separator, pieces_of_notMem h, List.singleton_append]

/-- Where the text does not end in a separator, the last piece is not empty. -/
theorem pieces_append_singleton {separator c : Char} (hc : c ≠ separator) (s : List Char) :
    ∃ ps last, pieces separator (s ++ [c]) = ps ++ [last ++ [c]] := by
  induction s with
  | nil => exact ⟨[], [], by simp [pieces, hc]⟩
  | cons d s ih =>
    obtain ⟨ps, last, hs⟩ := ih
    by_cases hd : d = separator
    · exact ⟨[] :: ps, last, by rw [List.cons_append, pieces, if_pos hd, hs]; rfl⟩
    · have hhead : separator ∉ [d] := by simp [Ne.symm hd]
      cases ps with
      | nil => exact ⟨[], d :: last, pieces_append_head hhead hs⟩
      | cons p ps => exact ⟨(d :: p) :: ps, last, pieces_append_head hhead hs⟩

theorem notMem_of_mem_pieces {separator : Char} {s p : List Char} (h : p ∈ pieces separator s) :
    separator ∉ p := by
  induction s generalizing p with
  | nil =>
    rw [pieces, List.mem_singleton] at h
    simp [h]
  | cons c s ih =>
    by_cases hc : c = separator
    · rw [pieces, if_pos hc, List.mem_cons] at h
      rcases h with rfl | h
      · exact List.not_mem_nil
      · exact ih h
    · cases hs : pieces separator s with
      | nil => exact absurd hs (pieces_ne_nil separator s)
      | cons q qs =>
        rw [pieces, if_neg hc, hs, List.mem_cons] at h
        rcases h with rfl | h
        · rw [List.mem_cons, not_or]
          exact ⟨Ne.symm hc, ih (by rw [hs]; exact List.mem_cons_self)⟩
        · exact ih (by rw [hs]; exact List.mem_cons_of_mem _ h)

theorem pieces_joinPieces {separator : Char} {ps : List (List Char)} (hne : ps ≠ [])
    (h : ∀ p ∈ ps, separator ∉ p) : pieces separator (joinPieces separator ps) = ps := by
  induction ps with
  | nil => exact absurd rfl hne
  | cons p ps ih =>
    have hp : separator ∉ p := h p List.mem_cons_self
    cases ps with
    | nil => exact pieces_of_notMem hp
    | cons q ps =>
      have hrest : ∀ x ∈ q :: ps, separator ∉ x := fun x hx => h x (List.mem_cons_of_mem _ hx)
      rw [joinPieces, pieces_append hp, ih (by simp) hrest]
      simp

theorem joinPieces_cons (separator : Char) (p : List Char) {ps : List (List Char)} (h : ps ≠ []) :
    joinPieces separator (p :: ps) = p ++ separator :: joinPieces separator ps := by
  cases ps with
  | nil => exact absurd rfl h
  | cons q ps => rfl

theorem joinPieces_append_singleton (separator : Char) (ps : List (List Char)) (q : List Char) :
    joinPieces separator (ps ++ [q]) = ps.flatMap (fun p => p ++ [separator]) ++ q := by
  induction ps with
  | nil => rfl
  | cons p ps ih =>
    rw [List.cons_append, joinPieces_cons _ _ (by simp), ih, List.flatMap_cons]
    simp

theorem joinPieces_concat (separator : Char) {ps : List (List Char)} (h : ps ≠ []) (q : List Char) :
    joinPieces separator (ps ++ [q]) = joinPieces separator ps ++ separator :: q := by
  induction ps with
  | nil => exact absurd rfl h
  | cons p ps ih =>
    by_cases hlast : ps = []
    · subst hlast
      rfl
    · rw [List.cons_append, joinPieces_cons _ _ (by simp), ih hlast, joinPieces_cons _ _ hlast,
        List.append_assoc, List.cons_append]

theorem endLines_append_singleton (ps : List (List Char)) {last : List Char} (h : last ≠ []) :
    endLines (ps ++ [last]) = ps.map dropReturn ++ [last] := by
  induction ps with
  | nil => simp [endLines, h]
  | cons p ps ih =>
    rw [List.cons_append]
    cases hr : ps ++ [last] with
    | nil => simp at hr
    | cons q rest =>
      rw [endLines, ← hr, ih]
      · rfl
      · simp

/-- Lines that are joined, the last one not empty, are the lines of the text. -/
theorem lines_joinPieces {ps : List (List Char)} {last : List Char} (hlast : last ≠ [])
    (h : ∀ p ∈ ps ++ [last], '\n' ∉ p) :
    lines (joinPieces '\n' (ps ++ [last])) = ps.map dropReturn ++ [last] := by
  rw [lines, pieces_joinPieces (by simp) h, endLines_append_singleton ps hlast]

theorem dropReturn_append (s : List Char) :
    ∃ ending, isBlank ending = true ∧ s = dropReturn s ++ ending := by
  fun_induction dropReturn s with
  | case1 => exact ⟨[], rfl, rfl⟩
  | case2 => exact ⟨['\r'], by decide, rfl⟩
  | case3 c s _ ih =>
    obtain ⟨ending, he, hs⟩ := ih
    exact ⟨ending, he, congrArg (c :: ·) hs⟩

def EndsSolid (s : List Char) : Prop := ∀ c ∈ s.getLast?, isWhite c = false

def Solid (s : List Char) : Prop :=
  s ≠ [] ∧ (∀ c ∈ s.head?, isWhite c = false) ∧ EndsSolid s

theorem endsSolid_append {s t : List Char} (ht : EndsSolid t) (h : t ≠ [] ∨ EndsSolid s) :
    EndsSolid (s ++ t) := by
  intro c hc
  rw [List.getLast?_append] at hc
  cases hl : t.getLast? with
  | some d =>
    rw [hl, Option.some_or] at hc
    exact ht c (hl.trans hc)
  | none =>
    rw [hl, Option.none_or] at hc
    exact h.resolve_left (fun hne => hne (List.getLast?_eq_none_iff.1 hl)) c hc

theorem endsSolid_of_forall {s : List Char} (h : ∀ c ∈ s, isWhite c = false) : EndsSolid s :=
  fun c hc => h c (List.mem_of_getLast? hc)

def Inline (s : List Char) : Prop := '\n' ∉ s ∧ '{' ∉ s ∧ '}' ∉ s

instance (s : List Char) : Decidable (Inline s) :=
  inferInstanceAs (Decidable ('\n' ∉ s ∧ '{' ∉ s ∧ '}' ∉ s))

theorem inline_nil : Inline [] := ⟨List.not_mem_nil, List.not_mem_nil, List.not_mem_nil⟩

theorem inline_append {s t : List Char} (hs : Inline s) (ht : Inline t) : Inline (s ++ t) := by
  simp only [Inline, List.mem_append, not_or]
  exact ⟨⟨hs.1, ht.1⟩, ⟨hs.2.1, ht.2.1⟩, hs.2.2, ht.2.2⟩

theorem inline_cons {c : Char} {s : List Char} (hc : c ≠ '\n' ∧ c ≠ '{' ∧ c ≠ '}')
    (hs : Inline s) : Inline (c :: s) := by
  simp only [Inline, List.mem_cons, not_or]
  exact ⟨⟨hc.1.symm, hs.1⟩, ⟨hc.2.1.symm, hs.2.1⟩, hc.2.2.symm, hs.2.2⟩

theorem inline_of_isWordChar {s : List Char} (h : ∀ c ∈ s, isWordChar c = true) : Inline s := by
  refine ⟨fun hc => ?_, fun hc => ?_, fun hc => ?_⟩
  · exact absurd (h _ hc) (by decide)
  · exact absurd (h _ hc) (by decide)
  · exact absurd (h _ hc) (by decide)

theorem inline_of_isWord {s : List Char} (h : isWord s = true) : Inline s :=
  inline_of_isWordChar fun _ hc => isWordChar_of_isWord h hc

theorem inline_flatMap {α : Type} {xs : List α} {f : α → List Char} (h : ∀ x ∈ xs, Inline (f x)) :
    Inline (xs.flatMap f) := by
  induction xs with
  | nil => exact inline_nil
  | cons x xs ih =>
    rw [List.flatMap_cons]
    exact inline_append (h x List.mem_cons_self) (ih fun y hy => h y (List.mem_cons_of_mem _ hy))

theorem trimRight_append_of_isBlank (s : List Char) {blanks : List Char}
    (h : isBlank blanks = true) : trimRight (s ++ blanks) = trimRight s := by
  have hr : ∀ c ∈ blanks.reverse, isWhite c = true := by
    intro c hc
    exact isWhite_of_isBlank h (List.mem_reverse.1 hc)
  rw [trimRight, List.reverse_append, List.dropWhile_append_of_pos hr, trimRight]

theorem trim_append_of_isBlank (s : List Char) {blanks : List Char} (h : isBlank blanks = true) :
    trim (s ++ blanks) = trim s := by
  cases hs : isBlank s with
  | true =>
    have hall : isBlank (s ++ blanks) = true := by rw [isBlank_append, hs, h]; rfl
    rw [trim, trim, trimLeft_of_isBlank hall, trimLeft_of_isBlank hs]
  | false =>
    obtain ⟨c, hc, hw⟩ := List.all_eq_false.1 hs
    rw [trim, trimLeft_append_of_mem hc (by simpa using hw), trimRight_append_of_isBlank _ h, trim]

theorem trimLeft_append_of_isBlank {blanks : List Char} (h : isBlank blanks = true)
    (s : List Char) : trimLeft (blanks ++ s) = trimLeft s := by
  have hb : ∀ c ∈ blanks, isWhite c = true := fun c hc => isWhite_of_isBlank h hc
  rw [trimLeft, List.dropWhile_append_of_pos hb, trimLeft]

theorem trimLeft_of_head {s : List Char} (h : ∀ c ∈ s.head?, isWhite c = false) :
    trimLeft s = s := by
  cases s with
  | nil => rfl
  | cons c s =>
    have hc : isWhite c = false := h c rfl
    simp [trimLeft, hc]

theorem trim_of_solid {s : List Char} (h : Solid s) : trim s = s := by
  obtain ⟨-, hhead, hlast⟩ := h
  have hr : s.reverse.dropWhile isWhite = s.reverse :=
    trimLeft_of_head (by rw [List.head?_reverse]; exact hlast)
  rw [trim, trimLeft_of_head hhead, trimRight, hr, List.reverse_reverse]

theorem trim_append_append {margin s ending : List Char} (hm : isBlank margin = true)
    (he : isBlank ending = true) : trim (margin ++ (s ++ ending)) = trim s := by
  rw [trim, trimLeft_append_of_isBlank hm, ← trim, trim_append_of_isBlank _ he]

theorem trim_dropReturn (s : List Char) : trim (dropReturn s) = trim s := by
  obtain ⟨ending, he, hs⟩ := dropReturn_append s
  conv => rhs; rw [hs, trim_append_of_isBlank _ he]

/-- A line is trimmed to the text that stands on it. -/
theorem trim_line {margin s ending : List Char} (hm : isBlank margin = true) (hs : Solid s)
    (he : isBlank ending = true) : trim (dropReturn (margin ++ s ++ ending)) = s := by
  rw [trim_dropReturn, List.append_assoc, trim_append_append hm he, trim_of_solid hs]

/-- The last line of such a text is not empty, so that its lines are its pieces when they are
trimmed. -/
theorem map_trim_lines (s : List Char) {c : Char} (hc : c ≠ '\n') :
    (lines (s ++ [c])).map trim = (pieces '\n' (s ++ [c])).map trim := by
  obtain ⟨ps, last, hpieces⟩ := pieces_append_singleton hc s
  rw [lines, hpieces, endLines_append_singleton ps (by simp), List.map_append, List.map_append,
    List.map_map]
  congr 1
  exact List.map_congr_left fun p _ => trim_dropReturn p

def firstLine (s : List Char) : List Char := s.takeWhile (· != '\n')

theorem lineFeed_notMem_firstLine (s : List Char) : '\n' ∉ firstLine s := by
  intro h
  simpa using List.mem_takeWhile_imp h

theorem firstLine_append {s : List Char} (h : '\n' ∉ s) (t : List Char) :
    firstLine (s ++ t) = s ++ firstLine t := by
  apply List.takeWhile_append_of_pos
  intro c hc
  rw [bne_iff_ne]
  rintro rfl
  exact h hc

theorem eq_firstLine_append (s : List Char) :
    s = firstLine s ∨ ∃ t, s = firstLine s ++ '\n' :: t := by
  have hs : s = firstLine s ++ s.dropWhile (· != '\n') := List.takeWhile_append_dropWhile.symm
  cases ht : s.dropWhile (· != '\n') with
  | nil =>
    rw [ht, List.append_nil] at hs
    exact Or.inl hs
  | cons c t =>
    have hc := of_mem_head?_dropWhile (p := (· != '\n')) (s := s) (c := c) (by rw [ht]; rfl)
    rw [bne_eq_false_iff_eq] at hc
    rw [ht, hc] at hs
    exact Or.inr ⟨t, hs⟩

/-- The first of the lines is the text up to the line feed, but for a carriage return there. -/
theorem exists_headD_lines (s : List Char) :
    ∃ ending, isBlank ending = true ∧ firstLine s = (lines s).headD [] ++ ending := by
  rcases eq_firstLine_append s with hs | ⟨t, hs⟩
  · have hfeed := lineFeed_notMem_firstLine s
    rw [← hs] at hfeed ⊢
    refine ⟨[], rfl, ?_⟩
    rw [List.append_nil, lines, pieces_of_notMem hfeed, endLines]
    split
    · assumption
    · rfl
  · obtain ⟨ending, hending, hfirst⟩ := dropReturn_append (firstLine s)
    refine ⟨ending, hending, hfirst.trans (congrArg (· ++ ending) ?_)⟩
    conv => rhs; rw [hs, lines, pieces_append (lineFeed_notMem_firstLine s)]
    rw [endLines]
    · rfl
    · exact pieces_ne_nil _ _

end SchemaQuery.Text
