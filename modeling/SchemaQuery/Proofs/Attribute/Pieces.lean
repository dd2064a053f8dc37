import SchemaQuery.Proofs.Attribute.Written

/-!
# The pieces of a line of attributes

A text is cut from left to right into quoted texts, attributes, marks without a name, single
characters and a comment at the end. Each piece is judged with the text that really follows it.
There is one such cut of every text, and the scan finds the attributes in it; of those that are
written alike it keeps the first.
-/

set_option autoImplicit false

namespace SchemaQuery

open SchemaQuery.Unicode SchemaQuery.Text

namespace Attribute

def Unclosed (s : List Char) : Prop := ∀ q rest, Closed q → s ≠ q ++ rest

def Unmatched (s : List Char) : Prop := ∀ args rest, Balanced args → s ≠ args ++ ')' :: rest

inductive Tail where
  | bare
  | closed (args : List Char)
  | unclosed (args : List Char)
  deriving DecidableEq, Repr

namespace Tail

def text : Tail → List Char
  | bare => []
  | closed args => '(' :: (args ++ [')'])
  | unclosed args => '(' :: args

def args? : Tail → Option String
  | bare => none
  | closed args => some (String.ofList args)
  | unclosed args => some (String.ofList args)

def Stands (rest : List Char) : Tail → Prop
  | bare => Apart rest
  | closed args => Balanced args
  | unclosed args => Unmatched args ∧ rest = []

end Tail

inductive Piece where
  | quoted (inner : List Char)
  | named (block : Bool) (name : List Char) (tail : Tail)
  | marks (block : Bool)
  | other (c : Char)
  | comment (inner : List Char)
  deriving DecidableEq, Repr

namespace Piece

def text : Piece → List Char
  | quoted inner => '"' :: inner
  | named block name tail => '@' :: (secondMark block ++ (name ++ tail.text))
  | marks block => '@' :: secondMark block
  | other c => [c]
  | comment inner => '/' :: '/' :: inner

def attribute? : Piece → Option Attribute
  | named block name tail => some ⟨String.ofList name, tail.args?, block⟩
  | _ => none

inductive Stands : (piece : Piece) → (rest : List Char) → Prop
  | closedQuote {inner rest : List Char} : Closed inner → Stands (quoted inner) rest
  | openQuote {inner : List Char} : Unclosed inner → Stands (quoted inner) []
  | named {block : Bool} {name : List Char} {tail : Tail} {rest : List Char} : name ≠ [] →
      (∀ c ∈ name, isNameChar c = true) → tail.Stands rest →
      Stands (named block name tail) rest
  | marks {block : Bool} {rest : List Char} : (∀ c ∈ rest.head?, isNameChar c = false) →
      (block = false → rest.head? ≠ some '@') → Stands (marks block) rest
  | other {c : Char} {rest : List Char} : c ≠ '"' → c ≠ '@' →
      ¬ (c = '/' ∧ rest.head? = some '/') → Stands (other c) rest
  | comment {inner : List Char} : Stands (comment inner) []

end Piece

inductive Splits : (s : List Char) → (pieces : List Piece) → Prop
  | nil : Splits [] []
  | cons {piece : Piece} {rest : List Char} {pieces : List Piece} : piece.Stands rest →
      Splits rest pieces → Splits (piece.text ++ rest) (piece :: pieces)

section Quotes

theorem skipQuoted_plain {c : Char} (h : c ≠ '\\') (s : List Char) :
    skipQuoted (c :: s) = if c = '"' then s else skipQuoted s := by
  rw [skipQuoted]
  · intro e
    exact absurd e h
  · intro d t e
    exact absurd e h

theorem skipQuoted_of_closed {q : List Char} (h : Closed q) (rest : List Char) :
    skipQuoted (q ++ rest) = rest := by
  induction h with
  | quote => rw [List.singleton_append, skipQuoted_plain (by decide), if_pos rfl]
  | plain hq hb _ ih => rw [List.cons_append, skipQuoted_plain hb, if_neg hq, ih]
  | escaped _ ih => rw [List.cons_append, List.cons_append, skipQuoted, ih]

theorem Unclosed.of_escaped {c : Char} {s : List Char} (h : Unclosed ('\\' :: c :: s)) :
    Unclosed s := by
  rintro q rest hq rfl
  exact h _ rest (Closed.escaped hq) rfl

theorem Unclosed.of_plain {c : Char} {s : List Char} (h : Unclosed (c :: s)) (hc : c ≠ '\\') :
    c ≠ '"' ∧ Unclosed s := by
  have hquote : c ≠ '"' := by
    rintro rfl
    exact h _ s Closed.quote rfl
  refine ⟨hquote, ?_⟩
  rintro q rest hq rfl
  exact h _ rest (Closed.plain hquote hc hq) rfl

theorem skipQuoted_of_unclosed {s : List Char} (h : Unclosed s) : skipQuoted s = [] := by
  fun_induction skipQuoted s with
  | case1 => rfl
  | case2 => rfl
  | case3 c s ih => exact ih h.of_escaped
  | case4 s => exact absurd rfl (h _ s Closed.quote)
  | case5 c s hlast hescape hc ih =>
    have hbackslash : c ≠ '\\' := by
      rintro rfl
      cases s with
      | nil => exact hlast rfl rfl
      | cons d s => exact hescape d s rfl rfl
    exact ih (h.of_plain hbackslash).2

theorem splitGroup_of_unclosed {s : List Char} (h : Unclosed s) (depth : Nat) :
    splitGroup depth true s = (s, []) := by
  fun_induction skipQuoted s with
  | case1 => rfl
  | case2 => rfl
  | case3 c s ih => rw [splitGroup, ih h.of_escaped]; rfl
  | case4 s => exact absurd rfl (h _ s Closed.quote)
  | case5 c s hlast hescape hc ih =>
    have hbackslash : c ≠ '\\' := by
      rintro rfl
      cases s with
      | nil => exact hlast rfl rfl
      | cons d s => exact hescape d s rfl rfl
    rw [splitGroup_true_plain depth hbackslash, bne_iff_ne.2 hc, ih (h.of_plain hbackslash).2]
    rfl

theorem closed_or_unclosed (s : List Char) : (∃ q rest, Closed q ∧ s = q ++ rest) ∨ Unclosed s := by
  by_cases h : ∃ q rest, Closed q ∧ s = q ++ rest
  · exact Or.inl h
  · exact Or.inr fun q rest hq hs => h ⟨q, rest, hq, hs⟩

end Quotes

section Groups

inductive Closes : (depth : Nat) → (s : List Char) → Prop
  | last {s : List Char} : Balanced s → Closes 0 s
  | group {depth : Nat} {s t : List Char} : Balanced s → Closes depth t →
      Closes (depth + 1) (s ++ ')' :: t)

theorem Closes.prepend {depth : Nat} {s t : List Char} (ht : Closes depth t) (hs : Balanced s) :
    Closes depth (s ++ t) := by
  cases ht with
  | last h => exact Closes.last (balanced_append hs h)
  | group h hrest =>
    rw [← List.append_assoc]
    exact Closes.group (balanced_append hs h) hrest

theorem Closes.open {depth : Nat} {s : List Char} (h : Closes (depth + 1) s) :
    Closes depth ('(' :: s) := by
  cases h with
  | @group _ s t hs ht =>
    have hgroup : Balanced ('(' :: (s ++ ')' :: [])) := Balanced.group hs Balanced.nil
    have hsplit : '(' :: (s ++ ')' :: t) = '(' :: (s ++ ')' :: []) ++ t := by simp
    rw [hsplit]
    exact ht.prepend hgroup

inductive GroupEnds (depth : Nat) (s : List Char) : Prop
  | closed {args rest : List Char} : s = args ++ ')' :: rest → Closes depth args →
      splitGroup depth false s = (args, rest) → GroupEnds depth s
  | unclosed : splitGroup depth false s = (s, []) → GroupEnds depth s

/-- A front that the group takes in as a whole does not decide where it ends. -/
theorem GroupEnds.prepend {depth depth' : Nat} {s : List Char} (h : GroupEnds depth' s)
    (front : List Char) (hfront : splitGroup depth false (front ++ s) =
      (front ++ (splitGroup depth' false s).1, (splitGroup depth' false s).2))
    (hcloses : ∀ args, Closes depth' args → Closes depth (front ++ args)) :
    GroupEnds depth (front ++ s) := by
  cases h with
  | closed hs hargs hsplit =>
    rw [hsplit] at hfront
    exact .closed (by rw [hs, List.append_assoc]) (hcloses _ hargs) hfront
  | unclosed hsplit =>
    rw [hsplit] at hfront
    exact .unclosed hfront

theorem groupEnds_of_balanced {depth : Nat} {front s : List Char} (hfront : Balanced front)
    (h : GroupEnds depth s) : GroupEnds depth (front ++ s) :=
  h.prepend front (splitGroup_of_balanced hfront depth s) fun _ hargs => hargs.prepend hfront

/-- A group ends at the parenthesis that closes it, or else at the end of the text. -/
theorem groupEnds (s : List Char) (depth : Nat) : GroupEnds depth s := by
  induction hn : s.length using Nat.strongRecOn generalizing s depth with
  | _ n ih =>
  subst hn
  cases s with
  | nil => exact .unclosed rfl
  | cons c s =>
    have hrest (depth : Nat) : GroupEnds depth s := ih _ (Nat.lt_succ_self _) s depth rfl
    by_cases hquote : c = '"'
    · subst hquote
      rcases closed_or_unclosed s with ⟨q, t, hq, rfl⟩ | hopen
      · have hquoted : Balanced ('"' :: (q ++ [])) := Balanced.quoted hq Balanced.nil
        have hshort : t.length < ('"' :: (q ++ t)).length := by
          simp only [List.length_cons, List.length_append]
          omega
        rw [List.append_nil] at hquoted
        exact groupEnds_of_balanced hquoted (ih _ hshort t depth rfl)
      · apply GroupEnds.unclosed
        rw [splitGroup_false, if_pos rfl, splitGroup_of_unclosed hopen]
        rfl
    · by_cases hparen : c = '('
      · subst hparen
        exact (hrest (depth + 1)).prepend ['('] (splitGroup_false depth '(' s)
          fun _ hargs => hargs.open
      · by_cases hclose : c = ')'
        · subst hclose
          cases depth with
          | zero =>
            have hsplit : splitGroup 0 false (')' :: s) = ([], s) := splitGroup_false 0 ')' s
            exact .closed (List.nil_append _).symm (.last .nil) hsplit
          | succ depth =>
            exact (hrest depth).prepend [')'] (splitGroup_false (depth + 1) ')' s)
              fun _ hargs => .group (s := []) .nil hargs
        · have hplain : Balanced [c] := Balanced.plain hquote hparen hclose Balanced.nil
          exact groupEnds_of_balanced hplain (hrest depth)

theorem splitGroup_of_unmatched {s : List Char} (h : Unmatched s) :
    splitGroup 0 false s = (s, []) := by
  cases groupEnds s 0 with
  | closed hs hargs _ =>
    cases hargs with
    | last hbalanced => exact absurd hs (h _ _ hbalanced)
  | unclosed hsplit => exact hsplit

end Groups

section Scan

theorem Tail.opens {tail : Tail} {rest : List Char} (h : tail.Stands rest) :
    ∀ c ∈ (tail.text ++ rest).head?, isNameChar c = false := by
  cases tail with
  | bare => exact fun c hc => (h c hc).1
  | closed | unclosed =>
    rintro c ⟨⟩
    decide

theorem argsAfterName_tail {tail : Tail} {rest : List Char} (h : tail.Stands rest) :
    argsAfterName (tail.text ++ rest) = (tail.args?, rest) := by
  cases tail with
  | bare => exact @argsAfterName_written none (fun _ hargs => by cases hargs) rest h
  | closed args =>
    have hargs : splitGroup 0 false (args ++ ')' :: rest) = (args, rest) :=
      splitGroup_closing h rest
    rw [Tail.text, List.cons_append, List.append_assoc, List.singleton_append, argsAfterName]
    simp only [hargs]
    rfl
  | unclosed args =>
    obtain ⟨hargs, rfl⟩ := h
    rw [Tail.text, List.append_nil, argsAfterName]
    simp only [splitGroup_of_unmatched hargs]
    rfl

theorem afterMarks_of_noName {block : Bool} {s : List Char}
    (h : ∀ c ∈ s.head?, isNameChar c = false) : afterMarks block s = (none, s) := by
  have hcut := cut_append (s := []) (fun c hc => by cases hc) h
  rw [List.nil_append] at hcut
  rw [afterMarks, hcut.1]

/-- One step of the scan takes a piece off the front of the text, and the attribute in it. -/
theorem step_of_stands {piece : Piece} {rest : List Char} (h : piece.Stands rest) :
    ∃ c s, piece.text ++ rest = c :: s ∧ step c s = (piece.attribute?, rest) := by
  cases h with
  | @closedQuote inner _ hinner =>
    refine ⟨'"', inner ++ rest, rfl, ?_⟩
    unfold step
    rw [if_pos rfl, skipQuoted_of_closed hinner]
    rfl
  | @openQuote inner hinner =>
    refine ⟨'"', inner ++ [], rfl, ?_⟩
    unfold step
    rw [if_pos rfl, List.append_nil, skipQuoted_of_unclosed hinner]
    rfl
  | @named block name tail _ hne hname htail =>
    refine ⟨'@', secondMark block ++ (name ++ (tail.text ++ rest)), by simp [Piece.text], ?_⟩
    rw [step_marks fun _ => head?_name_append hne hname _,
      afterMarks_name hne hname (Tail.opens htail), argsAfterName_tail htail]
    rfl
  | @marks block _ hname hmark =>
    refine ⟨'@', secondMark block ++ rest, rfl, ?_⟩
    rw [step_marks hmark, afterMarks_of_noName hname]
    rfl
  | @other c _ hquote hmark hslash =>
    refine ⟨c, rest, rfl, ?_⟩
    unfold step
    rw [if_neg hquote, if_neg hmark, if_neg hslash]
    rfl
  | @comment inner => exact ⟨'/', '/' :: (inner ++ []), rfl, rfl⟩

/-- The scan finds the attributes among the pieces. -/
theorem occurrences_of_splits {s : List Char} {pieces : List Piece} (h : Splits s pieces) :
    occurrences s = pieces.filterMap Piece.attribute? := by
  induction h with
  | nil => exact occurrences_nil
  | @cons piece rest pieces hpiece _ ih =>
    obtain ⟨c, s, hs, hstep⟩ := step_of_stands hpiece
    rw [hs, occurrences_cons, hstep, ih, List.filterMap_cons]
    cases piece.attribute? <;> rfl

end Scan

section Cut

theorem matched_or_unmatched (s : List Char) :
    (∃ args rest, Balanced args ∧ s = args ++ ')' :: rest) ∨ Unmatched s := by
  by_cases h : ∃ args rest, Balanced args ∧ s = args ++ ')' :: rest
  · exact Or.inl h
  · exact Or.inr fun args rest hargs hs => h ⟨args, rest, hargs, hs⟩

theorem exists_tail {s : List Char} (h : ∀ c ∈ s.head?, isNameChar c = false) :
    ∃ (tail : Tail) (rest : List Char), s = tail.text ++ rest ∧ tail.Stands rest := by
  by_cases hopen : s.head? = some '('
  · cases s with
    | nil => cases hopen
    | cons c s =>
      cases hopen
      rcases matched_or_unmatched s with ⟨args, rest, hargs, rfl⟩ | hargs
      · exact ⟨.closed args, rest, by simp [Tail.text], hargs⟩
      · exact ⟨.unclosed s, [], by simp [Tail.text], hargs, rfl⟩
  · refine ⟨.bare, s, rfl, fun c hc => ⟨h c hc, ?_⟩⟩
    rintro rfl
    exact hopen hc

theorem exists_marks (s : List Char) :
    ∃ block rest, s = secondMark block ++ rest ∧ (block = false → rest.head? ≠ some '@') := by
  by_cases h : s.head? = some '@'
  · cases s with
    | nil => cases h
    | cons c s =>
      cases h
      exact ⟨true, s, rfl, fun hb => by cases hb⟩
  · exact ⟨false, s, rfl, fun _ => h⟩

/-- Every text but the empty one has a piece at its front. -/
theorem exists_stands (c : Char) (s : List Char) :
    ∃ (piece : Piece) (rest : List Char), c :: s = piece.text ++ rest ∧ piece.Stands rest := by
  by_cases hquote : c = '"'
  · subst hquote
    rcases closed_or_unclosed s with ⟨q, rest, hq, rfl⟩ | hopen
    · exact ⟨.quoted q, rest, rfl, .closedQuote hq⟩
    · exact ⟨.quoted s, [], by simp [Piece.text], .openQuote hopen⟩
  · by_cases hmark : c = '@'
    · subst hmark
      obtain ⟨block, t, rfl, hsecond⟩ := exists_marks s
      have hname : ∀ c ∈ t.takeWhile isNameChar, isNameChar c = true :=
        fun c hc => List.mem_takeWhile_imp hc
      have hstop : ∀ c ∈ (t.dropWhile isNameChar).head?, isNameChar c = false :=
        fun c hc => of_mem_head?_dropWhile hc
      have hcut : t.takeWhile isNameChar ++ t.dropWhile isNameChar = t :=
        List.takeWhile_append_dropWhile
      by_cases hne : t.takeWhile isNameChar = []
      · rw [hne, List.nil_append] at hcut
        rw [hcut] at hstop
        exact ⟨.marks block, t, rfl, .marks hstop hsecond⟩
      · obtain ⟨tail, rest, htail, hstands⟩ := exists_tail hstop
        refine ⟨.named block (t.takeWhile isNameChar) tail, rest, ?_, .named hne hname hstands⟩
        rw [htail] at hcut
        simp [Piece.text, hcut]
    · by_cases hslash : c = '/' ∧ s.head? = some '/'
      · obtain ⟨rfl, hhead⟩ := hslash
        cases s with
        | nil => cases hhead
        | cons d s =>
          cases hhead
          exact ⟨.comment s, [], by simp [Piece.text], .comment⟩
      · exact ⟨.other c, s, rfl, .other hquote hmark hslash⟩

theorem exists_splits (s : List Char) : ∃ pieces, Splits s pieces := by
  induction hn : s.length using Nat.strongRecOn generalizing s with
  | _ n ih =>
  subst hn
  cases s with
  | nil => exact ⟨[], .nil⟩
  | cons c s =>
    obtain ⟨piece, rest, hs, hpiece⟩ := exists_stands c s
    obtain ⟨d, t, ht, hstep⟩ := step_of_stands hpiece
    have hshort : rest.length < (c :: s).length := by
      have hle := length_step_le d t
      rw [hstep] at hle
      rw [hs, ht]
      exact Nat.lt_succ_of_le hle
    obtain ⟨pieces, hpieces⟩ := ih _ hshort rest rfl
    rw [hs]
    exact ⟨piece :: pieces, .cons hpiece hpieces⟩

theorem Tail.eq_of_text {tail other : Tail} (htext : tail.text = other.text)
    (hargs : tail.args? = other.args?) : tail = other := by
  cases tail <;> cases other <;> simp_all [Tail.text, Tail.args?, String.ofList_inj]

theorem Piece.Stands.other_ne {c : Char} {rest : List Char} (h : (Piece.other c).Stands rest) :
    c ≠ '"' ∧ c ≠ '@' := by
  cases h with
  | other hquote hmark _ => exact ⟨hquote, hmark⟩

theorem Piece.eq_of_text {piece other : Piece} {rest rest' : List Char} (h : piece.Stands rest)
    (h' : other.Stands rest') (htext : piece.text = other.text)
    (hfound : piece.attribute? = other.attribute?) : piece = other := by
  cases piece with
  | named block name tail =>
    cases other with
    | named block' name' tail' =>
      simp only [attribute?, Option.some.injEq, Attribute.mk.injEq, String.ofList_inj] at hfound
      obtain ⟨rfl, hargs, rfl⟩ := hfound
      simp only [text, List.cons.injEq, List.append_cancel_left_eq, true_and] at htext
      rw [Tail.eq_of_text htext hargs]
    | quoted | marks | other | comment => cases hfound
  | quoted inner =>
    cases other with
    | quoted inner' => cases htext; rfl
    | other c => exact absurd (List.cons.inj htext).1.symm h'.other_ne.1
    | named => cases hfound
    | marks | comment => cases htext
  | marks block =>
    cases other with
    | marks block' => cases block <;> cases block' <;> first | rfl | cases htext
    | other c => exact absurd (List.cons.inj htext).1.symm h'.other_ne.2
    | named => cases hfound
    | quoted | comment => cases htext
  | other c =>
    cases other with
    | other c' => cases htext; rfl
    | quoted => exact absurd (List.cons.inj htext).1 h.other_ne.1
    | marks => exact absurd (List.cons.inj htext).1 h.other_ne.2
    | named => cases hfound
    | comment => cases htext
  | comment inner =>
    cases other with
    | comment inner' => cases htext; rfl
    | named => cases hfound
    | quoted | marks | other => cases htext

/-- Two pieces at the front of one text are the same. -/
theorem stands_unique {piece other : Piece} {rest rest' : List Char} (h : piece.Stands rest)
    (h' : other.Stands rest') (hs : piece.text ++ rest = other.text ++ rest') :
    piece = other ∧ rest = rest' := by
  obtain ⟨c, s, ht, hstep⟩ := step_of_stands h
  obtain ⟨d, t, ht', hstep'⟩ := step_of_stands h'
  rw [← hs, ht] at ht'
  cases ht'
  rw [hstep, Prod.mk.injEq] at hstep'
  obtain ⟨hfound, rfl⟩ := hstep'
  exact ⟨Piece.eq_of_text h h' (List.append_cancel_right hs) hfound, rfl⟩

theorem splits_unique {s : List Char} {pieces others : List Piece} (h : Splits s pieces)
    (h' : Splits s others) : others = pieces := by
  induction h generalizing others with
  | nil =>
    generalize hs : ([] : List Char) = s at h'
    cases h' with
    | nil => rfl
    | cons hpiece _ =>
      obtain ⟨c, t, ht, -⟩ := step_of_stands hpiece
      rw [ht] at hs
      cases hs
  | @cons piece rest pieces hpiece _ ih =>
    generalize hs : piece.text ++ rest = s at h'
    cases h' with
    | nil =>
      obtain ⟨c, t, ht, -⟩ := step_of_stands hpiece
      rw [ht] at hs
      cases hs
    | cons hother hrest =>
      obtain ⟨rfl, rfl⟩ := stands_unique hpiece hother hs
      rw [ih hrest]

end Cut

def alike (a b : Attribute) : Bool := a.marker == b.marker

end Attribute

namespace Attributes

open Attribute (alike)

theorem insert_of_mem {as : Attributes} {a : Attribute}
    (h : a.marker ∈ as.items.map Attribute.marker) : as.insert a = as := dif_pos h

/-- Attributes that are put in one after another are kept unless one of their marker is there. -/
theorem items_foldl_insert (list : List Attribute) (as : Attributes) :
    (list.foldl insert as).items = as.items ++
      (list.filter fun a => a.marker ∉ as.items.map Attribute.marker).eraseDupsBy alike := by
  induction list generalizing as with
  | nil => simp
  | cons a list ih =>
    rw [List.foldl_cons, ih]
    by_cases h : a.marker ∈ as.items.map Attribute.marker
    · rw [insert_of_mem h, List.filter_cons_of_neg (by simpa using h)]
    · rw [insert_items h, List.filter_cons_of_pos (by simpa using h), List.eraseDupsBy_cons,
        List.filter_filter, List.append_assoc, List.singleton_append]
      congr 3
      apply List.filter_congr
      intro b _
      simp [alike, and_comm]

theorem items_ofList (list : List Attribute) : (ofList list).items = list.eraseDupsBy alike := by
  have hitems := items_foldl_insert list empty
  have hall : (list.filter fun a => a.marker ∉ empty.items.map Attribute.marker) = list := by
    simp [empty]
  rw [hall] at hitems
  exact hitems

theorem get?_insert (as : Attributes) (a : Attribute) (marker : String) :
    (as.insert a).get? marker = (as.get? marker).or ([a].find? (·.marker == marker)) := by
  by_cases h : a.marker ∈ as.items.map Attribute.marker
  · rw [insert_of_mem h]
    by_cases hm : a.marker = marker
    · obtain ⟨b, hb, hmarker⟩ := List.mem_map.1 h
      have hsome : (as.get? marker).isSome := by
        rw [get?, List.find?_isSome]
        exact ⟨b, hb, by simp [hmarker, hm]⟩
      rw [Option.or_of_isSome hsome]
    · simp [hm]
  · rw [get?, insert_items h, List.find?_append, get?]

theorem get?_foldl_insert (list : List Attribute) (as : Attributes) (marker : String) :
    (list.foldl insert as).get? marker =
      (as.get? marker).or (list.find? (·.marker == marker)) := by
  induction list generalizing as with
  | nil => simp
  | cons a list ih =>
    rw [List.foldl_cons, ih, get?_insert, Option.or_assoc, ← List.find?_append,
      List.singleton_append]

theorem get?_ofList (list : List Attribute) (marker : String) :
    (ofList list).get? marker = list.find? (·.marker == marker) :=
  get?_foldl_insert list empty marker

end Attributes

namespace Attribute

/-- A text is cut into pieces in exactly one way. The scan keeps the attributes among the pieces in
order, of those that are written alike the first, and it is this one that a marker leads to. -/
theorem scan_exactly (s : List Char) :
    ∃ pieces, Splits s pieces ∧ (∀ others, Splits s others → others = pieces) ∧
      (scan s).items = (pieces.filterMap Piece.attribute?).eraseDupsBy alike ∧
      (scan s).size = ((pieces.filterMap Piece.attribute?).eraseDupsBy alike).length ∧
      ∀ marker,
        (scan s).get? marker =
          (pieces.filterMap Piece.attribute?).find? (·.marker == marker) ∧
        (scan s).has marker =
          (pieces.filterMap Piece.attribute?).any (·.marker == marker) ∧
        (scan s).args? marker =
          ((pieces.filterMap Piece.attribute?).find? (·.marker == marker)).bind (·.args) := by
  obtain ⟨pieces, hpieces⟩ := exists_splits s
  have hscan : scan s = Attributes.ofList (pieces.filterMap Piece.attribute?) := by
    rw [scan, occurrences_of_splits hpieces]
  have hitems := Attributes.items_ofList (pieces.filterMap Piece.attribute?)
  refine ⟨pieces, hpieces, fun others hothers => splits_unique hpieces hothers, ?_, ?_, ?_⟩
  · rw [hscan, hitems]
  · rw [hscan, Attributes.size, hitems]
  · intro marker
    have hget := Attributes.get?_ofList (pieces.filterMap Piece.attribute?) marker
    refine ⟨?_, ?_, ?_⟩
    · rw [hscan, hget]
    · rw [hscan, Attributes.has, hget, List.isSome_find?]
    · rw [hscan, Attributes.args?, hget]

end Attribute

end SchemaQuery
