import SchemaQuery.Attribute.Scanner
import SchemaQuery.Proofs.Text.Lines
import SchemaQuery.Proofs.Token.Spelling

/-!
# Attributes that are written down

A line of attributes is scanned to the attributes it was written from. The argument text of an
attribute is kept as it stands if its parentheses match and its quoted texts are closed.
-/

set_option autoImplicit false

namespace SchemaQuery

open SchemaQuery.Unicode SchemaQuery.Text

namespace Attribute

inductive Closed : List Char → Prop
  | quote : Closed ['"']
  | plain {c : Char} {s : List Char} : c ≠ '"' → c ≠ '\\' → Closed s → Closed (c :: s)
  | escaped {c : Char} {s : List Char} : Closed s → Closed ('\\' :: c :: s)

/-- Quoted texts are closed, and parentheses outside of them match. -/
inductive Balanced : List Char → Prop
  | nil : Balanced []
  | plain {c : Char} {s : List Char} : c ≠ '"' → c ≠ '(' → c ≠ ')' → Balanced s → Balanced (c :: s)
  | quoted {q s : List Char} : Closed q → Balanced s → Balanced ('"' :: (q ++ s))
  | group {s t : List Char} : Balanced s → Balanced t → Balanced ('(' :: (s ++ ')' :: t))

theorem closed_of_spells {value spelled : List Char} (h : Token.Spells value spelled) :
    Closed (spelled ++ ['"']) := by
  induction h with
  | nil => exact Closed.quote
  | plain hq hb _ ih => exact Closed.plain hq hb ih
  | escaped _ _ ih => exact Closed.escaped ih

theorem balanced_append {s t : List Char} (hs : Balanced s) (ht : Balanced t) :
    Balanced (s ++ t) := by
  induction hs with
  | nil => exact ht
  | plain hq ho hc _ ih => exact Balanced.plain hq ho hc ih
  | @quoted q s hq _ ih =>
    rw [List.cons_append, List.append_assoc]
    exact Balanced.quoted hq ih
  | @group s u hs _ _ ihu =>
    rw [List.cons_append, List.append_assoc, List.cons_append]
    exact Balanced.group hs ihu

theorem splitGroup_true_plain (depth : Nat) {c : Char} (h : c ≠ '\\') (s : List Char) :
    splitGroup depth true (c :: s) =
      splitGroup.keep c (splitGroup depth (c != '"') s) := by
  rw [splitGroup]
  · intro e
    exact absurd e h
  · intro d t e
    exact absurd e h

theorem splitGroup_false (depth : Nat) (c : Char) (s : List Char) :
    splitGroup depth false (c :: s) =
      if c = '"' then splitGroup.keep c (splitGroup depth true s)
      else if c = '(' then splitGroup.keep c (splitGroup (depth + 1) false s)
      else if c = ')' then
        match depth with
        | 0 => ([], s)
        | depth + 1 => splitGroup.keep c (splitGroup depth false s)
      else splitGroup.keep c (splitGroup depth false s) := by
  cases depth with
  | zero => rw [splitGroup]
  | succ depth => rw [splitGroup]

theorem splitGroup_of_closed {q : List Char} (h : Closed q) (depth : Nat) (rest : List Char) :
    splitGroup depth true (q ++ rest) =
      (q ++ (splitGroup depth false rest).1, (splitGroup depth false rest).2) := by
  induction h with
  | quote =>
    rw [List.singleton_append, splitGroup_true_plain depth (by decide)]
    rfl
  | @plain c s hq hb _ ih =>
    rw [List.cons_append, splitGroup_true_plain depth hb, bne_iff_ne.2 hq, ih]
    rfl
  | escaped _ ih =>
    rw [List.cons_append, List.cons_append, splitGroup, ih]
    rfl

/-- A balanced text is taken into the group as a whole. -/
theorem splitGroup_of_balanced {s : List Char} (h : Balanced s) (depth : Nat)
    (rest : List Char) : splitGroup depth false (s ++ rest) =
      (s ++ (splitGroup depth false rest).1, (splitGroup depth false rest).2) := by
  induction h generalizing depth rest with
  | nil => rfl
  | plain hq ho hc _ ih =>
    rw [List.cons_append, splitGroup_false, if_neg hq, if_neg ho, if_neg hc, ih]
    rfl
  | quoted hq _ ih =>
    rw [List.cons_append, splitGroup_false, if_pos rfl, List.append_assoc,
      splitGroup_of_closed hq, ih, ← List.append_assoc]
    rfl
  | group _ _ ihs iht =>
    rw [List.cons_append, splitGroup_false, if_neg (by decide), if_pos rfl, List.append_assoc, ihs,
      List.cons_append, splitGroup_false, if_neg (by decide), if_neg (by decide), if_pos rfl]
    simp only [splitGroup.keep, iht]
    simp only [List.cons_append, List.append_assoc]

theorem splitGroup_closing {s : List Char} (h : Balanced s) (rest : List Char) :
    splitGroup 0 false (s ++ ')' :: rest) = (s, rest) := by
  have hclose : splitGroup 0 false (')' :: rest) = ([], rest) := by
    rw [splitGroup_false, if_neg (by decide), if_neg (by decide), if_pos rfl]
  rw [splitGroup_of_balanced h, hclose, List.append_nil]

def writtenArgs : Option String → List Char
  | none => []
  | some args => '(' :: (args.toList ++ [')'])

def written (a : Attribute) : List Char :=
  (if a.block then ['@', '@'] else ['@']) ++ a.name.toList ++ writtenArgs a.args

def Sound (a : Attribute) : Prop :=
  a.name.toList ≠ [] ∧ (∀ c ∈ a.name.toList, isNameChar c = true) ∧
    ∀ args ∈ a.args, Balanced args.toList

def Apart (s : List Char) : Prop := ∀ c ∈ s.head?, isNameChar c = false ∧ c ≠ '('

theorem argsAfterName_written {args : Option String}
    (hargs : ∀ text ∈ args, Balanced text.toList) {rest : List Char} (hrest : Apart rest) :
    argsAfterName (writtenArgs args ++ rest) = (args, rest) := by
  cases args with
  | none =>
    rw [writtenArgs, List.nil_append]
    cases rest with
    | nil => rfl
    | cons c rest =>
      have hc : c ≠ '(' := (hrest c rfl).2
      unfold argsAfterName
      split
      · rename_i s heq
        cases heq
        exact absurd rfl hc
      · rfl
  | some text =>
    rw [writtenArgs, List.cons_append, List.append_assoc, argsAfterName]
    simp only [List.singleton_append, splitGroup_closing (hargs text rfl), String.ofList_toList]

theorem afterMarks_name {block : Bool} {name s : List Char} (hne : name ≠ [])
    (hname : ∀ c ∈ name, isNameChar c = true) (hs : ∀ c ∈ s.head?, isNameChar c = false) :
    afterMarks block (name ++ s) =
      (some ⟨String.ofList name, (argsAfterName s).1, block⟩, (argsAfterName s).2) := by
  obtain ⟨htake, hdrop⟩ := cut_append hname hs
  unfold afterMarks
  rw [htake, hdrop]
  split
  · exact absurd rfl hne
  · rfl

theorem afterMarks_written {a : Attribute} (ha : a.Sound) {rest : List Char} (hrest : Apart rest) :
    afterMarks a.block (a.name.toList ++ (writtenArgs a.args ++ rest)) = (some a, rest) := by
  obtain ⟨hne, hname, hargs⟩ := ha
  have hopen : ∀ c ∈ (writtenArgs a.args ++ rest).head?, isNameChar c = false := by
    cases a.args with
    | none => exact fun c hc => (hrest c hc).1
    | some text =>
      rintro c ⟨⟩
      decide
  rw [afterMarks_name hne hname hopen, argsAfterName_written hargs hrest, String.ofList_toList]

def secondMark (block : Bool) : List Char := if block then ['@'] else []

theorem step_marks {block : Bool} {s : List Char} (h : block = false → s.head? ≠ some '@') :
    step '@' (secondMark block ++ s) = afterMarks block s := by
  cases block with
  | true => rfl
  | false =>
    have hs : secondMark false ++ s = s := rfl
    unfold step
    rw [if_neg (by decide), if_pos rfl, hs]
    split
    · rename_i t
      exact absurd rfl (h rfl)
    · rfl

theorem head?_name_append {name : List Char} (hne : name ≠ [])
    (hname : ∀ c ∈ name, isNameChar c = true) (rest : List Char) :
    (name ++ rest).head? ≠ some '@' := by
  cases name with
  | nil => exact absurd rfl hne
  | cons c name =>
    rintro ⟨⟩
    exact absurd (hname '@' List.mem_cons_self) (by decide)

theorem occurrences_written {a : Attribute} (ha : a.Sound) {rest : List Char} (hrest : Apart rest) :
    occurrences (a.written ++ rest) = a :: occurrences rest := by
  have hw : a.written ++ rest =
      '@' :: (secondMark a.block ++ (a.name.toList ++ (writtenArgs a.args ++ rest))) := by
    cases hb : a.block <;> simp [written, secondMark, hb]
  rw [hw, occurrences_cons, step_marks fun _ => head?_name_append ha.1 ha.2.1 _,
    afterMarks_written ha hrest]
  rfl

def row (as : List Attribute) : List Char := as.flatMap fun a => ' ' :: a.written

theorem written_head (a : Attribute) : ∃ rest, a.written = '@' :: rest := by
  unfold written
  cases a.block with
  | true => exact ⟨_, rfl⟩
  | false => exact ⟨_, rfl⟩

theorem isWhite_of_isNameChar {c : Char} (h : isNameChar c = true) : isWhite c = false := by
  simp only [isNameChar, Bool.or_eq_true, beq_iff_eq] at h
  rcases h with h | rfl
  · exact isWhite_of_isWordChar h
  · decide

theorem inline_of_isNameChar {s : List Char} (h : ∀ c ∈ s, isNameChar c = true) : Inline s := by
  refine ⟨fun hc => ?_, fun hc => ?_, fun hc => ?_⟩
  · exact absurd (h _ hc) (by decide)
  · exact absurd (h _ hc) (by decide)
  · exact absurd (h _ hc) (by decide)

theorem written_ne_nil (a : Attribute) : a.written ≠ [] := by
  unfold written
  cases a.block <;> simp

theorem endsSolid_written {a : Attribute} (h : a.Sound) : EndsSolid a.written := by
  obtain ⟨hne, hname, -⟩ := h
  have hsolid : EndsSolid a.name.toList :=
    endsSolid_of_forall fun c hc => isWhite_of_isNameChar (hname c hc)
  have hmarked : EndsSolid ((if a.block then ['@', '@'] else ['@']) ++ a.name.toList) :=
    endsSolid_append hsolid (Or.inl hne)
  unfold written
  cases a.args with
  | none =>
    rw [writtenArgs, List.append_nil]
    exact hmarked
  | some args =>
    have hclose : EndsSolid [')'] := by
      intro c hc
      cases hc
      decide
    have hgroup : EndsSolid (('(' :: args.toList) ++ [')']) :=
      endsSolid_append hclose (Or.inl (by simp))
    exact endsSolid_append hgroup (Or.inr hmarked)

theorem inline_written {a : Attribute} (h : a.Sound) (hargs : ∀ text ∈ a.args, Inline text.toList) :
    Inline a.written := by
  have hmarks : Inline (if a.block then ['@', '@'] else ['@']) := by
    cases a.block <;> decide
  unfold written
  apply inline_append (inline_append hmarks (inline_of_isNameChar h.2.1))
  cases ha : a.args with
  | none => exact inline_nil
  | some args =>
    have hclose : Inline [')'] := by decide
    exact inline_cons (by decide) (inline_append (hargs args ha) hclose)

theorem endsSolid_row {as : List Attribute} (h : ∀ a ∈ as, a.Sound) : EndsSolid (row as) := by
  induction as with
  | nil => exact endsSolid_of_forall (fun c hc => by cases hc)
  | cons a as ih =>
    have ha : EndsSolid ([' '] ++ a.written) :=
      endsSolid_append (endsSolid_written (h a List.mem_cons_self)) (Or.inl a.written_ne_nil)
    have hrest := ih fun b hb => h b (List.mem_cons_of_mem _ hb)
    exact endsSolid_append hrest (Or.inr ha)

theorem inline_row {as : List Attribute} (h : ∀ a ∈ as, a.Sound)
    (hargs : ∀ a ∈ as, ∀ text ∈ a.args, Inline text.toList) : Inline (row as) :=
  inline_flatMap fun a ha => inline_cons (by decide) (inline_written (h a ha) (hargs a ha))

end Attribute

namespace Attributes

theorem insert_items {as : Attributes} {a : Attribute}
    (h : a.marker ∉ as.items.map Attribute.marker) : (as.insert a).items = as.items ++ [a] := by
  rw [insert, dif_neg h]

theorem foldl_insert_items (list : List Attribute) (as : Attributes)
    (h : ((as.items ++ list).map Attribute.marker).Nodup) :
    (list.foldl insert as).items = as.items ++ list := by
  induction list generalizing as with
  | nil => simp
  | cons a list ih =>
    have ha : a.marker ∉ as.items.map Attribute.marker := by
      intro hmem
      rw [List.map_append, List.nodup_append] at h
      exact h.2.2 _ hmem _ (by simp) rfl
    have hitems := insert_items ha
    have hsplit : as.items ++ a :: list = (as.insert a).items ++ list := by simp [hitems]
    rw [List.foldl_cons, ih (as.insert a) (hsplit ▸ h), hsplit]

/-- Attributes that are all written differently are all kept. -/
theorem ofList_items {list : List Attribute} (h : (list.map Attribute.marker).Nodup) :
    (ofList list).items = list :=
  foldl_insert_items list empty h

end Attributes

end SchemaQuery
