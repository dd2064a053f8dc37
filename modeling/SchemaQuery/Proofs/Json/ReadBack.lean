import SchemaQuery.Json.Decoder
import SchemaQuery.Proofs.Json.QuotedText
import SchemaQuery.Proofs.Json.WholeNumber

/-!
# JSON text is read back

An exact value is read back from its characters, whatever blanks stand between them, and the reader
hands on what follows them. Three times the length of the text is depth enough for its recursion: a
step into a container, to an item of it and to the value of the item uses up a bracket.
-/

set_option autoImplicit false

namespace SchemaQuery.Json

open SchemaQuery.Unicode SchemaQuery.Text Spacing

theorem skipBlanks_append {blanks s : List Char} (h : ∀ c ∈ blanks, isBlank c = true)
    (hs : ∀ c ∈ s.head?, isBlank c = false) : skipBlanks (blanks ++ s) = s := by
  unfold skipBlanks
  rw [List.dropWhile_append_of_pos h]
  cases s with
  | nil => rfl
  | cons c s => exact List.dropWhile_cons_of_neg (by simp [hs c rfl])

theorem stops_of_isBlank {c : Char} (h : isBlank c = true) (s : List Char) : Stops (c :: s) := by
  apply stops_cons
  simp only [isBlank, Bool.or_eq_true, beq_iff_eq] at h
  rcases h with ((rfl | rfl) | rfl) | rfl
  all_goals decide

theorem stops_append {blanks s : List Char} (h : ∀ c ∈ blanks, isBlank c = true) (hs : Stops s) :
    Stops (blanks ++ s) := by
  cases blanks with
  | nil => exact hs
  | cons c blanks => exact stops_of_isBlank (h c List.mem_cons_self) _

def Opens (s : List Char) : Prop := ∃ c rest, s = c :: rest ∧ isBlank c = false ∧ c ≠ ']'

theorem opens_number (n : Int) : ∃ c rest, (toString n).toList = c :: rest ∧
    (c = '-' ∨ isDecimalDigit c = true) := by
  rw [NumberText.toList_toString]
  by_cases hn : n < 0
  · rw [NumberText.chars, NumberText.ofInt, decide_eq_true hn]
    exact ⟨_, _, rfl, Or.inl rfl⟩
  · rw [NumberText.chars, NumberText.ofInt, decide_eq_false hn]
    cases hd : Nat.toDigits 10 n.natAbs with
    | nil => exact absurd hd Nat.toDigits_ne_nil
    | cons d ds =>
      have hdigit := allDigits_toDigits n.natAbs d (hd ▸ List.mem_cons_self)
      exact ⟨d, _, rfl, Or.inr hdigit⟩

theorem isBlank_of_isDecimalDigit {c : Char} (h : isDecimalDigit c = true) :
    isBlank c = false ∧ c ≠ ']' ∧ c ≠ 'n' ∧ c ≠ 't' ∧ c ≠ 'f' ∧ c ≠ '"' ∧ c ≠ '[' ∧ c ≠ '{' := by
  have hne {d : Char} (hd : isDecimalDigit d = false) : c ≠ d := by
    rintro rfl
    rw [h] at hd
    cases hd
  refine ⟨?_, hne rfl, hne rfl, hne rfl, hne rfl, hne rfl, hne rfl, hne rfl⟩
  have hspace : c ≠ ' ' := hne rfl
  have hfeed : c ≠ '\n' := hne rfl
  have htab : c ≠ '\t' := hne rfl
  have hreturn : c ≠ '\r' := hne rfl
  simp [isBlank, hspace, hfeed, htab, hreturn]

theorem opens_chars (sp : Spacing) (depth : Nat) {v : Json} (h : Exact v) :
    Opens (sp.chars depth v) := by
  cases h with
  | null =>
    rw [chars]
    exact ⟨_, _, rfl, by decide⟩
  | bool b =>
    rw [chars]
    cases b <;> exact ⟨_, _, rfl, by decide⟩
  | @int n _ _ =>
    rw [chars, numberText]
    obtain ⟨c, rest, hc, hopen⟩ := opens_number n
    refine ⟨c, rest, hc, ?_⟩
    rcases hopen with rfl | hd
    · decide
    · exact ⟨(isBlank_of_isDecimalDigit hd).1, (isBlank_of_isDecimalDigit hd).2.1⟩
  | text s =>
    rw [chars, quoteChars]
    exact ⟨_, _, rfl, by decide⟩
  | @array items _ =>
    cases items with
    | nil =>
      rw [chars]
      exact ⟨_, _, rfl, by decide⟩
    | cons item items =>
      rw [chars]
      · exact ⟨_, _, rfl, by decide⟩
      · simp
  | @object members _ _ =>
    cases members with
    | nil =>
      rw [chars]
      exact ⟨_, _, rfl, by decide⟩
    | cons m members =>
      rw [chars]
      · exact ⟨_, _, rfl, by decide⟩
      · simp

theorem readScalar_number {n : Int} (hlow : -signedLimit ≤ n) (hhigh : n < unsignedLimit)
    {rest : List Char} (hrest : Stops rest) :
    readScalar ((toString n).toList ++ rest) = (.number (some (.int n)), some rest) := by
  have hread := NumberText.read_toString n hrest
  obtain ⟨c, tail, hc, hopen⟩ := opens_number n
  have hc' : c ≠ 'n' ∧ c ≠ 't' ∧ c ≠ 'f' ∧ c ≠ '"' := by
    rcases hopen with rfl | hd
    · decide
    · obtain ⟨-, -, hn, ht, hf, hq, -⟩ := isBlank_of_isDecimalDigit hd
      exact ⟨hn, ht, hf, hq⟩
  have hsign : (c = '-' || isDecimalDigit c) = true := by
    rcases hopen with rfl | hd
    · rfl
    · rw [hd, Bool.or_true]
  rw [hc, List.cons_append] at hread ⊢
  unfold readScalar
  simp only [hc'.1, hc'.2.1, hc'.2.2.1, hc'.2.2.2, hsign, if_false, if_true, hread,
    NumberText.value_ofInt hlow hhigh]

theorem readScalar_text (s : String) (rest : List Char) :
    readScalar (quoteChars s ++ rest) = (.text (some s), some rest) := by
  have hread := readText_escaped s rest
  rw [quoteChars, List.cons_append, List.append_assoc, List.singleton_append]
  unfold readScalar
  simp only [hread]
  rfl

def ReadsBack (sp : Spacing) (v : Json) : Prop :=
  ∀ (depth steps : Nat) (blanks rest : List Char), (∀ c ∈ blanks, isBlank c = true) → Stops rest →
    3 * (sp.chars depth v).length + 1 ≤ steps →
    readValue steps (blanks ++ (sp.chars depth v ++ rest)) = (toTree v, some rest)

theorem skipBlanks_chars (sp : Spacing) (depth : Nat) {v : Json} (h : Exact v) {blanks : List Char}
    (hblanks : ∀ c ∈ blanks, isBlank c = true) (rest : List Char) :
    skipBlanks (blanks ++ (sp.chars depth v ++ rest)) = sp.chars depth v ++ rest := by
  obtain ⟨c, t, hc, hblank, -⟩ := opens_chars sp depth h
  apply skipBlanks_append hblanks
  intro d hd
  rw [hc] at hd
  cases hd
  exact hblank

theorem skipBlanks_sign {blanks : List Char} (h : ∀ c ∈ blanks, isBlank c = true) {c : Char}
    (hc : isBlank c = false) (rest : List Char) : skipBlanks (blanks ++ c :: rest) = c :: rest :=
  skipBlanks_append h fun d hd => by
    cases hd
    exact hc

theorem readValue_scalar {steps : Nat} {s : List Char} {c : Char} {rest : List Char}
    (hs : skipBlanks s = c :: rest) (harray : c ≠ '[') (hobject : c ≠ '{') :
    readValue (steps + 1) s = readScalar (c :: rest) := by
  rw [readValue, hs]
  split
  · rename_i heq
    exact absurd (List.cons.inj heq).1 harray
  · rename_i heq
    exact absurd (List.cons.inj heq).1 hobject
  · rfl

theorem skipBlanks_skipBlanks (s : List Char) : skipBlanks (skipBlanks s) = skipBlanks s := by
  induction s with
  | nil => rfl
  | cons c s ih =>
    by_cases h : isBlank c = true
    · have hskip : skipBlanks (c :: s) = skipBlanks s := List.dropWhile_cons_of_pos h
      rw [hskip, ih]
    · have hkeep : skipBlanks (c :: s) = c :: s := List.dropWhile_cons_of_neg h
      rw [hkeep, hkeep]

theorem readValue_skipBlanks (steps : Nat) (s : List Char) :
    readValue steps (skipBlanks s) = readValue steps s := by
  cases steps with
  | zero => rw [readValue, readValue]
  | succ steps => rw [readValue, readValue, skipBlanks_skipBlanks]

theorem readItem_skipBlanks (steps : Nat) (s : List Char) :
    readItem steps (skipBlanks s) = readItem steps s := by
  cases steps with
  | zero => rw [readItem, readItem]
  | succ steps => rw [readItem, readItem, readValue_skipBlanks]

theorem readMember_skipBlanks (steps : Nat) (s : List Char) :
    readMember steps (skipBlanks s) = readMember steps s := by
  cases steps with
  | zero => rw [readMember, readMember]
  | succ steps => rw [readMember, readMember, skipBlanks_skipBlanks]

section Items

variable {sp : Spacing} {items : List Json} {steps : Nat}

theorem readItem_last {value : Tree} {s blanks rest : List Char}
    (hvalue : readValue steps s = (value, some (blanks ++ ']' :: rest)))
    (hblanks : ∀ c ∈ blanks, isBlank c = true) :
    readItem (steps + 1) s = (.item value .close, some rest) := by
  rw [readItem, hvalue]
  simp only [skipBlanks_sign hblanks (by decide : isBlank ']' = false)]

theorem readItem_comma {value : Tree} {s rest : List Char}
    (hvalue : readValue steps s = (value, some (',' :: rest))) :
    readItem (steps + 1) s =
      (.item value (readItem steps rest).1, (readItem steps rest).2) := by
  have hskip : skipBlanks (',' :: rest) = ',' :: rest := rfl
  rw [readItem, hvalue]
  simp only [hskip]

/-- One item after the other is read, up to the bracket that closes the array. -/
theorem readItem_itemChars (hback : ∀ item ∈ items, ReadsBack sp item) (hne : items ≠ [])
    {depth : Nat} {blanks rest : List Char} (hblanks : ∀ c ∈ blanks, isBlank c = true)
    (hsteps : 3 * (sp.itemChars depth items).length + 3 ≤ steps) :
    readItem steps (sp.itemChars depth items ++ (blanks ++ ']' :: rest)) =
      (treeItems items, some rest) := by
  induction items generalizing steps with
  | nil => exact absurd rfl hne
  | cons item items ih =>
    have hitem := hback item List.mem_cons_self
    have hline := sp.line_blank depth
    cases steps with
    | zero => omega
    | succ steps =>
      cases items with
      | nil =>
        rw [itemChars, List.length_append] at hsteps
        rw [itemChars, List.append_assoc]
        have hstop : Stops (blanks ++ ']' :: rest) :=
          stops_append hblanks (stops_cons (by decide) rest)
        have hvalue := hitem depth steps _ _ hline hstop (by omega)
        rw [readItem_last hvalue hblanks, treeItems, treeItems]
      | cons next items =>
        rw [itemChars_cons sp depth item (by simp)] at hsteps ⊢
        simp only [List.length_append, List.length_cons] at hsteps
        have hrest := @ih steps (fun x hx => hback x (List.mem_cons_of_mem _ hx)) (by simp)
          (by omega)
        have hstop : Stops (',' ::
            (sp.itemChars depth (next :: items) ++ (blanks ++ ']' :: rest))) :=
          stops_cons (by decide) _
        have hvalue := hitem depth steps _ _ hline hstop (by omega)
        rw [List.append_assoc, List.append_assoc, List.cons_append, readItem_comma hvalue, hrest]
        rfl

theorem readItems_open {s : List Char} {c : Char} {rest : List Char}
    (hs : skipBlanks s = c :: rest) (hc : c ≠ ']') :
    readItems (steps + 1) s = readItem steps s := by
  rw [← readItem_skipBlanks, readItems, hs]
  split
  · rename_i heq
    cases heq
  · rename_i heq
    exact absurd (List.cons.inj heq).1 hc
  · rfl

end Items

section Members

variable {sp : Spacing} {members : List (String × Json)} {steps : Nat}

def afterMember (steps : Nat) (name : String) (value : Tree) (rest : List Char) :
    Read TreeMembers :=
  match skipBlanks rest with
  | [] => (.member (some name) value (.stop .truncated), none)
  | '\x7d' :: rest => (.member (some name) value .close, some rest)
  | ',' :: rest => (.member (some name) value (readMember steps rest).1, (readMember steps rest).2)
  | _ => (.member (some name) value (.stop .malformed), none)

theorem readMember_opening {name : String} {value : Json} (hback : ReadsBack sp value)
    {depth : Nat} {rest : List Char} (hrest : Stops rest)
    (hsteps : 3 * (sp.chars depth value).length + 1 ≤ steps) {blanks : List Char}
    (hblanks : ∀ c ∈ blanks, isBlank c = true) :
    readMember (steps + 1)
        (blanks ++ (quoteChars name ++ ':' :: (sp.gap ++ (sp.chars depth value ++ rest)))) =
      afterMember steps name (toTree value) rest := by
  have hvalue := hback depth steps sp.gap rest sp.gap_blank hrest hsteps
  have hname := readText_escaped name (':' :: (sp.gap ++ (sp.chars depth value ++ rest)))
  have hcolon : ∀ s, skipBlanks (':' :: s) = ':' :: s := fun s => rfl
  have hquote := skipBlanks_sign hblanks (by decide : isBlank '"' = false)
  rw [quoteChars, List.cons_append, List.append_assoc, List.singleton_append, readMember, hquote]
  simp only [hname, hcolon, hvalue]
  rfl

theorem afterMember_brace {name : String} {value : Tree} {blanks : List Char}
    (hblanks : ∀ c ∈ blanks, isBlank c = true) (rest : List Char) :
    afterMember steps name value (blanks ++ '}' :: rest) =
      (.member (some name) value .close, some rest) := by
  simp only [afterMember, skipBlanks_sign hblanks (by decide : isBlank '}' = false)]

theorem afterMember_comma (name : String) (value : Tree) (rest : List Char) :
    afterMember steps name value (',' :: rest) =
      (.member (some name) value (readMember steps rest).1, (readMember steps rest).2) := by
  have hskip : skipBlanks (',' :: rest) = ',' :: rest := rfl
  simp only [afterMember, hskip]

/-- One member after the other is read, up to the brace that closes the object. -/
theorem readMember_memberChars (hback : ∀ m ∈ members, ReadsBack sp m.2) (hne : members ≠ [])
    {depth : Nat} {blanks rest : List Char} (hblanks : ∀ c ∈ blanks, isBlank c = true)
    (hsteps : 3 * (sp.memberChars depth members).length + 3 ≤ steps) :
    readMember steps (sp.memberChars depth members ++ (blanks ++ '}' :: rest)) =
      (treeMembers members, some rest) := by
  induction members generalizing steps with
  | nil => exact absurd rfl hne
  | cons m members ih =>
    obtain ⟨name, value⟩ := m
    have hvalue : ReadsBack sp value := hback (name, value) List.mem_cons_self
    have hline := sp.line_blank depth
    cases steps with
    | zero => omega
    | succ steps =>
      cases members with
      | nil =>
        rw [memberChars] at hsteps ⊢
        simp only [List.length_append, List.length_cons] at hsteps
        have hstop : Stops (blanks ++ '}' :: rest) :=
          stops_append hblanks (stops_cons (by decide) rest)
        simp only [List.append_assoc, List.cons_append]
        rw [readMember_opening hvalue hstop (by omega) hline, afterMember_brace hblanks,
          treeMembers, treeMembers]
      | cons next members =>
        rw [memberChars_cons sp depth name value (by simp)] at hsteps ⊢
        simp only [List.length_append, List.length_cons] at hsteps
        have hrest := @ih steps (fun x hx => hback x (List.mem_cons_of_mem _ hx)) (by simp)
          (by omega)
        have hstop : Stops (',' ::
            (sp.memberChars depth (next :: members) ++ (blanks ++ '}' :: rest))) :=
          stops_cons (by decide) _
        simp only [List.append_assoc, List.cons_append]
        rw [readMember_opening hvalue hstop (by omega) hline, afterMember_comma, hrest]
        rfl

theorem readMembers_open {s : List Char} {c : Char} {rest : List Char}
    (hs : skipBlanks s = c :: rest) (hc : c ≠ '}') :
    readMembers (steps + 1) s = readMember steps s := by
  rw [← readMember_skipBlanks, readMembers, hs]
  split
  · rename_i heq
    exact absurd (List.cons.inj heq).1 hc
  · rfl

end Members

theorem skipBlanks_itemChars (sp : Spacing) {items : List Json} (hne : items ≠ [])
    (h : ∀ item ∈ items, Exact item) (depth : Nat) (s : List Char) :
    ∃ c t, skipBlanks (sp.itemChars depth items ++ s) = c :: t ∧ c ≠ ']' := by
  cases items with
  | nil => exact absurd rfl hne
  | cons item items =>
    have hitem := h item List.mem_cons_self
    obtain ⟨c, t, hc, -, hclose⟩ := opens_chars sp depth hitem
    cases items with
    | nil =>
      rw [itemChars, List.append_assoc, skipBlanks_chars sp depth hitem (sp.line_blank depth), hc]
      exact ⟨c, t ++ s, rfl, hclose⟩
    | cons next items =>
      rw [itemChars_cons sp depth item (by simp), List.append_assoc, List.append_assoc,
        skipBlanks_chars sp depth hitem (sp.line_blank depth), hc]
      exact ⟨c, _, rfl, hclose⟩

theorem skipBlanks_memberChars (sp : Spacing) {members : List (String × Json)} (hne : members ≠ [])
    (depth : Nat) (s : List Char) :
    ∃ t, skipBlanks (sp.memberChars depth members ++ s) = '"' :: t := by
  have hquote := fun t => skipBlanks_sign (sp.line_blank depth) (by decide : isBlank '"' = false) t
  cases members with
  | nil => exact absurd rfl hne
  | cons m members =>
    obtain ⟨name, value⟩ := m
    cases members with
    | nil =>
      rw [memberChars, List.append_assoc, quoteChars, List.cons_append, List.cons_append, hquote]
      exact ⟨_, rfl⟩
    | cons next members =>
      rw [memberChars_cons sp depth name value (by simp), List.append_assoc, quoteChars,
        List.cons_append, List.cons_append, hquote]
      exact ⟨_, rfl⟩

theorem readsBack_array (sp : Spacing) {items : List Json} (h : ∀ item ∈ items, Exact item)
    (hback : ∀ item ∈ items, ReadsBack sp item) : ReadsBack sp (.array items) := by
  intro depth steps blanks rest hblanks hrest hsteps
  have hskip := fun t => skipBlanks_sign hblanks (by decide : isBlank '[' = false) t
  by_cases hne : items = []
  · subst hne
    rw [chars] at hsteps ⊢
    obtain ⟨n, rfl⟩ : ∃ n, steps = n + 2 := ⟨steps - 2, by simp at hsteps; omega⟩
    show readValue (n + 1 + 1) (blanks ++ '[' :: (']' :: rest)) = _
    have hclose : skipBlanks (']' :: rest) = ']' :: rest := rfl
    rw [readValue, hskip]
    simp only [readItems, hclose]
    rfl
  · rw [chars_array sp depth hne] at hsteps ⊢
    simp only [List.length_append, List.length_cons] at hsteps
    obtain ⟨n, rfl⟩ : ∃ n, steps = n + 2 := ⟨steps - 2, by omega⟩
    have hitems : readItem n
        (sp.itemChars (depth + 1) items ++ (sp.line depth ++ ']' :: rest)) =
          (treeItems items, some rest) :=
      readItem_itemChars hback hne (sp.line_blank depth) (by omega)
    obtain ⟨c, t, hc, hopen⟩ := skipBlanks_itemChars sp hne h (depth + 1)
      (sp.line depth ++ ']' :: rest)
    have hread : readItems (n + 1)
        (sp.itemChars (depth + 1) items ++ (sp.line depth ++ ']' :: rest)) =
          (treeItems items, some rest) := by
      rw [readItems_open hc hopen, hitems]
    rw [List.cons_append, List.append_assoc, List.append_assoc, List.singleton_append, readValue,
      hskip]
    simp only [hread]
    rfl

theorem readsBack_object (sp : Spacing) {members : List (String × Json)}
    (hback : ∀ m ∈ members, ReadsBack sp m.2) : ReadsBack sp (.object members) := by
  intro depth steps blanks rest hblanks hrest hsteps
  have hskip := fun t => skipBlanks_sign hblanks (by decide : isBlank '{' = false) t
  by_cases hne : members = []
  · subst hne
    rw [chars] at hsteps ⊢
    obtain ⟨n, rfl⟩ : ∃ n, steps = n + 2 := ⟨steps - 2, by simp at hsteps; omega⟩
    show readValue (n + 1 + 1) (blanks ++ '{' :: ('}' :: rest)) = _
    have hclose : skipBlanks ('}' :: rest) = '}' :: rest := rfl
    rw [readValue, hskip]
    simp only [readMembers, hclose]
    rfl
  · rw [chars_object sp depth hne] at hsteps ⊢
    simp only [List.length_append, List.length_cons] at hsteps
    obtain ⟨n, rfl⟩ : ∃ n, steps = n + 2 := ⟨steps - 2, by omega⟩
    have hmembers : readMember n
        (sp.memberChars (depth + 1) members ++ (sp.line depth ++ '}' :: rest)) =
          (treeMembers members, some rest) :=
      readMember_memberChars hback hne (sp.line_blank depth) (by omega)
    obtain ⟨t, ht⟩ := skipBlanks_memberChars sp hne (depth + 1) (sp.line depth ++ '}' :: rest)
    have hread : readMembers (n + 1)
        (sp.memberChars (depth + 1) members ++ (sp.line depth ++ '}' :: rest)) =
          (treeMembers members, some rest) := by
      rw [readMembers_open ht (by decide), hmembers]
    rw [List.cons_append, List.append_assoc, List.append_assoc, List.singleton_append, readValue,
      hskip]
    simp only [hread]
    rfl

theorem readsBack_scalar (sp : Spacing) {v : Json} (h : Exact v)
    (hopen : ∀ depth, ∃ c t, sp.chars depth v = c :: t ∧ c ≠ '[' ∧ c ≠ '{')
    (hread : ∀ depth rest, Stops rest →
      readScalar (sp.chars depth v ++ rest) = (toTree v, some rest)) : ReadsBack sp v := by
  intro depth steps blanks rest hblanks hrest hsteps
  obtain ⟨c, t, hc, harray, hobject⟩ := hopen depth
  have hskip := skipBlanks_chars sp depth h hblanks rest
  cases steps with
  | zero => omega
  | succ steps =>
    rw [hc, List.cons_append] at hskip
    have hscalar := hread depth rest hrest
    rw [hc, List.cons_append] at hscalar ⊢
    rw [readValue_scalar hskip harray hobject, hscalar]

/-- An exact value is read back from its characters. -/
theorem readsBack (sp : Spacing) {v : Json} (h : Exact v) : ReadsBack sp v := by
  induction h with
  | null =>
    apply readsBack_scalar sp .null
    · intro depth
      rw [chars]
      exact ⟨_, _, rfl, by decide⟩
    · intro depth rest hrest
      rw [chars]
      rfl
  | bool b =>
    apply readsBack_scalar sp (.bool b)
    · intro depth
      rw [chars]
      cases b <;> exact ⟨_, _, rfl, by decide⟩
    · intro depth rest hrest
      rw [chars]
      cases b <;> rfl
  | @int n hlow hhigh =>
    apply readsBack_scalar sp (.int hlow hhigh)
    · intro depth
      obtain ⟨c, t, hc, hsign⟩ := opens_number n
      rw [chars, numberText]
      refine ⟨c, t, hc, ?_⟩
      rcases hsign with rfl | hd
      · decide
      · have hdigit := isBlank_of_isDecimalDigit hd
        exact ⟨hdigit.2.2.2.2.2.2.1, hdigit.2.2.2.2.2.2.2⟩
    · intro depth rest hrest
      rw [chars, numberText]
      exact readScalar_number hlow hhigh hrest
  | text s =>
    apply readsBack_scalar sp (.text s)
    · intro depth
      rw [chars, quoteChars]
      exact ⟨_, _, rfl, by decide⟩
    · intro depth rest hrest
      rw [chars]
      exact readScalar_text s rest
  | array h ih => exact readsBack_array sp h ih
  | object hnames h ih => exact readsBack_object sp ih

/-- The text of an exact value, blanks behind it included, is read as the tree of the value. -/
theorem readTree_chars (sp : Spacing) {v : Json} (h : Exact v) {tail : List Char}
    (htail : ∀ c ∈ tail, isBlank c = true) :
    readTree (sp.chars 0 v ++ tail) = (toTree v, true) := by
  have hstop : Stops tail := by
    have hnone := stops_append htail stops_nil
    rwa [List.append_nil] at hnone
  have hread := readsBack sp h 0 (3 * (sp.chars 0 v ++ tail).length + 3) [] tail
    (fun c hc => by cases hc) hstop (by rw [List.length_append]; omega)
  have hclean : skipBlanks tail = [] := List.dropWhile_eq_nil_iff.2 htail
  rw [List.nil_append] at hread
  rw [readTree, hread]
  simp only [hclean, List.isEmpty_nil]

/-- The text is the value, written with some spacing and with blanks behind it. -/
def Writes (t : String) (v : Json) : Prop :=
  ∃ (sp : Spacing) (tail : List Char), (∀ c ∈ tail, isBlank c = true) ∧
    t = String.ofList (sp.chars 0 v ++ tail)

theorem writes_compact (v : Json) : Writes v.compact v := by
  refine ⟨tight, [], (fun c hc => by cases hc), ?_⟩
  rw [List.append_nil, ← toList_compact, String.ofList_toList]

theorem writes_pretty (v : Json) : Writes (v.pretty ++ "\n") v := by
  have hblank : ∀ c ∈ ['\n'], isBlank c = true := by simp [isBlank]
  refine ⟨indented, ['\n'], hblank, ?_⟩
  rw [← toList_pretty, String.ofList_append, String.ofList_toList]

/-- Where a text is read as the tree of a value, it is decoded as this tree. -/
theorem decodeText_of_readTree {α : Type} (decode : Decoder α) {t : String} {v : Json}
    (h : readTree t.toList = (toTree v, true)) : decodeText decode t = decode {} (toTree v) := by
  rw [decodeText, h]
  show (decode {} (toTree v) >>= fun a => if true = true then Except.ok a else _) = _
  cases decode {} (toTree v) with
  | error fault => rfl
  | ok a => rfl

theorem readTree_of_writes {t : String} {v : Json} (ht : Writes t v) (h : Exact v) :
    readTree t.toList = (toTree v, true) := by
  obtain ⟨sp, tail, htail, rfl⟩ := ht
  rw [String.toList_ofList, readTree_chars sp h htail]

/-- What a decoder makes of a value is what it makes of the text of the value. -/
theorem decodeText_of_writes {α : Type} (decode : Decoder α) {t : String} {v : Json}
    (ht : Writes t v) (h : Exact v) : decodeText decode t = decode {} (toTree v) :=
  decodeText_of_readTree decode (readTree_of_writes ht h)

end SchemaQuery.Json
