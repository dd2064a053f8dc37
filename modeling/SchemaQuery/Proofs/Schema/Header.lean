import Mathlib.Data.Option.Basic
import SchemaQuery.Proofs.Schema.Blocks
import SchemaQuery.Proofs.Text.Lines
import SchemaQuery.Schema.Reader

/-!
# Headers

A block that was found may have a header over several lines and of several words, or of none. It is
read only if the line of its keyword goes on with one word, the name, and the opening brace. White
space at either end of that line has no influence.
-/

set_option autoImplicit false

namespace SchemaQuery

open SchemaQuery.Unicode SchemaQuery.Text

namespace BlockKind

variable {kind : BlockKind} {text header : List Char} {name : String}

/-- On the line of the keyword stand white space, the name, which is one word, and then the opening
brace, which white space may separate from it. -/
def Names (kind : BlockKind) (text : List Char) (name : String) : Prop :=
  ∃ gap gap' rest, text = kind.keyword.toList ++ (gap ++ (name.toList ++ (gap' ++ '{' :: rest))) ∧
    gap ≠ [] ∧ isBlank gap = true ∧ isBlank gap' = true ∧ isWord name.toList = true ∧
    '\n' ∉ gap ∧ '\n' ∉ gap'

def fault (kind : BlockKind) (text : List Char) : SchemaError :=
  .malformed kind (String.ofList (trim (firstLine text)))

theorem keyword_eq_cons (kind : BlockKind) :
    ∃ c word, kind.keyword.toList = c :: word ∧ isWhite c = false := by
  cases hk : kind.keyword.toList with
  | nil => exact absurd hk kind.keyword_ne_nil
  | cons c word => exact ⟨c, word, rfl, kind.isWhite_of_mem_keyword (by rw [hk]; simp)⟩

theorem after?_keyword_iff {s rest : List Char} :
    after? kind.keyword.toList (trimLeft s) = some rest ↔
      ∃ margin, isBlank margin = true ∧ s = margin ++ (kind.keyword.toList ++ rest) := by
  obtain ⟨c, word, hk, hc⟩ := kind.keyword_eq_cons
  rw [hk, after?_trimLeft_iff hc]
  rfl

theorem headerName?_eq_some_iff :
    kind.headerName? header = some name ↔
      ∃ margin gap gap' rest, header = margin ++
          (kind.keyword.toList ++ (gap ++ (name.toList ++ (gap' ++ '{' :: rest)))) ∧
        isBlank margin = true ∧ gap ≠ [] ∧ isBlank gap = true ∧ isBlank gap' = true ∧
        isWord name.toList = true := by
  simp only [headerName?, Option.bind_eq_bind, Option.bind_eq_some_iff, Option.guard_eq_some',
    Option.pure_def, Option.some.injEq, exists_const, after?_keyword_iff, beq_iff_eq]
  constructor
  · rintro ⟨tail, ⟨margin, hmargin, rfl⟩, hwhite, ⟨word, after⟩, hword, hbrace, rfl⟩
    obtain ⟨gap, hgap, htail⟩ := exists_trimLeft tail
    obtain ⟨hisWord, -, hsplit⟩ := word?_eq_some_iff.1 hword
    obtain ⟨gap', hgap', hafter⟩ := exists_trimLeft after
    cases hrest : trimLeft after with
    | nil =>
      rw [hrest] at hbrace
      cases hbrace
    | cons c rest =>
      rw [hrest] at hbrace hafter
      cases hbrace
      rw [String.toList_ofList]
      rw [htail, hsplit, opensWhite_append_word hgap hisWord] at hwhite
      exact ⟨margin, gap, gap', rest, by rw [htail, hsplit, hafter], hmargin, hwhite, hgap, hgap',
        hisWord⟩
  · rintro ⟨margin, gap, gap', rest, rfl, hmargin, hne, hgap, hgap', hname⟩
    refine ⟨_, ⟨margin, hmargin, rfl⟩, (opensWhite_append_word hgap hname _).2 hne,
      (name.toList, gap' ++ '{' :: rest), ?_, ?_, String.ofList_toList⟩
    · rw [trimLeft_append_of_isBlank hgap, trimLeft_word hname]
      exact word?_append hname (opensWord_append_of_isBlank hgap' (by decide) rest)
    · have hbrace : ∀ c ∈ ('{' :: rest).head?, isWhite c = false := by
        rintro c ⟨⟩
        decide
      rw [trimLeft_append_of_isBlank hgap', trimLeft_of_head hbrace]
      rfl

/-- White space behind the header has no influence on the name. -/
theorem headerName?_append_of_isBlank (kind : BlockKind) (header : List Char) {ending : List Char}
    (h : isBlank ending = true) :
    kind.headerName? (header ++ ending) = kind.headerName? header := by
  apply Option.ext
  intro name
  rw [headerName?_eq_some_iff, headerName?_eq_some_iff]
  constructor
  · rintro ⟨margin, gap, gap', rest, heq, hrest⟩
    have hbrace : header ++ ending = (margin ++ (kind.keyword.toList ++
        (gap ++ (name.toList ++ gap')))) ++ '{' :: rest := by
      rw [heq]
      simp only [List.append_assoc]
    obtain ⟨rest', hheader⟩ := of_append_isBlank h (by decide) hbrace
    refine ⟨margin, gap, gap', rest', ?_, hrest⟩
    rw [hheader]
    simp only [List.append_assoc]
  · rintro ⟨margin, gap, gap', rest, rfl, hrest⟩
    refine ⟨margin, gap, gap', rest ++ ending, ?_, hrest⟩
    simp only [List.append_assoc, List.cons_append]

theorem headerName?_trim (kind : BlockKind) (header : List Char) :
    kind.headerName? (trim header) = kind.headerName? header := by
  obtain ⟨margin, ending, hmargin, hending, hheader⟩ := exists_trim header
  have hleft : kind.headerName? header = kind.headerName? (trim header ++ ending) := by
    conv => lhs; rw [hheader]
    rw [headerName?, headerName?, trimLeft_append_of_isBlank hmargin]
  rw [hleft, kind.headerName?_append_of_isBlank _ hending]

theorem margin_eq_nil {margin rest tail : List Char} (hmargin : isBlank margin = true)
    (h : kind.keyword.toList ++ rest = margin ++ tail) : margin = [] := by
  obtain ⟨c, word, hk, hc⟩ := kind.keyword_eq_cons
  cases margin with
  | nil => rfl
  | cons d margin =>
    rw [hk, List.cons_append, List.cons_append, List.cons.injEq] at h
    rw [h.1, isWhite_of_isBlank hmargin List.mem_cons_self] at hc
    cases hc

/-- The first line of a block names it if it goes on as a named block does. -/
theorem headerName?_firstLine_iff (h : kind.IsBlock text) :
    kind.headerName? (firstLine text) = some name ↔ kind.Names text name := by
  rw [headerName?_eq_some_iff]
  constructor
  · rintro ⟨margin, gap, gap', rest, heq, hmargin, hne, hgap, hgap', hname⟩
    have hfeed := lineFeed_notMem_firstLine text
    obtain ⟨tail, htail⟩ : ∃ tail, text = firstLine text ++ tail :=
      ⟨_, List.takeWhile_append_dropWhile.symm⟩
    obtain ⟨words, body, htext, -⟩ := h
    have hmargin' : margin = [] := by
      rw [heq, htext, List.append_assoc] at htail
      exact margin_eq_nil hmargin htail
    subst hmargin'
    rw [heq] at hfeed
    simp only [List.nil_append, List.mem_append, not_or] at hfeed
    refine ⟨gap, gap', rest ++ tail, ?_, hne, hgap, hgap', hname, hfeed.2.1, hfeed.2.2.2.1⟩
    rw [htail, heq]
    simp only [List.nil_append, List.append_assoc, List.cons_append]
  · rintro ⟨gap, gap', rest, rfl, hne, hgap, hgap', hname, hline, hline'⟩
    have hkeyword : '\n' ∉ kind.keyword.toList := by cases kind <;> decide
    refine ⟨[], gap, gap', firstLine rest, ?_, rfl, hne, hgap, hgap', hname⟩
    rw [firstLine_append hkeyword, firstLine_append hline,
      firstLine_append (inline_of_isWord hname).1, firstLine_append hline',
      ← List.singleton_append, firstLine_append (by decide)]
    rfl

/-- Opening a block depends on the first line of its text and on the lines inside. -/
theorem open_eq (kind : BlockKind) (text : List Char) :
    kind.open text = match kind.headerName? (firstLine text) with
      | some name => .ok (name, ((interior (lines text)).map trim).filter (· != []))
      | none => .error (kind.fault text) := by
  obtain ⟨ending, hending, hfirst⟩ := exists_headD_lines text
  rw [fault, hfirst, trim_append_of_isBlank _ hending, kind.headerName?_append_of_isBlank _ hending]
  rfl

theorem open_of_names (h : kind.IsBlock text) (hname : kind.Names text name) :
    ∃ members, kind.open text = .ok (name, members) := by
  rw [open_eq, (headerName?_firstLine_iff h).2 hname]
  exact ⟨_, rfl⟩

theorem open_of_not_names (h : kind.IsBlock text) (hname : ∀ name, ¬ kind.Names text name) :
    kind.open text = .error (kind.fault text) := by
  rw [open_eq]
  cases hh : kind.headerName? (firstLine text) with
  | none => rfl
  | some name => exact absurd ((headerName?_firstLine_iff h).1 hh) (hname name)

end BlockKind

end SchemaQuery
