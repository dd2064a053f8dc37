import SchemaQuery.Proofs.Query.ReadBack

/-!
# The lines of a filter

A group of conditions has a line for each of them between a line that opens it and one that closes
it; every other filter stands on one line. A value never breaks its line, so that a filter that is
written further in has the same lines with more blanks in front.
-/

set_option autoImplicit false

namespace SchemaQuery

open Text

namespace Json.Spacing

variable {depth : Nat}

theorem lineFeed_notMem_itemChars {items : List Json}
    (h : ∀ item ∈ items, '\n' ∉ tight.chars depth item) : '\n' ∉ tight.itemChars depth items := by
  have hline : tight.line depth = [] := rfl
  induction items with
  | nil =>
    rw [itemChars]
    exact List.not_mem_nil
  | cons item items ih =>
    have hitem := h item List.mem_cons_self
    have hrest := ih fun x hx => h x (List.mem_cons_of_mem _ hx)
    by_cases hlast : items = []
    · subst hlast
      rw [itemChars, hline]
      exact hitem
    · rw [itemChars_cons _ _ _ hlast, hline]
      simp [hitem, hrest]

theorem lineFeed_notMem_memberChars {members : List (String × Json)}
    (h : ∀ m ∈ members, '\n' ∉ tight.chars depth m.2) : '\n' ∉ tight.memberChars depth members := by
  have hline : tight.line depth = [] := rfl
  have hgap : tight.gap = [] := rfl
  induction members with
  | nil =>
    rw [memberChars]
    exact List.not_mem_nil
  | cons m members ih =>
    obtain ⟨name, value⟩ := m
    have hname : '\n' ∉ quoteChars name := (oneLine_quoteChars name).1
    have hvalue : '\n' ∉ tight.chars depth value := h _ List.mem_cons_self
    have hrest := ih fun x hx => h x (List.mem_cons_of_mem _ hx)
    by_cases hlast : members = []
    · subst hlast
      rw [memberChars, hline, hgap]
      simp [hname, hvalue]
    · rw [memberChars_cons _ _ _ _ hlast, hline, hgap]
      simp [hname, hvalue, hrest]

theorem lineFeed_notMem_chars (depth : Nat) (v : Json) : '\n' ∉ tight.chars depth v := by
  have hline (depth : Nat) : tight.line depth = [] := rfl
  induction v using Json.induct generalizing depth with
  | null =>
    rw [chars]
    decide
  | bool b =>
    rw [chars]
    cases b <;> decide
  | number n =>
    rw [chars]
    exact (oneLine_numberText n).1
  | text s =>
    rw [chars]
    exact (oneLine_quoteChars s).1
  | array items ih =>
    have hitems := lineFeed_notMem_itemChars fun item hi => ih item hi (depth + 1)
    by_cases hne : items = []
    · subst hne
      rw [chars]
      decide
    · rw [chars_array _ _ hne, hline]
      simp [hitems]
  | object members ih =>
    have hmembers := lineFeed_notMem_memberChars fun m hm => ih m hm (depth + 1)
    by_cases hne : members = []
    · subst hne
      rw [chars]
      decide
    · rw [chars_object _ _ hne, hline]
      simp [hmembers]

end Json.Spacing

/-- A value is written on one line, whatever its texts hold. -/
theorem Json.lineFeed_notMem_compact (v : Json) : '\n' ∉ v.compact.toList := by
  rw [toList_compact v 0]
  exact Spacing.lineFeed_notMem_chars 0 v

theorem Condition.lineFeed_notMem_render (types : ScalarTypes) (m : Model) {c : Condition}
    (h : '\n' ∉ c.field.toList) : '\n' ∉ (c.render types m).value.toList := by
  have hvalue := Json.lineFeed_notMem_compact c.value
  have hoperator : '\n' ∉ c.operator.name.toList := by cases c.operator <;> decide
  rw [value_render]
  by_cases hleads : types.leadsOn m c.field = true
  · rw [if_pos hleads]
    simp [through, comparison, h, hvalue, hoperator]
  · rw [if_neg hleads, direct]
    by_cases hequals : c.operator = .equals
    · simp [hequals, h, hvalue]
    · simp [hequals, comparison, h, hvalue, hoperator]

def braced : List String → List String
  | [] => []
  | [text] => ["\x7b " ++ text ++ " \x7d"]
  | text :: texts => ("\x7b " ++ text ++ " \x7d,") :: braced texts

section Braced

variable {texts : List String}

theorem braced_cons (text : String) (h : texts ≠ []) :
    braced (text :: texts) = ("\x7b " ++ text ++ " \x7d,") :: braced texts := by
  rw [braced]
  exact h

theorem length_braced (texts : List String) : (braced texts).length = texts.length := by
  fun_induction braced texts with
  | case1 => rfl
  | case2 => rfl
  | case3 text texts hne ih => rw [List.length_cons, ih, List.length_cons]

/-- Only the last text has no comma. -/
theorem getElem?_braced (texts : List String) (i : Nat) : (braced texts)[i]? =
    texts[i]?.map fun text =>
      "\x7b " ++ text ++ " \x7d" ++ if i + 1 = texts.length then "" else "," := by
  fun_induction braced texts generalizing i with
  | case1 => rfl
  | case2 text =>
    cases i with
    | zero => simp
    | succ i => simp
  | case3 text texts hne ih =>
    have hpos : 0 < texts.length := List.length_pos_iff.2 hne
    cases i with
    | zero =>
      have hmore : ¬ 0 + 1 = (text :: texts).length := by
        rw [List.length_cons]
        omega
      rw [List.getElem?_cons_zero, List.getElem?_cons_zero, Option.map_some, if_neg hmore]
      simp [String.append_assoc]
    | succ i =>
      rw [List.getElem?_cons_succ, List.getElem?_cons_succ, ih, List.length_cons]
      simp

theorem lineFeed_notMem_braced (h : ∀ text ∈ texts, '\n' ∉ text.toList) :
    ∀ line ∈ braced texts, '\n' ∉ line.toList := by
  intro line hline
  obtain ⟨i, hi⟩ := List.mem_iff_getElem?.1 hline
  rw [getElem?_braced, Option.map_eq_some_iff] at hi
  obtain ⟨text, htext, rfl⟩ := hi
  have hfeed := h text (List.mem_of_getElem? htext)
  split <;> simp [hfeed]

/-- Texts with commas and line feeds between them are lines that end in commas. -/
theorem toList_intercalate_braced (pad : String) (h : texts ≠ []) :
    (String.intercalate ",\n" (texts.map fun text => pad ++ "\x7b " ++ text ++ " \x7d")).toList =
      joinPieces '\n' ((braced texts).map fun line => pad.toList ++ line.toList) := by
  induction texts with
  | nil => exact absurd rfl h
  | cons text texts ih =>
    by_cases hlast : texts = []
    · subst hlast
      simp [braced, joinPieces]
    · have hmap : (texts.map fun text => pad ++ "\x7b " ++ text ++ " \x7d") ≠ [] := by
        simp [hlast]
      have hbraced : ((braced texts).map fun line => pad.toList ++ line.toList) ≠ [] := by
        rw [Ne, List.map_eq_nil_iff, ← List.length_eq_zero_iff, length_braced]
        simp [hlast]
      rw [List.map_cons, String.intercalate_cons_of_ne_nil hmap, String.toList_append,
        String.toList_append, ih hlast, braced_cons text hlast, List.map_cons,
        joinPieces_cons _ _ hbraced]
      simp

end Braced

namespace Filter

def group? : Filter → Option (String × List Condition)
  | conjunction conditions => some ("AND", conditions)
  | disjunction conditions => some ("OR", conditions)
  | everything | single _ => none

variable (types : ScalarTypes) (m : Model)

def groupLines (key : String) (conditions : List Condition) : List String :=
  if conditions = [] then [key ++ ": []"]
  else (key ++ ": [") ::
    ((braced (conditions.map fun c => (c.render types m).value)).map (indent ++ ·) ++ ["]"])

def lines : Filter → List String
  | everything => [noCondition]
  | conjunction conditions => groupLines types m "AND" conditions
  | disjunction conditions => groupLines types m "OR" conditions
  | single c => [(c.render types m).value]

/-- A group that is not empty has a line for each condition between two more, and any other filter
has one line. -/
structure LaidOut (f : Filter) (lines : List String) : Prop where
  group : ∀ key conditions, f.group? = some (key, conditions) → conditions ≠ [] →
    lines.length = conditions.length + 2 ∧ lines[0]? = some (key ++ ": [") ∧
      (∀ i c, conditions[i]? = some c → lines[i + 1]? = some ("  \x7b " ++
        (c.render types m).value ++ " \x7d" ++ if i + 1 = conditions.length then "" else ",")) ∧
      lines[conditions.length + 1]? = some "]"
  single : (∀ key conditions, f.group? = some (key, conditions) → conditions = []) →
    lines.length = 1

theorem groupLines_cons (key : String) {conditions : List Condition} (h : conditions ≠ []) :
    groupLines types m key conditions = (key ++ ": [") ::
      ((braced (conditions.map fun c => (c.render types m).value)).map (indent ++ ·) ++ ["]"]) :=
  if_neg h

theorem toList_renderGroup (depth : Nat) (key : String) (conditions : List Condition) :
    (renderGroup types m depth key conditions).value.toList =
      joinPieces '\n' ((groupLines types m key conditions).map fun line =>
        (indentation depth).toList ++ line.toList) := by
  by_cases hne : conditions = []
  · subst hne
    rw [value_renderGroup_nil, groupLines, if_pos rfl]
    simp [joinPieces]
  · have htexts : (conditions.map fun c => (c.render types m).value) ≠ [] := by simp [hne]
    have hitems := toList_intercalate_braced (indentation depth ++ indent) htexts
    rw [List.map_map] at hitems
    have hlines : ((braced (conditions.map fun c => (c.render types m).value)).map fun line =>
        (indentation depth ++ indent).toList ++ line.toList) ≠ [] := by
      rw [Ne, List.map_eq_nil_iff, ← List.length_eq_zero_iff, length_braced]
      simp [hne]
    have hgroup : conditions.map (groupLine types m depth) =
        conditions.map ((fun text => indentation depth ++ indent ++ "\x7b " ++ text ++ " \x7d") ∘
          fun c => (c.render types m).value) := rfl
    have hmap : ((groupLines types m key conditions).map fun line =>
        (indentation depth).toList ++ line.toList) =
        ((indentation depth).toList ++ (key ++ ": [").toList) ::
          ((braced (conditions.map fun c => (c.render types m).value)).map fun line =>
            (indentation depth ++ indent).toList ++ line.toList) ++
          [(indentation depth).toList ++ [']']] := by
      rw [groupLines_cons types m key hne]
      simp
    rw [value_renderGroup types m depth key hne, hgroup, hmap, List.cons_append,
      joinPieces_cons _ _ (by simp), joinPieces_concat _ hlines, ← hitems]
    simp only [String.toList_append, List.append_assoc]
    rfl

theorem toList_render (depth : Nat) (f : Filter) : (f.render types m depth).value.toList =
    joinPieces '\n' ((f.lines types m).map fun line =>
      (indentation depth).toList ++ line.toList) := by
  cases f with
  | everything => exact String.toList_append
  | conjunction conditions => exact toList_renderGroup types m depth "AND" conditions
  | disjunction conditions => exact toList_renderGroup types m depth "OR" conditions
  | single c => exact String.toList_append

section Lines

variable {types m}

theorem lineFeed_notMem_groupLines {key : String} (hkey : '\n' ∉ key.toList)
    {conditions : List Condition} (h : ∀ c ∈ conditions, '\n' ∉ c.field.toList) :
    ∀ line ∈ groupLines types m key conditions, '\n' ∉ line.toList := by
  by_cases hne : conditions = []
  · rw [groupLines, if_pos hne, List.forall_mem_singleton]
    simp [hkey]
  · have htexts : ∀ text ∈ conditions.map fun c => (c.render types m).value,
        '\n' ∉ text.toList := by
      rw [List.forall_mem_map]
      exact fun c hc => Condition.lineFeed_notMem_render types m (h c hc)
    rw [groupLines_cons types m key hne, List.forall_mem_cons, List.forall_mem_append,
      List.forall_mem_singleton, List.forall_mem_map]
    refine ⟨by simp [hkey], fun line hline => ?_, by decide⟩
    have hbraced := lineFeed_notMem_braced htexts line hline
    simp [indent, hbraced]

theorem lineFeed_notMem_lines {f : Filter} (h : ∀ c ∈ f.conditions, '\n' ∉ c.field.toList) :
    ∀ line ∈ f.lines types m, '\n' ∉ line.toList := by
  cases f with
  | everything =>
    rw [lines, List.forall_mem_singleton]
    simp [noCondition]
  | conjunction conditions => exact lineFeed_notMem_groupLines (by decide) h
  | disjunction conditions => exact lineFeed_notMem_groupLines (by decide) h
  | single c =>
    rw [lines, List.forall_mem_singleton]
    exact Condition.lineFeed_notMem_render types m (h c List.mem_cons_self)

theorem lines_ne_nil (f : Filter) : f.lines types m ≠ [] := by
  have hgroup (key : String) (conditions : List Condition) :
      groupLines types m key conditions ≠ [] := by
    unfold groupLines
    split <;> simp
  cases f with
  | everything => simp [lines]
  | conjunction conditions => exact hgroup "AND" conditions
  | disjunction conditions => exact hgroup "OR" conditions
  | single c => simp [lines]

theorem lines_of_group? {f : Filter} {key : String} {conditions : List Condition}
    (h : f.group? = some (key, conditions)) :
    f.lines types m = groupLines types m key conditions := by
  cases f with
  | everything | single => cases h
  | conjunction conditions | disjunction conditions =>
    cases h
    rfl

theorem laidOut_lines (f : Filter) : f.LaidOut types m (f.lines types m) where
  group key conditions hgroup hne := by
    rw [lines_of_group? hgroup, groupLines_cons types m key hne]
    have hlength : ((braced (conditions.map fun c => (c.render types m).value)).map
        (indent ++ ·)).length = conditions.length := by
      rw [List.length_map, length_braced, List.length_map]
    refine ⟨?_, rfl, fun i c hc => ?_, ?_⟩
    · rw [List.length_cons, List.length_append, hlength, List.length_singleton]
    · have hi : i < conditions.length := (List.getElem?_eq_some_iff.1 hc).1
      rw [List.getElem?_cons_succ, List.getElem?_append_left (by rwa [hlength]), List.getElem?_map,
        getElem?_braced, List.getElem?_map, hc, List.length_map]
      simp [indent, ← String.append_assoc]
    · rw [List.getElem?_cons_succ, List.getElem?_append_right (Nat.le_of_eq hlength), hlength,
        Nat.sub_self]
      rfl
  single hsingle := by
    cases f with
    | everything | single => rfl
    | conjunction conditions | disjunction conditions =>
      rw [hsingle _ _ rfl]
      rfl

end Lines

end Filter

/-- The lines of a filter at any depth are its lines at the outermost depth with two spaces more for
each level. There is a line for each condition of a group, behind one that opens the group and
before one that closes it, and any other filter has a single line. -/
theorem filter_lines (types : ScalarTypes) (m : Model) (f : Filter)
    (h : ∀ c ∈ f.conditions, '\n' ∉ c.field.toList) (depth : Nat) :
    ∃ lines : List String,
      pieces '\n' (f.render types m 0).value.toList = lines.map String.toList ∧
      pieces '\n' (f.render types m depth).value.toList =
        lines.map (fun line => List.replicate (2 * depth) ' ' ++ line.toList) ∧
      f.LaidOut types m lines := by
  have hpieces (depth : Nat) : pieces '\n' (f.render types m depth).value.toList =
      (f.lines types m).map fun line => List.replicate (2 * depth) ' ' ++ line.toList := by
    rw [Filter.toList_render, indentation, String.toList_ofList]
    apply pieces_joinPieces
    · rw [Ne, List.map_eq_nil_iff]
      exact Filter.lines_ne_nil f
    · rw [List.forall_mem_map]
      intro line hline hfeed
      rcases List.mem_append.1 hfeed with hpad | hfeed
      · exact absurd (List.eq_of_mem_replicate hpad) (by decide)
      · exact Filter.lineFeed_notMem_lines h line hline hfeed
  exact ⟨f.lines types m, hpieces 0, hpieces depth, Filter.laidOut_lines f⟩

def brokenFilter : Filter := .disjunction [⟨"id", .gt, .bool true⟩,
  ⟨"no \"te", .equals, .array [.text "a\nb\r", .object [("\n", .null)]]⟩]

theorem filter_lines_broken : (∀ c ∈ brokenFilter.conditions, '\n' ∉ c.field.toList) ∧
    ∃ lines : List String,
      pieces '\n' (brokenFilter.render .standard { name := "User" } 0).value.toList =
        lines.map String.toList ∧
      pieces '\n' (brokenFilter.render .standard { name := "User" } 3).value.toList =
        lines.map (fun line => "      ".toList ++ line.toList) ∧
      lines.length = 4 ∧ lines[0]? = some "OR: [" ∧ lines[3]? = some "]" := by
  have hfields : ∀ c ∈ brokenFilter.conditions, '\n' ∉ c.field.toList :=
    List.forall_mem_cons.2 ⟨by decide, List.forall_mem_singleton.2 (by decide)⟩
  obtain ⟨lines, hzero, hthree, hlaid⟩ :=
    filter_lines .standard { name := "User" } brokenFilter hfields 3
  obtain ⟨hlength, hfirst, -, hlast⟩ := hlaid.group "OR" _ rfl (by simp)
  exact ⟨hfields, lines, hzero, hthree, hlength, hfirst, hlast⟩

end SchemaQuery
