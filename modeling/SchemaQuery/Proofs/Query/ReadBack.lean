import SchemaQuery.Proofs.Query.Clauses

/-!
# A query means what it says

The method of a query is given a literal that is read as what the request asks for, in order, as
long as the fields of conditions and cursors are words. Everything else in a request may be any text
or value.
-/

set_option autoImplicit false

namespace SchemaQuery

open SchemaQuery.Unicode SchemaQuery.Text
open Literal

theorem gap_indentation (depth : Nat) : Gap (indentation depth).toList := by
  rw [indentation, String.toList_ofList]
  exact gap_spaces (2 * depth)

namespace Condition

variable (types : ScalarTypes) (m : Model) {c : Condition}

theorem isWord_operator (operator : Operator) : isWord operator.name.toList = true := by
  cases operator <;> decide

theorem value_render : (c.render types m).value =
    if types.leadsOn m c.field then c.through else c.direct := by
  rw [render, ScalarTypes.leadsOn]
  cases m.field? c.field with
  | none => rfl
  | some f =>
    by_cases hf : types.isRelation f = true
    · simp [hf]
    · simp [hf]

theorem shows_comparison (c : Condition) :
    Shows c.comparison.toList (.object [(c.operator.name, ofJson c.value)]) := by
  have hspace : Gap [' '] := gap_spaces 1
  have hmember := Clause.showsMember_compact (isWord_operator c.operator) c.value
  have h := shows_braced hspace hmember hspace
  simpa [comparison] using h

/-- A condition shows the member that it means. -/
theorem showsMember_render (h : isWord c.field.toList = true) :
    ShowsMember (c.render types m).value.toList (c.meaning types m) := by
  rw [value_render types m, meaning]
  by_cases hleads : types.leadsOn m c.field = true
  · have hspace : Gap [' '] := gap_spaces 1
    have hsome := showsMember_bare (by decide : isWord "some".toList = true) c.shows_comparison
    have hmember := showsMember_bare h (shows_braced hspace hsome hspace)
    rw [if_pos hleads, if_pos hleads]
    simpa [through] using hmember
  · rw [if_neg hleads, if_neg hleads, direct]
    by_cases hequals : c.operator = .equals
    · rw [if_pos hequals, if_pos hequals]
      exact Clause.showsMember_compact h c.value
    · have hmember := showsMember_bare h c.shows_comparison
      rw [if_neg hequals, if_neg hequals]
      simpa using hmember

end Condition

namespace Filter

variable (types : ScalarTypes) (m : Model) (depth : Nat)

def groupLine (c : Condition) : String :=
  indentation depth ++ indent ++ "\x7b " ++ (c.render types m).value ++ " \x7d"

theorem shows_groupLine {c : Condition} (h : isWord c.field.toList = true) :
    ∃ pad s, (groupLine types m depth c).toList = pad ++ s ∧ Gap pad ∧
      Shows s (.object [c.meaning types m]) := by
  have hspace : Gap [' '] := gap_spaces 1
  have hpad : Gap ((indentation depth).toList ++ [' ', ' ']) :=
    (gap_indentation depth).append (gap_spaces 2)
  have hmember := Condition.showsMember_render types m h
  have hobject := shows_braced hspace hmember hspace
  refine ⟨_, _, ?_, hpad, hobject⟩
  simp [groupLine, indent]

theorem showsItems_lines {conditions : List Condition} (hne : conditions ≠ [])
    (h : ∀ c ∈ conditions, isWord c.field.toList = true) {g : List Char} (hg : Gap g) :
    ShowsItems ((String.intercalate ",\n" (conditions.map (groupLine types m depth))).toList ++ g)
      (conditions.map fun c => .object [c.meaning types m]) := by
  induction conditions with
  | nil => exact absurd rfl hne
  | cons c conditions ih =>
    obtain ⟨pad, s, hline, hpad, hs⟩ :=
      shows_groupLine types m depth (h c List.mem_cons_self)
    by_cases hlast : conditions = []
    · subst hlast
      rw [List.map_singleton, String.intercalate_singleton, hline, List.append_assoc]
      exact (ShowsItems.last hs hg).gap hpad
    · have hfeed : Gap ['\n'] := gap_line 0
      have hrest := ih hlast fun d hd => h d (List.mem_cons_of_mem _ hd)
      have hcons := (ShowsItems.cons hs (hrest.gap hfeed)).gap hpad
      have hlines : conditions.map (groupLine types m depth) ≠ [] := by simp [hlast]
      rw [List.map_cons, String.intercalate_cons_of_ne_nil hlines, String.toList_append,
        String.toList_append, hline]
      simpa using hcons

theorem value_renderGroup (key : String) {conditions : List Condition} (hne : conditions ≠ []) :
    (renderGroup types m depth key conditions).value = indentation depth ++ key ++ ": [\n"
      ++ String.intercalate ",\n" (conditions.map (groupLine types m depth)) ++ "\n"
      ++ indentation depth ++ "]" := by
  cases conditions with
  | nil => exact absurd rfl hne
  | cons c conditions =>
    rw [renderGroup, Logged.value_bind, Logged.value_mapM, List.map_map]
    rfl

theorem value_renderGroup_nil (key : String) :
    (renderGroup types m depth key []).value = indentation depth ++ key ++ ": []" := by
  rw [renderGroup, Logged.value_bind, Logged.value_mapM]
  rfl

/-- A group shows one member, behind the blanks of its first line. -/
theorem showsMember_group {key : String} (hkey : isWord key.toList = true)
    {conditions : List Condition} (h : ∀ c ∈ conditions, isWord c.field.toList = true) :
    ∃ s, (renderGroup types m depth key conditions).value.toList = (indentation depth).toList ++ s ∧
      ShowsMember s (key, .array (conditions.map fun c => .object [c.meaning types m])) := by
  by_cases hne : conditions = []
  · subst hne
    have hmember := showsMember_bare hkey (Shows.array_nil Gap.nil)
    refine ⟨_, ?_, hmember⟩
    simp [value_renderGroup_nil]
  · have hopen : Gap ['\n'] := gap_line 0
    have hclose : Gap ('\n' :: (indentation depth).toList) :=
      .white (by decide) (gap_indentation depth)
    have hitems := showsItems_lines types m depth hne h hclose
    have hmember := showsMember_bare hkey (Shows.array (hitems.gap hopen))
    refine ⟨_, ?_, hmember⟩
    simp [value_renderGroup types m depth key hne]

/-- The block of a filter, with the blanks of the line on which it is closed. -/
theorem shows_block {filter : Filter}
    (h : ∀ c ∈ filter.conditions, isWord c.field.toList = true) {g : List Char} (hg : Gap g) :
    Shows ('{' :: ('\n' :: ((filter.render types m depth).value.toList ++ '\n' :: g) ++ ['}']))
      (.object (filter.meaning types m)) := by
  have hfeed : isWhite '\n' = true := by decide
  have hone {body s : List Char} {member : String × Literal}
      (hbody : body = (indentation depth).toList ++ s) (hs : ShowsMember s member) :
      Shows ('{' :: ('\n' :: (body ++ '\n' :: g) ++ ['}'])) (.object [member]) := by
    have h := (ShowsMembers.last hs (.white hfeed hg)).gap (.white hfeed (gap_indentation depth))
    rw [hbody, List.append_assoc]
    exact Shows.object h
  cases filter with
  | everything =>
    have hgap : Gap ('\n' :: ((indentation depth ++ noCondition).toList ++ '\n' :: g)) := by
      rw [String.toList_append, List.append_assoc]
      have hcomment := Gap.comment (by decide : '\n' ∉ " TODO: specify filter conditions".toList) hg
      exact .white hfeed ((gap_indentation depth).append hcomment)
    exact Shows.object_nil hgap
  | conjunction conditions =>
    have hkey : isWord "AND".toList = true := by decide
    obtain ⟨s, hbody, hs⟩ := showsMember_group types m depth hkey h
    exact hone hbody hs
  | disjunction conditions =>
    have hkey : isWord "OR".toList = true := by decide
    obtain ⟨s, hbody, hs⟩ := showsMember_group types m depth hkey h
    exact hone hbody hs
  | single condition =>
    have hs := Condition.showsMember_render types m (h condition List.mem_cons_self)
    exact hone String.toList_append hs

end Filter

namespace Generator

variable {g : Generator} {r : Request}

theorem showsMember_where (h : ∀ c ∈ r.options.filter.conditions, isWord c.field.toList = true) :
    ShowsMember (g.whereClause r).value.toList (g.whereMeaning r) := by
  have hclose : Gap [' ', ' '] := gap_spaces 2
  have hblock := Filter.shows_block g.types r.model 2 h hclose
  have hmember := showsMember_bare (by decide : isWord "where".toList = true) hblock
  simpa [whereClause, whereMeaning, indent] using hmember

/-- A block of a single line that says nothing. -/
theorem showsMember_comment {key : String} (hkey : isWord key.toList = true) {line : String}
    {s : List Char} (hline : line.toList = '/' :: '/' :: s) (hs : '\n' ∉ s) :
    ShowsMember (Clause.block key line).toList (key, .object []) := by
  have hopen : Gap ('\n' :: ' ' :: ' ' :: ' ' :: ' ' :: '/' :: '/' :: (s ++ '\n' :: [' ', ' '])) :=
    (gap_line 4).append (.comment hs (gap_spaces 2))
  have h := showsMember_bare hkey (Shows.object_nil hopen)
  simpa [Clause.block, indent, hline] using h

theorem showsMember_data :
    ShowsMember (Clause.block "data" createPlaceholder).toList ("data", .object []) ∧
      ShowsMember (Clause.block "data" updatePlaceholder).toList ("data", .object []) := by
  have hdata : isWord "data".toList = true := by decide
  constructor
  · apply showsMember_comment hdata (s := " TODO: specify the data to create".toList)
    · simp [createPlaceholder]
    · simp
  · apply showsMember_comment hdata (s := " TODO: specify the data to update".toList)
    · simp [updatePlaceholder]
    · simp

/-- A block that aims at the record with the number one, with a remark behind it. -/
theorem showsMember_target {line : String} {s : List Char}
    (hline : line.toList = "id: 1 //".toList ++ s) (hs : '\n' ∉ s) :
    ShowsMember (Clause.block "where" line).toList targetMeaning := by
  have hone : Shows "1".toList (.number "1") :=
    Shows.word (by decide) (List.all_eq_true.1 (by decide)) rfl
  have hid := showsMember_bare (by decide : isWord "id".toList = true) hone
  have hopen : Gap ['\n', ' ', ' ', ' ', ' '] := gap_line 4
  have hremark : Gap (' ' :: '/' :: '/' :: (s ++ '\n' :: [' ', ' '])) :=
    (gap_spaces 1).append (.comment hs (gap_spaces 2))
  have h := showsMember_bare (by decide : isWord "where".toList = true)
    (shows_braced hopen hid hremark)
  rw [targetMeaning]
  simpa [Clause.block, indent, hline] using h

theorem showsMember_targets :
    ShowsMember (Clause.block "where" updateTarget).toList targetMeaning ∧
      ShowsMember (Clause.block "where" deleteTarget).toList targetMeaning := by
  constructor
  · apply showsMember_target (s := " TODO: specify the id of the record to update".toList)
    · simp [updateTarget]
    · simp
  · apply showsMember_target (s := " TODO: specify the id of the record to delete".toList)
    · simp [deleteTarget]
    · simp

theorem showsEach_fetched : ShowsEach ([Clause.select (g.selection r.model r.selected).regular]
    ++ Clause.includeRelations g.identity r.options.relation
      (g.selection r.model r.selected).relations) (g.fetchedMeaning r) := by
  have hselect := Clause.showsMember_select (g.selection r.model r.selected).regular
  rw [fetchedMeaning, ← regular_selection, List.singleton_append]
  exact ShowsEach.cons hselect (Clause.showsEach_include g r)

/-- The clauses of a query show its members one by one. -/
theorem showsEach_clauses
    (hfilter : ∀ c ∈ r.options.filter.conditions, isWord c.field.toList = true)
    (hcursor : ∀ p ∈ r.options.page, ∀ c ∈ p.cursor, isWord c.field.toList = true) :
    ShowsEach (g.clauses r (g.selection r.model r.selected)).value (g.meaning r) := by
  have hfetched := showsEach_fetched (g := g) (r := r)
  unfold clauses meaning
  cases r.operation with
  | create => exact ShowsEach.cons showsMember_data.1 hfetched
  | read =>
    have hpage : ShowsEach ((r.options.page.map Clause.page).getD [])
        (pageMeaning r.options.page) := by
      cases hp : r.options.page with
      | none => exact ShowsEach.nil
      | some p => exact Clause.showsEach_page (hcursor p hp)
    exact ((ShowsEach.cons (showsMember_where hfilter) hfetched).append
      (Clause.showsEach_orderBy r.options.sort)).append hpage
  | update =>
    exact ShowsEach.cons showsMember_targets.1 (ShowsEach.cons showsMember_data.2 hfetched)
  | delete => exact ShowsEach.cons showsMember_targets.2 hfetched
  | aggregate =>
    have haggregation : ShowsEach ((r.options.aggregation.map Clause.aggregate).getD [])
        ((r.options.aggregation.map Aggregation.meaning).getD []) := by
      cases r.options.aggregation with
      | none => exact ShowsEach.nil
      | some a => exact Clause.showsEach_aggregate a
    exact ShowsEach.cons (showsMember_where hfilter) haggregation

theorem clauses_ne_nil : (g.clauses r (g.selection r.model r.selected)).value ≠ [] := by
  unfold clauses
  cases r.operation <;> simp

def argument (g : Generator) (r : Request) : String :=
  "\x7b\n" ++ indent ++ String.intercalate (",\n" ++ indent)
    (g.clauses r (g.selection r.model r.selected)).value ++ "\n\x7d"

theorem read_argument (hfilter : ∀ c ∈ r.options.filter.conditions, isWord c.field.toList = true)
    (hcursor : ∀ p ∈ r.options.page, ∀ c ∈ p.cursor, isWord c.field.toList = true) :
    Literal.read (g.argument r).toList = some (.object (g.meaning r)) := by
  have hopen : Gap ['\n', ' ', ' '] := gap_line 2
  have hclose : Gap ['\n'] := gap_line 0
  have hmembers := (showsEach_clauses (g := g) hfilter hcursor).showsMembers clauses_ne_nil hclose
  have h := Shows.object (hmembers.gap hopen)
  apply Shows.read_eq
  simpa [argument, indent] using h

theorem value_generate : (g.generate r).value = "const " ++ binding r.operation ++ " = await "
    ++ g.client ++ "." ++ r.model.accessor ++ "." ++ r.operation.method ++ "(" ++ g.argument r
    ++ ");" := by
  apply String.toList_inj.1
  unfold generate argument
  simp

/-- A query is the call of a method, and the literal that the method is given is read as what the
request means. -/
theorem query_reads_back (g : Generator) (r : Request)
    (hfilter : ∀ c ∈ r.options.filter.conditions, isWord c.field.toList = true)
    (hcursor : ∀ p ∈ r.options.page, ∀ c ∈ p.cursor, isWord c.field.toList = true) :
    ∃ method argument : String,
      (r.operation, method) ∈ [(Operation.create, "create"), (.read, "findMany"),
        (.update, "update"), (.delete, "delete"), (.aggregate, "aggregate")] ∧
      (g.generate r).value = "const " ++ (if r.operation = .read then "results" else "result")
        ++ " = await " ++ g.client ++ "." ++ r.model.accessor ++ "." ++ method ++ "("
        ++ argument ++ ");" ∧
      Literal.read argument.toList = some (.object (g.meaning r)) := by
  have hbinding : binding r.operation = if r.operation = .read then "results" else "result" := by
    cases r.operation <;> rfl
  rw [← hbinding]
  refine ⟨r.operation.method, g.argument r, ?_, value_generate, read_argument hfilter hcursor⟩
  cases r.operation <;> decide

def oddRequest : Request where
  model := ⟨"User", none, [{ name := "id", typeName := "Int", isId := true },
    { name := "posts", typeName := "Post", isList := true }]⟩
  operation := .read
  selected := ["posts", "na\"me", "id", "posts", "id"]
  options := {
    filter := .disjunction [⟨"id", .equals, .array [.number (.int (-1)), .object []]⟩,
      ⟨"posts", .not, .text "\"\x7d\n// "⟩]
    sort := some [⟨"a b", .descending⟩]
    page := some { take := some (-5), cursor := some ⟨"id", .null⟩ } }

def countRequest : Request where
  model := oddRequest.model
  operation := .aggregate
  options := {
    filter := .single ⟨"price", .lt, .number (.float 0.1)⟩
    aggregation := some { count := some (.whole true), sum := some ["id"] } }

theorem ofNumber_tenth : ofNumber (.float 0.1) = .number "0.1" := by
  have hfinite : (0.1 : Float).isFinite = true := by decide +kernel
  have htext : Json.floatText 0.1 = "0.1" := by decide +kernel
  rw [ofNumber, if_pos hfinite, htext]

theorem query_reads_back_odd :
    (∃ argument : String,
      (generate {} oddRequest).value =
        "const results = await prisma.user.findMany(" ++ argument ++ ");" ∧
      Literal.read argument.toList = some (.object
        [("where", .object [("OR", .array
          [.object [("id", .array [.number "-1", .object []])],
            .object [("posts", .object [("some", .object [("not", .text "\"\x7d\n// ")])])]])]),
        ("select", .object [("na\"me", .bool true), ("id", .bool true)]),
        ("include", .object [("posts", .object [("select", .object [("id", .bool true)])])]),
        ("orderBy", .array [.object [("a b", .text "desc")]]),
        ("take", .number "-5"),
        ("cursor", .object [("id", .null)])])) ∧
    ∃ argument : String,
      (generate {} countRequest).value =
        "const result = await prisma.user.aggregate(" ++ argument ++ ");" ∧
      Literal.read argument.toList = some (.object
        [("where", .object [("price", .object [("lt", .number "0.1")])]),
        ("_count", .bool true),
        ("_sum", .object [("select", .object [("id", .bool true)])])]) := by
  constructor
  · have hfilter : ∀ c ∈ oddRequest.options.filter.conditions, isWord c.field.toList = true :=
      List.all_eq_true.1 (by decide)
    have hcursor : ∀ p ∈ oddRequest.options.page, ∀ c ∈ p.cursor,
        isWord c.field.toList = true := by
      rintro p ⟨⟩ c ⟨⟩
      decide
    obtain ⟨method, argument, hmethod, hcall, hread⟩ :=
      query_reads_back {} oddRequest hfilter hcursor
    have hname : method = "findMany" := by simpa [oddRequest] using hmethod
    subst hname
    exact ⟨argument, hcall, hread⟩
  · have hfilter : ∀ c ∈ countRequest.options.filter.conditions, isWord c.field.toList = true := by
      intro c hc
      rw [List.mem_singleton.1 hc]
      decide
    obtain ⟨method, argument, hmethod, hcall, hread⟩ :=
      query_reads_back {} countRequest hfilter (by rintro p ⟨⟩)
    have hname : method = "aggregate" := by simpa [countRequest] using hmethod
    subst hname
    rw [← ofNumber_tenth]
    exact ⟨argument, hcall, hread⟩

end Generator

end SchemaQuery
