import Mathlib.Data.List.Forall2
import SchemaQuery.Proofs.Query.Names
import SchemaQuery.Proofs.Query.Nested

/-!
# Clauses show their members

Every clause of a query shows one member: its key, and the literal that is meant. Clauses that are
put one after another between braces show an object.
-/

set_option autoImplicit false

namespace SchemaQuery

open SchemaQuery.Text
open Json (Members)
open Literal

section Values

theorem Literal.ofMembers_append (members rest : List (String × Json)) :
    ofMembers (members ++ rest) = ofMembers members ++ ofMembers rest := by
  rw [ofMembers_eq, ofMembers_eq, ofMembers_eq, List.map_append]

theorem Literal.ofMembers_toList {α : Type} (name : String) (encode : α → Json)
    (value : Option α) : ofMembers (value.map fun a => (name, encode a)).toList =
      memberOf name (fun a => ofJson (encode a)) value := by
  cases value <;> rfl

theorem ofJson_order (keys : List SortKey) : ofJson (Clause.order keys) =
    .array (keys.map fun key => .object [(key.field, .text key.direction.name)]) := by
  rw [Clause.order, ofJson, ofItems_eq, List.map_map]
  rfl

theorem ofMembers_pageMembers (p : Page) : ofMembers (Clause.pageMembers p) = p.meaning := by
  have hcursor :=
    ofMembers_toList "cursor" (fun c : Cursor => .object [(c.field, c.value)]) p.cursor
  rw [Clause.pageMembers, ofMembers_append, ofMembers_append, ofMembers_toList "skip",
    ofMembers_toList "take", hcursor]
  rfl

theorem ofJson_inclusion (identity : String) (config : Option Inclusion) :
    ofJson (Clause.inclusion identity config) = inclusionMeaning identity config := by
  have hpage : ofMembers (((config.bind (·.page)).map Clause.pageMembers).getD []) =
      pageMeaning (config.bind (·.page)) := by
    cases config.bind (·.page) with
    | none => rfl
    | some p => exact ofMembers_pageMembers p
  rw [Clause.inclusion, ofJson, ofMembers_append, ofMembers_append, hpage, inclusionMeaning,
    ofMembers, ofJson_chosen]
  cases config.bind (·.sort) with
  | none => rfl
  | some keys =>
    cases keys with
    | nil => rfl
    | cons key keys =>
      show Literal.object (_ :: [("orderBy", ofJson (Clause.order (key :: keys)))] ++ _) = _
      rw [ofJson_order]
      rfl

end Values

/-- A member with a bare key, as clauses are written. -/
theorem Literal.showsMember_bare {key : String} (hkey : isWord key.toList = true) {s : List Char}
    {v : Literal} (h : Shows s v) : ShowsMember (key.toList ++ ':' :: ' ' :: s) (key, v) := by
  have hgap : Gap [' '] := gap_spaces 1
  have hbare : ShowsKey key.toList key :=
    ShowsKey.bare (ne_nil_of_isWord hkey) fun c hc => isWordChar_of_isWord hkey hc
  exact ⟨key.toList, [' '], s, rfl, hbare, hgap, h⟩

theorem Literal.shows_braced {s g t : List Char} {m : String × Literal} (hs : Gap s)
    (h : ShowsMember g m) (ht : Gap t) : Shows ('{' :: (s ++ (g ++ t) ++ ['}'])) (.object [m]) :=
  Shows.object ((ShowsMembers.last h ht).gap hs)

def ShowsEach (clauses : List String) (members : List (String × Literal)) : Prop :=
  List.Forall₂ (fun clause m => ShowsMember clause.toList m) clauses members

namespace ShowsEach

theorem nil : ShowsEach [] [] := List.Forall₂.nil

theorem cons {clause : String} {m : String × Literal} {clauses : List String}
    {members : List (String × Literal)} (h : ShowsMember clause.toList m)
    (hs : ShowsEach clauses members) : ShowsEach (clause :: clauses) (m :: members) :=
  List.Forall₂.cons h hs

theorem append {clauses rest : List String} {members others : List (String × Literal)}
    (h : ShowsEach clauses members) (hrest : ShowsEach rest others) :
    ShowsEach (clauses ++ rest) (members ++ others) := List.rel_append h hrest

theorem optional {α : Type} {name : String} {write : α → String} {encode : α → Literal}
    {value : Option α} (h : ∀ a ∈ value, ShowsMember (write a).toList (name, encode a)) :
    ShowsEach (value.map write).toList (memberOf name encode value) := by
  cases value with
  | none => exact nil
  | some a => exact cons (h a rfl) nil

/-- Clauses with commas between them, as they stand between the braces of an object. -/
theorem showsMembers {clauses : List String} {members : List (String × Literal)}
    (h : ShowsEach clauses members) (hne : clauses ≠ []) {g : List Char} (hg : Gap g) :
    ShowsMembers ((String.intercalate (",\n" ++ indent) clauses).toList ++ g) members := by
  induction h with
  | nil => exact absurd rfl hne
  | @cons clause m clauses members hclause h ih =>
    have hline : Gap ['\n', ' ', ' '] := gap_line 2
    by_cases hlast : clauses = []
    · subst hlast
      cases h
      rw [String.intercalate_singleton]
      exact ShowsMembers.last hclause hg
    · have hrest := ShowsMembers.cons hclause ((ih hlast).gap hline)
      rw [String.intercalate_cons_of_ne_nil hlast, String.toList_append, String.toList_append]
      simpa [indent] using hrest

end ShowsEach

namespace Clause

theorem showsMember_nested {key : String} (hkey : isWord key.toList = true) (depth : Nat)
    (v : Json) : ShowsMember (key ++ ": " ++ nested depth v).toList (key, ofJson v) := by
  have h := showsMember_bare hkey (shows_nested depth v)
  rw [String.toList_append, String.toList_append]
  simpa using h

theorem showsMember_compact {key : String} (hkey : isWord key.toList = true) (v : Json) :
    ShowsMember (key ++ ": " ++ v.compact).toList (key, ofJson v) := by
  have h := showsMember_bare hkey (shows_compact v)
  rw [String.toList_append, String.toList_append]
  simpa using h

theorem showsMember_select (names : List String) :
    ShowsMember (select names).toList ("select", chosenMeaning names) := by
  have h := showsMember_nested (by decide : isWord "select".toList = true) 1 (chosen names)
  rw [ofJson_chosen] at h
  exact h

theorem showsEach_orderBy (sort : Option (List SortKey)) :
    ShowsEach (orderBy sort) (sortMeaning sort) := by
  match sort with
  | none => exact ShowsEach.nil
  | some [] => exact ShowsEach.nil
  | some (key :: keys) =>
    have h := showsMember_nested (by decide : isWord "orderBy".toList = true) 1
      (order (key :: keys))
    rw [ofJson_order] at h
    exact ShowsEach.cons h ShowsEach.nil

theorem showsEach_page {p : Page} (h : ∀ c ∈ p.cursor, isWord c.field.toList = true) :
    ShowsEach (page p) p.meaning := by
  have hskip : ∀ n ∈ p.skip, ShowsMember ("skip: " ++ (Json.ofUInt64 n).compact).toList
      ("skip", .number (toString n.toNat)) := fun n _ =>
    showsMember_compact (by decide : isWord "skip".toList = true) (Json.ofUInt64 n)
  have htake : ∀ n ∈ p.take, ShowsMember ("take: " ++ (Json.ofInt64 n).compact).toList
      ("take", .number (toString n.toInt)) := fun n _ =>
    showsMember_compact (by decide : isWord "take".toList = true) (Json.ofInt64 n)
  have hcursor : ∀ c ∈ p.cursor, ShowsMember
      ("cursor: \x7b " ++ c.field ++ ": " ++ c.value.compact ++ " \x7d").toList
      ("cursor", c.meaning) := by
    intro c hc
    have hspace : Gap [' '] := gap_spaces 1
    have hvalue := shows_braced hspace (showsMember_compact (h c hc) c.value) hspace
    have hmember := showsMember_bare (by decide : isWord "cursor".toList = true) hvalue
    simpa [Cursor.meaning] using hmember
  exact ((ShowsEach.optional hskip).append (ShowsEach.optional htake)).append
    (ShowsEach.optional hcursor)

theorem showsMember_computation {key : String} (hkey : isWord key.toList = true)
    (names : List String) :
    ShowsMember (computation key names).toList (key, fieldsMeaning names) := by
  have hselect := showsMember_nested (by decide : isWord "select".toList = true) 2 (chosen names)
  have hopen : Gap ['\n', ' ', ' ', ' ', ' '] := gap_line 4
  have hclose : Gap ['\n', ' ', ' '] := gap_line 2
  have h := showsMember_bare hkey (shows_braced hopen hselect hclose)
  rw [ofJson_chosen] at h
  simpa [computation, fieldsMeaning, indent] using h

theorem showsEach_aggregate (a : Aggregation) : ShowsEach (aggregate a) a.meaning := by
  have hkey {key : String} (hkey : isWord key.toList = true) (names : Option (List String)) :
      ShowsEach (names.map (computation key)).toList (memberOf key fieldsMeaning names) :=
    ShowsEach.optional fun names _ => showsMember_computation hkey names
  have hcount : ShowsEach ((a.count.map count).getD []) ((a.count.map Count.meaning).getD []) := by
    cases a.count with
    | none => exact ShowsEach.nil
    | some c =>
      cases c with
      | whole wanted =>
        cases wanted with
        | false => exact ShowsEach.nil
        | true =>
          have h := showsMember_bare (by decide : isWord "_count".toList = true) (shows_bool true)
          exact ShowsEach.cons h ShowsEach.nil
      | fields names =>
        have h := showsMember_computation (by decide : isWord "_count".toList = true) names
        exact ShowsEach.cons h ShowsEach.nil
  have hsum := hkey (by decide : isWord "_sum".toList = true) a.sum
  have haverage := hkey (by decide : isWord "_avg".toList = true) a.average
  have hminimum := hkey (by decide : isWord "_min".toList = true) a.minimum
  have hmaximum := hkey (by decide : isWord "_max".toList = true) a.maximum
  exact (((hcount.append hsum).append haverage).append hminimum).append hmaximum

theorem showsEach_include (g : Generator) (r : Request) :
    ShowsEach (Clause.includeRelations g.identity r.options.relation
      (g.selection r.model r.selected).relations) (g.includeMeaning r) := by
  have hnames := g.names_relations r.model r.selected
  generalize (g.selection r.model r.selected).relations = relations at hnames
  have honce : (relations.map (·.name)).eraseDups = relations.map (·.name) := by
    rw [hnames, eraseDups_eraseDups]
  rw [Generator.includeMeaning, ← hnames, Clause.includeRelations]
  by_cases hnone : r.options.relation.bind (·.maxDepth) = some 0 ∨ relations = []
  · have hmeaning : relations.map (·.name) = [] ∨
        r.options.relation.bind (·.maxDepth) = some 0 := by
      rcases hnone with h | h
      · exact Or.inr h
      · exact Or.inl (List.map_eq_nil_iff.2 h)
    rw [if_pos hnone, if_pos hmeaning]
    exact ShowsEach.nil
  · have hmeaning : ¬ (relations.map (·.name) = [] ∨
        r.options.relation.bind (·.maxDepth) = some 0) := by
      rintro (h | h)
      · exact hnone (Or.inr (List.map_eq_nil_iff.1 h))
      · exact hnone (Or.inl h)
    rw [if_neg hnone, if_neg hmeaning]
    have h := showsMember_nested (by decide : isWord "include".toList = true) 1
      (.object (Members.ofList ((relations.map (·.name)).map fun name => (name,
        Clause.inclusion g.identity (r.options.relation.bind (·.inclusion? name))))))
    rw [ofJson_named, honce, List.map_map] at h
    simp only [ofJson_inclusion] at h
    exact ShowsEach.cons h ShowsEach.nil

end Clause

end SchemaQuery
