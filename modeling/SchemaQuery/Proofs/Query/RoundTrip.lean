import SchemaQuery.Proofs.Query.Json

/-!
# Requests that come back from their JSON

The only values of a request that may be anything are those that conditions compare with and those
at which pages begin. Around them stand texts, numbers of 64 bits and lists of texts under fixed
names, so a request is exact if these values are. It is then read back from its JSON, and so are its
options and its filter by themselves.
-/

set_option autoImplicit false

namespace SchemaQuery

open Json (Exact Listed Shallow Writes decodeText decodeText_of_gives)

def Filter.values (f : Filter) : List Json := f.conditions.map (·.value)

def Page.values (p : Page) : List Json := p.cursor.toList.map (·.value)

def RelationOptions.pages (o : RelationOptions) : List Page := o.inclusions.filterMap (·.2.page)

def Options.values (o : Options) : List Json :=
  o.filter.values ++ o.page.toList.flatMap Page.values ++
    (o.relation.toList.flatMap RelationOptions.pages).flatMap Page.values

def Options.Distinct (o : Options) : Prop := ∀ r ∈ o.relation, (r.inclusions.map (·.1)).Nodup

section Shallow

variable {n : Nat}

theorem Json.shallow_natural (k : UInt64) : Shallow n (.ofUInt64 k) := by
  have hhigh : (k.toNat : Int) < unsignedLimit := Int.ofNat_lt.2 k.toNat_lt
  have hlow : -(signedLimit : Int) ≤ k.toNat := by
    have := Int.natCast_nonneg k.toNat
    simp only [signedLimit]
    omega
  exact .int hlow hhigh

theorem Json.shallow_integer (k : Int64) : Shallow n (.ofInt64 k) := by
  have hlow : -(signedLimit : Int) ≤ k.toInt := k.le_toInt
  have hhigh : k.toInt < (unsignedLimit : Int) := by
    have hsigned : k.toInt < (signedLimit : Int) := k.toInt_lt
    simp only [signedLimit] at hsigned
    simp only [unsignedLimit]
    omega
  exact .int hlow hhigh

theorem Condition.shallow_toJson {c : Condition} (h : Shallow n c.value) :
    Shallow (n + 1) c.toJson := by
  refine Shallow.object ?_ (by decide : ["field", "operator", "value"].Nodup)
  apply Listed.cons (.text _)
  apply Listed.cons (.text _)
  exact Listed.cons h .nil

theorem Filter.shallow_toJson {f : Filter} (h : ∀ v ∈ f.values, Shallow n v) :
    Shallow (n + 3) f.toJson := by
  have hconditions : ∀ c ∈ f.conditions, Shallow (n + 1) c.toJson := fun c hc =>
    c.shallow_toJson (h _ (List.mem_map_of_mem hc))
  cases f with
  | everything => exact .object .nil List.nodup_nil
  | conjunction conditions =>
    exact .object (.cons (.array hconditions) .nil) (by decide : ["AND"].Nodup)
  | disjunction conditions =>
    exact .object (.cons (.array hconditions) .nil) (by decide : ["OR"].Nodup)
  | single c => exact (hconditions c List.mem_cons_self).mono (Nat.le_add_right _ 2)

theorem SortKey.shallow_toJson (key : SortKey) : Shallow (n + 1) key.toJson := by
  refine Shallow.object ?_ (by decide : ["field", "order"].Nodup)
  apply Listed.cons (.text _)
  exact Listed.cons (.text _) .nil

theorem shallow_sort (keys : List SortKey) : Shallow (n + 2) (sortToJson keys) :=
  .array fun key _ => key.shallow_toJson

theorem Cursor.shallow_toJson {c : Cursor} (h : Shallow n c.value) : Shallow (n + 1) c.toJson := by
  refine Shallow.object ?_ (by decide : ["field", "value"].Nodup)
  apply Listed.cons (.text _)
  exact Listed.cons h .nil

theorem Page.shallow_toJson {p : Page} (h : ∀ v ∈ p.values, Shallow n v) :
    Shallow (n + 2) p.toJson := by
  have hcursor : ∀ c ∈ p.cursor, Shallow (n + 1) c.toJson := fun c hc =>
    c.shallow_toJson (h _ (List.mem_map_of_mem (Option.mem_toList.2 hc)))
  rw [toJson]
  simp only [List.append_assoc]
  refine Shallow.object ?_ (by decide : ["skip", "take", "cursor"].Nodup)
  apply Listed.memberOf fun k _ => Json.shallow_natural k
  apply Listed.memberOf fun k _ => Json.shallow_integer k
  exact Listed.memberOf_last hcursor

theorem Inclusion.shallow_toJson {i : Inclusion}
    (h : ∀ p ∈ i.page, ∀ v ∈ p.values, Shallow n v) : Shallow (n + 3) i.toJson := by
  rw [toJson]
  simp only [List.append_assoc]
  refine Shallow.object ?_ (by decide : ["select", "sort", "pagination"].Nodup)
  apply Listed.memberOf fun names _ => .strings names
  apply Listed.memberOf fun keys _ => shallow_sort keys
  exact Listed.memberOf_last fun p hp => p.shallow_toJson (h p hp)

theorem RelationOptions.shallow_toJson {o : RelationOptions}
    (h : ∀ p ∈ o.pages, ∀ v ∈ p.values, Shallow n v) (hnames : (o.inclusions.map (·.1)).Nodup) :
    Shallow (n + 5) o.toJson := by
  have hinclusion : ∀ entry ∈ o.inclusions, Shallow (n + 3) entry.2.toJson := fun entry he =>
    entry.2.shallow_toJson fun p hp => h p (List.mem_filterMap.2 ⟨entry, he, hp⟩)
  have hlisted : Listed (n + 3) (o.inclusions.map (·.1))
      (o.inclusions.map fun entry => (entry.1, entry.2.toJson)) := by
    refine ⟨by rw [List.map_map]; exact List.Sublist.refl _, fun m hm => ?_⟩
    obtain ⟨entry, he, rfl⟩ := List.mem_map.1 hm
    exact hinclusion entry he
  refine Shallow.object ?_ (by decide : ["maxDepth", "include"].Nodup)
  apply Listed.memberOf fun k _ => Json.shallow_natural k
  exact Listed.cons (.object hlisted hnames) .nil

theorem Count.shallow_toJson (c : Count) : Shallow (n + 2) c.toJson := by
  cases c with
  | whole wanted => exact .bool wanted
  | fields names => exact (shallow_fieldsToJson names).mono (Nat.le_add_left 2 n)

theorem Aggregation.shallow_toJson (a : Aggregation) : Shallow (n + 3) a.toJson := by
  have hfields (names : List String) : Shallow (n + 2) (fieldsToJson names) :=
    (shallow_fieldsToJson names).mono (Nat.le_add_left 2 n)
  rw [toJson]
  simp only [List.append_assoc]
  refine Shallow.object ?_ (by decide : ["_count", "_sum", "_avg", "_min", "_max"].Nodup)
  apply Listed.memberOf fun c _ => c.shallow_toJson
  apply Listed.memberOf fun names _ => hfields names
  apply Listed.memberOf fun names _ => hfields names
  apply Listed.memberOf fun names _ => hfields names
  exact Listed.memberOf_last fun names _ => hfields names

/-- Options are nested a few levels deeper than the values in them. -/
theorem Options.shallow_toJson {o : Options} (h : ∀ v ∈ o.values, Shallow n v)
    (hdistinct : o.Distinct) : Shallow (n + 6) o.toJson := by
  simp only [values, List.mem_append, List.mem_flatMap] at h
  have hfilter : Shallow (n + 3) o.filter.toJson :=
    Filter.shallow_toJson fun v hv => h v (Or.inl (Or.inl hv))
  have hpage : ∀ p ∈ o.page, Shallow (n + 2) p.toJson := fun p hp =>
    p.shallow_toJson fun v hv => h v (Or.inl (Or.inr ⟨p, Option.mem_toList.2 hp, hv⟩))
  have hrelation : ∀ r ∈ o.relation, Shallow (n + 5) r.toJson := fun r hr =>
    r.shallow_toJson (fun p hp v hv =>
      h v (Or.inr ⟨p, ⟨r, Option.mem_toList.2 hr, hp⟩, hv⟩)) (hdistinct r hr)
  rw [toJson, members]
  simp only [List.append_assoc, List.cons_append, List.nil_append]
  refine Shallow.object ?_
    (by decide : ["conditions", "sort", "pagination", "relation", "aggregate"].Nodup)
  apply Listed.cons (hfilter.mono (Nat.le_add_right _ 2))
  apply Listed.memberOf fun keys _ => shallow_sort keys
  apply Listed.memberOf fun p hp => (hpage p hp).mono (Nat.le_add_right _ 3)
  apply Listed.memberOf hrelation
  exact Listed.memberOf_last fun a _ => a.shallow_toJson

end Shallow

/-- Finitely many exact values have a common bound on their nesting. -/
theorem Json.exists_shallow {values : List Json} (h : ∀ v ∈ values, Exact v) :
    ∃ n, ∀ v ∈ values, Shallow n v :=
  ⟨nestingItems values, fun v hv => ⟨h v hv, nestingItems_le.1 (Nat.le_refl _) v hv⟩⟩

theorem Filter.exact_toJson {f : Filter} (h : ∀ v ∈ f.values, Exact v) : Exact f.toJson := by
  obtain ⟨n, hn⟩ := Json.exists_shallow h
  exact (f.shallow_toJson hn).exact

theorem Options.exact_toJson {o : Options} (h : ∀ v ∈ o.values, Exact v)
    (hdistinct : o.Distinct) : Exact o.toJson := by
  obtain ⟨n, hn⟩ := Json.exists_shallow h
  exact (o.shallow_toJson hn hdistinct).exact

/-- The options are nested no deeper than the request. -/
theorem Request.nesting_options_le {r : Request} {n : Nat} (h : r.toJson.nesting ≤ n + 1) :
    r.options.toJson.nesting ≤ n + 1 := by
  rw [toJson_eq, Json.nesting_object] at h
  rw [Options.toJson, Json.nesting_object]
  intro m hm
  exact h m (by simp [hm])

/-- A request is read back from every text of its JSON, and its options and a filter are decoded
from every text of theirs, if the values in them are exact and containers are nested at most 127
deep. -/
theorem request_comes_back (t : String) :
    (∀ r : Request, (∀ v ∈ r.options.values, Exact v) → r.options.Distinct →
      r.toJson.nesting ≤ 127 → Writes t r.toJson → Request.ofText t = .ok r) ∧
    (∀ o : Options, (∀ v ∈ o.values, Exact v) → o.Distinct →
      o.toJson.nesting ≤ 127 → Writes t o.toJson → decodeText Options.decoder t = .ok o) ∧
    ∀ f : Filter, (∀ v ∈ f.values, Exact v) →
      f.toJson.nesting ≤ 127 → Writes t f.toJson → decodeText Filter.decoder t = .ok f := by
  refine ⟨?_, ?_, ?_⟩
  · intro r hvalues hdistinct hnesting ht
    have hexact := Options.exact_toJson hvalues hdistinct
    exact Request.ofText_of_writes ht ⟨hexact, Request.nesting_options_le hnesting⟩
  · intro o hvalues hdistinct hnesting ht
    have hexact := Options.exact_toJson hvalues hdistinct
    exact decodeText_of_gives ht ⟨hexact, hnesting⟩ (Options.gives_toJson hexact)
  · intro f hvalues hnesting ht
    have hexact := Filter.exact_toJson hvalues
    exact decodeText_of_gives ht ⟨hexact, hnesting⟩ (Filter.gives_toJson hexact)

def deepValue : Json := .object [("\"", .array [.ofInt 18446744073709551615])]

def deepPage : Page where
  take := some (-1)
  cursor := some ⟨"\n", deepValue⟩

def bareRequest : Request where
  model := ⟨"User", some "",
    [{ name := "id", typeName := "Int", isId := true, relation := some {} }]⟩
  operation := .aggregate
  options := {
    filter := .single ⟨"größe", .not, .null⟩
    sort := some []
    page := some {}
    relation := some {
      inclusions := [("posts", { select := some [], page := some deepPage }), ("", {})] }
    aggregation := some { count := some (.whole false), sum := some [] } }

theorem shallow_deepValue : Shallow 2 deepValue := by
  have hlargest : Shallow 0 (.ofInt 18446744073709551615) := .int (by decide) (by decide)
  have hlist : Shallow 1 (.array ([Json.ofInt 18446744073709551615].map id)) :=
    .array fun v hv => by rw [List.mem_singleton.1 hv]; exact hlargest
  exact .object (.cons hlist .nil) (by decide : ["\""].Nodup)

theorem request_comes_back_bare :
    (∀ v ∈ bareRequest.options.values, Exact v) ∧ bareRequest.options.Distinct ∧
      bareRequest.toJson.nesting ≤ 127 ∧ bareRequest.options.toJson.nesting ≤ 127 ∧
      Request.ofText bareRequest.toJson.compact = .ok bareRequest ∧
      decodeText Options.decoder (bareRequest.options.toJson.pretty ++ "\n") =
        .ok bareRequest.options ∧
      decodeText Filter.decoder (Filter.conjunction []).toJson.compact = .ok (.conjunction []) := by
  have hvalues : ∀ v ∈ bareRequest.options.values, Exact v := by
    have hlist : bareRequest.options.values = [.null, deepValue] := rfl
    rw [hlist]
    simp only [List.forall_mem_cons]
    exact ⟨.null, shallow_deepValue.exact, fun v hv => by cases hv⟩
  have hdistinct : bareRequest.options.Distinct := by
    rintro r ⟨⟩
    decide
  have hnesting : bareRequest.toJson.nesting ≤ 127 := by decide
  have hoptions : bareRequest.options.toJson.nesting ≤ 127 := by decide
  obtain ⟨hrequest, -, -⟩ := request_comes_back bareRequest.toJson.compact
  obtain ⟨-, hopts, -⟩ := request_comes_back (bareRequest.options.toJson.pretty ++ "\n")
  obtain ⟨-, -, hfilter⟩ := request_comes_back (Filter.conjunction []).toJson.compact
  exact ⟨hvalues, hdistinct, hnesting, hoptions,
    hrequest _ hvalues hdistinct hnesting (Json.writes_compact _),
    hopts _ hvalues hdistinct hoptions (Json.writes_pretty _),
    hfilter _ (fun v hv => by cases hv) (by decide) (Json.writes_compact _)⟩

end SchemaQuery
