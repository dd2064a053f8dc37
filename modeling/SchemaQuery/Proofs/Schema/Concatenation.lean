import SchemaQuery.Proofs.Schema.Blocks
import SchemaQuery.Proofs.Schema.Reading

/-!
# Schemas one after the other

A text that ends in a closing brace leaves nothing open: no block of it reaches into the text that
follows on the next line, and no block of that text begins in it. A schema written in two parts is
therefore read part by part, and the first provider that is assigned counts.
-/

set_option autoImplicit false

namespace SchemaQuery

open SchemaQuery.Unicode SchemaQuery.Text

/-- The last character that is not white closes a block, if there is any. -/
def EndsClosed (s : List Char) : Prop :=
  isBlank s = true ∨ ∃ front blanks, isBlank blanks = true ∧ s = front ++ '}' :: blanks

theorem endsClosed_suffix {s front rest : List Char} (h : EndsClosed s) (he : s = front ++ rest) :
    EndsClosed rest := by
  subst he
  rcases h with h | ⟨before, blanks, hb, hs⟩
  · rw [isBlank_append, Bool.and_eq_true] at h
    exact Or.inl h.2
  · rcases List.append_eq_append_iff.1 hs with ⟨more, -, hrest⟩ | ⟨more, -, hblanks⟩
    · exact Or.inr ⟨more, blanks, hb, hrest⟩
    · cases more with
      | nil => exact Or.inr ⟨[], blanks, hb, by simpa using hblanks.symm⟩
      | cons c more =>
        simp only [List.cons_append, List.cons.injEq] at hblanks
        rw [hblanks.2, isBlank_append, Bool.and_eq_true] at hb
        exact Or.inl hb.2

theorem endsClosed_mem {s : List Char} (h : EndsClosed s) (hs : isBlank s = false) : '}' ∈ s := by
  rcases h with h | ⟨front, blanks, -, rfl⟩
  · rw [h] at hs
    exact absurd hs (by simp)
  · simp

namespace BlockKind

theorem block?_append (kind : BlockKind) {c : Char} {s : List Char} (h : EndsClosed (c :: s))
    (t : List Char) :
    kind.block? (c :: (s ++ t)) = (kind.block? (c :: s)).map fun r => (r.1, r.2 ++ t) := by
  cases hb : isBlank (c :: s) with
  | false => exact kind.block?_append_of_brace (Or.inl (endsClosed_mem h hb))
  | true =>
    have hc := isWhite_of_isBlank hb (List.mem_cons_self)
    rw [kind.block?_of_isWhite hc, kind.block?_of_isWhite hc]
    rfl

/-- The blocks of a text that ends closed and of the text on the next line are found apart. -/
theorem blocks_append (kind : BlockKind) {s : List Char} (h : EndsClosed s) (t : List Char) :
    kind.blocks (s ++ '\n' :: t) = kind.blocks s ++ kind.blocks t := by
  refine kind.blocksFrom_append_of_apart (fun c rest hsuffix => ?_)
    (fun opening => kind.blocksFrom_lineFeed opening t) true
  obtain ⟨front, hs⟩ := hsuffix
  exact kind.block?_append (endsClosed_suffix h hs.symm) _

end BlockKind

/-- The text is an assignment `provider = "value"` with any blanks around the sign, and may go on
after it. The value is not empty. -/
def Assigns (value : List Char) (s : List Char) : Prop :=
  ∃ gap gap' rest, isBlank gap = true ∧ isBlank gap' = true ∧ value ≠ [] ∧ '"' ∉ value ∧
    s = providerKeyword ++ (gap ++ '=' :: (gap' ++ '"' :: (value ++ '"' :: rest)))

def AssignsProvider (s : List Char) : Prop :=
  ∃ front value here, Assigns value here ∧ s = front ++ here

theorem takeWhile_quote_iff {s value : List Char} :
    ('"' ∈ s ∧ s.takeWhile (· != '"') = value) ↔
      '"' ∉ value ∧ ∃ rest, s = value ++ '"' :: rest := by
  constructor
  · rintro ⟨hs, rfl⟩
    refine ⟨fun h => ?_, (s.dropWhile (· != '"')).tail, ?_⟩
    · simpa using List.mem_takeWhile_imp h
    · have hd := mem_dropWhile_of_mem (p := fun c => c != '"') hs (by simp)
      conv => lhs; rw [← List.takeWhile_append_dropWhile (p := fun c => c != '"') (l := s)]
      cases h : s.dropWhile (fun c => c != '"') with
      | nil => simp [h] at hd
      | cons c rest =>
        have hc := List.head?_dropWhile_not (fun c => c != '"') s
        rw [h] at hc
        simp at hc
        simp [hc]
  · rintro ⟨hq, rest, rfl⟩
    refine ⟨by simp, takeWhile_append_cons (fun x hx => ?_) (by simp)⟩
    simp only [bne_iff_ne]
    exact fun e => hq (e ▸ hx)

theorem quotedValue_eq_some_iff {s value : List Char} :
    ((guard ((s.takeWhile (· != '"') != [] && s.contains '"') = true) : Option Unit).bind
      fun _ => some (String.ofList (s.takeWhile (· != '"')))) = some (String.ofList value) ↔
      value ≠ [] ∧ '"' ∉ value ∧ ∃ rest, s = value ++ '"' :: rest := by
  rw [← takeWhile_quote_iff]
  by_cases hb : (s.takeWhile (· != '"') != [] && s.contains '"') = true
  · rw [guard_of_pos hb, Option.bind_some, Option.some.injEq, String.ofList_inj]
    simp only [Bool.and_eq_true, bne_iff_ne, List.contains_eq_mem, decide_eq_true_eq] at hb
    constructor
    · rintro rfl
      exact ⟨hb.1, hb.2, rfl⟩
    · rintro ⟨-, -, h⟩
      exact h
  · rw [guard_of_neg hb, Option.bind_none]
    simp only [Bool.and_eq_true, bne_iff_ne, List.contains_eq_mem, decide_eq_true_eq] at hb
    constructor
    · intro h
      cases h
    · rintro ⟨hne, hs, rfl⟩
      exact absurd ⟨hne, hs⟩ hb

theorem providerHere?_eq_some_iff {s value : List Char} :
    providerHere? s = some (String.ofList value) ↔ Assigns value s := by
  show (after? providerKeyword s).bind (fun s => (after? ['='] (trimLeft s)).bind fun s =>
    (after? ['"'] (trimLeft s)).bind fun s =>
      (guard ((s.takeWhile (· != '"') != [] && s.contains '"') = true) : Option Unit).bind
        fun _ => some (String.ofList (s.takeWhile (· != '"')))) = _ ↔ _
  constructor
  · intro h
    obtain ⟨s₁, h₁, hr₁⟩ := Option.bind_eq_some_iff.1 h
    obtain ⟨s₂, h₂, hr₂⟩ := Option.bind_eq_some_iff.1 hr₁
    obtain ⟨s₃, h₃, hr₃⟩ := Option.bind_eq_some_iff.1 hr₂
    obtain ⟨gap, hgap, hs₁⟩ := (after?_trimLeft_iff (by decide)).1 h₂
    obtain ⟨gap', hgap', hs₂⟩ := (after?_trimLeft_iff (by decide)).1 h₃
    obtain ⟨hne, hq, rest, hs₃⟩ := quotedValue_eq_some_iff.1 hr₃
    refine ⟨gap, gap', rest, hgap, hgap', hne, hq, ?_⟩
    rw [after?_eq_some_iff.1 h₁, hs₁, hs₂, hs₃, List.nil_append, List.nil_append]
  · rintro ⟨gap, gap', rest, hgap, hgap', hne, hq, rfl⟩
    refine Option.bind_eq_some_iff.2 ⟨_, after?_append _ _, ?_⟩
    refine Option.bind_eq_some_iff.2 ⟨_, (after?_trimLeft_iff (by decide)).2
      ⟨gap, hgap, rfl⟩, ?_⟩
    refine Option.bind_eq_some_iff.2 ⟨_, (after?_trimLeft_iff (by decide)).2
      ⟨gap', hgap', rfl⟩, ?_⟩
    exact quotedValue_eq_some_iff.2 ⟨hne, hq, rest, rfl⟩

theorem provider?_of_here {c : Char} {s : List Char} {name : String}
    (h : providerHere? (c :: s) = some name) : provider? (c :: s) = some name := by
  rw [provider?, h]
  rfl

theorem provider?_of_not_here {c : Char} {s : List Char} (h : providerHere? (c :: s) = none) :
    provider? (c :: s) = provider? s := by
  rw [provider?, h]
  rfl

theorem assigns_of_providerHere? {s : List Char} {name : String} (h : providerHere? s = some name) :
    Assigns name.toList s :=
  providerHere?_eq_some_iff.1 (h.trans (congrArg some String.ofList_toList.symm))

theorem count_quote_of_isBlank {s : List Char} (h : isBlank s = true) : s.count '"' = 0 := by
  rw [List.count_eq_zero]
  intro hq
  have hw := isWhite_of_isBlank h hq
  exact absurd hw (by decide)

theorem count_quote_assigns {value s : List Char} (h : Assigns value s) : 2 ≤ s.count '"' := by
  obtain ⟨gap, gap', rest, hgap, hgap', -, hq, rfl⟩ := h
  simp only [List.count_append, List.count_cons]
  simp
  omega

theorem count_quote_provider? {s : List Char} {name : String} (h : provider? s = some name) :
    2 ≤ s.count '"' := by
  induction s with
  | nil => simp [provider?] at h
  | cons c s ih =>
    cases hp : providerHere? (c :: s) with
    | some found => exact count_quote_assigns (assigns_of_providerHere? hp)
    | none =>
      rw [provider?_of_not_here hp] at h
      have := ih h
      simp only [List.count_cons]
      omega

theorem assigns_append {value s : List Char} (h : Assigns value s) (t : List Char) :
    Assigns value (s ++ t) := by
  obtain ⟨gap, gap', rest, hgap, hgap', hne, hq, rfl⟩ := h
  refine ⟨gap, gap', rest ++ t, hgap, hgap', hne, hq, ?_⟩
  simp only [List.append_assoc, List.cons_append]

/-- An assignment that the end of the text cuts off leaves no room for a whole one behind it: up to
its closing quote it holds a single quote. -/
theorem assigns_of_append {value s t : List Char} (h : Assigns value (s ++ t))
    (hs : 2 ≤ s.count '"') : Assigns value s := by
  obtain ⟨gap, gap', rest, hgap, hgap', hne, hq, he⟩ := h
  have hopen : s ++ t =
      (providerKeyword ++ (gap ++ '=' :: (gap' ++ '"' :: value))) ++ '"' :: rest := by
    rw [he]
    simp only [List.append_assoc, List.cons_append]
  have hcount : (providerKeyword ++ (gap ++ '=' :: (gap' ++ '"' :: value))).count '"' = 1 := by
    have hk : providerKeyword.count '"' = 0 := by decide
    have hv : value.count '"' = 0 := List.count_eq_zero.2 hq
    simp [List.count_append, hk, hv, count_quote_of_isBlank hgap, count_quote_of_isBlank hgap']
  rcases List.append_eq_append_iff.1 hopen with ⟨more, hmore, -⟩ | ⟨more, hmore, hrest⟩
  · rw [hmore, List.count_append] at hcount
    omega
  · cases more with
    | nil =>
      rw [List.append_nil] at hmore
      rw [hmore] at hs
      omega
    | cons c more =>
      simp only [List.cons_append, List.cons.injEq] at hrest
      refine ⟨gap, gap', more, hgap, hgap', hne, hq, ?_⟩
      rw [hmore, ← hrest.1]
      simp only [List.append_assoc, List.cons_append]

/-- What follows a text has no influence on the provider that is assigned in it. -/
theorem provider?_append {s : List Char} {name : String} (h : provider? s = some name)
    (t : List Char) : provider? (s ++ t) = some name := by
  induction s with
  | nil => simp [provider?] at h
  | cons c s ih =>
    cases hp : providerHere? (c :: s) with
    | some found =>
      rw [provider?_of_here hp] at h
      have ha := providerHere?_eq_some_iff.2 (assigns_append (assigns_of_providerHere? hp) t)
      rw [String.ofList_toList] at ha
      rw [← h]
      exact provider?_of_here ha
    | none =>
      rw [provider?_of_not_here hp] at h
      have hc := count_quote_provider? h
      have hp' : providerHere? (c :: (s ++ t)) = none := by
        cases hw : providerHere? (c :: (s ++ t)) with
        | none => rfl
        | some found =>
          have ha := assigns_of_append (s := c :: s) (assigns_of_providerHere? hw)
            (by simp only [List.count_cons]; omega)
          rw [providerHere?_eq_some_iff.2 ha] at hp
          cases hp
      rw [List.cons_append, provider?_of_not_here hp', ih h]

theorem provider?_of_assignsProvider {s : List Char} (h : AssignsProvider s) :
    ∃ name, provider? s = some name := by
  obtain ⟨front, value, here, ha, rfl⟩ := h
  induction front with
  | nil =>
    cases here with
    | nil => exact absurd (count_quote_assigns ha) (by simp)
    | cons c here =>
      exact ⟨String.ofList value, provider?_of_here (providerHere?_eq_some_iff.2 ha)⟩
  | cons c front ih =>
    cases hp : providerHere? (c :: (front ++ here)) with
    | some found => exact ⟨found, provider?_of_here hp⟩
    | none =>
      rw [List.cons_append, provider?_of_not_here hp]
      exact ih

/-- A schema whose first part ends closed is read part by part: it is a schema if and only if both
parts are, its models and enumerations are those of the first part followed by those of the second,
and a provider that the first part assigns stays. Whatever else the parts hold, the blocks that are
found in them are the same as when they stand alone. -/
theorem read_concatenation (types : ScalarTypes) (a b : List Char) (ha : EndsClosed a) :
    ((∃ d, (Document.read types (a ++ '\n' :: b)).result = .ok d) ↔
      (∃ da, (Document.read types a).result = .ok da) ∧
        ∃ db, (Document.read types b).result = .ok db) ∧
    (∀ d da db, (Document.read types (a ++ '\n' :: b)).result = .ok d →
      (Document.read types a).result = .ok da → (Document.read types b).result = .ok db →
        d.models = da.models ++ db.models ∧ d.enums = da.enums ++ db.enums ∧
          (AssignsProvider a → d.provider = da.provider)) ∧
    ∀ kind : BlockKind, kind.blocks (a ++ '\n' :: b) = kind.blocks a ++ kind.blocks b := by
  have hblocks (kind : BlockKind) := kind.blocks_append ha b
  refine ⟨⟨?_, ?_⟩, ?_, hblocks⟩
  · rintro ⟨d, hd⟩
    obtain ⟨hm, he, -⟩ := Document.read_eq_ok_iff.1 hd
    rw [hblocks] at hm he
    obtain ⟨ms, ms', hms, hms', -⟩ := mapM_eq_ok_append_iff.1 hm
    obtain ⟨es, es', hes, hes', -⟩ := mapM_eq_ok_append_iff.1 he
    exact ⟨⟨⟨ms, es, _⟩, Document.read_eq_ok_iff.2 ⟨hms, hes, rfl⟩⟩,
      ⟨ms', es', _⟩, Document.read_eq_ok_iff.2 ⟨hms', hes', rfl⟩⟩
  · rintro ⟨⟨da, hda⟩, db, hdb⟩
    obtain ⟨hms, hes, -⟩ := Document.read_eq_ok_iff.1 hda
    obtain ⟨hms', hes', -⟩ := Document.read_eq_ok_iff.1 hdb
    refine ⟨⟨da.models ++ db.models, da.enums ++ db.enums, _⟩,
      Document.read_eq_ok_iff.2 ⟨?_, ?_, rfl⟩⟩
    · rw [hblocks]
      exact mapM_eq_ok_append_iff.2 ⟨_, _, hms, hms', rfl⟩
    · rw [hblocks]
      exact mapM_eq_ok_append_iff.2 ⟨_, _, hes, hes', rfl⟩
  · intro d da db hd hda hdb
    obtain ⟨hm, he, hp⟩ := Document.read_eq_ok_iff.1 hd
    obtain ⟨hms, hes, hpa⟩ := Document.read_eq_ok_iff.1 hda
    obtain ⟨hms', hes', -⟩ := Document.read_eq_ok_iff.1 hdb
    rw [hblocks] at hm he
    obtain ⟨ms, ms', h₁, h₂, hd₁⟩ := mapM_eq_ok_append_iff.1 hm
    obtain ⟨es, es', h₃, h₄, hd₂⟩ := mapM_eq_ok_append_iff.1 he
    rw [hms] at h₁
    rw [hms'] at h₂
    rw [hes] at h₃
    rw [hes'] at h₄
    cases h₁
    cases h₂
    cases h₃
    cases h₄
    refine ⟨hd₁, hd₂, fun hprovider => ?_⟩
    obtain ⟨name, hn⟩ := provider?_of_assignsProvider hprovider
    rw [hp, hpa, hn, provider?_append hn]

def strayPart : List Char :=
  "model model \x7b enum\nmodel A \x7b\n  id Int @id\n\x7d\n\" model\nprovider = \"p\x7b\"\n\x7d".toList

def strayRest : List Char :=
  "\x7d enum \x7b\n\" enum E \x7b\nenum E \x7b\n  X\n\x7d\nprovider = \"q\"".toList

theorem read_concatenation_stray :
    EndsClosed strayPart ∧ AssignsProvider strayPart ∧
      ∃ d, (Document.read .standard (strayPart ++ '\n' :: strayRest)).result = .ok d ∧
        d.models.map (·.name) = ["model"] ∧ d.enums = [⟨"E", ["X"]⟩] ∧ d.provider = "p\x7b" := by
  have hclosed : EndsClosed strayPart :=
    Or.inr ⟨strayPart.dropLast, [], rfl, by decide⟩
  have hprovider : AssignsProvider strayPart :=
    ⟨strayPart.take 52, ['p', '{'], strayPart.drop 52,
      ⟨[' '], [' '], ['\n', '}'], rfl, rfl, by decide, by decide, by decide⟩, by decide⟩
  obtain ⟨hiff, hjoin, -⟩ := read_concatenation .standard strayPart strayRest hclosed
  have hfirst : (Document.read .standard strayPart).result =
      .ok ⟨[⟨"model", none, [⟨"model", "A", true, false, false, false, none, some {}⟩,
        { name := "id", typeName := "Int", isId := true }]⟩], [], "p\x7b"⟩ := by decide +kernel
  have hrest : (Document.read .standard strayRest).result = .ok ⟨[], [⟨"E", ["X"]⟩], "q"⟩ := by
    decide +kernel
  obtain ⟨d, hd⟩ := hiff.2 ⟨⟨_, hfirst⟩, _, hrest⟩
  obtain ⟨hm, he, hp⟩ := hjoin d _ _ hd hfirst hrest
  refine ⟨hclosed, hprovider, d, hd, ?_, he, hp hprovider⟩
  rw [hm]
  rfl

end SchemaQuery
