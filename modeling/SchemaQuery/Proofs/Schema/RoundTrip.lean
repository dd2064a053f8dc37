import SchemaQuery.Proofs.Schema.Concatenation
import SchemaQuery.Proofs.Schema.Header
import SchemaQuery.Proofs.Schema.Members

/-!
# Schemas are read back as they were written

The text of a document is cut into its blocks, each of which is read back as the model or the
enumeration it was written from. Words of the document that are keywords of the notation do no harm:
a keyword opens a block only where a line begins, and inside a block no brace opens another one.
-/

set_option autoImplicit false

namespace SchemaQuery

open SchemaQuery.Unicode SchemaQuery.Text

namespace BlockKind

/-- A line that does not open with the keyword holds no block. -/
theorem blocks_line (kind : BlockKind) {c : Char} {s : List Char} (hw : isWhite c = false)
    (hc : kind.keyword.toList.head? ≠ some c) (hs : '\n' ∉ c :: s) (t : List Char) :
    kind.blocks (c :: (s ++ '\n' :: t)) = kind.blocks t := by
  have hline : '\n' ∉ s := fun h => hs (List.mem_cons_of_mem _ h)
  have hne : c ≠ '\n' := fun e => hs (by simp [e])
  rw [blocks, blocksFrom_true_cons (kind.block?_of_head hc _), hw, beq_false_of_ne hne]
  exact kind.blocksFrom_false_line hline t

end BlockKind

namespace Layout

variable (layout : Layout)

def inner (body : List (List Char)) : List Char :=
  layout.ending ++ '\n' :: body.flatMap fun s => layout.line s ++ ['\n']

theorem joined_bracedLines (header : List Char) (body : List (List Char)) :
    joinPieces '\n' (layout.bracedLines header body) =
      header ++ (layout.inner body ++ ['}']) := by
  unfold bracedLines inner
  rw [joinPieces_append_singleton, List.flatMap_cons, List.flatMap_map]
  simp only [List.append_assoc, List.cons_append, List.nil_append]

theorem block_eq (kind : BlockKind) (name : String) (body : List (List Char)) :
    layout.block kind name body = kind.keyword.toList ++
      ((' ' :: (name.toList ++ [' '])) ++ '{' :: (layout.inner body ++ ['}'])) := by
  rw [block, joined_bracedLines]
  simp only [List.append_assoc, List.cons_append, List.nil_append]

theorem inline_of_blank {s : List Char} (hb : isBlank s = true) (hl : '\n' ∉ s) : Inline s := by
  refine ⟨hl, fun hc => ?_, fun hc => ?_⟩
  · exact absurd (isWhite_of_isBlank hb hc) (by decide)
  · exact absurd (isWhite_of_isBlank hb hc) (by decide)

theorem inline_line {s : List Char} (hs : Inline s) : Inline (layout.line s) :=
  inline_append (inline_append (inline_of_blank layout.indent_blank layout.indent_line) hs)
    (inline_of_blank layout.ending_blank layout.ending_line)

theorem inner_noBrace {body : List (List Char)} (h : ∀ s ∈ body, Inline s) :
    '{' ∉ layout.inner body ∧ '}' ∉ layout.inner body := by
  have hending := inline_of_blank layout.ending_blank layout.ending_line
  have hlines {c : Char} (hc : c ≠ '\n') (hline : ∀ s, Inline s → c ∉ s) :
      c ∉ layout.inner body := by
    unfold inner
    simp only [List.mem_append, List.mem_cons, List.mem_flatMap, List.not_mem_nil, or_false,
      not_or, not_exists, not_and]
    exact ⟨hline _ hending, hc, fun s hs => ⟨hline _ (layout.inline_line (h s hs)), hc⟩⟩
  exact ⟨hlines (by decide) fun s hs => hs.2.1, hlines (by decide) fun s hs => hs.2.2⟩

variable {name : String} {body : List (List Char)}

theorem isBlock_block (kind : BlockKind) (hname : isWord name.toList = true)
    (hbody : ∀ s ∈ body, Inline s) : kind.IsBlock (layout.block kind name body) := by
  refine ⟨' ' :: (name.toList ++ [' ']), layout.inner body, layout.block_eq kind name body,
    fun c hc => ?_, opensWord_cons (by decide) _, (layout.inner_noBrace hbody).2⟩
  simp only [List.mem_cons, List.mem_append, List.not_mem_nil, or_false] at hc
  rcases hc with rfl | hc | rfl
  · exact Or.inr isWhite_space
  · exact Or.inl (isWordChar_of_isWord hname hc)
  · exact Or.inr isWhite_space

/-- The text of a block is one block of its kind. -/
theorem blocks_block (kind : BlockKind) (hname : isWord name.toList = true)
    (hbody : ∀ s ∈ body, Inline s) :
    kind.blocks (layout.block kind name body) = [layout.block kind name body] := by
  have hblock : kind.block? (layout.block kind name body) =
      some (layout.block kind name body, []) :=
    BlockKind.block?_eq_some_iff.2
      ⟨layout.isBlock_block kind hname hbody, (List.append_nil _).symm⟩
  rw [BlockKind.blocks, BlockKind.blocksFrom_of_block? hblock, BlockKind.blocksFrom_nil]

theorem blocks_other_block {kind other : BlockKind} (hne : other ≠ kind)
    (hname : isWord name.toList = true) (hbody : ∀ s ∈ body, Inline s) :
    other.blocks (layout.block kind name body) = [] := by
  have hkeyword : ∃ c word, kind.keyword.toList = c :: word ∧ isWhite c = false ∧
      other.keyword.toList.head? ≠ some c ∧ '\n' ∉ c :: word := by
    cases kind <;> cases other <;> first
      | exact absurd rfl hne
      | exact ⟨_, _, rfl, by decide, by decide, by decide⟩
  obtain ⟨c, word, hk, hw, hc, hline⟩ := hkeyword
  generalize hh : ' ' :: (name.toList ++ [' ', '{']) ++ layout.ending = header
  generalize hb : (body.flatMap fun s => layout.line s ++ ['\n']) ++ ['}'] = rest
  have hsplit : layout.block kind name body = c :: ((word ++ header) ++ '\n' :: rest) := by
    rw [block_eq, hk, inner, ← hh, ← hb]
    simp only [List.append_assoc, List.cons_append, List.nil_append]
  have hheader : '\n' ∉ header := by
    rw [← hh]
    simp only [List.mem_append, List.mem_cons, List.not_mem_nil, or_false, not_or]
    exact ⟨⟨by decide, (inline_of_isWord hname).1,
      by decide, by decide⟩, layout.ending_line⟩
  have hrest : '{' ∉ rest := by
    rw [← hb]
    simp only [List.mem_append, List.mem_flatMap, List.mem_cons, List.not_mem_nil, or_false,
      not_or, not_exists, not_and]
    exact ⟨fun s hs => ⟨(layout.inline_line (hbody s hs)).2.1, by decide⟩, by decide⟩
  have hall : '\n' ∉ c :: (word ++ header) := by
    simp only [List.mem_cons, List.mem_append, not_or] at hline ⊢
    exact ⟨hline.1, hline.2, hheader⟩
  rw [hsplit, other.blocks_line hw hc hall]
  exact other.blocksFrom_of_noBrace true hrest

theorem trim_members (h : ∀ s ∈ body, Member s) :
    (((body.map layout.line).map dropReturn).map trim).filter (· != []) = body := by
  have htrim : ((body.map layout.line).map dropReturn).map trim = body := by
    rw [List.map_map, List.map_map]
    conv => rhs; rw [← List.map_id body]
    apply List.map_congr_left
    intro s hs
    exact trim_line layout.indent_blank (h s hs).1 layout.ending_blank
  rw [htrim]
  apply List.filter_eq_self.2
  intro s hs
  exact bne_iff_ne.2 (h s hs).1.1

def header (kind : BlockKind) (name : String) : List Char :=
  kind.keyword.toList ++ ' ' :: (name.toList ++ [' ', '{']) ++ layout.ending

theorem notMem_header (kind : BlockKind) (hname : isWord name.toList = true) :
    '\n' ∉ layout.header kind name := by
  have hkeyword : Inline kind.keyword.toList := by cases kind <;> decide
  have hwords := inline_of_isWord hname
  have hending := layout.ending_line
  simp only [header, List.mem_append, List.mem_cons, List.not_mem_nil, or_false, not_or]
  exact ⟨⟨hkeyword.1, by decide, hwords.1, by decide, by decide⟩, hending⟩

theorem headerName?_dropReturn (kind : BlockKind) (hname : isWord name.toList = true) :
    kind.headerName? (dropReturn (layout.header kind name)) = some name := by
  obtain ⟨ending, hending, hheader⟩ := dropReturn_append (layout.header kind name)
  rw [← kind.headerName?_append_of_isBlank _ hending, ← hheader]
  apply BlockKind.headerName?_eq_some_iff.2
  refine ⟨[], [' '], [' '], layout.ending, ?_, rfl, by simp, by decide, by decide, hname⟩
  simp [header]

theorem lines_block (kind : BlockKind) (hname : isWord name.toList = true)
    (hbody : ∀ s ∈ body, Member s) : lines (layout.block kind name body) =
      dropReturn (layout.header kind name) ::
        (body.map layout.line).map dropReturn ++ [['}']] := by
  have hall : ∀ p ∈ (layout.header kind name :: body.map layout.line) ++ [['}']], '\n' ∉ p := by
    intro p hp
    simp only [List.mem_append, List.mem_cons, List.mem_map, List.not_mem_nil, or_false] at hp
    rcases hp with (rfl | ⟨s, hs, rfl⟩) | rfl
    · exact layout.notMem_header kind hname
    · exact (layout.inline_line (hbody s hs).2).1
    · decide
  exact lines_joinPieces (by decide) hall

/-- A block is opened to its name and the lines it was written with. -/
theorem open_block (kind : BlockKind) (hname : isWord name.toList = true)
    (hbody : ∀ s ∈ body, Member s) :
    kind.open (layout.block kind name body) = .ok (name, body) := by
  have hlines := layout.lines_block kind hname hbody
  have hfirst : (lines (layout.block kind name body)).headD [] =
      dropReturn (layout.header kind name) := by
    rw [hlines]
    rfl
  have hinterior : interior (lines (layout.block kind name body)) =
      (body.map layout.line).map dropReturn := by
    rw [hlines, interior, List.cons_append, List.drop_one, List.tail_cons,
      List.dropLast_concat]
  unfold BlockKind.open
  simp only [hfirst, layout.headerName?_dropReturn kind hname, hinterior, layout.trim_members hbody]

theorem read_model {types : ScalarTypes} {m : Model} (hm : m.Regular types) :
    (Model.read types (layout.block .model m.name (layout.modelLines types m))).result = .ok m := by
  have hopen := layout.open_block .model hm.name fun s hs => layout.member_modelLines hm hs
  rw [Model.read_result, hopen]
  exact congrArg Except.ok (layout.foldlM_modelLines hm)

theorem member_values {e : Enumeration} (he : e.Regular) {s : List Char}
    (h : s ∈ e.values.map String.toList) : Member s := by
  obtain ⟨value, hv, rfl⟩ := List.mem_map.1 h
  exact he.values value hv

theorem read_enumeration {e : Enumeration} (he : e.Regular) :
    Enumeration.read (layout.block .enumeration e.name (e.values.map String.toList)) = .ok e := by
  have hopen := layout.open_block .enumeration he.name fun s hs => member_values he hs
  have hvalues : (e.values.map String.toList).map String.ofList = e.values := by
    rw [List.map_map]
    conv => rhs; rw [← List.map_id e.values]
    apply List.map_congr_left
    intro value _
    exact String.ofList_toList
  rw [Enumeration.read_eq, hopen]
  show Except.ok (Enumeration.mk e.name _) = _
  rw [hvalues]

theorem endsClosed_braced (front : List Char) : EndsClosed (front ++ ['}']) :=
  Or.inr ⟨front, [], rfl, rfl⟩

theorem endsClosed_block (kind : BlockKind) (name : String) (body : List (List Char))
    (front : List Char) : EndsClosed (front ++ layout.block kind name body) := by
  rw [block, joined_bracedLines, ← List.append_assoc, ← List.append_assoc]
  exact endsClosed_braced _

theorem keyword_head (kind : BlockKind) :
    kind.keyword.toList.head? ≠ some 'd' ∧ kind.keyword.toList.head? ≠ some 'p' ∧
      kind.keyword.toList.head? ≠ some '}' := by
  cases kind <;> decide

theorem sourceHeader_eq : ∃ tail, sourceHeader = 'd' :: tail := ⟨sourceHeader.tail, by decide⟩

theorem providerKeyword_eq : ∃ tail, providerKeyword = 'p' :: tail :=
  ⟨providerKeyword.tail, by decide⟩

/-- The lines of a data source, whatever its provider is, hold no block. -/
theorem blocks_dataSource (kind : BlockKind) {provider : String}
    (hline : '\n' ∉ provider.toList) : kind.blocks (layout.dataSource provider) = [] := by
  obtain ⟨hd, hp, -⟩ := keyword_head kind
  have hending := layout.ending_line
  generalize hh : sourceHeader ++ layout.ending = header
  generalize hs : providerLine provider ++ layout.ending = assignment
  obtain ⟨header', hd'⟩ : ∃ tail, header = 'd' :: tail := by
    obtain ⟨tail, ht⟩ := sourceHeader_eq
    rw [← hh, ht]
    exact ⟨_, rfl⟩
  obtain ⟨assignment', hp'⟩ : ∃ tail, assignment = 'p' :: tail := by
    obtain ⟨tail, ht⟩ := providerKeyword_eq
    rw [← hs, providerLine, ht]
    exact ⟨_, rfl⟩
  have hheader : '\n' ∉ header := by
    have hfixed : '\n' ∉ sourceHeader := by decide
    rw [← hh, List.mem_append, not_or]
    exact ⟨hfixed, hending⟩
  have hassignment : '\n' ∉ assignment := by
    have hfixed : '\n' ∉ providerKeyword := by decide
    rw [← hs, providerLine]
    simp only [List.mem_append, List.mem_cons, List.not_mem_nil, or_false, not_or]
    exact ⟨⟨hfixed, by decide, by decide, by decide, by decide, hline, by decide⟩, hending⟩
  have hsplit : layout.dataSource provider =
      header ++ '\n' :: (layout.indent ++ (assignment ++ ['\n', '}'])) := by
    rw [dataSource, bracedLines, ← hh, ← hs]
    simp [joinPieces, line]
  rw [hsplit, hd', List.cons_append, kind.blocks_line (by decide) hd (hd' ▸ hheader),
    kind.blocks_blank layout.indent_blank, hp', List.cons_append,
    kind.blocks_line (by decide) hp (hp' ▸ hassignment)]
  exact kind.blocksFrom_of_noBrace true (by decide)

theorem provider?_skip {front : List Char} (h : 'p' ∉ front) (s : List Char) :
    provider? (front ++ s) = provider? s := by
  induction front with
  | nil => rfl
  | cons c front ih =>
    have hfront : 'p' ∉ front := fun hc => h (List.mem_cons_of_mem _ hc)
    have hnone : providerHere? (c :: (front ++ s)) = none := by
      cases hp : providerHere? (c :: (front ++ s)) with
      | none => rfl
      | some name =>
        obtain ⟨gap, gap', rest, -, -, -, -, he⟩ := assigns_of_providerHere? hp
        obtain ⟨tail, ht⟩ := providerKeyword_eq
        rw [ht, List.cons_append, List.cons.injEq] at he
        exact absurd (by simp [he.1]) h
    rw [List.cons_append, provider?_of_not_here hnone, ih hfront]

theorem provider?_dataSource {provider : String} (hne : provider ≠ "")
    (hquote : '"' ∉ provider.toList) : provider? (layout.dataSource provider) = some provider := by
  have hvalue : provider.toList ≠ [] := fun h => hne (String.toList_eq_nil_iff.1 h)
  generalize hr : layout.ending ++ ['\n', '}'] = rest
  generalize hf : sourceHeader ++ (layout.ending ++ '\n' :: layout.indent) = front
  have hsplit : layout.dataSource provider = front ++ (providerLine provider ++ rest) := by
    rw [dataSource, bracedLines, ← hf, ← hr]
    simp [joinPieces, line]
  have hblank {s : List Char} (h : isBlank s = true) : 'p' ∉ s :=
    fun hp => absurd (isWhite_of_isBlank h hp) (by decide)
  have hfront : 'p' ∉ front := by
    have hfixed : 'p' ∉ sourceHeader := by decide
    rw [← hf]
    simp only [List.mem_append, List.mem_cons, not_or]
    exact ⟨hfixed, hblank layout.ending_blank, by decide, hblank layout.indent_blank⟩
  have hassigns : Assigns provider.toList (providerLine provider ++ rest) := by
    refine ⟨[' '], [' '], rest, by decide, by decide, hvalue, hquote, ?_⟩
    rw [providerLine]
    simp only [List.append_assoc, List.cons_append, List.nil_append]
  have hhere := providerHere?_eq_some_iff.2 hassigns
  rw [String.ofList_toList] at hhere
  obtain ⟨tail, ht⟩ := providerKeyword_eq
  rw [hsplit, provider?_skip hfront]
  rw [providerLine, ht, List.cons_append, List.cons_append] at hhere ⊢
  exact provider?_of_here hhere

end Layout

def Item.Regular (types : ScalarTypes) : Item → Prop
  | .model m => m.Regular types
  | .enumeration e => e.Regular

def Layout.blockOf (layout : Layout) (types : ScalarTypes) : BlockKind → Item → List (List Char)
  | .model, .model m => [layout.item types (.model m)]
  | .enumeration, .enumeration e => [layout.item types (.enumeration e)]
  | .model, .enumeration _ => []
  | .enumeration, .model _ => []

namespace Layout

variable (layout : Layout) {types : ScalarTypes}

theorem endsClosed_item (i : Item) (front : List Char) :
    EndsClosed (front ++ layout.item types i) := by
  cases i with
  | model m => exact layout.endsClosed_block _ _ _ front
  | enumeration e => exact layout.endsClosed_block _ _ _ front

theorem blocks_item (kind : BlockKind) {i : Item} (hi : i.Regular types) :
    kind.blocks (layout.item types i) = layout.blockOf types kind i := by
  cases i with
  | model m =>
    have hbody : ∀ s ∈ layout.modelLines types m, Inline s :=
      fun s hs => (layout.member_modelLines hi hs).2
    cases kind with
    | model => exact layout.blocks_block .model hi.name hbody
    | enumeration => exact layout.blocks_other_block (by decide) hi.name hbody
  | enumeration e =>
    have hbody : ∀ s ∈ e.values.map String.toList, Inline s := fun s hs => (member_values hi hs).2
    cases kind with
    | model => exact layout.blocks_other_block (by decide) hi.name hbody
    | enumeration => exact layout.blocks_block .enumeration hi.name hbody

theorem blocks_items (kind : BlockKind) {items : List Item}
    (hitems : ∀ i ∈ items, i.Regular types) :
    kind.blocks (items.flatMap fun i => layout.margin ++ layout.item types i ++ ['\n']) =
      items.flatMap (layout.blockOf types kind) := by
  induction items with
  | nil => exact kind.blocksFrom_nil true
  | cons i items ih =>
    have hi : i.Regular types := hitems i List.mem_cons_self
    have hrest := ih fun x hx => hitems x (List.mem_cons_of_mem _ hx)
    have hclosed : EndsClosed (layout.margin ++ layout.item types i) :=
      layout.endsClosed_item i layout.margin
    rw [List.flatMap_cons, List.append_assoc, List.singleton_append, kind.blocks_append hclosed,
      kind.blocks_blank layout.margin_blank, layout.blocks_item kind hi, hrest, List.flatMap_cons]

theorem blocks_text (kind : BlockKind) {provider : String} (hline : '\n' ∉ provider.toList)
    {items : List Item} (hitems : ∀ i ∈ items, i.Regular types) :
    kind.blocks (layout.text types provider items) = items.flatMap (layout.blockOf types kind) := by
  have hclosed : EndsClosed (layout.dataSource provider) := by
    rw [dataSource, joined_bracedLines, ← List.append_assoc]
    exact endsClosed_braced _
  rw [text, kind.blocks_append hclosed, layout.blocks_dataSource kind hline, List.nil_append,
    layout.blocks_items kind hitems]

theorem mapM_models {items : List Item} (hitems : ∀ i ∈ items, i.Regular types) :
    (items.flatMap (layout.blockOf types .model)).mapM
      (fun block => (Model.read types block).result) = .ok (items.filterMap Item.model?) := by
  apply mapM_flatMap_eq_ok
  intro i hi
  cases i with
  | enumeration e => rfl
  | model m =>
    rw [blockOf, item, List.mapM_cons, layout.read_model (hitems _ hi)]
    rfl

theorem mapM_enums {items : List Item} (hitems : ∀ i ∈ items, i.Regular types) :
    (items.flatMap (layout.blockOf types .enumeration)).mapM Enumeration.read =
      .ok (items.filterMap Item.enumeration?) := by
  apply mapM_flatMap_eq_ok
  intro i hi
  cases i with
  | model m => rfl
  | enumeration e =>
    rw [blockOf, item, List.mapM_cons, layout.read_enumeration (hitems _ hi)]
    rfl

end Layout

theorem Item.regular_of_interleave {types : ScalarTypes} {items : List Item} {d : Document}
    (hd : d.Regular types) (h : Item.Interleave items d) {i : Item} (hi : i ∈ items) :
    i.Regular types := by
  cases i with
  | model m =>
    apply hd.models
    rw [← h.1]
    exact List.mem_filterMap.2 ⟨_, hi, rfl⟩
  | enumeration e =>
    apply hd.enums
    rw [← h.2]
    exact List.mem_filterMap.2 ⟨_, hi, rfl⟩

/-- A document that is written as a schema, in any layout and with its models and enumerations
interleaved in any way, is read back as it was. -/
theorem read_text (types : ScalarTypes) (layout : Layout) (d : Document) (items : List Item)
    (hd : d.Regular types) (hitems : Item.Interleave items d) :
    (Document.read types (layout.text types d.provider items)).result = .ok d := by
  have hregular : ∀ i ∈ items, i.Regular types :=
    fun i hi => Item.regular_of_interleave hd hitems hi
  obtain ⟨hquote, hline⟩ := hd.provider_line
  apply Document.read_eq_ok_iff.2
  refine ⟨?_, ?_, ?_⟩
  · rw [layout.blocks_text .model hline hregular, layout.mapM_models hregular, hitems.1]
  · rw [layout.blocks_text .enumeration hline hregular, layout.mapM_enums hregular, hitems.2]
  · have hsource := layout.provider?_dataSource hd.provider hquote
    rw [Layout.text, provider?_append hsource]
    rfl

def oddModel : Model where
  name := "model"
  tableName := some "a \"table\"\n"
  fields := [
    { name := "enum", typeName := "Int", isId := true,
      defaultText := some "f(\")\\\"\", 1)" },
    { name := "model", typeName := "enum", isList := true, isRequired := false,
      relation := some {} },
    { name := "9", typeName := "String", isUnique := true,
      relation := some { name := some "\\", references := ["provider"], onUpdate := some "_" } }]

def oddEnumeration : Enumeration := ⟨"enum", ["model A", "@@map(\"x\")", "//"]⟩

def oddDocument : Document := ⟨[oddModel, oddModel], [oddEnumeration], "\x7d model \x7b"⟩

def oddItems : List Item := [.model oddModel, .enumeration oddEnumeration, .model oddModel]

def oddStyle : Style :=
  { Style.plain with
    arrangeAttributes := List.reverse
    arrangeArguments := List.reverse
    namesName := true
    writesEmptyLists := true
    writesEmptyArguments := true
    writesBareRelations := true
    attributes_perm := List.reverse_perm
    arguments_perm := List.reverse_perm }

def oddLayout : Layout :=
  { Layout.plain with
    ending := ['\t', '\r']
    style := fun _ f => if f.any fun f => !f.isId then oddStyle else Style.plain
    tablePlace := fun m => m.fields.length - 1
    ending_blank := by decide
    ending_line := by decide }

theorem balanced_oddDefault : Attribute.Balanced "f(\")\\\"\", 1)".toList := by
  have hquoted : Attribute.Closed [')', '\\', '"', '"'] :=
    .plain (by decide) (by decide) (.escaped .quote)
  have htail : Attribute.Balanced [',', ' ', '1'] := Attribute.balanced_of_plain rfl
  have hgroup : Attribute.Balanced ('"' :: ([')', '\\', '"', '"'] ++ [',', ' ', '1'])) :=
    .quoted hquoted htail
  exact .plain (by decide) (by decide) (by decide) (.group hgroup .nil)

theorem regular_oddModel : oddModel.Regular .standard := by
  refine ⟨by decide, ?_, ?_⟩
  · rintro name ⟨⟩
    exact ⟨by decide, by decide⟩
  · intro f hf
    simp only [oddModel, List.mem_cons, List.not_mem_nil, or_false] at hf
    rcases hf with rfl | rfl | rfl
    · refine ⟨by decide, by decide, fun _ => Or.inl rfl, ?_, ?_⟩
      · rintro text ⟨⟩
        exact ⟨by decide, balanced_oddDefault⟩
      · rintro r ⟨⟩
    · refine ⟨by decide, by decide, ?_, ?_, ?_⟩
      · rintro ⟨⟩
      · rintro text ⟨⟩
      · rintro r ⟨⟩
        constructor <;> simp
    · refine ⟨by decide, by decide, ?_, ?_, ?_⟩
      · rintro ⟨⟩
      · rintro text ⟨⟩
      · rintro r ⟨⟩
        refine ⟨?_, by simp, ?_, by simp, ?_⟩
        · rintro name ⟨⟩
          exact ⟨by decide, by decide⟩
        · intro word hw
          rw [List.mem_singleton.1 hw]
          decide
        · rintro word ⟨⟩
          decide

theorem regular_oddEnumeration : oddEnumeration.Regular := by
  refine ⟨by decide, ?_⟩
  intro value hvalue
  have hsolid {s : List Char} (hs : (s != [] && (s.head?.all (!isWhite ·)) &&
      s.getLast?.all (!isWhite ·)) = true) : Solid s := by
    simp only [Bool.and_eq_true, bne_iff_ne, Option.all_eq_true, Bool.not_eq_true'] at hs
    exact ⟨hs.1.1, hs.1.2, hs.2⟩
  simp only [oddEnumeration, List.mem_cons, List.not_mem_nil, or_false] at hvalue
  rcases hvalue with rfl | rfl | rfl
  · exact ⟨hsolid (by decide), by decide⟩
  · exact ⟨hsolid (by decide), by decide⟩
  · exact ⟨hsolid (by decide), by decide⟩

theorem read_text_odd :
    oddDocument.Regular .standard ∧ Item.Interleave oddItems oddDocument ∧
      (Document.read .standard (oddLayout.text .standard oddDocument.provider oddItems)).result =
        .ok oddDocument := by
  have hregular : oddDocument.Regular .standard := by
    refine ⟨?_, ?_, by decide, by decide⟩
    · intro m hm
      simp only [oddDocument, List.mem_cons, List.not_mem_nil, or_false, or_self] at hm
      rw [hm]
      exact regular_oddModel
    · intro e he
      rw [List.mem_singleton.1 he]
      exact regular_oddEnumeration
  have hitems : Item.Interleave oddItems oddDocument := ⟨rfl, rfl⟩
  exact ⟨hregular, hitems, read_text .standard oddLayout oddDocument oddItems hregular hitems⟩

end SchemaQuery
