import SchemaQuery.Proofs.Attribute.Pieces
import SchemaQuery.Proofs.Schema.Fields

/-!
# Relations that cannot be read

The arguments of a relation are a text until its field is read. If no tokens can be made of them the
field is declared still, and it is the one that the line declares with nothing in place of that
text: no other part of the line is read differently.
-/

set_option autoImplicit false

namespace SchemaQuery

open SchemaQuery.Unicode SchemaQuery.Text

namespace Attribute

theorem Piece.head?_text_named (block : Bool) (name : List Char) (tail : Tail) :
    (Piece.named block name tail).text.head? = some '@' := rfl

/-- Where a piece ends is settled by the first character behind it. -/
theorem Piece.Stands.of_head? {piece : Piece} {rest other : List Char} (h : piece.Stands rest)
    (hhead : other.head? = rest.head?) : piece.Stands other := by
  have hnil (hrest : rest = []) : other = [] := by
    rw [hrest] at hhead
    exact List.head?_eq_none_iff.1 hhead
  cases h with
  | closedQuote hinner => exact .closedQuote hinner
  | openQuote hinner =>
    rw [hnil rfl]
    exact .openQuote hinner
  | @named block name tail _ hne hname htail =>
    refine .named hne hname ?_
    cases tail with
    | bare =>
      intro c hc
      rw [hhead] at hc
      exact htail c hc
    | closed args => exact htail
    | unclosed args => exact ⟨htail.1, hnil htail.2⟩
  | marks hname hmark =>
    rw [← hhead] at hname hmark
    exact .marks hname hmark
  | other hquote hmark hslash =>
    rw [← hhead] at hslash
    exact .other hquote hmark hslash
  | comment =>
    rw [hnil rfl]
    exact .comment

theorem Splits.eq_flatMap {s : List Char} {pieces : List Piece} (h : Splits s pieces) :
    s = pieces.flatMap Piece.text := by
  induction h with
  | nil => rfl
  | cons _ _ ih => rw [List.flatMap_cons, ← ih]

/-- In a cut one attribute may be put for another that ends where this one does. -/
theorem Splits.replace {piece other : Piece} (hpiece : piece.text.head? = some '@')
    (hother : other.text.head? = some '@') (hstands : ∀ rest, piece.Stands rest → other.Stands rest)
    {before after : List Piece} {s : List Char} (h : Splits s (before ++ piece :: after)) :
    Splits ((before ++ other :: after).flatMap Piece.text) (before ++ other :: after) := by
  induction before generalizing s with
  | nil =>
    cases h with
    | cons hfirst hrest =>
      rw [List.nil_append, List.flatMap_cons, ← hrest.eq_flatMap]
      exact .cons (hstands _ hfirst) hrest
  | cons first before ih =>
    cases h with
    | cons hfirst hrest =>
      -- What follows a piece in front begins as before, with a piece in between or with the mark.
      refine .cons (hfirst.of_head? ?_) (ih hrest)
      rw [hrest.eq_flatMap]
      show ((before ++ other :: after).flatMap Piece.text).head? =
        ((before ++ piece :: after).flatMap Piece.text).head?
      simp only [List.flatMap_append, List.flatMap_cons, List.head?_append, hpiece, hother,
        Option.some_or]

end Attribute

namespace Declaration

open Attribute (Piece Tail Splits occurrences_of_splits)

section Readers

variable {α β : Type}

def StopsBeforeMark (read : List Char → Option (α × List Char)) : Prop :=
  ∀ s a front behind, read s = some (a, front ++ '@' :: behind) →
    ∃ head, s = head ++ (front ++ '@' :: behind) ∧
      ∀ other, read (head ++ (front ++ '@' :: other)) = some (a, front ++ '@' :: other)

theorem head?_before_mark (front behind other : List Char) :
    (front ++ '@' :: other).head? = (front ++ '@' :: behind).head? := by
  cases front <;> rfl

theorem StopsBeforeMark.bind {read : List Char → Option (α × List Char)}
    {next : α → List Char → Option (β × List Char)} (hread : StopsBeforeMark read)
    (hnext : ∀ a, StopsBeforeMark (next a)) :
    StopsBeforeMark fun s => (read s).bind fun r => next r.1 r.2 := by
  intro s b front behind h
  obtain ⟨⟨a, rest⟩, ha, hb⟩ := Option.bind_eq_some_iff.1 h
  obtain ⟨head, hrest, hsame⟩ := hnext a rest b front behind hb
  rw [hrest, ← List.append_assoc] at ha
  obtain ⟨head', hs, hsame'⟩ := hread s a (head ++ front) behind ha
  refine ⟨head' ++ head, by simpa using hs, fun other => ?_⟩
  have hfirst := hsame' other
  rw [List.append_assoc, ← List.append_assoc head'] at hfirst
  exact Option.bind_eq_some_iff.2 ⟨_, hfirst, hsame other⟩

theorem stopsBeforeMark_pure (a : α) : StopsBeforeMark fun s => some (a, s) := by
  rintro s b front behind ⟨⟩
  exact ⟨[], rfl, fun _ => rfl⟩

theorem stopsBeforeMark_trimLeft : StopsBeforeMark fun s => some ((), trimLeft s) := by
  intro s a front behind h
  have hrest : s.dropWhile isWhite = front ++ '@' :: behind := congrArg Prod.snd (Option.some.inj h)
  refine ⟨s.takeWhile isWhite, ?_, fun other => ?_⟩
  · rw [← hrest, List.takeWhile_append_dropWhile]
  · have hstop : ∀ c ∈ (front ++ '@' :: other).head?, isWhite c = false := by
      intro c hc
      rw [head?_before_mark front behind, ← hrest] at hc
      exact of_mem_head?_dropWhile hc
    have hcut := cut_append (s := s.takeWhile isWhite) (fun c hc => List.mem_takeWhile_imp hc) hstop
    exact congrArg (fun rest => some ((), rest)) hcut.2

theorem stopsBeforeMark_word? : StopsBeforeMark word? := by
  intro s a front behind h
  obtain ⟨hword, hrest, rfl⟩ := word?_eq_some_iff.1 h
  refine ⟨a, rfl, fun other => word?_append hword ?_⟩
  cases front with
  | nil => exact opensWord_cons (by decide) other
  | cons c front => exact hrest

def wordBehindGap? (s : List Char) : Option (List Char × List Char) := do
  guard (opensWhite s)
  word? (trimLeft s)

theorem stopsBeforeMark_wordBehindGap? : StopsBeforeMark wordBehindGap? := by
  intro s a front behind h
  have htrimmed := stopsBeforeMark_trimLeft.bind fun _ => stopsBeforeMark_word?
  unfold wordBehindGap? at h
  by_cases hwhite : opensWhite s = true
  · rw [guard_of_pos hwhite] at h
    obtain ⟨head, rfl, hsame⟩ := htrimmed s a front behind h
    refine ⟨head, rfl, fun other => ?_⟩
    have hopens : opensWhite (head ++ (front ++ '@' :: other)) = true := by
      cases head with
      | cons c head => exact hwhite
      | nil =>
        cases front with
        | cons c front => exact hwhite
        | nil =>
          have hmark : isWhite '@' = true := hwhite
          exact absurd hmark (by decide)
    unfold wordBehindGap?
    rw [guard_of_pos hopens]
    exact hsame other
  · rw [guard_of_neg hwhite] at h
    cases h

theorem stopsBeforeMark_takeMark {mark : List Char} (hmark : '@' ∉ mark) :
    StopsBeforeMark fun s => some (takeMark mark s) := by
  intro s a front behind h
  have htake : takeMark mark s = (a, front ++ '@' :: behind) := Option.some.inj h
  unfold takeMark at htake
  split at htake
  · rename_i rest hafter
    cases htake
    refine ⟨mark, after?_eq_some_iff.1 hafter, fun other => ?_⟩
    show some (takeMark mark (mark ++ _)) = _
    rw [takeMark, after?_append]
  · rename_i hafter
    cases htake
    refine ⟨[], rfl, fun other => ?_⟩
    have hnone : after? mark (front ++ '@' :: other) = none := by
      by_contra hsome
      obtain ⟨rest, hrest⟩ := Option.ne_none_iff_exists'.1 hsome
      -- The mark ends before the other one, so that it would stand in the line as well.
      rcases List.append_eq_append_iff.1 (after?_eq_some_iff.1 hrest) with
        ⟨more, hmore, hother⟩ | ⟨more, rfl, -⟩
      · cases more with
        | nil =>
          rw [hmore, List.append_nil, after?_append] at hafter
          cases hafter
        | cons c more =>
          cases hother
          exact hmark (hmore ▸ List.mem_append_right _ List.mem_cons_self)
      · rw [List.append_assoc, after?_append] at hafter
        cases hafter
    show some (takeMark mark (front ++ '@' :: other)) = _
    rw [takeMark, hnone]

end Readers

def openLine? (line : List Char) : Option (Declaration × List Char) := do
  let (name, rest) ← word? (trimLeft line)
  let (typeName, rest) ← wordBehindGap? rest
  let list := takeMark ['[', ']'] rest
  let optional := takeMark ['?'] (trimLeft list.2)
  return (
    { name := String.ofList name
      typeName := String.ofList typeName
      isList := list.1
      isOptional := optional.1
      attributes := .empty },
    optional.2)

theorem ofLine?_eq_openLine? (line : List Char) : ofLine? line =
    (openLine? line).map fun r => { r.1 with attributes := Attribute.scan r.2 } := by
  unfold ofLine? openLine? wordBehindGap?
  cases word? (trimLeft line) with
  | none => rfl
  | some name =>
    show (guard (opensWhite name.2 = true) : Option Unit).bind _ =
      Option.map _ (((guard (opensWhite name.2 = true) : Option Unit).bind _).bind _)
    by_cases hwhite : opensWhite name.2 = true
    · rw [guard_of_pos hwhite]
      cases word? (trimLeft name.2) <;> simp
    · rw [guard_of_neg hwhite]
      rfl

theorem stopsBeforeMark_openLine? : StopsBeforeMark openLine? := by
  have hmarks (d : Bool → Bool → Declaration) : StopsBeforeMark fun s =>
      (some (takeMark ['[', ']'] s)).bind fun list => (some ((), trimLeft list.2)).bind fun r =>
        (some (takeMark ['?'] r.2)).bind fun optional => some (d list.1 optional.1, optional.2) :=
    (stopsBeforeMark_takeMark (by decide)).bind fun isList => stopsBeforeMark_trimLeft.bind fun _ =>
      (stopsBeforeMark_takeMark (by decide)).bind fun isOptional =>
        stopsBeforeMark_pure (d isList isOptional)
  exact stopsBeforeMark_trimLeft.bind fun _ => stopsBeforeMark_word?.bind fun name =>
    stopsBeforeMark_wordBehindGap?.bind fun typeName => hmarks fun isList isOptional =>
      { name := String.ofList name
        typeName := String.ofList typeName
        isList
        isOptional
        attributes := .empty }

def relationTail (isClosed : Bool) (args : List Char) : Tail :=
  if isClosed then .closed args else .unclosed args

def relationPiece (isClosed : Bool) (args : List Char) : Piece :=
  .named false "relation".toList (relationTail isClosed args)

theorem relationPiece_attribute? (isClosed : Bool) (args : List Char) :
    (relationPiece isClosed args).attribute? =
      some ⟨"relation", some (String.ofList args), false⟩ := by
  cases isClosed <;> rfl

/-- The relation is marked. -/
theorem flatMap_relationPiece (before : List Piece) (isClosed : Bool) (args : List Char)
    (after : List Piece) : ∃ behind,
      (before ++ relationPiece isClosed args :: after).flatMap Piece.text =
        before.flatMap Piece.text ++ '@' :: behind := by
  rw [List.flatMap_append, List.flatMap_cons]
  exact ⟨_, rfl⟩

theorem relationPiece_emptied {isClosed : Bool} {args rest : List Char}
    (h : (relationPiece isClosed args).Stands rest) : (relationPiece isClosed []).Stands rest := by
  cases h with
  | named hne hname htail =>
    refine .named hne hname ?_
    cases isClosed with
    | true => exact .nil
    | false => exact ⟨fun args rest _ heq => by simp at heq, htail.2⟩

/-- The place of the arguments of a relation on the line of a field: those of the first attribute
that is written `@relation`. -/
structure RelationPlace (line : List Char) where
  declaration : Declaration
  head : List Char
  before : List Piece
  args : List Char
  isClosed : Bool
  after : List Piece
  text : List Char
  line_eq : line = head ++ text
  opens : openLine? line = some (declaration, text)
  splits : Splits text (before ++ relationPiece isClosed args :: after)
  first : ∀ piece ∈ before, ∀ a ∈ piece.attribute?, a.marker ≠ "@relation"

namespace RelationPlace

variable {line : List Char} (place : RelationPlace line)

def front : List Char := place.head ++ (place.before.flatMap Piece.text ++ "@relation(".toList)

def back : List Char := (if place.isClosed then [')'] else []) ++ place.after.flatMap Piece.text

def emptied : List Char := place.front ++ place.back

theorem relationPiece_text (isClosed : Bool) (args : List Char) :
    (relationPiece isClosed args).text =
      "@relation(".toList ++ (args ++ if isClosed then [')'] else []) := by
  cases isClosed with
  | true => rfl
  | false =>
    rw [if_neg (by decide), List.append_nil]
    rfl

/-- The argument text stands between the two other parts of the line. -/
theorem line_eq_append : line = place.front ++ (place.args ++ place.back) := by
  rw [front, back]
  conv => lhs; rw [place.line_eq, place.splits.eq_flatMap]
  simp [relationPiece_text]

/-- What stands in front of the attributes is read alike whatever the relation is. -/
theorem opens_before_mark (other : List Char) :
    openLine? (place.head ++ (place.before.flatMap Piece.text ++ '@' :: other)) =
      some (place.declaration, place.before.flatMap Piece.text ++ '@' :: other) := by
  obtain ⟨behind, hbehind⟩ :=
    flatMap_relationPiece place.before place.isClosed place.args place.after
  have htext : place.text = place.before.flatMap Piece.text ++ '@' :: behind :=
    place.splits.eq_flatMap.trans hbehind
  have hopens := place.opens
  rw [htext] at hopens
  obtain ⟨head, hline, hsame⟩ := stopsBeforeMark_openLine? _ _ _ _ hopens
  have hsplit : head ++ place.text = line := (congrArg (head ++ ·) htext).trans hline.symm
  have hhead : head = place.head := List.append_cancel_right (hsplit.trans place.line_eq)
  rw [← hhead]
  exact hsame other

def empty : RelationPlace place.emptied where
  declaration := place.declaration
  head := place.head
  before := place.before
  args := []
  isClosed := place.isClosed
  after := place.after
  text := (place.before ++ relationPiece place.isClosed [] :: place.after).flatMap Piece.text
  line_eq := by
    rw [emptied, front, back]
    simp [relationPiece_text]
  opens := by
    obtain ⟨behind, hbehind⟩ := flatMap_relationPiece place.before place.isClosed [] place.after
    rw [hbehind, ← place.opens_before_mark behind, ← hbehind, emptied, front, back]
    simp [relationPiece_text]
  splits := place.splits.replace (Piece.head?_text_named _ _ _) (Piece.head?_text_named _ _ _)
    fun _ => relationPiece_emptied
  first := place.first

def found : List Attribute :=
  (place.before ++ relationPiece place.isClosed place.args :: place.after).filterMap
    Piece.attribute?

theorem ofLine?_eq : ofLine? line =
    some { place.declaration with attributes := Attributes.ofList place.found } := by
  rw [ofLine?_eq_openLine?, place.opens, Option.map_some, Attribute.scan,
    occurrences_of_splits place.splits]
  rfl

theorem find?_relation : place.found.find? (·.marker == "@relation") =
    some ⟨"relation", some (String.ofList place.args), false⟩ := by
  have hbefore : (place.before.filterMap Piece.attribute?).find? (·.marker == "@relation") =
      none := by
    apply List.find?_eq_none.2
    intro a ha
    obtain ⟨piece, hpiece, hattribute⟩ := List.mem_filterMap.1 ha
    simpa using place.first piece hpiece a hattribute
  rw [found, List.filterMap_append, List.filterMap_cons, relationPiece_attribute?,
    List.find?_append, hbefore]
  rfl

/-- No other marker leads to the relation. -/
theorem find?_empty {marker : String} (h : marker ≠ "@relation") :
    place.empty.found.find? (·.marker == marker) = place.found.find? (·.marker == marker) := by
  have hskip (args : Option String) (list : List Attribute) :
      ((⟨"relation", args, false⟩ : Attribute) :: list).find? (·.marker == marker) =
        list.find? (·.marker == marker) := by
    apply List.find?_cons_of_neg
    simpa [Attribute.marker] using Ne.symm h
  simp only [found, empty, List.filterMap_append, List.filterMap_cons, relationPiece_attribute?,
    List.find?_append, hskip]

end RelationPlace

/-- Only the word `relation` behind one mark leads to a relation. -/
theorem eq_relationPiece {piece : Piece} {a : Attribute} {args : String}
    (hpiece : piece.attribute? = some a) (hmarker : a.marker = "@relation")
    (hargs : a.args = some args) : ∃ isClosed, piece = relationPiece isClosed args.toList := by
  cases piece with
  | quoted | marks | other | comment => cases hpiece
  | named block name tail =>
    cases hpiece
    have hname : block = false ∧ name = "relation".toList := by
      have htext := congrArg String.toList hmarker
      cases block with
      | true => simp [Attribute.marker] at htext
      | false => exact ⟨rfl, by simpa [Attribute.marker] using htext⟩
    obtain ⟨rfl, rfl⟩ := hname
    cases tail with
    | bare => cases hargs
    | closed inner =>
      cases hargs
      exact ⟨true, by simp [relationPiece, relationTail]⟩
    | unclosed inner =>
      cases hargs
      exact ⟨false, by simp [relationPiece, relationTail]⟩

/-- Arguments have a place on the line wherever a field takes its relation from them. -/
theorem exists_place {line : List Char} {d : Declaration} {a : Attribute} {args : String}
    (hline : ofLine? line = some d) (ha : d.attributes.get? "@relation" = some a)
    (hargs : a.args = some args) : ∃ place : RelationPlace line, place.args = args.toList := by
  rw [ofLine?_eq_openLine?] at hline
  obtain ⟨⟨declaration, text⟩, hopens, rfl⟩ := Option.map_eq_some_iff.1 hline
  obtain ⟨pieces, hsplits⟩ := Attribute.exists_splits text
  have hfind : (pieces.filterMap Piece.attribute?).find? (·.marker == "@relation") = some a := by
    rw [← occurrences_of_splits hsplits, ← Attributes.get?_ofList]
    exact ha
  rw [List.find?_filterMap] at hfind
  obtain ⟨piece, hpiece, hattribute⟩ := Option.bind_eq_some_iff.1 hfind
  obtain ⟨hmarker, before, after, rfl, hbefore⟩ := List.find?_eq_some_iff_append.1 hpiece
  have hmarked : a.marker = "@relation" := by simpa [hattribute] using hmarker
  obtain ⟨isClosed, rfl⟩ := eq_relationPiece hattribute hmarked hargs
  obtain ⟨behind, hbehind⟩ := flatMap_relationPiece before isClosed args.toList after
  have htext : text = before.flatMap Piece.text ++ '@' :: behind :=
    hsplits.eq_flatMap.trans hbehind
  obtain ⟨head, hhead, -⟩ := stopsBeforeMark_openLine? _ _ _ _ (htext ▸ hopens)
  refine ⟨
    { declaration, head, before, isClosed, after, text
      args := args.toList
      line_eq := hhead.trans (congrArg (head ++ ·) htext.symm)
      opens := hopens
      splits := hsplits
      first := fun piece hpiece b hb hmarker => ?_ }, rfl⟩
  have hnot := hbefore piece hpiece
  rw [Option.mem_def.1 hb] at hnot
  simp [hmarker] at hnot

end Declaration

theorem Argument.readAll_eq_error_iff {s : List Char} {e : TokenError} :
    Argument.readAll s = .error e ↔ Token.readAll s = .error e := by
  rw [Argument.readAll]
  cases Token.readAll s <;> simp [Except.map]

/-- A relation that cannot be read is the one that no arguments make. -/
theorem Relation.read_of_error {args : String} {e : TokenError}
    (h : Token.readAll args.toList = .error e) :
    Relation.read args = ⟨{}, [.unreadableRelation e]⟩ := by
  rw [Relation.read, Argument.readAll_eq_error_iff.2 h]
  rfl

theorem Relation.read_empty : Relation.read "" = ⟨{}, []⟩ := by
  have hread : Argument.readAll "".toList = .ok [] := by decide +kernel
  rw [Relation.read, hread]
  rfl

theorem Relation.read_of_ok {args : String} {tokens : List Token}
    (h : Token.readAll args.toList = .ok tokens) : (Relation.read args).events = [] := by
  rw [Relation.read, Argument.readAll, h]
  rfl

namespace Declaration

variable (types : ScalarTypes)

/-- The line of a field is silent, or it has one event about arguments that cannot be read. -/
theorem events_field (d : Declaration) : (d.field types).events = [] ∨
    ∃ a args e, d.attributes.get? "@relation" = some a ∧ a.args = some args ∧
      Token.readAll args.toList = .error e ∧
        (d.field types).events = [.unreadableRelation e] := by
  have hevents : (d.field types).events = (d.relation types).events := List.append_nil _
  rw [hevents, relation]
  cases ha : d.attributes.get? "@relation" with
  | none => exact Or.inl rfl
  | some a =>
    show (some <$> Relation.read (a.args.getD "")).events = [] ∨ _
    rw [Logged.events_map]
    cases hargs : a.args with
    | none =>
      left
      rw [Option.getD_none, Relation.read_empty]
    | some args =>
      rw [Option.getD_some]
      cases hread : Token.readAll args.toList with
      | ok tokens => exact Or.inl (Relation.read_of_ok hread)
      | error e =>
        refine Or.inr ⟨a, args, e, rfl, hargs, hread, ?_⟩
        rw [Relation.read_of_error hread]

theorem field_of_relation {d : Declaration} {relation : Option Relation} {events : List Event}
    (h : d.relation types = ⟨relation, events⟩) : d.field types =
      ⟨{ name := d.name
         typeName := d.typeName
         isRequired := !d.isOptional
         isList := d.isList
         isId := d.attributes.has "@id"
         isUnique := d.attributes.has "@unique"
         defaultText := d.attributes.args? "@default"
         relation }, events⟩ := by
  rw [field, h]
  exact congrArg (Logged.mk _) (List.append_nil events)

end Declaration

namespace Declaration.RelationPlace

variable (types : ScalarTypes) {line : List Char} (place : RelationPlace line)

def declared : Declaration :=
  { place.declaration with attributes := Attributes.ofList place.found }

theorem relation_declared : place.declared.relation types =
    some <$> Relation.read (String.ofList place.args) := by
  have hget : place.declared.attributes.get? "@relation" =
      some ⟨"relation", some (String.ofList place.args), false⟩ :=
    (Attributes.get?_ofList _ _).trans place.find?_relation
  rw [relation, hget]
  rfl

theorem get?_declared_empty {marker : String} (h : marker ≠ "@relation") :
    place.empty.declared.attributes.get? marker = place.declared.attributes.get? marker := by
  have hget := place.find?_empty h
  rwa [← Attributes.get?_ofList, ← Attributes.get?_ofList] at hget

end Declaration.RelationPlace

namespace Field

open Declaration

variable (types : ScalarTypes) {line : List Char}

theorem read_of_ofLine? {d : Declaration} (h : ofLine? line = some d) :
    read types line = some <$> d.field types := by
  rw [read, h]

theorem read_of_place (place : RelationPlace line) {e : TokenError}
    (h : Token.readAll place.args = .error e) : ∃ f,
      read types line = ⟨some f, [.unreadableRelation e]⟩ ∧
        read types place.emptied = ⟨some f, []⟩ := by
  have hline : ofLine? line = some place.declared := place.ofLine?_eq
  have hempty : ofLine? place.emptied = some place.empty.declared := place.empty.ofLine?_eq
  have hrelation : place.declared.relation types = ⟨some {}, [.unreadableRelation e]⟩ := by
    rw [place.relation_declared, Relation.read_of_error (by rwa [String.toList_ofList])]
    rfl
  have hbare : place.empty.declared.relation types = ⟨some {}, []⟩ := by
    rw [place.empty.relation_declared]
    exact congrArg (some <$> ·) Relation.read_empty
  have hhas {marker : String} (hm : marker ≠ "@relation") :
      place.empty.declared.attributes.has marker = place.declared.attributes.has marker := by
    rw [Attributes.has, place.get?_declared_empty hm, Attributes.has]
  have hargs : place.empty.declared.attributes.args? "@default" =
      place.declared.attributes.args? "@default" := by
    rw [Attributes.args?, place.get?_declared_empty (by decide), Attributes.args?]
  have hfield := field_of_relation types hrelation
  have hsame := field_of_relation types hbare
  rw [hhas (by decide), hhas (by decide), hargs] at hsame
  refine ⟨(place.declared.field types).value, ?_, ?_⟩
  · rw [read_of_ofLine? types hline, hfield]
    rfl
  · rw [read_of_ofLine? types hempty, hsame, hfield]
    rfl

theorem events_read (line : List Char) : (read types line).events = [] ∨
    ∃ (place : RelationPlace line) (e : TokenError), Token.readAll place.args = .error e ∧
      (read types line).events = [.unreadableRelation e] := by
  cases hline : ofLine? line with
  | none =>
    left
    rw [read, hline]
    rfl
  | some d =>
    rw [read_of_ofLine? types hline, Logged.events_map]
    obtain hnone | ⟨a, args, e, ha, hargs, hread, hevents⟩ := events_field types d
    · exact Or.inl hnone
    · obtain ⟨place, hplace⟩ := exists_place hline ha hargs
      exact Or.inr ⟨place, e, hplace ▸ hread, hevents⟩

/-- The event stands for the argument text on the line. -/
theorem events_read_iff (line : List Char) (e : TokenError) :
    (read types line).events = [.unreadableRelation e] ↔
      ∃ place : RelationPlace line, Token.readAll place.args = .error e := by
  constructor
  · intro h
    obtain hnone | ⟨place, e', hread, hevents⟩ := events_read types line
    · rw [hnone] at h
      cases h
    · rw [hevents] at h
      cases h
      exact ⟨place, hread⟩
  · rintro ⟨place, h⟩
    obtain ⟨f, hf, -⟩ := read_of_place types place h
    rw [hf]

end Field

end SchemaQuery
