import SchemaQuery.Proofs.Schema.Header
import SchemaQuery.Proofs.Schema.Reading
import SchemaQuery.Proofs.Schema.Recognition
import SchemaQuery.Proofs.Text.Margins

/-!
# Schemas with other margins

Nothing that is read from a schema depends on the white space at the ends of its lines, nor on
whether a line feed has a carriage return before it. Texts with the same trimmed lines have blocks
with the same trimmed lines, and a block is opened by its trimmed lines alone.
-/

set_option autoImplicit false

namespace SchemaQuery

open SchemaQuery.Unicode SchemaQuery.Text

namespace BlockKind

variable {kind : BlockKind} {s t text text' rest : List Char}

theorem IsBlock.respaced (h : kind.IsBlock text) (ht : Respaced text text') :
    kind.IsBlock text' := by
  obtain ⟨header, body, rfl, hheader, hopens, hbody⟩ := h
  obtain ⟨tail, rfl, htail⟩ := ht.of_append fun c hc => kind.isWhite_of_mem_keyword hc
  obtain ⟨header', inner, rfl, hheader', hinner⟩ := htail.split (by decide)
  obtain ⟨body', ending, rfl, hbody', hending⟩ := hinner.split (by decide)
  rw [hending.eq_nil]
  refine ⟨header', body', rfl, fun c hc => ?_, hheader'.opensWord_eq hopens, fun hc => ?_⟩
  · cases hwhite : isWhite c with
    | true => exact Or.inr rfl
    | false =>
      rcases hheader c (hheader'.symm.mem hwhite hc) with hword | hwhite'
      · exact Or.inl hword
      · rw [hwhite] at hwhite'
        cases hwhite'
  · exact hbody (hbody'.symm.mem (by decide) hc)

/-- The blocks that begin such texts are such texts again, and so is what follows them. -/
theorem block?_of_respaced (hst : Respaced s t) (h : kind.block? s = some (text, rest)) :
    ∃ text' rest', kind.block? t = some (text', rest') ∧ Respaced text text' ∧
      Respaced rest rest' := by
  obtain ⟨hblock, rfl⟩ := block?_eq_some_iff.1 h
  obtain ⟨front, rfl, -⟩ := hblock.eq_append
  rw [List.append_assoc, List.singleton_append] at hst
  obtain ⟨front', rest', rfl, hfront, hrest⟩ := hst.split (by decide)
  have htext : Respaced (front ++ ['}']) (front' ++ ['}']) :=
    hfront.append (.cons (by decide) .nil)
  have ht : kind.block? (front' ++ '}' :: rest') = some (front' ++ ['}'], rest') :=
    block?_eq_some_iff.2 ⟨hblock.respaced htext, by simp⟩
  exact ⟨front' ++ ['}'], rest', ht, htext, hrest⟩

theorem block?_eq_none_of_respaced (hst : Respaced s t) (h : kind.block? s = none) :
    kind.block? t = none := by
  cases ht : kind.block? t with
  | none => rfl
  | some found =>
    obtain ⟨text, rest, hs, -⟩ := block?_of_respaced hst.symm ht
    rw [h] at hs
    cases hs

theorem blocksFrom_break (kind : BlockKind) (opening : Bool) {before after : List Char}
    (hb : Margin before) (ha : Margin after) (s : List Char) :
    kind.blocksFrom opening (before ++ '\n' :: (after ++ s)) = kind.blocks s := by
  cases opening with
  | false => rw [kind.blocksFrom_false_line hb.2, kind.blocks_blank ha.1]
  | true =>
    rw [← blocks, kind.blocks_blank hb.1, blocks, kind.blocksFrom_lineFeed, kind.blocks_blank ha.1]

/-- Such texts have as many blocks, and each is such a text of the other. -/
theorem blocksFrom_respaced (h : Respaced s t) (kind : BlockKind) (opening : Bool) :
    List.Forall₂ Respaced (kind.blocksFrom opening s) (kind.blocksFrom opening t) := by
  -- by the length and not by the relation, which a block or a line feed leaves by several steps
  induction hn : s.length using Nat.strongRecOn generalizing opening s t with
  | _ n ih =>
  cases h with
  | nil => simp
  | @feed before before' after after' s t hb hb' ha ha' h =>
    rw [kind.blocksFrom_break opening hb ha, kind.blocksFrom_break opening hb' ha']
    refine ih s.length ?_ h true rfl
    rw [← hn, List.length_append, List.length_cons, List.length_append]
    omega
  | @cons c s t hc h =>
    have hshort : s.length < n := by
      rw [← hn]
      exact Nat.lt_succ_self _
    cases opening with
    | false =>
      rw [blocksFrom_false_cons, blocksFrom_false_cons]
      exact ih s.length hshort h _ rfl
    | true =>
      cases hk : kind.block? (c :: s) with
      | none =>
        have hk' := block?_eq_none_of_respaced (.cons hc h) hk
        rw [blocksFrom_true_cons hk, blocksFrom_true_cons hk']
        exact ih s.length hshort h _ rfl
      | some found =>
        obtain ⟨text, rest⟩ := found
        obtain ⟨text', rest', hk', htext, hrest⟩ := block?_of_respaced (.cons hc h) hk
        rw [blocksFrom_of_block? hk, blocksFrom_of_block? hk']
        exact .cons htext (ih rest.length (hn ▸ length_block?_lt hk) hrest false rfl)

/-- White space at the end of a text neither begins a block nor ends one. -/
theorem blocks_append_of_isBlank (kind : BlockKind) (s : List Char) {blanks : List Char}
    (hb : isBlank blanks = true) : kind.blocks (s ++ blanks) = kind.blocks s := by
  have hopen : '{' ∉ blanks := fun h => absurd (isWhite_of_isBlank hb h) (by decide)
  have hclose : '}' ∉ blanks := fun h => absurd (isWhite_of_isBlank hb h) (by decide)
  have happend := kind.blocksFrom_append_of_apart (s := s)
    (fun c rest _ => kind.block?_append_of_brace (s := c :: rest) (Or.inr hclose))
    (fun opening => kind.blocksFrom_of_noBrace opening hopen) true
  rwa [List.append_nil] at happend

/-- Texts with the same trimmed lines have blocks that differ in margins. -/
theorem blocks_of_sameLines (kind : BlockKind) (h : SameLines s t) :
    List.Forall₂ Respaced (kind.blocks s) (kind.blocks t) := by
  have hfed : ∀ u : List Char, kind.blocksFrom true ('\n' :: (u ++ ['\n'])) = kind.blocks u := by
    intro u
    rw [blocksFrom_lineFeed, kind.blocks_append_of_isBlank u (by decide)]
  rw [← hfed s, ← hfed t]
  exact blocksFrom_respaced h.respaced kind true

/-- The last line of a block is not empty, so its lines are its pieces when they are trimmed. -/
theorem IsBlock.map_trim_lines_eq (h : kind.IsBlock text) :
    (lines text).map trim = (pieces '\n' text).map trim := by
  obtain ⟨front, rfl, -⟩ := h.eq_append
  exact map_trim_lines front (by decide)

/-- A block is opened by its trimmed lines. -/
theorem open_of_map_trim_lines (kind : BlockKind)
    (h : (lines text).map trim = (lines text').map trim) : kind.open text = kind.open text' := by
  have htrim : trim (firstLine text) = trim (firstLine text') := by
    have hhead : ∀ u : List Char, trim (firstLine u) = ((lines u).map trim).headD [] := by
      intro u
      obtain ⟨ending, hending, hfirst⟩ := exists_headD_lines u
      rw [hfirst, trim_append_of_isBlank _ hending]
      cases lines u <;> rfl
    rw [hhead, hhead, h]
  have hinner : (interior (lines text)).map trim = (interior (lines text')).map trim := by
    rw [interior, interior, List.map_dropLast, List.map_dropLast, List.map_drop, List.map_drop, h]
  rw [open_eq, open_eq, ← kind.headerName?_trim (firstLine text),
    ← kind.headerName?_trim (firstLine text'), htrim, hinner, fault, fault, htrim]

theorem open_of_respaced (h : kind.IsBlock text) (ht : Respaced text text') :
    kind.open text = kind.open text' := by
  apply kind.open_of_map_trim_lines
  rw [h.map_trim_lines_eq, (h.respaced ht).map_trim_lines_eq]
  exact ht.sameLines

theorem map_open_of_sameLines (kind : BlockKind) (h : SameLines s t) :
    (kind.blocks s).map kind.open = (kind.blocks t).map kind.open := by
  have hblock : ∀ text ∈ kind.blocks s, kind.IsBlock text := fun _ => isBlock_of_mem_blocks
  have hboth := (List.forall₂_and_left _ _).2 ⟨hblock, kind.blocks_of_sameLines h⟩
  rw [← List.forall₂_eq_eq_eq, List.forall₂_map_left_iff, List.forall₂_map_right_iff]
  exact hboth.imp fun _ _ h => open_of_respaced h.1 h.2

end BlockKind

def Document.readBlocks (types : ScalarTypes) (s : List Char) :
    Except SchemaError (List Model × List Enumeration) :=
  (Document.read types s).result.map fun d => (d.models, d.enums)

theorem Document.readBlocks_eq (types : ScalarTypes) (s : List Char) :
    Document.readBlocks types s = (do
      let models ← ((BlockKind.model.blocks s).map BlockKind.model.open).mapM
        (Except.map (Model.build types))
      let enums ← ((BlockKind.enumeration.blocks s).map BlockKind.enumeration.open).mapM
        (Except.map Enumeration.build)
      return (models, enums)) := by
  have hmodels : (BlockKind.model.blocks s).mapM (fun block => (Model.read types block).result) =
      ((BlockKind.model.blocks s).map BlockKind.model.open).mapM
        (Except.map (Model.build types)) := by
    rw [funext (Model.read_result types), List.mapM_map]
    rfl
  have henums : (BlockKind.enumeration.blocks s).mapM Enumeration.read =
      ((BlockKind.enumeration.blocks s).map BlockKind.enumeration.open).mapM
        (Except.map Enumeration.build) := by
    rw [funext Enumeration.read_eq, List.mapM_map]
    rfl
  rw [readBlocks, read_result, hmodels, henums]
  cases ((BlockKind.model.blocks s).map BlockKind.model.open).mapM
      (Except.map (Model.build types)) with
  | error e => rfl
  | ok models =>
    cases ((BlockKind.enumeration.blocks s).map BlockKind.enumeration.open).mapM
      (Except.map Enumeration.build) <;> rfl

/-- Texts with the same trimmed lines have the same models and enumerations, or the same error. The
ends of the lines can so be written in any way, and every line indented in any way. -/
theorem readBlocks_of_sameLines (types : ScalarTypes) :
    (∀ s t : List Char, SameLines s t →
      Document.readBlocks types s = Document.readBlocks types t) ∧
    ∀ s ending indent : List Char, Margin ending → Margin indent →
      Document.readBlocks types (withMargins ending indent s) = Document.readBlocks types s := by
  have hsame : ∀ s t : List Char, SameLines s t →
      Document.readBlocks types s = Document.readBlocks types t := by
    intro s t h
    rw [Document.readBlocks_eq, Document.readBlocks_eq, BlockKind.model.map_open_of_sameLines h,
      BlockKind.enumeration.map_open_of_sameLines h]
  refine ⟨hsame, fun s ending indent he hi => ?_⟩
  exact (hsame s _ (respaced_withMargins he hi s).sameLines).symm

def flushText : List Char := "model A \x7b\nid Int @id\n\n\x7d\nenum E \x7b\nX\n\x7d".toList

def indentedText : List Char :=
  " model A \x7b\t\r\n\tid Int @id \r\n \r\n\x7d\r\n enum E \x7b\n  X\r\n\t\x7d ".toList

theorem readBlocks_of_sameLines_indented :
    SameLines flushText indentedText ∧
      Document.readBlocks .standard flushText = Document.readBlocks .standard indentedText ∧
      Margin ['\r'] ∧ Margin ['\t', ' '] ∧
      Document.readBlocks .standard (withMargins ['\r'] ['\t', ' '] flushText) =
        Document.readBlocks .standard flushText := by
  have hsame : SameLines flushText indentedText := by decide +kernel
  have hending : Margin ['\r'] := ⟨by decide, by decide⟩
  have hindent : Margin ['\t', ' '] := ⟨by decide, by decide⟩
  have hall := readBlocks_of_sameLines .standard
  exact ⟨hsame, hall.1 _ _ hsame, hending, hindent, hall.2 _ _ _ hending hindent⟩

end SchemaQuery
