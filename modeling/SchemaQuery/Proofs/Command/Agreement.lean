import SchemaQuery.Command.Run
import SchemaQuery.Export
import SchemaQuery.Proofs.Query.Json
import SchemaQuery.Proofs.Text.Lines

/-!
# The command line and the exported functions agree

What a run puts out for a schema is what the exported functions give for it, up to the spacing of
JSON. A query is the same whether its model is found in the schema and its options in a file, or all
of it comes in one JSON text.
-/

set_option autoImplicit false

namespace SchemaQuery

open Json (Listed Shallow Writes)

namespace Export

variable {t : String} {d : Document}

theorem result_document (h : (Document.read .standard t.toList).result = .ok d) :
    (document t).result = .ok d := by
  show (Document.read .standard t.toList).result.mapError ExportError.badSchema = _
  rw [h]
  rfl

theorem result_parseSchema (h : (Document.read .standard t.toList).result = .ok d) :
    (parseSchema t).result = .ok d.toJson.compact := by
  have hd : (document t).run.value = .ok d := result_document h
  show ((document t).run >>= ExceptT.bindCont _ : Logged _).value = _
  rw [Logged.value_bind, hd]
  rfl

theorem result_schemaGraph (h : (Document.read .standard t.toList).result = .ok d) :
    (schemaGraph t).result = .ok d.graph.toJson.compact := by
  have hd : (document t).run.value = .ok d := result_document h
  show ((document t).run >>= ExceptT.bindCont _ : Logged _).value = _
  rw [Logged.value_bind, hd]
  rfl

theorem result_generateQuery {r : Request} (h : Request.ofText t = .ok r) :
    (generateQuery t).result = .ok (({} : Generator).generate r).value := by
  rw [generateQuery, h]
  rfl

end Export

namespace Command

variable {α β : Type} {tree : FileTree}

def Yields (tree : FileTree) (x : Run (StateM FileTree) α) (a : α) : Prop :=
  x.run.run tree = (.ok a, tree)

theorem yields_pure (a : α) : Yields tree (pure a) a := rfl

/-- What comes after an action goes on with its value and with the files that it leaves. -/
theorem run_bind {x : Run (StateM FileTree) α} {a : α} {after : FileTree}
    (hx : x.run.run tree = (.ok a, after)) (f : α → Run (StateM FileTree) β) :
    (x >>= f).run.run tree = (f a).run.run after := by
  show (x.run >>= ExceptT.bindCont f).run tree = _
  rw [StateT.run_bind, hx]
  rfl

theorem yields_bind {x : Run (StateM FileTree) α} {f : α → Run (StateM FileTree) β} {a : α} {b : β}
    (hx : Yields tree x a) (hf : Yields tree (f a) b) : Yields tree (x >>= f) b :=
  (run_bind hx f).trans hf

theorem yields_readFile {path s : String} (h : tree.read path = .ok s) :
    Yields tree (readFile FileTree.fileSystem path) s := by
  show ((tree.read path).mapError (CommandError.unreadable path), tree) = _
  rw [h]
  rfl

theorem yields_readOptions {path s : String} {o : Options} (hfile : tree.read path = .ok s)
    (ho : Json.decodeText Options.decoder s = .ok o) :
    Yields tree (readOptions FileTree.fileSystem (some path)) o := by
  apply yields_bind (yields_readFile hfile)
  rw [ho]
  exact yields_pure o

theorem yields_query {d : Document} {a : Arguments} {name client path s : String} {model : Model}
    {operation : Operation} {o : Options} (hmodel : d.model? name = some model)
    (hoperation : a.operation.getD "read" = operation.name) (hpath : a.request = some path)
    (hfile : tree.read path = .ok s) (ho : Json.decodeText Options.decoder s = .ok o)
    (htypes : a.types = false) :
    Yields tree (query FileTree.fileSystem d a name client) (
      (({ client } : Generator).generate ⟨model, operation,
        a.fields.getD (model.fields.map fun f => f.name), o⟩).value ++ "\n") := by
  have hoptions := yields_readOptions hfile ho
  rw [query, hmodel]
  simp only [hoperation, Operation.ofName?_name, hpath]
  apply yields_bind hoptions
  rw [htypes, if_neg Bool.false_ne_true, String.empty_append]
  exact yields_pure _

theorem yields_output {a : Arguments} {s text : String} {d : Document}
    (hfile : tree.read a.input = .ok s) (hread : (Document.read .standard s.toList).result = .ok d)
    (hcrud : a.crudDirectory = none) (hdescribe : a.describe = false)
    (h : Yields tree (if a.graph then pure (d.graph.toJson.pretty ++ "\n")
      else match a.model with
        | some name => query FileTree.fileSystem d a name (a.client.getD "prisma")
        | none => pure (d.toJson.pretty ++ "\n")) text) :
    Yields tree (output FileTree.fileSystem a) text := by
  apply yields_bind (yields_readFile hfile)
  rw [hread]
  apply yields_bind (yields_pure d)
  simp only [hcrud, hdescribe]
  exact h

theorem runOn_of_yields {input text : String} {flags : List String} {a : Arguments}
    (hread : Arguments.read input flags = .ok a) (houtput : a.output = none)
    (h : Yields tree (output FileTree.fileSystem a) text) :
    runOn tree (input :: flags) = (.ok text, tree) := by
  show Yields tree (run FileTree.fileSystem (input :: flags)) text
  rw [run, hread]
  apply yields_bind h
  rw [houtput]
  exact yields_pure text

def queryArguments (input name operation file : String) (fields : Option (List String)) :
    Arguments where
  input := input
  model := some name
  operation := some operation
  fields := fields
  request := some file

theorem read_query_flags (input name operation file : String) :
    Arguments.read input ["-m", name, "-p", operation, "-r", file] =
      .ok (queryArguments input name operation file none) := rfl

theorem read_query_flags_fields (input name operation fields file : String) :
    Arguments.read input ["-m", name, "-p", operation, "-f", fields, "-r", file] =
      .ok (queryArguments input name operation file (some (Arguments.splitFields fields))) := rfl

theorem read_graph_flag (input : String) :
    Arguments.read input ["--graph"] = .ok { input, graph := true } := by
  rfl

theorem toList_intercalate_comma (names : List String) :
    (String.intercalate "," names).toList = Text.joinPieces ',' (names.map String.toList) := by
  induction names with
  | nil => rfl
  | cons name names ih =>
    cases names with
    | nil => rw [String.intercalate_singleton]; rfl
    | cons next names =>
      rw [String.intercalate_cons_cons, String.toList_append, String.toList_append, ih]
      simp [Text.joinPieces]

def Listable (name : String) : Prop := Text.Solid name.toList ∧ ',' ∉ name.toList

theorem listable_of_all {name : String} (hne : name.toList ≠ [])
    (h : name.toList.all (fun c => !Unicode.isWhite c && c != ',') = true) : Listable name := by
  rw [List.all_eq_true] at h
  have hwhite : ∀ c ∈ name.toList, Unicode.isWhite c = false := by
    intro c hc
    have hboth := h c hc
    simp only [Bool.and_eq_true, Bool.not_eq_true'] at hboth
    exact hboth.1
  refine ⟨⟨hne, ?_, Text.endsSolid_of_forall hwhite⟩, ?_⟩
  · exact fun c hc => hwhite c (List.mem_of_mem_head? hc)
  · intro hcomma
    have hboth := h _ hcomma
    simp at hboth

theorem splitFields_intercalate {names : List String} (h : ∀ name ∈ names, Listable name) :
    Arguments.splitFields (String.intercalate "," names) = names := by
  by_cases hne : names = []
  · subst hne
    rfl
  · have hpieces : Text.pieces ',' (String.intercalate "," names).toList =
        names.map String.toList := by
      rw [toList_intercalate_comma]
      apply Text.pieces_joinPieces (by simpa using hne)
      intro p hp
      obtain ⟨name, hname, rfl⟩ := List.mem_map.1 hp
      exact (h name hname).2
    have htrim : (names.map String.toList).map Text.trim = names.map String.toList := by
      rw [List.map_map]
      apply List.map_congr_left
      intro name hname
      exact Text.trim_of_solid (h name hname).1
    have hkeep : (names.map String.toList).filter (· != []) = names.map String.toList := by
      apply List.filter_eq_self.2
      intro p hp
      obtain ⟨name, hname, rfl⟩ := List.mem_map.1 hp
      simpa using (h name hname).1.1
    have hback : String.ofList ∘ String.toList = id := funext fun name => String.ofList_toList
    rw [Arguments.splitFields, hpieces, htrim, hkeep, List.map_map, hback, List.map_id]

/-- The run ends well, puts out the text and nothing else, and leaves the files as they are. -/
structure Prints (tree : FileTree) (arguments : List String) (text : String) : Prop where
  exitCode : exitCode (runOn tree arguments).1 = 0
  output : standardOutput (runOn tree arguments).1 = text
  error : standardError (runOn tree arguments).1 = ""
  files : (runOn tree arguments).2 = tree

theorem prints_of_runOn {arguments : List String} {text : String}
    (h : runOn tree arguments = (.ok text, tree)) : Prints tree arguments text := by
  constructor
  all_goals simp [h, Command.exitCode, standardOutput, standardError]

variable {path s : String} {d : Document}

theorem prints_document (hfile : tree.read path = .ok s)
    (hread : (Document.read .standard s.toList).result = .ok d) :
    Prints tree [path] (d.toJson.pretty ++ "\n") := by
  apply prints_of_runOn
  apply runOn_of_yields rfl rfl
  exact yields_output hfile hread rfl rfl (yields_pure _)

theorem prints_graph (hfile : tree.read path = .ok s)
    (hread : (Document.read .standard s.toList).result = .ok d) :
    Prints tree [path, "--graph"] (d.graph.toJson.pretty ++ "\n") := by
  apply prints_of_runOn
  apply runOn_of_yields (read_graph_flag path) rfl
  exact yields_output hfile hread rfl rfl (yields_pure _)

section Queries

variable {name file t : String} {model : Model} {operation : Operation} {o : Options}

/-- With the selected fields listed or not, the query is that of the request that is meant. -/
theorem runOn_query {flags : List String} {fields : Option (List String)}
    (hflags : Arguments.read path flags = .ok (queryArguments path name operation.name file fields))
    (hfile : tree.read path = .ok s) (hread : (Document.read .standard s.toList).result = .ok d)
    (hmodel : d.model? name = some model) (hoptions : Shallow 127 o.toJson)
    (hrequest : tree.read file = .ok t) (ht : Writes t o.toJson) {j : String}
    (hj : Writes j (Request.toJson ⟨model, operation,
      fields.getD (model.fields.map fun f => f.name), o⟩)) :
    ∃ text, (Export.generateQuery j).result = .ok text ∧
      Prints tree (path :: flags) (text ++ "\n") := by
  have hdecode : Json.decodeText Options.decoder t = .ok o :=
    Json.decodeText_of_gives ht hoptions (Options.gives_toJson hoptions.exact)
  have hquery : Yields tree (query FileTree.fileSystem d
      (queryArguments path name operation.name file fields) name "prisma") _ :=
    yields_query hmodel rfl rfl hrequest hdecode rfl
  refine ⟨_, Export.result_generateQuery (Request.ofText_of_writes hj hoptions), ?_⟩
  apply prints_of_runOn
  apply runOn_of_yields hflags rfl
  exact yields_output hfile hread rfl rfl hquery

end Queries

/-- The command line and the exported functions agree on a schema that is read from a file: on its
document, on its graph, and on every query for one of its models. -/
theorem run_agrees (hfile : tree.read path = .ok s)
    (hread : (Document.read .standard s.toList).result = .ok d) :
    (∃ printed exported, Prints tree [path] printed ∧
      (Export.parseSchema s).result = .ok exported ∧
      Json.decodeText Document.decoder printed = .ok d ∧
      Json.decodeText Document.decoder exported = .ok d) ∧
    (∃ printed exported v, Prints tree [path, "--graph"] printed ∧
      (Export.schemaGraph s).result = .ok exported ∧
      Json.decodeText .any printed = .ok v ∧ Json.decodeText .any exported = .ok v) ∧
    ∀ (name file t : String) (model : Model) (operation : Operation) (o : Options),
      d.model? name = some model → Json.Exact o.toJson → o.toJson.nesting ≤ 127 →
      tree.read file = .ok t → Writes t o.toJson →
      (∀ (fields : List String) (j : String), (∀ field ∈ fields, Listable field) →
        Writes j (Request.toJson ⟨model, operation, fields, o⟩) →
        ∃ text, (Export.generateQuery j).result = .ok text ∧
          Prints tree [path, "-m", name, "-p", operation.name, "-f", String.intercalate "," fields,
            "-r", file] (text ++ "\n")) ∧
      ∀ j : String, Writes j (Request.toJson ⟨model, operation, model.fields.map (·.name), o⟩) →
        ∃ text, (Export.generateQuery j).result = .ok text ∧
          Prints tree [path, "-m", name, "-p", operation.name, "-r", file] (text ++ "\n") := by
  refine ⟨?_, ?_, ?_⟩
  · refine ⟨_, _, prints_document hfile hread, Export.result_parseSchema hread, ?_, ?_⟩
    · exact Json.decodeText_of_gives (Json.writes_pretty _) (d.shallow_toJson.mono (by decide))
        d.gives_toJson
    · exact Json.decodeText_of_gives (Json.writes_compact _) (d.shallow_toJson.mono (by decide))
        d.gives_toJson
  · have hgraph := d.graph.shallow_toJson
    have hany := Json.gives_any hgraph.exact
    refine ⟨_, _, d.graph.toJson, prints_graph hfile hread, Export.result_schemaGraph hread, ?_, ?_⟩
    · exact Json.decodeText_of_gives (Json.writes_pretty _) (hgraph.mono (by decide)) hany
    · exact Json.decodeText_of_gives (Json.writes_compact _) (hgraph.mono (by decide)) hany
  · intro name file t model operation o hmodel hexact hnesting hrequest ht
    constructor
    · intro fields j hfields hj
      have hflags := read_query_flags_fields path name operation.name
        (String.intercalate "," fields) file
      rw [splitFields_intercalate hfields] at hflags
      exact runOn_query hflags hfile hread hmodel ⟨hexact, hnesting⟩ hrequest ht hj
    · intro j hj
      exact runOn_query (read_query_flags path name operation.name file) hfile hread hmodel
        ⟨hexact, hnesting⟩ hrequest ht hj

def mailSchema : String :=
  "model User \x7b\n  id Int @id\n  role Role?\n  mails Mail[]\n\x7d\n" ++
    "model Mail \x7b\n  id Int @id\n\x7d\n"

def mailOptions : Options where
  filter := .disjunction [⟨"role", .equals, .null⟩, ⟨"id", .gt, .ofInt 3⟩]
  page := some { take := some (-5) }
  aggregation := some { count := some (.whole true) }

def mailTree : FileTree := ⟨[(["mail.prisma"], .file mailSchema),
  (["mail.json"], .file (mailOptions.toJson.pretty ++ "\n")), (["stamp.png"], .binary),
  (["kept.json"], .guarded (some "") (.other "Permission denied (os error 13)"))]⟩

def mailUser : Model := ⟨"User", none, [{ name := "id", typeName := "Int", isId := true },
  { name := "role", typeName := "Role", isRequired := false, relation := some {} },
  { name := "mails", typeName := "Mail", isList := true, relation := some {} }]⟩

def mailDocument : Document :=
  { models := [mailUser, ⟨"Mail", none, [{ name := "id", typeName := "Int", isId := true }]⟩] }

theorem shallow_mailOptions : Shallow 4 mailOptions.toJson := by
  have hcondition : ∀ c ∈ mailOptions.filter.conditions, Shallow 1 c.toJson := by
    have hnull : Shallow 0 .null := .null
    have hthree : Shallow 0 (.ofInt 3) := .int (by decide) (by decide)
    intro c hc
    simp only [mailOptions, Filter.conditions, List.mem_cons, List.not_mem_nil, or_false] at hc
    rcases hc with rfl | rfl
    · exact .object (.cons (.text _) (.cons (.text _) (.cons hnull .nil))) (by decide)
    · exact .object (.cons (.text _) (.cons (.text _) (.cons hthree .nil))) (by decide)
  refine Shallow.object ?_ (by decide : ["conditions", "pagination", "aggregate"].Nodup)
  apply Listed.cons
  · exact .object (.cons (.array hcondition) .nil) (by decide : ["OR"].Nodup)
  · have htake : Shallow 2 (.ofInt64 (-5)) := .int (by decide) (by decide)
    apply Listed.cons (.object (.cons htake .nil) (by decide : ["take"].Nodup))
    exact .cons (.object (.cons (.bool true) .nil) (by decide : ["_count"].Nodup)) .nil

theorem run_agrees_mail :
    mailTree.read "mail.prisma" = .ok mailSchema ∧
      (Document.read .standard mailSchema.toList).result = .ok mailDocument ∧
      ∃ text, (Export.generateQuery (Request.toJson
          ⟨mailUser, .read, ["id", "mails"], mailOptions⟩).compact).result = .ok text ∧
        Prints mailTree
          ["mail.prisma", "-m", "User", "-p", "read", "-f", "id,mails", "-r", "mail.json"]
          (text ++ "\n") := by
  have hfile : mailTree.read "mail.prisma" = .ok mailSchema := by rfl
  have hread : (Document.read .standard mailSchema.toList).result = .ok mailDocument := by
    decide +kernel
  obtain ⟨-, -, hquery⟩ := run_agrees hfile hread
  have hrequest : mailTree.read "mail.json" = .ok (mailOptions.toJson.pretty ++ "\n") := by rfl
  obtain ⟨hfields, -⟩ := hquery "User" "mail.json" _ mailUser .read mailOptions rfl
    shallow_mailOptions.exact (Nat.le_trans shallow_mailOptions.nesting_le (by decide)) hrequest
    (Json.writes_pretty _)
  have hlistable : ∀ name ∈ ["id", "mails"], Listable name := by
    intro name hname
    simp only [List.mem_cons, List.not_mem_nil, or_false] at hname
    rcases hname with rfl | rfl
    · exact listable_of_all (by decide) (by decide)
    · exact listable_of_all (by decide) (by decide)
  exact ⟨hfile, hread, hfields ["id", "mails"] _ hlistable (Json.writes_compact _)⟩

end Command

end SchemaQuery
