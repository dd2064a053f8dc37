import SchemaQuery.Proofs.Command.Agreement
import SchemaQuery.Proofs.Command.Files
import SchemaQuery.Proofs.Command.Flags

/-!
# What a run leaves behind

A run that fails puts nothing out, and it leaves the files as they are unless modules were to be
written and the schema could be read. A run that writes no modules changes at most the file that
takes its text. What can stand in its way is listed, and it fails with just that.
-/

set_option autoImplicit false

namespace SchemaQuery

open SchemaQuery.Command

namespace Arguments

def withoutOutput : List String → List String
  | [] => []
  | [text] => [text]
  | text :: value :: rest =>
    match Flag.ofText? text with
    | some (.value .output) => withoutOutput rest
    | some (.value _) => text :: value :: withoutOutput rest
    | _ => text :: withoutOutput (value :: rest)

def unredirected (a : Arguments) : Arguments := { a with output := none }

theorem unredirected_setValue (a : Arguments) {option : ValueOption} (h : option ≠ .output)
    (value : String) :
    (a.setValue option value).unredirected = a.unredirected.setValue option value := by
  cases option with
  | output => exact absurd rfl h
  | _ => rfl

theorem unredirected_setSwitch (a : Arguments) (s : Switch) :
    (a.setSwitch s).unredirected = a.unredirected.setSwitch s := by
  cases s <;> rfl

/-- Behind a flag that takes no value, other flags may stand in the place of those that do. -/
theorem readFlags_of_not_value {a b : Arguments} {text : String}
    (hvalue : ∀ option, Flag.ofText? text ≠ some (.value option)) {rest rest' : List String}
    (h : a.readFlags (text :: rest) = .ok b)
    (hrest : ∀ {a : Arguments}, a.readFlags rest = .ok b →
      a.unredirected.readFlags rest' = .ok b.unredirected) :
    a.unredirected.readFlags (text :: rest') = .ok b.unredirected := by
  cases hflag : Flag.ofText? text with
  | none =>
    rw [a.readFlags_unknown hflag] at h
    cases h
  | some flag =>
    cases flag with
    | value option => exact absurd hflag (hvalue option)
    | switch s =>
      rw [a.readFlags_switch hflag] at h
      rw [a.unredirected.readFlags_switch hflag, ← unredirected_setSwitch]
      exact hrest h

/-- Without the flags that name a file, the same is asked for but for the file. -/
theorem readFlags_withoutOutput {a b : Arguments} {flags : List String}
    (h : a.readFlags flags = .ok b) :
    a.unredirected.readFlags (withoutOutput flags) = .ok b.unredirected := by
  -- A value is passed over together with its flag, so it is never taken for a flag itself.
  fun_induction withoutOutput flags generalizing a with
  | case1 =>
    cases h
    rfl
  | case2 text =>
    have hvalue : ∀ option, Flag.ofText? text ≠ some (.value option) := by
      intro option hflag
      rw [readFlags, hflag] at h
      cases h
    apply readFlags_of_not_value hvalue h
    intro a h
    cases h
    rfl
  | case3 text value rest hflag ih =>
    rw [readFlags, hflag] at h
    exact ih (a := a.setValue .output value) h
  | case4 text value rest option hne hflag ih =>
    rw [readFlags, hflag] at h
    rw [readFlags, hflag]
    show (a.unredirected.setValue option value).readFlags _ = _
    rw [← a.unredirected_setValue hne]
    exact ih h
  | case5 text value rest _ hvalue ih => exact readFlags_of_not_value hvalue h ih

end Arguments

namespace Command

def takeIn : List String → Except CommandError Arguments
  | [] => .error (.noArguments programName)
  | input :: flags => (Arguments.read input flags).mapError .badArguments

def withoutOutput : List String → List String
  | [] => []
  | input :: flags => input :: Arguments.withoutOutput flags

variable {α β : Type} {tree : FileTree} {a : Arguments} {d : Document}

def Refuses (tree : FileTree) (x : Run (StateM FileTree) α) (e : CommandError) : Prop :=
  x.run.run tree = (.error e, tree)

theorem refuses_throw (e : CommandError) : Refuses tree (throw e : Run _ α) e := rfl

theorem refuses_bind {x : Run (StateM FileTree) α} {e : CommandError} (h : Refuses tree x e)
    (f : α → Run (StateM FileTree) β) : Refuses tree (x >>= f) e := by
  show (x.run >>= ExceptT.bindCont f).run tree = _
  rw [StateT.run_bind, h]
  rfl

theorem refuses_of_yields {x : Run (StateM FileTree) α} {v : α} (hx : Yields tree x v)
    {f : α → Run (StateM FileTree) β} {e : CommandError} (h : Refuses tree (f v) e) :
    Refuses tree (x >>= f) e :=
  (run_bind hx f).trans h

theorem refuses_readFile {path : String} {e : FileError} (h : tree.read path = .error e) :
    Refuses tree (readFile FileTree.fileSystem path) (.unreadable path e) := by
  show ((tree.read path).mapError (CommandError.unreadable path), tree) = _
  rw [h]
  rfl

inductive QueryObstacle (tree : FileTree) (d : Document) (a : Arguments) (name : String) :
    CommandError → Prop
  | unknownModel : d.model? name = none → QueryObstacle tree d a name (.unknownModel name)
  | unsupportedOperation {model : Model} : d.model? name = some model →
      Operation.ofName? (a.operation.getD "read") = none →
      QueryObstacle tree d a name (.unsupportedOperation (a.operation.getD "read"))
  | unreadableRequest {model : Model} {operation : Operation} {path : String} {e : FileError} :
      d.model? name = some model → Operation.ofName? (a.operation.getD "read") = some operation →
      a.request = some path → tree.read path = .error e →
      QueryObstacle tree d a name (.unreadable path e)
  | undecodableRequest {model : Model} {operation : Operation} {path text : String}
      {fault : Json.Fault} :
      d.model? name = some model → Operation.ofName? (a.operation.getD "read") = some operation →
      a.request = some path → tree.read path = .ok text →
      Json.decodeText Options.decoder text = .error fault →
      QueryObstacle tree d a name (.badRequest path fault)

inductive Obstacle (tree : FileTree) (arguments : List String) : CommandError → Prop
  | badArguments {e : CommandError} : takeIn arguments = .error e → Obstacle tree arguments e
  | unreadableSchema {a : Arguments} {e : FileError} : takeIn arguments = .ok a →
      tree.read a.input = .error e → Obstacle tree arguments (.unreadable a.input e)
  | malformedSchema {a : Arguments} {s : String} {e : SchemaError} : takeIn arguments = .ok a →
      tree.read a.input = .ok s → (Document.read .standard s.toList).result = .error e →
      Obstacle tree arguments (.badSchema e)
  | query {a : Arguments} {s : String} {d : Document} {name : String} {e : CommandError} :
      takeIn arguments = .ok a → tree.read a.input = .ok s →
      (Document.read .standard s.toList).result = .ok d → a.describe = false → a.graph = false →
      a.model = some name → QueryObstacle tree d a name e → Obstacle tree arguments e
  | unwritableOutput {a : Arguments} {path text : String} {e : FileError} :
      takeIn arguments = .ok a → a.output = some path →
      runOn tree (withoutOutput arguments) = (.ok text, tree) → tree.write path text = .error e →
      Obstacle tree arguments (.unwritable path e)

theorem refuses_query {name client : String} {e : CommandError}
    (h : QueryObstacle tree d a name e) :
    Refuses tree (query FileTree.fileSystem d a name client) e := by
  cases h with
  | unknownModel hmodel =>
    rw [query, hmodel]
    exact refuses_throw _
  | unsupportedOperation hmodel hoperation =>
    rw [query, hmodel]
    simp only [hoperation]
    exact refuses_throw _
  | unreadableRequest hmodel hoperation hpath hfile =>
    rw [query, hmodel]
    simp only [hoperation, hpath]
    exact refuses_bind (refuses_bind (refuses_readFile hfile) _) _
  | undecodableRequest hmodel hoperation hpath hfile hdecode =>
    rw [query, hmodel]
    simp only [hoperation, hpath]
    refine refuses_bind (refuses_of_yields (yields_readFile hfile) ?_) _
    rw [hdecode]
    exact refuses_throw _

/-- A query is written unless something stands in its way. -/
theorem query_outcome (tree : FileTree) (d : Document) (a : Arguments) (name client : String) :
    (∃ text, Yields tree (query FileTree.fileSystem d a name client) text) ∨
      ∃ e, QueryObstacle tree d a name e := by
  cases hmodel : d.model? name with
  | none => exact Or.inr ⟨_, .unknownModel hmodel⟩
  | some model =>
    cases hoperation : Operation.ofName? (a.operation.getD "read") with
    | none => exact Or.inr ⟨_, .unsupportedOperation hmodel hoperation⟩
    | some operation =>
      -- Only the options can still fail.
      have hwritten {options : Options}
          (h : Yields tree (readOptions FileTree.fileSystem a.request) options) :
          ∃ text, Yields tree (query FileTree.fileSystem d a name client) text := by
        rw [query, hmodel]
        simp only [hoperation]
        exact ⟨_, yields_bind h (yields_pure _)⟩
      cases hpath : a.request with
      | none =>
        rw [hpath] at hwritten
        exact Or.inl (hwritten (yields_pure _))
      | some path =>
        rw [hpath] at hwritten
        cases hfile : tree.read path with
        | error e => exact Or.inr ⟨_, .unreadableRequest hmodel hoperation hpath hfile⟩
        | ok text =>
          cases hdecode : Json.decodeText Options.decoder text with
          | error fault =>
            exact Or.inr ⟨_, .undecodableRequest hmodel hoperation hpath hfile hdecode⟩
          | ok options => exact Or.inl (hwritten (yields_readOptions hfile hdecode))

section Output

variable {s : String}

theorem refuses_unreadable {e : FileError} (h : tree.read a.input = .error e) :
    Refuses tree (output FileTree.fileSystem a) (.unreadable a.input e) :=
  refuses_bind (refuses_readFile h) _

theorem refuses_malformed {e : SchemaError} (hfile : tree.read a.input = .ok s)
    (h : (Document.read .standard s.toList).result = .error e) :
    Refuses tree (output FileTree.fileSystem a) (.badSchema e) := by
  apply refuses_of_yields (yields_readFile hfile)
  rw [h]
  exact refuses_bind (refuses_throw _) _

def answer (d : Document) (a : Arguments) : Run (StateM FileTree) String :=
  if a.describe then pure (Card.document d)
  else if a.graph then pure (d.graph.toJson.pretty ++ "\n")
  else match a.model with
    | some name => query FileTree.fileSystem d a name (a.client.getD "prisma")
    | none => pure (d.toJson.pretty ++ "\n")

theorem run_output (hfile : tree.read a.input = .ok s)
    (hread : (Document.read .standard s.toList).result = .ok d) (hcrud : a.crudDirectory = none) :
    (output FileTree.fileSystem a).run.run tree = (answer d a).run.run tree := by
  rw [output, run_bind (yields_readFile hfile), hread]
  refine (run_bind (yields_pure d) _).trans ?_
  simp only [hcrud]
  rfl

theorem answer_outcome (tree : FileTree) (d : Document) (a : Arguments) :
    (∃ text, Yields tree (answer d a) text) ∨ ∃ name e, a.describe = false ∧ a.graph = false ∧
      a.model = some name ∧ QueryObstacle tree d a name e := by
  unfold answer
  cases hdescribe : a.describe with
  | true => exact Or.inl ⟨_, yields_pure _⟩
  | false =>
    cases hgraph : a.graph with
    | true => exact Or.inl ⟨_, yields_pure _⟩
    | false =>
      cases hmodel : a.model with
      | none => exact Or.inl ⟨_, yields_pure _⟩
      | some name =>
        rcases query_outcome tree d a name (a.client.getD "prisma") with htext | ⟨e, he⟩
        · exact Or.inl htext
        · exact Or.inr ⟨name, e, rfl, rfl, rfl, he⟩

theorem refuses_answer {name : String} {e : CommandError} (hdescribe : a.describe = false)
    (hgraph : a.graph = false) (hmodel : a.model = some name)
    (h : QueryObstacle tree d a name e) : Refuses tree (answer d a) e := by
  unfold answer
  simp only [hdescribe, hgraph, hmodel]
  exact refuses_query h

end Output

def deliver (a : Arguments) (text : String) : Run (StateM FileTree) String :=
  match a.output with
  | none => return text
  | some path => do
    writeFile FileTree.fileSystem path text
    return ""

section Delivery

variable {path text : String}

theorem yields_deliver (h : a.output = none) : Yields tree (deliver a text) text := by
  rw [deliver, h]
  exact yields_pure text

theorem run_writeFile (tree : FileTree) (path text : String) :
    (writeFile FileTree.fileSystem path text).run.run tree =
      match tree.write path text with
      | .ok after => (.ok (), after)
      | .error e => (.error (.unwritable path e), tree) := by
  show (((FileTree.update (·.write path text) tree).1).mapError (CommandError.unwritable path),
    (FileTree.update (·.write path text) tree).2) = _
  rw [FileTree.update]
  cases tree.write path text <;> rfl

theorem run_deliver {after : FileTree} (h : a.output = some path)
    (hwrite : tree.write path text = .ok after) :
    (deliver a text).run.run tree = (.ok "", after) := by
  have hfile := run_writeFile tree path text
  rw [hwrite] at hfile
  rw [deliver, h]
  exact run_bind hfile _

theorem refuses_deliver {e : FileError} (h : a.output = some path)
    (hwrite : tree.write path text = .error e) :
    Refuses tree (deliver a text) (.unwritable path e) := by
  have hfile := run_writeFile tree path text
  rw [hwrite] at hfile
  rw [deliver, h]
  exact refuses_bind hfile _

end Delivery

section Taken

variable {arguments : List String}

theorem takeIn_eq_ok_iff : takeIn arguments = .ok a ↔
    ∃ input flags, arguments = input :: flags ∧ Arguments.read input flags = .ok a := by
  have htaken (input : String) (flags : List String) :
      takeIn (input :: flags) = .ok a ↔ Arguments.read input flags = .ok a := by
    rw [takeIn]
    cases Arguments.read input flags <;> simp [Except.mapError]
  constructor
  · intro h
    cases arguments with
    | nil => cases h
    | cons input flags => exact ⟨input, flags, rfl, (htaken input flags).1 h⟩
  · rintro ⟨input, flags, rfl, h⟩
    exact (htaken input flags).2 h

theorem runOn_of_refused {e : CommandError} (h : takeIn arguments = .error e) :
    runOn tree arguments = (.error e, tree) := by
  cases arguments with
  | nil =>
    cases h
    rfl
  | cons input flags =>
    cases hread : Arguments.read input flags with
    | error bad =>
      rw [takeIn, hread] at h
      cases h
      rw [runOn, run, hread]
      rfl
    | ok a =>
      rw [takeIn, hread] at h
      cases h

theorem runOn_of_takeIn (h : takeIn arguments = .ok a) : runOn tree arguments =
    (output FileTree.fileSystem a >>= deliver a).run.run tree := by
  obtain ⟨input, flags, rfl, hread⟩ := takeIn_eq_ok_iff.1 h
  rw [runOn, run, hread]
  rfl

theorem takeIn_withoutOutput (h : takeIn arguments = .ok a) :
    takeIn (withoutOutput arguments) = .ok a.unredirected := by
  obtain ⟨input, flags, rfl, hread⟩ := takeIn_eq_ok_iff.1 h
  exact takeIn_eq_ok_iff.2 ⟨input, _, rfl, Arguments.readFlags_withoutOutput hread⟩

end Taken

variable {arguments : List String} {e : CommandError}

/-- Without a file for it, the text goes to the standard output. -/
theorem runOn_withoutOutput (h : takeIn arguments = .ok a) :
    runOn tree (withoutOutput arguments) = (output FileTree.fileSystem a).run.run tree := by
  have hdeliver : deliver a.unredirected = pure := by
    funext text
    rfl
  rw [runOn_of_takeIn (takeIn_withoutOutput h), hdeliver, bind_pure]
  rfl

/-- Each obstacle makes a run that writes no modules fail and leave the files as they are. -/
theorem runOn_of_obstacle (hcrud : ∀ a, takeIn arguments = .ok a → a.crudDirectory = none)
    (h : Obstacle tree arguments e) : runOn tree arguments = (.error e, tree) := by
  cases h with
  | badArguments htake => exact runOn_of_refused htake
  | unreadableSchema htake hfile =>
    rw [runOn_of_takeIn htake]
    exact refuses_bind (refuses_unreadable hfile) _
  | malformedSchema htake hfile hread =>
    rw [runOn_of_takeIn htake]
    exact refuses_bind (refuses_malformed hfile hread) _
  | query htake hfile hread hdescribe hgraph hmodel hquery =>
    have hanswer := refuses_answer hdescribe hgraph hmodel hquery
    rw [runOn_of_takeIn htake]
    exact refuses_bind ((run_output hfile hread (hcrud _ htake)).trans hanswer) _
  | unwritableOutput htake houtput htext hwrite =>
    rw [runOn_withoutOutput htake] at htext
    rw [runOn_of_takeIn htake]
    exact refuses_of_yields htext (refuses_deliver houtput hwrite)

/-- The text is made unless something stands in the way of it. -/
theorem output_outcome (tree : FileTree) (htake : takeIn arguments = .ok a)
    (hcrud : a.crudDirectory = none) :
    (∃ text, Yields tree (output FileTree.fileSystem a) text) ∨
      ∃ e, Obstacle tree arguments e := by
  cases hfile : tree.read a.input with
  | error e => exact Or.inr ⟨_, .unreadableSchema htake hfile⟩
  | ok s =>
    cases hread : (Document.read .standard s.toList).result with
    | error e => exact Or.inr ⟨_, .malformedSchema htake hfile hread⟩
    | ok d =>
      rcases answer_outcome tree d a with ⟨text, htext⟩ | ⟨name, e, hdescribe, hgraph, hmodel, he⟩
      · exact Or.inl ⟨text, (run_output hfile hread hcrud).trans htext⟩
      · exact Or.inr ⟨e, .query htake hfile hread hdescribe hgraph hmodel he⟩

inductive Delivered (tree : FileTree) (arguments : List String) (a : Arguments) (text : String) :
    Prop
  | printed : a.output = none → runOn tree arguments = (.ok text, tree) →
      Delivered tree arguments a text
  | written {path : String} {after : FileTree} : a.output = some path →
      tree.write path text = .ok after → runOn tree arguments = (.ok "", after) →
      Delivered tree arguments a text

theorem Delivered.not_error {text : String} (h : Delivered tree arguments a text) :
    (runOn tree arguments).1 ≠ .error e := by
  intro he
  cases h with
  | printed _ hrun =>
    rw [hrun] at he
    cases he
  | written _ _ hrun =>
    rw [hrun] at he
    cases he

/-- A run that writes no modules meets an obstacle, or it delivers the text that it puts out when it
is given no file for it. -/
theorem outcome (tree : FileTree) (hcrud : ∀ a, takeIn arguments = .ok a → a.crudDirectory = none) :
    (∃ e, Obstacle tree arguments e) ∨
    ∃ a text, takeIn arguments = .ok a ∧
      runOn tree (withoutOutput arguments) = (.ok text, tree) ∧
      Delivered tree arguments a text := by
  cases htake : takeIn arguments with
  | error e => exact Or.inl ⟨e, .badArguments htake⟩
  | ok a =>
    rcases output_outcome tree htake (hcrud a htake) with ⟨text, htext⟩ | hobstacle
    · have hplain : runOn tree (withoutOutput arguments) = (.ok text, tree) :=
        (runOn_withoutOutput htake).trans htext
      have hrun : runOn tree arguments = (deliver a text).run.run tree := by
        rw [runOn_of_takeIn htake, run_bind htext]
      cases houtput : a.output with
      | none =>
        have hprinted := hrun.trans (yields_deliver houtput)
        exact Or.inr ⟨a, text, rfl, hplain, .printed houtput hprinted⟩
      | some path =>
        cases hwrite : tree.write path text with
        | error e => exact Or.inl ⟨_, .unwritableOutput htake houtput hplain hwrite⟩
        | ok after =>
          have hwritten := hrun.trans (run_deliver houtput hwrite)
          exact Or.inr ⟨a, text, rfl, hplain, .written houtput hwrite hwritten⟩
    · exact Or.inl hobstacle

/-- A run that writes no modules fails with just the obstacles that it meets. -/
theorem obstacle_iff (hcrud : ∀ a, takeIn arguments = .ok a → a.crudDirectory = none) :
    Obstacle tree arguments e ↔ runOn tree arguments = (.error e, tree) := by
  constructor
  · exact runOn_of_obstacle hcrud
  · intro h
    rcases outcome tree hcrud with ⟨e', he⟩ | ⟨a, text, -, -, hdelivered⟩
    · have hrun := runOn_of_obstacle hcrud he
      rw [h] at hrun
      cases hrun
      exact he
    · exact absurd (congrArg Prod.fst h) hdelivered.not_error

theorem exitCode_cases (r : Except CommandError String) :
    (∃ text, r = .ok text ∧ exitCode r = 0 ∧ standardOutput r = text) ∨
      ∃ e, r = .error e ∧ exitCode r = 1 ∧ standardOutput r = "" := by
  cases r with
  | ok text => exact Or.inl ⟨text, rfl, rfl, rfl⟩
  | error e => exact Or.inr ⟨e, rfl, rfl, rfl⟩

/-- A run that fails leaves the files as they are, unless it has a schema and modules to write. -/
theorem files_of_failure (tree : FileTree) (h : (runOn tree arguments).1 = .error e) :
    (runOn tree arguments).2 = tree ∨
      ∃ a s d, takeIn arguments = .ok a ∧ a.crudDirectory.isSome = true ∧
        tree.read a.input = .ok s ∧ (Document.read .standard s.toList).result = .ok d := by
  by_cases hnone : ∀ a, takeIn arguments = .ok a → a.crudDirectory = none
  · rcases outcome tree hnone with ⟨e', he⟩ | ⟨a, text, -, -, hdelivered⟩
    · exact Or.inl (congrArg Prod.snd (runOn_of_obstacle hnone he))
    · exact absurd h hdelivered.not_error
  · -- With modules to write, nothing is written before the schema has been read.
    simp only [not_forall] at hnone
    obtain ⟨a, htake, hcrud⟩ := hnone
    rw [runOn_of_takeIn htake]
    cases hfile : tree.read a.input with
    | error e => exact Or.inl (congrArg Prod.snd (refuses_bind (refuses_unreadable hfile) _))
    | ok s =>
      cases hread : (Document.read .standard s.toList).result with
      | error e =>
        exact Or.inl (congrArg Prod.snd (refuses_bind (refuses_malformed hfile hread) _))
      | ok d => exact Or.inr ⟨a, s, d, htake, Option.isSome_iff_ne_none.2 hcrud, hfile, hread⟩

/-- A run that fails puts nothing out and leaves the files as they are, unless modules are asked for
and the schema was read. When no modules are asked for, a run fails with just the obstacles in its
way, and one that ends well changes no file but the one that takes its text. -/
theorem run_outcome (tree : FileTree) (arguments : List String) :
    (exitCode (runOn tree arguments).1 = 0 ∨ exitCode (runOn tree arguments).1 = 1) ∧
    (exitCode (runOn tree arguments).1 = 1 → standardOutput (runOn tree arguments).1 = "" ∧
      ((runOn tree arguments).2 = tree ∨
        ∃ a s d, takeIn arguments = .ok a ∧ a.crudDirectory.isSome = true ∧
          tree.read a.input = .ok s ∧ (Document.read .standard s.toList).result = .ok d)) ∧
    ((∀ a, takeIn arguments = .ok a → a.crudDirectory = none) →
      (∀ e, Obstacle tree arguments e ↔ runOn tree arguments = (.error e, tree)) ∧
      (exitCode (runOn tree arguments).1 = 0 →
        ∃ a text, takeIn arguments = .ok a ∧
          runOn tree (withoutOutput arguments) = (.ok text, tree) ∧
          (standardOutput (runOn tree arguments).1 = "" ↔ a.output.isSome = true ∨ text = "") ∧
          (a.output = none → (runOn tree arguments).2 = tree) ∧
          ∀ path, a.output = some path →
            tree.Rewritten (runOn tree arguments).2 path text)) := by
  refine ⟨?_, ?_, ?_⟩
  · rcases exitCode_cases (runOn tree arguments).1 with ⟨_, -, h, -⟩ | ⟨_, -, h, -⟩
    · exact Or.inl h
    · exact Or.inr h
  · intro hcode
    rcases exitCode_cases (runOn tree arguments).1 with ⟨_, -, h, -⟩ | ⟨e, he, -, hempty⟩
    · rw [h] at hcode
      cases hcode
    · exact ⟨hempty, files_of_failure tree he⟩
  · intro hcrud
    refine ⟨fun e => obstacle_iff hcrud, fun hcode => ?_⟩
    rcases outcome tree hcrud with ⟨e, he⟩ | ⟨a, text, htake, hplain, hdelivered⟩
    · rw [runOn_of_obstacle hcrud he] at hcode
      cases hcode
    · refine ⟨a, text, htake, hplain, ?_⟩
      cases hdelivered with
      | printed houtput hrun =>
        simp [hrun, houtput, standardOutput]
      | written houtput hwrite hrun =>
        have hrewritten := FileTree.rewritten_of_write hwrite
        rw [hrun, houtput]
        refine ⟨by simp [standardOutput], fun h => (by cases h), ?_⟩
        rintro _ ⟨⟩
        exact hrewritten

def redirectedGraph (path : String) : Arguments where
  input := "mail.prisma"
  output := some path
  graph := true

theorem run_outcome_mail :
    runOn mailTree ["mail.prisma", "-o", "mail.json", "--model", "Nobody"] =
        (.error (.unknownModel "Nobody"), mailTree) ∧
      runOn mailTree ["mail.prisma", "-m", "User", "-r", "stamp.png"] =
        (.error (.unreadable "stamp.png" (.other "stream did not contain valid UTF-8")),
          mailTree) ∧
      runOn mailTree ["mail.prisma", "-o", "kept.json", "--graph"] =
        (.error (.unwritable "kept.json" (.other "Permission denied (os error 13)")), mailTree) ∧
      ∃ text, runOn mailTree ["mail.prisma", "--graph"] = (.ok text, mailTree) ∧
        mailTree.Rewritten (runOn mailTree ["mail.prisma", "-o", "mail.json", "--graph"]).2
          "mail.json" text := by
  have hfile : mailTree.read "mail.prisma" = .ok mailSchema := by rfl
  have hread : (Document.read .standard mailSchema.toList).result = .ok mailDocument := by
    decide +kernel
  have htake (path : String) :
      takeIn ["mail.prisma", "-o", path, "--graph"] = .ok (redirectedGraph path) := rfl
  have hyields (path : String) :
      Yields mailTree (output FileTree.fileSystem (redirectedGraph path)) _ :=
    yields_output hfile hread rfl rfl (yields_pure _)
  refine ⟨?_, ?_, ?_, ?_⟩
  · obtain ⟨-, -, hcases⟩ :=
      run_outcome mailTree ["mail.prisma", "-o", "mail.json", "--model", "Nobody"]
    obtain ⟨hobstacles, -⟩ := hcases (by rintro a ⟨⟩; rfl)
    exact (hobstacles _).1 (.query rfl hfile hread rfl rfl rfl (.unknownModel rfl))
  · obtain ⟨-, -, hcases⟩ := run_outcome mailTree ["mail.prisma", "-m", "User", "-r", "stamp.png"]
    obtain ⟨hobstacles, -⟩ := hcases (by rintro a ⟨⟩; rfl)
    have hpicture : mailTree.read "stamp.png" =
        .error (.other "stream did not contain valid UTF-8") := by rfl
    have hmodel : mailDocument.model? "User" = some mailUser := by rfl
    exact (hobstacles _).1
      (.query rfl hfile hread rfl rfl rfl (.unreadableRequest hmodel rfl rfl hpicture))
  · obtain ⟨-, -, hcases⟩ := run_outcome mailTree ["mail.prisma", "-o", "kept.json", "--graph"]
    obtain ⟨hobstacles, -⟩ := hcases (by rintro a ⟨⟩; rfl)
    have hplain := (runOn_withoutOutput (htake "kept.json")).trans (hyields "kept.json")
    exact (hobstacles _).1 (.unwritableOutput (htake "kept.json") rfl hplain rfl)
  · have hrun : (runOn mailTree ["mail.prisma", "-o", "mail.json", "--graph"]).1 = .ok "" := by
      rw [runOn_of_takeIn (htake "mail.json"), run_bind (hyields "mail.json"), run_deliver rfl rfl]
    obtain ⟨-, -, hcases⟩ := run_outcome mailTree ["mail.prisma", "-o", "mail.json", "--graph"]
    obtain ⟨-, hwell⟩ := hcases (by rintro a ⟨⟩; rfl)
    obtain ⟨a, text, ha, hplain, -, -, hrewritten⟩ := hwell (by rw [hrun]; rfl)
    cases (htake "mail.json").symm.trans ha
    exact ⟨text, hplain, hrewritten "mail.json" rfl⟩

end Command

end SchemaQuery
