import SchemaQuery.Proofs.Command.Outcome
import SchemaQuery.Proofs.Command.Places
import SchemaQuery.Proofs.Schema.Fields
import SchemaQuery.Proofs.Schema.Header

/-!
# Modules in a directory

A run that is asked for modules makes a directory and writes a file into it for each model, whatever
comes after that. Every other place holds what it held, except that directories are made. Models of
one name share their file, and they share what it is to hold.
-/

set_option autoImplicit false

namespace SchemaQuery

open SchemaQuery.Text

namespace FileTree

variable {α β : Type} {tree before between after : FileTree}

/-- Every place holds what it held, except that directories are made where nothing was. -/
def Grows (before after : FileTree) : Prop := ∀ place, after.entry? place = before.entry? place ∨
  before.entry? place = none ∧ after.entry? place = some .directory

theorem Grows.trans (h : Grows before between) (h' : Grows between after) : Grows before after := by
  intro place
  rcases h place with heq | ⟨hnone, hdirectory⟩
  · rw [← heq]
    exact h' place
  · rcases h' place with heq | ⟨hgone, -⟩
    · exact Or.inr ⟨hnone, heq.trans hdirectory⟩
    · rw [hdirectory] at hgone
      cases hgone

theorem grows_of_ensureDirectory {path : String} (h : tree.ensureDirectory path = .ok after) :
    tree.Grows after := by
  obtain ⟨location, -, hmade⟩ := bind_eq_ok_iff.1 h
  intro place
  cases hentry : tree.entry? location with
  | some entry =>
    rw [hentry] at hmade
    cases entry <;> cases hmade
    exact Or.inl rfl
  | none =>
    rw [hentry] at hmade
    cases hmade
    by_cases hplace : place = location
    · subst hplace
      exact Or.inr ⟨hentry, tree.entry_put_self _ (by simp [hentry])⟩
    · exact Or.inl (tree.entry_put_of_ne _ hplace)

def MakesDirectories (x : StateM FileTree α) : Prop := ∀ tree : FileTree, tree.Grows (x.run tree).2

theorem makesDirectories_pure (a : α) : MakesDirectories (pure a) := fun _ _ => Or.inl rfl

theorem MakesDirectories.bind {x : StateM FileTree α} {f : α → StateM FileTree β}
    (hx : MakesDirectories x) (hf : ∀ a, MakesDirectories (f a)) : MakesDirectories (x >>= f) :=
  fun tree => (hx tree).trans (hf _ _)

theorem makesDirectories_ensureDirectory (path : String) :
    MakesDirectories (fileSystem.ensureDirectory path) := by
  intro tree
  show tree.Grows (update (·.ensureDirectory path) tree).2
  rw [update]
  cases hmade : tree.ensureDirectory path with
  | ok after => exact grows_of_ensureDirectory hmade
  | error e => exact fun _ => Or.inl rfl

theorem makesDirectories_ensureFirst (lineage : List String) :
    MakesDirectories (fileSystem.ensureFirst lineage) := by
  induction lineage with
  | nil => exact makesDirectories_pure _
  | cons path parents ih =>
    rw [FileSystem.ensureFirst]
    refine (makesDirectories_ensureDirectory path).bind fun result => ?_
    split
    · refine ih.bind fun result => ?_
      split
      · exact makesDirectories_ensureDirectory path
      · exact makesDirectories_pure _
    · exact makesDirectories_pure _

theorem makesDirectories_makeDirectory (path : String) :
    MakesDirectories (fileSystem.makeDirectory path) := by
  rw [FileSystem.makeDirectory]
  split
  · exact makesDirectories_pure _
  · exact makesDirectories_ensureFirst _

section Writing

variable {ι : Type} {path contents : ι → String} {x : ι} {xs : List ι}

structure Filled (path contents : ι → String) (xs : List ι) (before after : FileTree) : Prop where
  sameDirectories : SameDirectories before after
  holds : ∀ x ∈ xs, after.read (path x) = .ok (contents x)
  elsewhere : ∀ place, (∀ x ∈ xs, before.locate (path x) ≠ .ok place) →
    after.entry? place = before.entry? place

/-- Files that are written afterwards leave a file as it is or give it the same contents. -/
theorem Filled.cons (hwrite : tree.write (path x) (contents x) = .ok between)
    (hsame : ∀ y ∈ xs, ∀ place, tree.locate (path x) = .ok place →
      tree.locate (path y) = .ok place → contents y = contents x)
    (h : Filled path contents xs between after) : Filled path contents (x :: xs) tree after := by
  obtain ⟨hslash, location, hlocate, hfree, rfl⟩ := write_eq_ok_iff.1 hwrite
  have hentry := not_directory_of_refusal?_eq_none hfree
  have hdirectories := sameDirectories_put_file hentry (contents x)
  have hall := hdirectories.trans h.sameDirectories
  have hheld : after.contents? location = some (.ok (contents x)) := by
    by_cases hagain : ∃ y ∈ xs, tree.locate (path y) = .ok location
    · obtain ⟨y, hy, hplace⟩ := hagain
      obtain ⟨place, hread, hfile, -⟩ := read_eq_ok_iff.1 (h.holds y hy)
      rw [hall.locate_iff.2 hplace] at hread
      cases hread
      rw [hfile, hsame y hy location hlocate hplace]
    · rw [contents?, h.elsewhere location fun y hy hplace =>
        hagain ⟨y, hy, hdirectories.locate_iff.1 hplace⟩, tree.entry_put_self _ hentry]
      rfl
  refine ⟨hall, ?_, fun place hplace => ?_⟩
  · rintro y (_ | ⟨_, hy⟩)
    · exact read_eq_ok_iff.2 ⟨location, hall.locate_iff.2 hlocate, hheld, hslash⟩
    · exact h.holds y hy
  · have hother : place ≠ location := by
      rintro rfl
      exact hplace x List.mem_cons_self hlocate
    rw [h.elsewhere place fun y hy hy' =>
      hplace y (List.mem_cons_of_mem _ hy) (hdirectories.locate_iff.1 hy')]
    exact tree.entry_put_of_ne _ hother

end Writing

end FileTree

/-- The name of a model that is read is a word. -/
theorem Document.isWord_name {types : ScalarTypes} {s : List Char} {d : Document} {m : Model}
    (h : (Document.read types s).result = .ok d) (hm : m ∈ d.models) :
    isWord m.name.toList = true := by
  obtain ⟨block, -, lines, hopen, -⟩ := Document.exists_block h hm
  rw [BlockKind.open_eq] at hopen
  cases hname : BlockKind.model.headerName? (firstLine block) with
  | none =>
    rw [hname] at hopen
    cases hopen
  | some name =>
    rw [hname] at hopen
    cases hopen
    obtain ⟨-, -, -, -, -, -, -, -, -, hword⟩ := BlockKind.headerName?_eq_some_iff.1 hname
    exact hword

namespace Code

variable {m n : Model}

/-- The module of a model depends on its name and on nothing else. -/
theorem crudModule_eq_of_name_eq (h : m.name = n.name) (client : String) :
    crudModule m client = crudModule n client := by
  have haccessor : m.accessor = n.accessor := by rw [Model.accessor, h, Model.accessor]
  rw [crudModule, crudLines, h, haccessor, crudModule, crudLines]

theorem name_eq_of_crudFileName_eq (h : crudFileName m = crudFileName n) : m.name = n.name := by
  have hlists : m.name.toList ++ "CRUD.ts".toList = n.name.toList ++ "CRUD.ts".toList := by
    rw [← String.toList_append, ← String.toList_append]
    exact congrArg String.toList h
  exact String.toList_inj.1 (List.append_cancel_right hlists)

/-- No name of a model leads out of the directory of its module. -/
theorem plain_crudFileName (h : isWord m.name.toList = true) : Path.Plain (crudFileName m) := by
  have hfile : (crudFileName m).toList = m.name.toList ++ "CRUD.ts".toList := String.toList_append
  have hlong (file : String) (hshort : file.toList.length ≤ 2) : crudFileName m ≠ file := by
    intro heq
    have hending : "CRUD.ts".toList.length = 7 := rfl
    have hlength := congrArg List.length hfile
    rw [heq, List.length_append] at hlength
    omega
  refine ⟨by simp [hfile], fun hslash => ?_, hlong "." (by decide), hlong ".." (by decide)⟩
  rw [hfile, List.mem_append] at hslash
  rcases hslash with hname | hending
  · exact absurd (isWordChar_of_isWord h hname) (by decide)
  · exact absurd hending (by decide)

end Code

theorem Export.result_generateCrudModule {s : String} {d : Document} {m : Model}
    (h : (Document.read .standard s.toList).result = .ok d) (hm : m ∈ d.models) :
    (generateCrudModule s m.name).result = .ok (Code.crudModule m "prisma") := by
  have hd : (document s).run.value = .ok d := result_document h
  have hfound : ∃ n, d.model? m.name = some n ∧ n.name = m.name := by
    cases hn : d.model? m.name with
    | none =>
      have hnone := List.find?_eq_none.1 hn m hm
      exact absurd (beq_self_eq_true m.name) hnone
    | some n => exact ⟨n, rfl, by simpa using List.find?_some hn⟩
  obtain ⟨n, hn, hname⟩ := hfound
  show ((document s).run >>= ExceptT.bindCont _ : Logged _).value = _
  rw [Logged.value_bind, hd]
  simp only [ExceptT.bindCont, hn]
  rw [← Code.crudModule_eq_of_name_eq hname]
  rfl

namespace Command

open FileTree (Filled)

variable {tree made after : FileTree} {a : Arguments} {d : Document} {s directory client : String}

section Writing

variable {ι : Type} {path contents : ι → String} {xs : List ι}

/-- Files that can be written one by one can be written one after another, if those at one place are
to hold the same. -/
theorem run_writeFiles (hwrite : ∀ x ∈ xs, ∃ next, tree.write (path x) (contents x) = .ok next)
    (hsame : ∀ x ∈ xs, ∀ y ∈ xs, ∀ place, tree.locate (path x) = .ok place →
      tree.locate (path y) = .ok place → contents y = contents x) :
    ∃ after, (xs.forM fun x =>
        writeFile FileTree.fileSystem (path x) (contents x)).run.run tree = (.ok (), after) ∧
      Filled path contents xs tree after := by
  induction xs generalizing tree with
  | nil =>
    refine ⟨tree, rfl, fun _ => Iff.rfl, fun x hx => ?_, fun _ _ => rfl⟩
    cases hx
  | cons x xs ih =>
    obtain ⟨next, hnext⟩ := hwrite x List.mem_cons_self
    obtain ⟨-, location, -, hfree, hput⟩ := FileTree.write_eq_ok_iff.1 hnext
    have hdirectories : tree.SameDirectories next :=
      hput ▸ FileTree.sameDirectories_put_file
        (FileTree.not_directory_of_refusal?_eq_none hfree) (contents x)
    obtain ⟨after, hrun, hfilled⟩ := @ih next
      (fun y hy => FileTree.writes_of_write hnext (hwrite y (List.mem_cons_of_mem _ hy)))
      (fun y hy z hz place hy' hz' => hsame y (List.mem_cons_of_mem _ hy) z
        (List.mem_cons_of_mem _ hz) place (hdirectories.locate_iff.1 hy')
        (hdirectories.locate_iff.1 hz'))
    have hfirst := run_writeFile tree (path x) (contents x)
    rw [hnext] at hfirst
    refine ⟨after, (run_bind hfirst _).trans hrun, hfilled.cons hnext fun y hy => ?_⟩
    exact hsame x List.mem_cons_self y (List.mem_cons_of_mem _ hy)

end Writing

def modulePath (directory : String) (m : Model) : String :=
  Path.join directory (Code.crudFileName m)

theorem run_writeModules (hread : (Document.read .standard s.toList).result = .ok d)
    (hmade : (FileTree.fileSystem.makeDirectory directory).run tree = (.ok (), made))
    (hwrite : ∀ m ∈ d.models,
      ∃ next, made.write (modulePath directory m) (Code.crudModule m client) = .ok next) :
    ∃ after, (writeModules FileTree.fileSystem d directory client).run.run tree = (.ok (), after) ∧
      Filled (modulePath directory) (Code.crudModule · client) d.models made after := by
  have hdirectory :
      (makeDirectory FileTree.fileSystem directory).run.run tree = (.ok (), made) := by
    show (FileTree.fileSystem.makeDirectory directory >>= fun result =>
      pure (result.mapError (CommandError.directoryNotMade directory))).run tree = _
    rw [StateT.run_bind, hmade]
    rfl
  have hsame : ∀ m ∈ d.models, ∀ n ∈ d.models, ∀ place,
      made.locate (modulePath directory m) = .ok place →
      made.locate (modulePath directory n) = .ok place →
      Code.crudModule n client = Code.crudModule m client := by
    intro m hm n hn place hm' hn'
    obtain ⟨home, -, -, rfl⟩ :=
      FileTree.locate_join (Code.plain_crudFileName (Document.isWord_name hread hm)) hm'
    obtain ⟨home', -, -, hplace⟩ :=
      FileTree.locate_join (Code.plain_crudFileName (Document.isWord_name hread hn)) hn'
    have hfile : Code.crudFileName m = Code.crudFileName n :=
      List.singleton_inj.1 (List.append_inj_right' hplace rfl)
    exact Code.crudModule_eq_of_name_eq (Code.name_eq_of_crudFileName_eq hfile).symm client
  obtain ⟨after, hrun, hfilled⟩ := run_writeFiles hwrite hsame
  exact ⟨after, (run_bind hdirectory _).trans hrun, hfilled⟩

def remainder (d : Document) (a : Arguments) : Run (StateM FileTree) String :=
  if a.describe then pure (Card.document d)
  else if a.graph then pure (d.graph.toJson.pretty ++ "\n")
  else match a.model with
    | some name => query FileTree.fileSystem d a name (a.client.getD "prisma")
    | none => pure ""

theorem run_output_modules (hfile : tree.read a.input = .ok s)
    (hread : (Document.read .standard s.toList).result = .ok d)
    (hcrud : a.crudDirectory = some directory)
    (hmodules : (writeModules FileTree.fileSystem d directory
      (a.client.getD "prisma")).run.run tree = (.ok (), after)) :
    (output FileTree.fileSystem a).run.run tree = (remainder d a).run.run after := by
  rw [output, run_bind (yields_readFile hfile), hread]
  refine (run_bind (yields_pure d) _).trans ?_
  simp only [hcrud]
  exact run_bind hmodules _

/-- Whatever comes of it, what is put out then leaves the files as they are. -/
theorem run_remainder (tree : FileTree) (d : Document) (a : Arguments) :
    ∃ result, (remainder d a).run.run tree = (result, tree) := by
  unfold remainder
  split
  · exact ⟨_, rfl⟩
  · split
    · exact ⟨_, rfl⟩
    · split
      · rename_i name _
        rcases query_outcome tree d a name (a.client.getD "prisma") with ⟨text, htext⟩ | ⟨e, he⟩
        · exact ⟨_, htext⟩
        · exact ⟨_, refuses_query he⟩
      · exact ⟨_, rfl⟩

variable {arguments : List String}

/-- The files of a run that writes modules are those that it has when they are written. -/
theorem files_of_modules (htake : takeIn arguments = .ok a)
    (hcrud : a.crudDirectory = some directory) (houtput : a.output = none)
    (hfile : tree.read a.input = .ok s)
    (hread : (Document.read .standard s.toList).result = .ok d)
    (hmodules : (writeModules FileTree.fileSystem d directory
      (a.client.getD "prisma")).run.run tree = (.ok (), after)) :
    (runOn tree arguments).2 = after := by
  have hdeliver : deliver a = pure := by
    funext text
    rw [deliver, houtput]
  obtain ⟨result, hresult⟩ := run_remainder after d a
  rw [runOn_of_takeIn htake, hdeliver, bind_pure, run_output_modules hfile hread hcrud hmodules,
    hresult]

/-- If the directory can be made and the files can be written, a run that is asked for modules
leaves the module of each model in a file of the directory, whatever comes after that. The file lies
right in the directory, its text is the one that is exported for the model if the client is the
default one, and nothing else is changed but that directories are made. -/
theorem runOn_modules (htake : takeIn arguments = .ok a)
    (hcrud : a.crudDirectory = some directory) (houtput : a.output = none)
    (hfile : tree.read a.input = .ok s)
    (hread : (Document.read .standard s.toList).result = .ok d)
    (hmade : (FileTree.fileSystem.makeDirectory directory).run tree = (.ok (), made))
    (hwrite : ∀ m ∈ d.models, ∃ next, made.write (modulePath directory m)
      (Code.crudModule m (a.client.getD "prisma")) = .ok next) :
    ∃ result after, runOn tree arguments = (result, after) ∧
      (∀ m ∈ d.models,
        after.read (modulePath directory m) =
          .ok (Code.crudModule m (a.client.getD "prisma")) ∧
        (Export.generateCrudModule s m.name).result = .ok (Code.crudModule m "prisma") ∧
        Path.names (modulePath directory m) = Path.names directory ++ [m.name ++ "CRUD.ts"] ∧
        ∃ home, after.follow directory (Path.names directory) = .ok home ∧
          after.entry? home = some .directory ∧
          after.locate (modulePath directory m) = .ok (home ++ [m.name ++ "CRUD.ts"])) ∧
      ∀ place, (∀ m ∈ d.models, after.locate (modulePath directory m) ≠ .ok place) →
        after.entry? place = tree.entry? place ∨
          tree.entry? place = none ∧ after.entry? place = some .directory := by
  obtain ⟨after, hmodules, hfilled⟩ := run_writeModules hread hmade hwrite
  have hafter := files_of_modules htake hcrud houtput hfile hread hmodules
  have hgrows : tree.Grows made := by
    have hgrown := FileTree.makesDirectories_makeDirectory directory tree
    rwa [hmade] at hgrown
  refine ⟨_, after, Prod.ext rfl hafter, fun m hm => ?_, fun place hplace => ?_⟩
  · have hplain := Code.plain_crudFileName (Document.isWord_name hread hm)
    obtain ⟨location, hlocate, -, -⟩ := FileTree.read_eq_ok_iff.1 (hfilled.holds m hm)
    obtain ⟨home, hhome, hentry, rfl⟩ := FileTree.locate_join hplain hlocate
    exact ⟨hfilled.holds m hm, Export.result_generateCrudModule hread hm, Path.names_join hplain,
      home, hhome, hentry, hlocate⟩
  · rw [hfilled.elsewhere place fun m hm hm' =>
      hplace m hm (hfilled.sameDirectories.locate_iff.2 hm')]
    exact hgrows place

def modulesThenNobody : Arguments where
  input := "mail.prisma"
  model := some "Nobody"
  crudDirectory := some "out/"

theorem runOn_modules_mail :
    ∃ result after,
      runOn mailTree ["mail.prisma", "--crud", "out/", "-m", "Nobody"] = (result, after) ∧
        after.read "out/UserCRUD.ts" = .ok (Code.crudModule mailUser "prisma") ∧
        after.entry? ["mail.json"] = mailTree.entry? ["mail.json"] := by
  have htake : takeIn ["mail.prisma", "--crud", "out/", "-m", "Nobody"] = .ok modulesThenNobody :=
    rfl
  have hread : (Document.read .standard mailSchema.toList).result = .ok mailDocument := by
    decide +kernel
  have hmade : (FileTree.fileSystem.makeDirectory "out/").run mailTree =
      (.ok (), mailTree.put ["out"] .directory) := rfl
  have hwrite : ∀ m ∈ mailDocument.models, ∃ next,
      FileTree.write (mailTree.put ["out"] .directory) (modulePath "out/" m)
        (Code.crudModule m "prisma") = .ok next := by
    intro m hm
    simp only [mailDocument, List.mem_cons, List.not_mem_nil, or_false] at hm
    rcases hm with rfl | rfl
    · exact ⟨_, rfl⟩
    · exact ⟨_, rfl⟩
  obtain ⟨result, after, hrun, hmodules, helsewhere⟩ :=
    runOn_modules htake rfl rfl rfl hread hmade hwrite
  obtain ⟨huser, -⟩ := hmodules mailUser List.mem_cons_self
  refine ⟨result, after, hrun, huser, ?_⟩
  have hother : ∀ m ∈ mailDocument.models,
      after.locate (modulePath "out/" m) ≠ .ok ["mail.json"] := by
    intro m hm hplace
    obtain ⟨-, -, -, home, -, -, hlocate⟩ := hmodules m hm
    have hfile : m.name ++ "CRUD.ts" = "mail.json" :=
      List.singleton_inj.1 (@List.append_inj_right' _ home _ [] _
        (Except.ok.inj (hlocate.symm.trans hplace)) rfl)
    simp only [mailDocument, List.mem_cons, List.not_mem_nil, or_false] at hm
    rcases hm with rfl | rfl
    · exact absurd hfile (by decide)
    · exact absurd hfile (by decide)
  rcases helsewhere _ hother with h | ⟨hnone, -⟩
  · exact h
  · cases hnone

end Command

end SchemaQuery
