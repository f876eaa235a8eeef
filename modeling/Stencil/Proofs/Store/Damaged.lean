import Stencil.Proofs.Cache.Coherence
import Stencil.Proofs.Store.Layout
import Stencil.Proofs.Store.Located

set_option autoImplicit false

namespace Stencil

open FileTree

namespace Files

section Asked

variable (files : Files)

theorem sourceTime_of_item (name path : String) (named : files.templatePath name = .ok path) (text : Option String)
    (modified : Nat) (there : files.tree.item path = .ok (.file text modified)) :
    files.sourceTime name = .ok modified := by
  rw [sourceTime, named]
  simp only [bind, Except.bind, FileTree.modified, there]
  rfl

theorem readText_eq_ok (tree : FileTree) (path text : String) :
    tree.readText path = .ok text ↔ ∃ modified, tree.item path = .ok (.file (some text) modified) := by
  rw [FileTree.readText, bind_eq_ok]
  constructor
  · rintro ⟨item, there, read⟩
    cases item with
    | directory modified => cases read
    | file found modified =>
        cases found with
        | none => cases read
        | some found =>
            obtain rfl := Except.ok.inj read
            exact ⟨modified, there⟩
  · rintro ⟨modified, there⟩
    exact ⟨_, there, rfl⟩

theorem source_eq_ok (name : String) (source : Source) :
    files.source name = .ok source ↔ ∃ path, files.templatePath name = .ok path ∧
      files.tree.item path = .ok (.file (some source.text) source.modified) := by
  rw [Files.source, bind_eq_ok]
  refine exists_congr fun path => and_congr_right fun named => ?_
  rw [bind_eq_ok]
  constructor
  · rintro ⟨text, read, rest⟩
    obtain ⟨modified, there⟩ := (readText_eq_ok _ path text).mp ((mapError_eq_ok _ _ text).mp read)
    rw [sourceTime_of_item files name path named _ _ there] at rest
    obtain rfl := Except.ok.inj rest
    exact there
  · intro there
    refine ⟨source.text, (mapError_eq_ok _ _ _).mpr ((readText_eq_ok _ path _).mpr ⟨_, there⟩), ?_⟩
    rw [sourceTime_of_item files name path named _ _ there]
    rfl

theorem sourceTime_of_source (name : String) (source : Source) (found : files.source name = .ok source) :
    files.sourceTime name = .ok source.modified := by
  obtain ⟨path, named, there⟩ := (source_eq_ok files name source).mp found
  exact sourceTime_of_item files name path named _ _ there

theorem artifact_of_text (key code : String) (modified : Nat)
    (placed : files.tree.item (files.artifactPath key) = .ok (.file (some code) modified)) :
    files.artifact key = .ok (some ⟨code, modified⟩) := by
  simp only [artifact, artifactTime, FileTree.readText, FileTree.modified, placed]
  rfl

theorem artifact_of_bytes (key : String) (modified : Nat)
    (placed : files.tree.item (files.artifactPath key) = .ok (.file none modified)) :
    files.artifact key = .error (.cacheRead (files.artifactPath key)) := by
  simp only [artifact, FileTree.readText, placed]
  rfl

end Asked

section Written

variable {files next : Files}

theorem putFile_eq_ok (now : Nat) (key directory path text : String)
    (done : putFile now key directory path text files = .ok () next) :
    ∃ made tree, files.tree.makeDirectory now directory = .ok made ∧ made.writeFile path (some text) now = .ok tree ∧
      next = { files with tree } := by
  simp only [putFile, bind, EStateM.bind, change] at done
  cases make : files.tree.makeDirectory now directory with
  | error fault => rw [make] at done; cases done
  | ok made =>
      rw [make] at done
      dsimp only at done
      cases write : made.writeFile path (some text) now with
      | error fault => rw [write] at done; cases done
      | ok tree =>
          rw [write] at done
          cases done
          exact ⟨made, tree, rfl, write, rfl⟩

theorem putFile_over (now : Nat) (key directory name text : String) (found : directory ≠ "") (good : Names name)
    (old : Option String) (time : Nat) (there : files.tree.item (joinPath directory name) = .ok (.file old time)) :
    ∃ tree, putFile now key directory (joinPath directory name) text files = .ok () { files with tree } ∧
      tree.item (joinPath directory name) = .ok (.file (some text) now) := by
  obtain ⟨place, located, _⟩ := (item_eq_ok _ _).mp there
  obtain ⟨folder, inside, opens, _⟩ := locate_joinPath directory name found good place located
  obtain ⟨tree, written⟩ := writeFile_over _ (some text) now old time there
  refine ⟨tree, ?_, item_written _ _ _ written⟩
  simp only [putFile, bind, EStateM.bind, change, makeDirectory_located now directory folder inside opens, written]

theorem locked_keeps (now : Nat) (key : String) (good : Digest.Key key)
    (locked : (Store.lock now key : Action Files Unit) files = .ok () next) :
    ∃ tree, next = { files with tree } ∧ ∀ path item, files.tree.item path = .ok item →
      (∀ place, files.tree.locate path = .ok place → place.getLast? ≠ some (key ++ ".lock")) →
      tree.item path = .ok item := by
  have lockName : Names (key ++ ".lock") :=
    Directories.names_key key good ".lock" (by decide) (by decide) (by decide)
  have folderFound : files.lockDirectory ≠ "" := joinPath_ne _ _ Directories.names_locks.component
  obtain ⟨made, tree, make, written, rfl⟩ := putFile_eq_ok now key files.lockDirectory (files.lockPath key) "" locked
  have keeps := makeDirectory_keeps now _ make
  refine ⟨tree, rfl, fun path item found apart => ?_⟩
  refine item_elsewhere _ _ _ written path item (item_keeps keeps path item found) fun same => ?_
  obtain ⟨place, located, _⟩ := (item_eq_ok path item).mp found
  rw [locate_keeps keeps path place located] at same
  obtain ⟨folder, _, _, rfl⟩ := locate_joinPath _ _ folderFound lockName place same.symm
  exact apart _ located List.getLast?_concat

theorem write_over (files : Files) (now : Nat) (key code : String) (good : Digest.Key key)
    (cacheFound : files.cache ≠ "") (old : Option String) (time : Nat)
    (there : files.tree.item (files.artifactPath key) = .ok (.file old time)) :
    ∃ tree, (Store.write now key code : Action Files Unit) files = .ok () { files with tree } ∧
      tree.item (files.artifactPath key) = .ok (.file (some code) now) :=
  putFile_over now key files.cache (key ++ ".json") code cacheFound
    (Directories.names_key key good ".json" (by decide) (by decide) (by decide)) old time there

theorem artifact_apart (key : String) (good : Digest.Key key) (cacheFound : files.cache ≠ "") (place : Location)
    (located : files.tree.locate (files.artifactPath key) = .ok place) :
    place.getLast? ≠ some (key ++ ".lock") := by
  obtain ⟨folder, _, _, rfl⟩ := locate_joinPath _ _ cacheFound
    (Directories.names_key key good ".json" (by decide) (by decide) (by decide)) place located
  rw [List.getLast?_concat]
  simp

end Written

end Files

structure Artifact.Usable (artifact : Artifact) (source : Source) (name : String) (program : Program) : Prop where
  fresh : source.modified ≤ artifact.modified
  read : Program.ofCode? artifact.code = some program
  named : program.template = name

namespace Cache

section Stored

variable {σ : Type} [Store σ] (compiler : Compiler) (cache : Cache σ) (name : String) (source : Source)
  (artifact : Artifact) (time : Store.sourceTime cache.store name = .ok source.modified)
  (found : Store.artifact cache.store (compiler.key name) = .ok (some artifact))

include time found

theorem stored_usable (program : Program) (usable : artifact.Usable source name program) :
    stored? compiler name cache
      = .ok (some program) { cache with counts := { cache.counts with reused := cache.counts.reused + 1 } } := by
  simp only [stored?, bind_ask, time, found, if_neg (Nat.not_lt.mpr usable.fresh), usable.read, if_pos usable.named]
  rfl

theorem stored_unusable (unusable : ∀ program, ¬ artifact.Usable source name program) :
    stored? compiler name cache = .ok none cache := by
  simp only [stored?, bind_ask, time, found]
  by_cases old : artifact.modified < source.modified
  · rw [if_pos old]
    rfl
  · rw [if_neg old]
    cases read : Program.ofCode? artifact.code with
    | none => rfl
    | some program =>
        dsimp only
        rw [if_neg fun named => unusable program ⟨Nat.not_lt.mp old, read, named⟩]
        rfl

end Stored

variable (files locked : Files) (format : Template.EchoFormat) (now : Nat) (counts : Counts) (name path : String)
  (source : Source) (program : Program)

theorem ensureFresh_replaces (artifact : Artifact) (cacheFound : files.cache ≠ "")
    (found : files.source name = .ok source) (done : Program.compile format name source.text = .ok program)
    (named : files.templatePath name = .ok path)
    (apart : ∀ place, files.tree.locate path = .ok place → place.getLast? ≠ some (Digest.key name ++ ".lock"))
    (lockable : (Store.lock now (Digest.key name) : Action Files Unit) files = .ok () locked)
    (placed : files.tree.item (files.artifactPath (Digest.key name))
      = .ok (.file (some artifact.code) artifact.modified))
    (unusable : ∀ program, ¬ artifact.Usable source name program) :
    ∃ next, ensureFresh ⟨format, Digest.key, now⟩ name (⟨files, counts⟩ : Cache Files)
        = .ok program ⟨next, { counts with compiled := counts.compiled + 1 }⟩ ∧
      next.artifact (Digest.key name) = .ok (some ⟨program.code, now⟩) := by
  have good := Digest.key_good name
  obtain ⟨tree, rfl, keeps⟩ := Files.locked_keeps now _ good lockable
  obtain ⟨_, named', there⟩ := (Files.source_eq_ok files name source).mp found
  obtain rfl := Except.ok.inj (named.symm.trans named')
  have placed' := keeps _ _ placed fun place => Files.artifact_apart _ good cacheFound place
  have found' : ({ files with tree } : Files).source name = .ok source :=
    (Files.source_eq_ok _ name source).mpr ⟨path, named, keeps path _ there apart⟩
  obtain ⟨tree', written, there'⟩ :=
    Files.write_over { files with tree } now _ program.code good cacheFound _ _ placed'
  have first := stored_unusable ⟨format, Digest.key, now⟩ ⟨files, counts⟩ name source artifact
    (Files.sourceTime_of_source files name source found) (Files.artifact_of_text files _ _ _ placed) unusable
  have again := stored_unusable ⟨format, Digest.key, now⟩ ⟨{ files with tree }, counts⟩ name source artifact
    (Files.sourceTime_of_source _ name source found') (Files.artifact_of_text _ _ _ _ placed') unusable
  refine ⟨{ files with tree := tree' }, ?_, Files.artifact_of_text _ _ _ _ there'⟩
  have took : inStore (Store.lock now (Digest.key name)) (⟨files, counts⟩ : Cache Files)
      = .ok () ⟨{ files with tree }, counts⟩ := by
    rw [inStore, lockable]
  have wrote : inStore (Store.write now (Digest.key name) program.code) (⟨{ files with tree }, counts⟩ : Cache Files)
      = .ok () ⟨{ files with tree := tree' }, counts⟩ := by
    rw [inStore, written]
  have source' : Store.source ({ files with tree } : Files) name = .ok source := found'
  have compiled : compileAndStore ⟨format, Digest.key, now⟩ name (⟨{ files with tree }, counts⟩ : Cache Files)
      = .ok program ⟨{ files with tree := tree' }, { counts with compiled := counts.compiled + 1 }⟩ := by
    simp only [compileAndStore, bind_ask, source', done]
    simp only [bind, EStateM.bind, wrote]
    rfl
  simp only [ensureFresh, bind, EStateM.bind, first, took, again, compiled]

/-- Whatever bytes the file of a program holds, and whenever they were written, a text among them is either a program
of the template that is not older, which is used again as it is, or it is replaced by the program that the template
compiles to. That is the one which is read from then on. Bytes that are no text are neither: they fail whoever asks
for the template, and stay there. -/
theorem ensureFresh_placed (text : Option String) (modified : Nat) (cacheFound : files.cache ≠ "")
    (found : files.source name = .ok source) (done : Program.compile format name source.text = .ok program)
    (named : files.templatePath name = .ok path)
    (apart : ∀ place, files.tree.locate path = .ok place → place.getLast? ≠ some (Digest.key name ++ ".lock"))
    (lockable : (Store.lock now (Digest.key name) : Action Files Unit) files = .ok () locked)
    (placed : files.tree.item (files.artifactPath (Digest.key name)) = .ok (.file text modified)) :
    match text with
    | none =>
        ensureFresh ⟨format, Digest.key, now⟩ name (⟨files, counts⟩ : Cache Files)
          = .error (.cacheRead (files.artifactPath (Digest.key name))) ⟨files, counts⟩
    | some code =>
        (∀ stored, (Artifact.mk code modified).Usable source name stored →
          ensureFresh ⟨format, Digest.key, now⟩ name (⟨files, counts⟩ : Cache Files)
            = .ok stored ⟨files, { counts with reused := counts.reused + 1 }⟩) ∧
        ((∀ stored, ¬ (Artifact.mk code modified).Usable source name stored) →
          ∃ next, ensureFresh ⟨format, Digest.key, now⟩ name (⟨files, counts⟩ : Cache Files)
              = .ok program ⟨next, { counts with compiled := counts.compiled + 1 }⟩ ∧
            next.artifact (Digest.key name) = .ok (some ⟨program.code, now⟩) ∧
            (Template.Storable format name source.text → Program.ofCode? program.code = some program)) := by
  have time : Store.sourceTime files name = .ok source.modified := Files.sourceTime_of_source files name source found
  cases text with
  | none =>
      have broken : Store.artifact files (Digest.key name)
          = .error (.cacheRead (files.artifactPath (Digest.key name))) :=
        Files.artifact_of_bytes files _ _ placed
      have failed : stored? ⟨format, Digest.key, now⟩ name (⟨files, counts⟩ : Cache Files)
          = .error (.cacheRead (files.artifactPath (Digest.key name))) ⟨files, counts⟩ := by
        simp only [stored?, bind_ask, time, broken]
      simp only [ensureFresh, bind, EStateM.bind, failed]
  | some code =>
      refine ⟨fun stored usable => ?_, fun unusable => ?_⟩
      · have first := stored_usable ⟨format, Digest.key, now⟩ (⟨files, counts⟩ : Cache Files) name source
          ⟨code, modified⟩ time (Files.artifact_of_text files _ _ _ placed) stored usable
        simp only [ensureFresh, bind, EStateM.bind, first]
        rfl
      · obtain ⟨next, compiled, kept⟩ := ensureFresh_replaces files locked format now counts name path source program
          ⟨code, modified⟩ cacheFound found done named apart lockable placed unusable
        exact ⟨next, compiled, kept, fun storable => storable.ofCode done⟩

def withBytes (text : Option String) : Cache Files where
  store :=
    { tree := ⟨[(["views", "page.tpl.html"], .file (some "x") 1000), (["views"], .directory 1),
        (["storage", "views", Digest.key "page" ++ ".json"], .file text 2000), (["storage", "views"], .directory 1),
        (["storage"], .directory 1)]⟩
      views := Config.standard.views
      cache := Config.standard.cache
      suffix := Config.standard.suffix }
  counts := ⟨0, 0⟩

theorem ensureFresh_junk : ∃ next,
    ensureFresh ⟨.escaping, Digest.key, 3000⟩ "page" (withBytes (some "junk"))
      = .ok ⟨currentFormat, "page", [.text "x"]⟩ ⟨next, ⟨1, 0⟩⟩ ∧
    next.artifact (Digest.key "page") = .ok (some ⟨Program.code ⟨currentFormat, "page", [.text "x"]⟩, 3000⟩) := by
  have done : Program.compile .escaping "page" "x" = .ok ⟨currentFormat, "page", [.text "x"]⟩ := by cbv
  have named : (withBytes (some "junk")).store.templatePath "page" = .ok "views/page.tpl.html" :=
    ok_of_toOption _ _ (by decide +kernel)
  have located : (withBytes (some "junk")).store.tree.locate "views/page.tpl.html" = .ok ["views", "page.tpl.html"] :=
    ok_of_toOption _ _ (by decide +kernel)
  have found : (withBytes (some "junk")).store.source "page" = .ok ⟨"x", 1000⟩ := ok_of_toOption _ _ (by decide +kernel)
  have placed : (withBytes (some "junk")).store.tree.item
      ((withBytes (some "junk")).store.artifactPath (Digest.key "page")) = .ok (.file (some "junk") 2000) :=
    ok_of_toOption _ _ (by decide +kernel)
  have free : (Action.result? (Store.lock 3000 (Digest.key "page")) (withBytes (some "junk")).store) = some () := by
    decide +kernel
  obtain ⟨locked, lockable⟩ := Action.ok_of_result _ _ _ free
  have unread : (Program.ofCode? "junk").isNone = true := by decide +kernel
  have replaced := (ensureFresh_placed _ locked .escaping 3000 ⟨0, 0⟩ "page" _ _ _ (some "junk") 2000
    (by decide) found done named ?_ lockable placed).2 ?_
  · obtain ⟨next, compiled, kept, _⟩ := replaced
    exact ⟨next, compiled, kept⟩
  · intro place located'
    obtain rfl := Except.ok.inj (located.symm.trans located')
    decide +kernel
  · intro stored usable
    rw [usable.read] at unread
    cases unread

/-- A page whose program has become bytes that are no text cannot be asked for, although it is there and compiles. -/
theorem unreadable_bytes :
    ((ensureFresh ⟨.escaping, Digest.key, 3000⟩ "page").result? (withBytes none)).isNone = true ∧
    (Store.source (withBytes none).store "page").toOption = some ⟨"x", 1000⟩ ∧
    (Program.compile .escaping "page" "x").toOption.isSome = true := by
  refine ⟨by decide +kernel, by decide +kernel, by decide +kernel⟩

end Cache

end Stencil
