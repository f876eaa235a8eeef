import Stencil.Proofs.Cache.Interchange
import Stencil.Proofs.Store.Removal
import Stencil.Store.Memory

set_option autoImplicit false

namespace Stencil

open Directories

open TemplateName.path (joinAll)

def ViewError.withoutPath : ViewError → ViewError
  | .templateNotFound name _ => .templateNotFound name ""
  | e => e

namespace Table

variable {α : Type}

theorem mem_set (table : Table α) (name other : String) (a : α) :
    other ∈ (table.set name a).map Prod.fst ↔ other = name ∨ other ∈ table.map Prod.fst := by
  induction table with
  | nil => simp [set]
  | cons entry rest ih =>
      obtain ⟨first, old⟩ := entry
      by_cases hit : first = name
      · simp [set, hit]
      · simp only [set, hit, if_false, List.map_cons, List.mem_cons, ih]
        exact or_left_comm

theorem nodup_set (table : Table α) (name : String) (a : α) (unique : (table.map Prod.fst).Nodup) :
    ((table.set name a).map Prod.fst).Nodup := by
  induction table with
  | nil => simp [set]
  | cons entry rest ih =>
      obtain ⟨first, old⟩ := entry
      rw [List.map_cons, List.nodup_cons] at unique
      by_cases hit : first = name
      · subst hit
        simpa [set] using unique
      · rw [set, if_neg hit, List.map_cons, List.nodup_cons, mem_set, not_or]
        exact ⟨⟨hit, unique.1⟩, ih unique.2⟩

theorem get_ne_none (table : Table α) (name : String) : table.get? name ≠ none ↔ name ∈ table.map Prod.fst := by
  induction table with
  | nil => simp [get?]
  | cons entry rest ih =>
      obtain ⟨first, a⟩ := entry
      by_cases hit : first = name
      · simp [get?, hit]
      · simp [get?, hit, Ne.symm hit, ih]

end Table

-- What the files hold for a store in memory, and for the locks, which it does not have.
def Memory.contents (store : Memory) (locks : String → Option (String × Nat)) : Contents
  | .template name => (store.sources.get? name).map fun source => (source.text, source.modified)
  | .artifact key => (store.artifacts.get? key).map fun artifact => (artifact.code, artifact.modified)
  | .lock key => locks key

namespace Layout

variable (layout : Layout)

structure Mirrors (memory : Memory) (files : Files) : Prop where
  views : files.views = layout.views
  cache : files.cache = layout.cache
  suffix : files.suffix = Config.standard.suffix
  usable : ∀ name, memory.sources.get? name ≠ none → layout.Usable name
  keyed : ∀ key, memory.artifacts.get? key ≠ none → Digest.Key key
  unique : (memory.artifacts.map Prod.fst).Nodup
  keeps : ∃ locks, layout.Keeps (memory.contents locks) files.tree

def start : Files := ⟨.empty, layout.views, layout.cache, Config.standard.suffix⟩

def Unknown (e : ViewError) : Prop := ∃ name, ¬ layout.Usable name ∧ e = .templateNotFound name name

-- Renders over the two stores. That a template is missing whose name no file could have excuses the second one.
abbrev beside : Comparison Memory Files :=
  Comparison.exchanged layout.Mirrors (fun e e' => e.withoutPath = e'.withoutPath) layout.Unknown

theorem mirrors_empty : layout.Mirrors .empty layout.start where
  views := rfl
  cache := rfl
  suffix := rfl
  usable _ found := absurd rfl found
  keyed _ found := absurd rfl found
  unique := .nil
  keeps := by
    refine ⟨fun _ => none, keeps_congr (keeps_empty layout) fun slot _ => ?_⟩
    cases slot <;> rfl

section Reading

variable {layout} {memory : Memory} {files : Files} (mirrors : layout.Mirrors memory files)

include mirrors

theorem templatePath_usable (name : String) (usable : layout.Usable name) :
    files.templatePath name = .ok (layout.path (.template name)) := by
  have joined : joinAll layout.views (parts name) ++ Config.standard.suffix = layout.path (.template name) := by
    rw [parts_split name]
    simp only [joinAll, List.foldl_append, List.foldl_cons, List.foldl_nil, joinPath_append]
    rfl
  rw [Files.templatePath, TemplateName.path, TemplateName.segments_plain usable.plain, mirrors.views, mirrors.suffix,
    ← joined]
  rfl

theorem artifactPath_eq (key : String) : files.artifactPath key = layout.path (.artifact key) := by
  rw [Files.artifactPath, mirrors.cache]
  rfl

theorem lockPath_eq (key : String) : files.lockPath key = layout.path (.lock key) := by
  rw [Files.lockPath, Files.lockDirectory, mirrors.cache]
  rfl

def told {α : Type} (layout : Layout) (memory : Memory) (name : String) (change : Source → α) : Except ViewError α :=
  match memory.sources.get? name with
  | some source => .ok (change source)
  | none => .error (.templateNotFound name (layout.path (.template name)))

theorem sourceTime_usable (name : String) (usable : layout.Usable name) :
    files.sourceTime name = told layout memory name Source.modified := by
  obtain ⟨locks, keeps⟩ := mirrors.keeps
  have good : layout.Good (.template name) := usable
  rw [Files.sourceTime, templatePath_usable mirrors name usable]
  simp only [bind, Except.bind]
  rw [modified_path keeps good, Memory.contents, told]
  cases memory.sources.get? name <;> rfl

theorem source_usable (name : String) (usable : layout.Usable name) : files.source name = told layout memory name id := by
  obtain ⟨locks, keeps⟩ := mirrors.keeps
  have good : layout.Good (.template name) := usable
  have time := sourceTime_usable mirrors name usable
  rw [Files.source, templatePath_usable mirrors name usable]
  simp only [bind, Except.bind]
  rw [readText_path keeps good, Memory.contents, time, told, told]
  cases memory.sources.get? name <;> rfl

theorem hasSource_usable (name : String) (usable : layout.Usable name) :
    files.hasSource name = (memory.sources.get? name).isSome := by
  obtain ⟨locks, keeps⟩ := mirrors.keeps
  have good : layout.Good (.template name) := usable
  rw [Files.hasSource, templatePath_usable mirrors name usable]
  dsimp only
  rw [isFile_path keeps good, Memory.contents, Option.isSome_map]

theorem answers_told {α : Type} (name : String) (change : Source → α) (answer : Except ViewError α)
    (usable : layout.Usable name → answer = told layout memory name change) :
    layout.beside.Answers Eq ((memory.source name).map change) answer := by
  rw [Memory.source]
  by_cases known : layout.Usable name
  · rw [usable known, told]
    cases memory.sources.get? name with
    | none => exact .error rfl
    | some source => exact .ok rfl
  · cases found : memory.sources.get? name with
    | none => exact .excused ⟨name, known, rfl⟩
    | some source => exact absurd (mirrors.usable name (by rw [found]; exact Option.some_ne_none source)) known

theorem artifact_key (key : String) (good : layout.Good (.artifact key)) :
    files.artifact key = .ok (memory.artifacts.get? key) := by
  obtain ⟨locks, keeps⟩ := mirrors.keeps
  rw [Files.artifact, Files.artifactTime, artifactPath_eq mirrors, readText_path keeps good,
    modified_path keeps good, Memory.contents]
  cases memory.artifacts.get? key <;> rfl

theorem artifactTime_key (key : String) (good : layout.Good (.artifact key)) :
    files.artifactTime key = .ok ((memory.artifacts.get? key).map Artifact.modified) := by
  obtain ⟨locks, keeps⟩ := mirrors.keeps
  rw [Files.artifactTime, artifactPath_eq mirrors, modified_path keeps good, Memory.contents]
  cases memory.artifacts.get? key <;> rfl

end Reading

section Writing

variable {layout} {memory : Memory} {files : Files} (mirrors : layout.Mirrors memory files)

include mirrors

theorem mirrors_tree (memory' : Memory) (tree : FileTree) (locks : String → Option (String × Nat))
    (keeps : layout.Keeps (memory'.contents locks) tree)
    (usable : ∀ name, memory'.sources.get? name ≠ none → layout.Usable name)
    (keyed : ∀ key, memory'.artifacts.get? key ≠ none → Digest.Key key)
    (unique : (memory'.artifacts.map Prod.fst).Nodup) : layout.Mirrors memory' { files with tree } :=
  ⟨mirrors.views, mirrors.cache, mirrors.suffix, usable, keyed, unique, locks, keeps⟩

theorem mirrors_source (name : String) (usable : layout.Usable name) (source : Source) (tree : FileTree)
    (locks : String → Option (String × Nat))
    (keeps : layout.Keeps ((memory.contents locks).write (.template name) source.text source.modified) tree) :
    layout.Mirrors (memory.addSource name source) { files with tree } := by
  refine mirrors_tree mirrors _ tree locks (keeps_congr keeps fun slot _ => ?_) (fun other found => ?_) mirrors.keyed
    mirrors.unique
  · cases slot with
    | template other =>
        rw [Contents.write, Memory.contents, Memory.contents, Memory.addSource, Table.get_set]
        by_cases same : other = name
        · simp [same]
        · simp [same]
    | artifact _ | lock _ => rfl
  · rw [Memory.addSource, Table.get_set] at found
    by_cases same : other = name
    · rwa [same]
    · rw [if_neg same] at found
      exact mirrors.usable other found

theorem mirrors_artifact (key : String) (good : Digest.Key key) (artifact : Artifact) (tree : FileTree)
    (locks : String → Option (String × Nat))
    (keeps : layout.Keeps ((memory.contents locks).write (.artifact key) artifact.code artifact.modified) tree) :
    layout.Mirrors (memory.addArtifact key artifact) { files with tree } := by
  refine mirrors_tree mirrors _ tree locks (keeps_congr keeps fun slot _ => ?_) mirrors.usable (fun other found => ?_)
    (Table.nodup_set _ key artifact mirrors.unique)
  · cases slot with
    | artifact other =>
        rw [Contents.write, Memory.contents, Memory.contents, Memory.addArtifact, Table.get_set]
        by_cases same : other = key
        · simp [same]
        · simp [same]
    | template _ | lock _ => rfl
  · rw [Memory.addArtifact, Table.get_set] at found
    by_cases same : other = key
    · rwa [same]
    · rw [if_neg same] at found
      exact mirrors.keyed other found

theorem mirrors_lock (key : String) (now : Nat) (tree : FileTree) (locks : String → Option (String × Nat))
    (keeps : layout.Keeps ((memory.contents locks).write (.lock key) "" now) tree) :
    layout.Mirrors memory { files with tree } := by
  refine mirrors_tree mirrors memory tree (fun other => if other = key then some ("", now) else locks other)
    (keeps_congr keeps fun slot _ => ?_) mirrors.usable mirrors.keyed mirrors.unique
  cases slot with
  | lock other =>
      rw [Contents.write, Memory.contents, Memory.contents]
      by_cases same : other = key
      · simp [same]
      · simp [same]
  | template _ | artifact _ => rfl

theorem clear_mirrors : ∃ tree, files.clear = .ok memory.artifacts.length { files with tree } ∧
    layout.Mirrors { memory with artifacts := [] } { files with tree } := by
  obtain ⟨locks, keeps⟩ := mirrors.keeps
  obtain ⟨names, tree, cleared, unique, named, kept⟩ := clear_files keeps mirrors.cache
  have known : (memory.artifacts.map fun entry => entry.1 ++ ".json").Nodup := by
    have keys := mirrors.unique
    rw [List.Nodup, List.pairwise_map] at keys ⊢
    exact keys.imp fun apart same => apart (by simpa using same)
  have same : names.Perm (memory.artifacts.map fun entry => entry.1 ++ ".json") := by
    refine (List.perm_ext_iff_of_nodup unique known).mpr fun name => ?_
    rw [named, List.mem_map]
    constructor
    · rintro ⟨key, good, written, rfl⟩
      have found : memory.artifacts.get? key ≠ none := fun absent => written (by rw [Memory.contents, absent]; rfl)
      obtain ⟨entry, inside, rfl⟩ := List.mem_map.mp ((Table.get_ne_none _ key).mp found)
      exact ⟨entry, inside, rfl⟩
    · rintro ⟨entry, inside, rfl⟩
      have found := (Table.get_ne_none _ entry.1).mpr (List.mem_map_of_mem inside)
      refine ⟨entry.1, mirrors.keyed _ found, fun absent => found ?_, rfl⟩
      exact Option.map_eq_none_iff.mp absent
  have count := same.length_eq
  rw [List.length_map] at count
  refine ⟨tree, count ▸ cleared, mirrors_tree mirrors _ tree locks (keeps_congr kept fun slot _ => ?_) mirrors.usable
    (fun key found => absurd rfl found) .nil⟩
  cases slot <;> rfl

end Writing

theorem interchanges (key : String → String) (good : ∀ name, Digest.Key (key name)) :
    Store.Interchanges layout.beside layout.Mirrors key where
  source memory files name mirrors := by
    have answers := answers_told mirrors name id (files.source name) (source_usable mirrors name)
    rwa [Except.map_id] at answers
  sourceTime memory files name mirrors :=
    answers_told mirrors name Source.modified (files.sourceTime name) (sourceTime_usable mirrors name)
  artifact memory files name mirrors := by
    have found : Store.artifact files (key name) = Store.artifact memory (key name) :=
      artifact_key mirrors (key name) (good name)
    rw [found]
    exact .ok rfl
  artifactTime memory files name mirrors := by
    have found : Store.artifactTime files (key name) = Store.artifactTime memory (key name) :=
      artifactTime_key mirrors (key name) (good name)
    rw [found]
    exact .ok rfl
  write now name code memory files mirrors := by
    obtain ⟨locks, keeps⟩ := mirrors.keeps
    have named : layout.Good (.artifact (key name)) := good name
    obtain ⟨tree, written, kept⟩ := putFile_path keeps named now (key name) code
    have folder : layout.folder (.artifact (key name)) = files.cache := mirrors.cache.symm
    rw [folder, ← artifactPath_eq mirrors] at written
    have wrote : (Store.write now (key name) code : Action Files Unit) files = .ok () { files with tree } := written
    rw [wrote]
    exact .ok rfl (mirrors_artifact mirrors (key name) (good name) ⟨code, now⟩ tree locks kept)
  clear memory files mirrors := by
    obtain ⟨tree, cleared, kept⟩ := clear_mirrors mirrors
    have emptied : (Store.clear : Action Files Nat) files = .ok memory.artifacts.length { files with tree } := cleared
    rw [emptied]
    exact .ok rfl kept
  lock now name memory files mirrors := by
    obtain ⟨locks, keeps⟩ := mirrors.keeps
    have named : layout.Good (.lock (key name)) := good name
    obtain ⟨tree, written, kept⟩ := putFile_path keeps named now (key name) ""
    have folder : layout.folder (.lock (key name)) = files.lockDirectory := by
      rw [Files.lockDirectory, mirrors.cache]
      rfl
    rw [folder, ← lockPath_eq mirrors] at written
    have locked : (Store.lock now (key name) : Action Files Unit) files = .ok () { files with tree } := written
    rw [locked]
    exact .ok rfl (mirrors_lock mirrors (key name) now tree locks kept)

end Layout

end Stencil
