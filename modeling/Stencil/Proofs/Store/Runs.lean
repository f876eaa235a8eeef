import Stencil.Proofs.Store.Mirror

set_option autoImplicit false

namespace Stencil

inductive Edit where
  | source (name text : String) (modified : Nat)
  | age (name : String) (modified : Nat)
  | put (name code : String) (modified : Nat)

inductive Step where
  | edit (edit : Edit)
  | render (name : String) (data : Value)
  | hasSource (name : String)
  | isExpired (name : String)
  | ensureFresh (name : String)
  | compile (name : String)
  | stats
  | cleanup
  | reopen (format : Template.EchoFormat) (limits : Limits)

inductive Reply where
  | done
  | text (text : String)
  | program (program : Program)
  | flag (answer : Bool)
  | counts (counts : Counts)
  | removed (count : Nat)
  | failed (error : ViewError)
  | refused

def Reply.withoutPath : Reply → Reply
  | .failed e => .failed e.withoutPath
  | reply => reply

def Reply.missing? : Reply → Option String
  | .failed (.templateNotFound name _) => some name
  | _ => none

def Edit.name : Edit → String
  | .source name _ _ | .age name _ | .put name _ _ => name

def Step.name? : Step → Option String
  | .edit change => some change.name
  | .render name _ | .hasSource name | .isExpired name | .ensureFresh name | .compile name => some name
  | .stats | .cleanup | .reopen _ _ => none

def Memory.edit (_ : Nat) (edit : Edit) (store : Memory) : Reply × Memory :=
  match edit with
  | .source name text modified => (.done, store.addSource name ⟨text, modified⟩)
  | .age name modified =>
      match store.touchArtifact (Digest.key name) modified with
      | some next => (.flag true, next)
      | none => (.flag false, store)
  | .put name code modified => (.done, store.addArtifact (Digest.key name) ⟨code, modified⟩)

def Files.edited (files : Files) : Except FileFault FileTree → Reply × Files
  | .ok tree => (.done, { files with tree })
  | .error _ => (.refused, files)

def Files.edit (now : Nat) (edit : Edit) (files : Files) : Reply × Files :=
  match edit with
  | .source name text modified =>
      match files.templatePath name with
      | .ok path => files.edited (files.tree.addFile now path (some text) modified)
      | .error e => (.failed e, files)
  | .age name modified =>
      let path := files.artifactPath (Digest.key name)
      match files.tree.item path with
      | .ok (.file text _) => (.flag true, (files.edited (files.tree.writeFile path text modified)).2)
      | .ok (.directory _) => (.flag true, files)
      | .error _ => (.flag false, files)
  | .put name code modified =>
      files.edited (files.tree.addFile now (files.artifactPath (Digest.key name)) (some code) modified)

structure Engine (σ : Type) where
  format : Template.EchoFormat
  limits : Limits
  cache : Cache σ

namespace Engine

variable {σ : Type} [Store σ]

def act {α : Type} (engine : Engine σ) (encode : α → Reply) (action : Action (Cache σ) α) : Reply × Engine σ :=
  match action engine.cache with
  | .ok a cache => (encode a, { engine with cache })
  | .error e cache => (.failed e, { engine with cache })

def step (edit : Nat → Edit → σ → Reply × σ) (now : Nat) (engine : Engine σ) (step : Step) : Reply × Engine σ :=
  let compiler : Compiler := ⟨engine.format, Digest.key, now⟩
  match step with
  | .edit change =>
      let (reply, store) := edit now change engine.cache.store
      (reply, { engine with cache := { engine.cache with store } })
  | .render name data => engine.act .text (Renderer.retrieve ⟨compiler, engine.limits⟩ name data)
  | .hasSource name => (.flag (Store.hasSource engine.cache.store name), engine)
  | .isExpired name => engine.act .flag (Cache.isExpired compiler name)
  | .ensureFresh name => engine.act .program (Cache.ensureFresh compiler name)
  | .compile name => engine.act .program (Cache.compile compiler name)
  | .stats => (.counts engine.cache.counts, engine)
  | .cleanup => engine.act .removed (Cache.inStore Store.clear)
  | .reopen format limits => (.done, ⟨format, limits, { engine.cache with counts := ⟨0, 0⟩ }⟩)

def replies (edit : Nat → Edit → σ → Reply × σ) : List (Nat × Step) → Engine σ → List Reply
  | [], _ => []
  | (now, step) :: rest, engine =>
      let (reply, next) := engine.step edit now step
      reply :: replies edit rest next

end Engine

namespace Layout

variable {layout : Layout}

theorem edit_alike {memory : Memory} {files : Files} (mirrors : layout.Mirrors memory files) (now : Nat) (edit : Edit)
    (usable : layout.Usable edit.name) :
    (memory.edit now edit).1 = (files.edit now edit).1 ∧
      layout.Mirrors (memory.edit now edit).2 (files.edit now edit).2 := by
  obtain ⟨locks, keeps⟩ := mirrors.keeps
  cases edit with
  | source name text modified =>
      have good : layout.Good (.template name) := usable
      obtain ⟨tree, added, kept⟩ := addFile_path keeps good text modified now
      simp only [Memory.edit, Files.edit, templatePath_usable mirrors name usable, added, Files.edited]
      exact ⟨trivial, mirrors_source mirrors name usable ⟨text, modified⟩ tree locks kept⟩
  | put name code modified =>
      have good : layout.Good (.artifact (Digest.key name)) := Digest.key_good name
      obtain ⟨tree, added, kept⟩ := addFile_path keeps good code modified now
      simp only [Memory.edit, Files.edit, artifactPath_eq mirrors, added, Files.edited]
      exact ⟨trivial, mirrors_artifact mirrors _ good ⟨code, modified⟩ tree locks kept⟩
  | age name modified =>
      have good : layout.Good (.artifact (Digest.key name)) := Digest.key_good name
      have found := item_path keeps good
      rw [Memory.contents] at found
      simp only [Memory.edit, Memory.touchArtifact, Files.edit, artifactPath_eq mirrors]
      cases stored : memory.artifacts.get? (Digest.key name) with
      | none =>
          rw [stored] at found
          simp only [Option.map_none] at found
          simp only [found, Option.map_none]
          exact ⟨trivial, mirrors⟩
      | some artifact =>
          rw [stored] at found
          simp only [Option.map_some, Contents.item] at found
          have there : memory.contents locks (.artifact (Digest.key name)) ≠ none := by
            rw [Memory.contents, stored]
            exact Option.some_ne_none _
          obtain ⟨tree, written, kept⟩ := writeFile_there keeps good artifact.code modified there
          simp only [found, written, Files.edited, Option.map_some]
          exact ⟨trivial, mirrors_artifact mirrors _ good ⟨artifact.code, modified⟩ tree locks kept⟩

structure Twins (layout : Layout) (first : Engine Memory) (second : Engine Files) : Prop where
  format : first.format = second.format
  limits : first.limits = second.limits
  caches : Cache.Alongside layout.Mirrors first.cache second.cache

section Steps

variable {first : Engine Memory} {second : Engine Files} (twins : Twins layout first second)

include twins

theorem act_alike {α : Type} (encode : α → Reply) (action : Action (Cache Memory) α) (action' : Action (Cache Files) α)
    (follows : layout.beside.Follows (Cache.Alongside layout.Mirrors) Eq action action')
    (asked : ∀ name ∈ (first.act encode action).1.missing?, layout.Usable name) :
    (first.act encode action).1.withoutPath = (second.act encode action').1.withoutPath ∧
      Twins layout (first.act encode action).2 (second.act encode action').2 := by
  have meets := follows first.cache second.cache twins.caches
  rw [Engine.act] at asked
  rw [Engine.act, Engine.act]
  generalize action first.cache = left at meets asked
  generalize action' second.cache = right at meets
  cases meets with
  | ok same after => exact ⟨by rw [same], twins.format, twins.limits, after⟩
  | error same after => exact ⟨congrArg Reply.failed same, twins.format, twins.limits, after⟩
  | excused excuse =>
      obtain ⟨name, unusable, rfl⟩ := excuse
      exact absurd (asked name rfl) unusable

theorem step_alike (now : Nat) (step : Step) (named : ∀ name ∈ step.name?, layout.Usable name)
    (asked : ∀ name ∈ (first.step Memory.edit now step).1.missing?, layout.Usable name) :
    (first.step Memory.edit now step).1.withoutPath = (second.step Files.edit now step).1.withoutPath ∧
      Twins layout (first.step Memory.edit now step).2 (second.step Files.edit now step).2 := by
  have stores : Store.Interchanges layout.beside layout.Mirrors Digest.key := interchanges layout _ Digest.key_good
  have self : ∀ e : ViewError, e.withoutPath = e.withoutPath := fun _ => rfl
  obtain ⟨format, limits, cache⟩ := first
  obtain ⟨format', limits', cache'⟩ := second
  have format_eq : format = format' := twins.format
  have limits_eq : limits = limits' := twins.limits
  subst format_eq limits_eq
  obtain ⟨kept, counted⟩ := twins.caches
  have compiled : Store.Interchanges layout.beside layout.Mirrors (Compiler.mk format Digest.key now).key := stores
  cases step with
  | edit change =>
      obtain ⟨same, mirrors⟩ := edit_alike kept now change (named _ rfl)
      exact ⟨congrArg Reply.withoutPath same, rfl, rfl, mirrors, counted⟩
  | render name data => exact act_alike twins _ _ _ (Renderer.follows_retrieve compiled self limits name data) asked
  | hasSource name =>
      have same : Store.hasSource cache'.store name = Store.hasSource cache.store name :=
        hasSource_usable kept name (named name rfl)
      refine ⟨?_, twins⟩
      simp only [Engine.step, same]
  | isExpired name => exact act_alike twins _ _ _ (Cache.follows_isExpired compiled name) asked
  | ensureFresh name => exact act_alike twins _ _ _ (Cache.follows_ensureFresh compiled self name) asked
  | compile name => exact act_alike twins _ _ _ (Cache.follows_compile compiled self name) asked
  | stats =>
      refine ⟨?_, twins⟩
      exact congrArg Reply.counts counted
  | cleanup => exact act_alike twins _ _ _ (Cache.follows_inStore _ _ stores.clear) asked
  | reopen format limits => exact ⟨rfl, rfl, rfl, kept, rfl⟩

theorem replies_of_twins (steps : List (Nat × Step))
    (named : ∀ entry ∈ steps, ∀ name ∈ entry.2.name?, layout.Usable name)
    (asked : ∀ reply ∈ first.replies Memory.edit steps, ∀ name ∈ reply.missing?, layout.Usable name) :
    (first.replies Memory.edit steps).map Reply.withoutPath
      = (second.replies Files.edit steps).map Reply.withoutPath := by
  induction steps generalizing first second with
  | nil => rfl
  | cons entry rest ih =>
      obtain ⟨now, step⟩ := entry
      obtain ⟨here, later⟩ := List.forall_mem_cons.mp named
      obtain ⟨reply, others⟩ := List.forall_mem_cons.mp asked
      obtain ⟨same, next⟩ := step_alike twins now step here reply
      exact List.cons_eq_cons.mpr ⟨same, ih next later others⟩

end Steps

/-- Over files and in memory, the steps of a run are answered alike, whatever the directories are, as long as neither
is in the way of the other's files. The templates that are named or asked for have names that there can be files
for: one of another name is never found in memory, and the answer tells so. -/
theorem replies_alike (format : Template.EchoFormat) (limits : Limits) (steps : List (Nat × Step))
    (named : ∀ entry ∈ steps, ∀ name ∈ entry.2.name?, layout.Usable name)
    (asked : ∀ reply ∈ Engine.replies Memory.edit steps ⟨format, limits, ⟨.empty, ⟨0, 0⟩⟩⟩,
      ∀ name ∈ reply.missing?, layout.Usable name) :
    (Engine.replies Memory.edit steps ⟨format, limits, ⟨.empty, ⟨0, 0⟩⟩⟩).map Reply.withoutPath
      = (Engine.replies Files.edit steps ⟨format, limits, ⟨layout.start, ⟨0, 0⟩⟩⟩).map Reply.withoutPath :=
  replies_of_twins ⟨rfl, rfl, mirrors_empty layout, rfl⟩ steps named asked

def usual : Layout where
  views := Config.standard.views
  cache := Config.standard.cache
  viewsFound := by decide
  cacheFound := by decide
  viewsNulless := by decide
  cacheNulless := by decide
  fits := by decide +kernel
  room := by decide
  clear := by
    have views : FileTree.spelled Config.standard.views = ["views"] := by decide +kernel
    have cache : FileTree.spelled Config.standard.cache = ["storage", "views"] := by decide +kernel
    refine clear_of_apart ⟨Config.standard.views, Config.standard.cache⟩ ?_ ?_ ?_ ?_
    all_goals simp only [Straight, views, cache]; decide

def pageRun : List (Nat × Step) :=
  [(10, .edit (.source "page" "a @include('parts.b')" 5)), (11, .edit (.source "parts.b" "-b" 6)),
    (12, .compile "parts.b"), (13, .edit (.age "parts.b" 3)), (14, .render "page" (.object [])), (15, .stats),
    (16, .cleanup), (17, .ensureFresh "parts.c")]

def pageReplies : List Reply :=
  Engine.replies Memory.edit pageRun ⟨.escaping, Config.standard.limits, ⟨.empty, ⟨0, 0⟩⟩⟩

theorem replies_pageRun :
    pageReplies.filterMap Reply.missing? = ["parts.c"] ∧ pageReplies.map Reply.withoutPath
      = (Engine.replies Files.edit pageRun ⟨.escaping, Config.standard.limits, ⟨usual.start, ⟨0, 0⟩⟩⟩).map
          Reply.withoutPath := by
  have named : ∀ entry ∈ pageRun, ∀ name ∈ entry.2.name?, usual.Usable name := by decide +kernel
  have missing : pageReplies.filterMap Reply.missing? = ["parts.c"] := by decide +kernel
  have asked : ∀ reply ∈ pageReplies, ∀ name ∈ reply.missing?, usual.Usable name := by
    intro reply inside name told
    have found : name ∈ pageReplies.filterMap Reply.missing? := List.mem_filterMap.mpr ⟨reply, inside, told⟩
    rw [missing] at found
    obtain rfl := List.mem_singleton.mp found
    decide +kernel
  exact ⟨missing, replies_alike .escaping Config.standard.limits pageRun named asked⟩

end Layout

end Stencil
