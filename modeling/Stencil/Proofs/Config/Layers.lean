import Mathlib.Tactic.SplitIfs
import Stencil.Command.Execution
import Stencil.Proofs.Expr.Grammar

set_option autoImplicit false

namespace Stencil

open Toml (Setting)

deriving instance DecidableEq for Setting

structure Layer where
  views : Option String
  cache : Option String
  suffix : Option String
  format : Option Template.EchoFormat
  strictBlocks : Option Bool
  includeDepth : Option Nat
  inheritanceDepth : Option Nat
  loopIterations : Option Nat

namespace Layer

def empty : Layer := ⟨none, none, none, none, none, none, none, none⟩

def above (upper lower : Layer) : Layer where
  views := upper.views.or lower.views
  cache := upper.cache.or lower.cache
  suffix := upper.suffix.or lower.suffix
  format := upper.format.or lower.format
  strictBlocks := upper.strictBlocks.or lower.strictBlocks
  includeDepth := upper.includeDepth.or lower.includeDepth
  inheritanceDepth := upper.inheritanceDepth.or lower.inheritanceDepth
  loopIterations := upper.loopIterations.or lower.loopIterations

def onto (layer : Layer) (config : Config) : Config where
  views := layer.views.getD config.views
  cache := layer.cache.getD config.cache
  suffix := layer.suffix.getD config.suffix
  format := layer.format.getD config.format
  limits :=
    { strictBlocks := layer.strictBlocks.getD config.limits.strictBlocks
      includeDepth := layer.includeDepth.getD config.limits.includeDepth
      inheritanceDepth := layer.inheritanceDepth.getD config.limits.inheritanceDepth
      loopIterations := layer.loopIterations.getD config.limits.loopIterations }

def directories (views cache : Option String) : Layer := { empty with views, cache }

def ofEnvironment (lookup : String → Option String) : Layer :=
  directories ((lookup Config.viewsVariable).filter (· != "")) ((lookup Config.cacheVariable).filter (· != ""))

def format? : Setting → Option Template.EchoFormat
  | .string s => Template.EchoFormat.ofText? s.toList
  | _ => none

def ofSetting (key : String) (setting : Setting) : Layer where
  views := if key = "views_dir" then Config.text? setting else none
  cache := if key = "cache_dir" then Config.text? setting else none
  suffix := if key = "suffix" then Config.text? setting else none
  format := if key = "echo_format" then format? setting else none
  strictBlocks := if key = "strict_blocks" then Config.flag? setting else none
  includeDepth := if key = Limit.includeDepth.key then Config.count? setting else none
  inheritanceDepth := if key = Limit.inheritanceDepth.key then Config.count? setting else none
  loopIterations := if key = Limit.loopIterations.key then Config.count? setting else none

def ofSettings : List (String × Setting) → Layer
  | [] => empty
  | (key, setting) :: rest => (ofSettings rest).above (ofSetting key setting)

variable (upper lower : Layer) (config : Config)

theorem onto_empty : empty.onto config = config := rfl

theorem onto_above : (upper.above lower).onto config = upper.onto (lower.onto config) := by
  simp only [above, onto, Option.getD_or]

theorem onto_directories (views cache : Option String) :
    (directories views cache).onto config = config.withDirectories views cache := rfl

theorem onto_environment (lookup : String → Option String) :
    (ofEnvironment lookup).onto config = config.withEnvironment lookup := rfl

end Layer

namespace Config

variable {config next : Config}

theorem orRefused_eq_ok (result : Option Config) : orRefused result = .ok next ↔ result = some next := by
  cases result with
  | none => constructor <;> intro said <;> cases said
  | some other => exact ⟨fun said => congrArg some (Except.ok.inj said), fun said => congrArg _ (Option.some.inj said)⟩

theorem setFormat_eq_ok (setting : Setting) (said : config.setFormat setting = .ok next) :
    ∃ format, Layer.format? setting = some format ∧ next = { config with format } := by
  cases setting with
  | string s =>
      rw [setFormat] at said
      cases found : Template.EchoFormat.ofText? s.toList with
      | none =>
          rw [found] at said
          cases said
      | some format =>
          rw [found] at said
          exact ⟨format, found, (Except.ok.inj said).symm⟩
  | _ => cases said

theorem onto_setting (key : String) (setting : Setting) (said : config.set key setting = .ok next) :
    next = (Layer.ofSetting key setting).onto config := by
  dsimp only [set] at said
  split at said
  · rename_i same
    obtain ⟨format, found, rfl⟩ := setFormat_eq_ok setting said
    simp [Layer.ofSetting, Layer.onto, Limit.key, same, found]
  · rw [orRefused_eq_ok] at said
    split_ifs at said with views cache suffix strict inclusion inheritance loop
    all_goals
      obtain ⟨value, found, rfl⟩ := Option.map_eq_some_iff.mp said
      simp_all [Layer.ofSetting, Layer.onto, Limit.key]

theorem onto_settings (settings : List (String × Setting)) (said : config.setAll settings = .ok next) :
    next = (Layer.ofSettings settings).onto config := by
  induction settings generalizing config with
  | nil => exact (Except.ok.inj said).symm
  | cons entry rest ih =>
      obtain ⟨key, setting⟩ := entry
      rw [setAll] at said
      split at said
      · rename_i between set
        rw [Layer.ofSettings, Layer.onto_above, ← onto_setting key setting set]
        exact ih said
      · cases said

theorem validate_eq_ok : config.validate = .ok next ↔ config.fault? = none ∧ next = config := by
  rw [validate]
  cases config.fault? with
  | none => exact ⟨fun passed => ⟨rfl, (Except.ok.inj passed).symm⟩, fun ⟨_, same⟩ => congrArg _ same.symm⟩
  | some fault =>
      refine ⟨fun passed => ?_, fun ⟨passed, _⟩ => ?_⟩
      · cases passed
      · cases passed

theorem fault_eq_none :
    config.fault? = none ↔ config.views ≠ "" ∧ config.cache ≠ "" ∧
      config.suffix.toList.any isSeparator = false ∧ limitFault? config.limits = none := by
  rw [fault?]
  by_cases views : config.views = ""
  · simp [views]
  · by_cases cache : config.cache = ""
    · simp [views, cache]
    · rw [if_neg views, if_neg cache]
      cases config.suffix.toList.any isSeparator <;> simp [views, cache]

variable (tree : FileTree) (lookup : String → Option String) (path : String)

def Says (layer : Layer) : Prop :=
  ∃ text settings config, tree.readText path = .ok text ∧ Toml.document? text = some settings ∧
    standard.setAll settings = .ok config ∧ layer = Layer.ofSettings settings

theorem read_eq_ok : read tree path = .ok config ↔ ∃ layer, Says tree path layer ∧ config = layer.onto standard := by
  rw [read]
  cases found : tree.readText path with
  | error fault =>
      refine ⟨fun done => ?_, fun ⟨_, ⟨text, _, _, other, _⟩, _⟩ => ?_⟩
      · cases done
      · cases found.symm.trans other
  | ok text =>
      rw [mapError_eq_ok, ofDocument]
      cases parsed : Toml.document? text with
      | none =>
          refine ⟨fun done => ?_, fun ⟨_, ⟨_, settings, _, other, parsed', _⟩, _⟩ => ?_⟩
          · cases done
          · cases found.symm.trans other
            cases parsed.symm.trans parsed'
      | some settings =>
          constructor
          · exact fun said => ⟨_, ⟨text, settings, config, found, parsed, said, rfl⟩, onto_settings settings said⟩
          · rintro ⟨_, ⟨text', settings', config', found', parsed', said, rfl⟩, rfl⟩
            cases found.symm.trans found'
            cases parsed.symm.trans parsed'
            rw [← onto_settings settings said]
            exact said

theorem load_eq_ok :
    load tree lookup path = .ok config ↔
      ∃ layer, Says tree path layer ∧ config = ((Layer.ofEnvironment lookup).above layer).onto standard ∧
        config.fault? = none := by
  rw [load, bind_eq_ok]
  constructor
  · rintro ⟨file, found, passed⟩
    obtain ⟨layer, stated, rfl⟩ := (read_eq_ok tree path).mp found
    obtain ⟨valid, rfl⟩ := validate_eq_ok.mp ((mapError_eq_ok _ _ _).mp passed)
    exact ⟨layer, stated, by rw [Layer.onto_above, Layer.onto_environment], valid⟩
  · rintro ⟨layer, stated, rfl, valid⟩
    refine ⟨layer.onto standard, (read_eq_ok tree path).mpr ⟨layer, stated, rfl⟩, (mapError_eq_ok _ _ _).mpr ?_⟩
    rw [Layer.onto_above, Layer.onto_environment] at valid ⊢
    exact validate_eq_ok.mpr ⟨valid, rfl⟩

end Config

namespace Command.Call

open Config (standard)

variable (call : Call) (world : World)

def file? : Option String :=
  call.config.or (if world.tree.isFile defaultConfigFile then some defaultConfigFile else none)

def Says (file : Layer) : Prop :=
  match call.file? world with
  | some path => Config.Says world.tree path file
  | none => file = .empty

def settled (file : Layer) : Config := ((Layer.ofEnvironment world.lookup).above file).onto standard

def layered (file : Layer) : Config :=
  ((Layer.directories call.views call.cache).above ((Layer.ofEnvironment world.lookup).above file)).onto standard

variable {call world} {file : Layer}

theorem layered_eq : call.layered world file = (settled world file).withDirectories call.views call.cache := by
  rw [layered, Layer.onto_above, Layer.onto_directories, settled]

theorem config_eq :
    call.config? world = (match call.file? world with
      | some path => Config.load world.tree world.lookup path
      | none => .ok (settled world .empty)) >>= fun base =>
        (base.withDirectories call.views call.cache).validate.mapError .invalid := by
  rw [config?, file?, settled, Layer.onto_above, Layer.onto_empty, Layer.onto_environment]
  cases call.config with
  | some path => rfl
  | none =>
      dsimp only [Option.none_or]
      split <;> rfl

theorem config_eq_ok (config : Config) :
    call.config? world = .ok config ↔
      ∃ file, call.Says world file ∧ (call.file? world ≠ none → (settled world file).fault? = none) ∧
        (call.layered world file).fault? = none ∧ config = call.layered world file := by
  rw [config_eq, bind_eq_ok]
  simp only [mapError_eq_ok, Config.validate_eq_ok, layered_eq, Says]
  cases call.file? world with
  | none =>
      constructor
      · rintro ⟨base, standing, valid, same⟩
        obtain rfl := Except.ok.inj standing
        exact ⟨.empty, rfl, fun some => absurd rfl some, valid, same⟩
      · rintro ⟨_, rfl, _, valid, same⟩
        exact ⟨_, rfl, valid, same⟩
  | some path =>
      constructor
      · rintro ⟨base, loaded, valid, same⟩
        obtain ⟨file, stated, rfl, early⟩ := (Config.load_eq_ok _ _ _).mp loaded
        exact ⟨file, stated, fun _ => early, valid, same⟩
      · rintro ⟨file, stated, early, valid, same⟩
        have early' := early (Option.some_ne_none path)
        exact ⟨_, (Config.load_eq_ok _ _ _).mpr ⟨file, stated, rfl, early'⟩, valid, same⟩

-- What the command line says is about the two directories only.
theorem settled_fault (valid : (call.layered world file).fault? = none) :
    (settled world file).fault? = none ↔ (settled world file).views ≠ "" ∧ (settled world file).cache ≠ "" := by
  rw [layered_eq, Config.fault_eq_none] at valid
  obtain ⟨_, _, suffix, limits⟩ := valid
  rw [Config.fault_eq_none]
  exact ⟨fun ⟨views, cache, _⟩ => ⟨views, cache⟩, fun ⟨views, cache⟩ => ⟨views, cache, suffix, limits⟩⟩

theorem said_unique (other : Layer) (stated : call.Says world file) (stated' : call.Says world other) :
    file = other := by
  rw [Says] at stated stated'
  cases named : call.file? world with
  | none =>
      rw [named] at stated stated'
      rw [stated, stated']
  | some path =>
      rw [named] at stated stated'
      obtain ⟨text, settings, _, found, parsed, _, rfl⟩ := stated
      obtain ⟨text', settings', _, found', parsed', _, rfl⟩ := stated'
      cases found.symm.trans found'
      cases parsed.symm.trans parsed'
      rfl

/-- A call gets its configuration exactly if the layered one passes the check and, in case a file was read, it also
passed before the command line was added; it then gets the layered one. With a layered configuration that passes this
fails only where the file leaves a directory empty that the environment does not name and the command line does. -/
theorem config_layered (call : Call) (world : World) :
    (∀ config, call.config? world = .ok config ↔
      ∃ file, call.Says world file ∧ (call.file? world ≠ none → (settled world file).fault? = none) ∧
        (call.layered world file).fault? = none ∧ config = call.layered world file) ∧
    ∀ file, call.Says world file → (call.layered world file).fault? = none →
      ((∀ config, call.config? world ≠ .ok config) ↔
        call.file? world ≠ none ∧ ((settled world file).views = "" ∨ (settled world file).cache = "")) := by
  refine ⟨config_eq_ok, fun file stated valid => ?_⟩
  constructor
  · intro refused
    by_cases early : call.file? world ≠ none → (settled world file).fault? = none
    · exact absurd ((config_eq_ok _).mpr ⟨file, stated, early, valid, rfl⟩) (refused _)
    · obtain ⟨found, fault⟩ := Classical.not_imp.mp early
      rw [settled_fault valid, Classical.not_and_iff_not_or_not, Decidable.not_not, Decidable.not_not] at fault
      exact ⟨found, fault⟩
  · rintro ⟨found, empty⟩ config given
    obtain ⟨other, stated', early, _, _⟩ := (config_eq_ok config).mp given
    obtain rfl := said_unique other stated stated'
    obtain ⟨views, cache⟩ := (settled_fault valid).mp (early found)
    exact empty.elim views cache

def pages : Call where
  verbose := false
  quiet := false
  config := none
  views := some "pages"
  cache := none
  task := .clear

def unnamed : World where
  tree := ⟨[(["vellum.toml"], .file (some "views_dir = \"\"\n") 1000)]⟩
  lookup _ := none
  now := 2000

/-- The command line names the views, and what was layered together passes the check. But the file alone does not. -/
theorem refused_before_directories :
    ∃ file, pages.Says unnamed file ∧ pages.layered unnamed file = { standard with views := "pages" } ∧
      (pages.layered unnamed file).validate = .ok { standard with views := "pages" } ∧
      ∀ config, pages.config? unnamed ≠ .ok config := by
  have named : pages.file? unnamed = some "vellum.toml" := by decide +kernel
  have found : unnamed.tree.readText "vellum.toml" = .ok "views_dir = \"\"\n" := ok_of_toOption _ _ (by decide +kernel)
  have parsed : Toml.document? "views_dir = \"\"\n" = some [("views_dir", .string "")] := by decide +kernel
  have said : Config.standard.setAll [("views_dir", .string "")] = .ok { standard with views := "" } := by rfl
  have stated : pages.Says unnamed (Layer.ofSettings [("views_dir", .string "")]) := by
    rw [Says, named]
    exact ⟨_, _, _, found, parsed, said, rfl⟩
  refine ⟨_, stated, rfl, Config.validate_eq_ok.mpr ⟨by decide +kernel, rfl⟩, fun config given => ?_⟩
  obtain ⟨file, stated', early, _⟩ := (config_eq_ok config).mp given
  obtain rfl := said_unique file stated stated'
  exact absurd (early (by rw [named]; exact Option.some_ne_none _)) (by decide +kernel)

end Command.Call

end Stencil
