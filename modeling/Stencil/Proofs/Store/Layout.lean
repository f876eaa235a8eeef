import Stencil.Config.Basic
import Stencil.Proofs.Store.Names
import Stencil.Proofs.Store.Tree

set_option autoImplicit false

namespace Stencil

open FileTree

open TemplateName (Plain splitAt isSeparator splitAt_ne mem_splitAt alphabet_apart)

open TemplateName.path (joinAll)

structure Directories where
  views : String
  cache : String

inductive Slot where
  | template (name : String)
  | artifact (key : String)
  | lock (key : String)
deriving DecidableEq

def Slot.mark : Slot → Char
  | .template _ => 'l'
  | .artifact _ => 'n'
  | .lock _ => 'k'

namespace Directories

variable (directories : Directories)

def parts (name : String) : List String := (splitAt isSeparator name.toList).map String.ofList

def directory : Slot → List String
  | .template name => spelled directories.views ++ (parts name).dropLast
  | .artifact _ => spelled directories.cache
  | .lock _ => spelled directories.cache ++ [".locks"]

def file : Slot → String
  | .template name => (parts name).getLastD "" ++ Config.standard.suffix
  | .artifact key => key ++ ".json"
  | .lock key => key ++ ".lock"

def names (slot : Slot) : List String := directories.directory slot ++ [file slot]

def place (slot : Slot) : Location := walk [] (directories.directory slot) ++ [file slot]

def folder : Slot → String
  | .template name => joinAll directories.views (parts name).dropLast
  | .artifact _ => directories.cache
  | .lock _ => joinPath directories.cache ".locks"

def path (slot : Slot) : String := joinPath (directories.folder slot) (file slot)

structure Usable (name : String) : Prop where
  plain : Plain name
  fits : Fits (directories.names (.template name))
  short : (directories.path (.template name)).utf8ByteSize < pathLimit

instance (name : String) : Decidable (directories.Usable name) :=
  decidable_of_iff (Plain name ∧ Fits (directories.names (.template name)) ∧
    (directories.path (.template name)).utf8ByteSize < pathLimit)
    ⟨fun all => ⟨all.1, all.2.1, all.2.2⟩, fun usable => ⟨usable.plain, usable.fits, usable.short⟩⟩

def Good : Slot → Prop
  | .template name => directories.Usable name
  | .artifact key | .lock key => Digest.Key key

def way (path : String) : List Location := before [] (spelled path) ++ [walk [] (spelled path)]

end Directories

-- Directories that can be made, with paths that do not pass a place of a file. That is so where neither directory
-- lies in the other and their paths never turn back.
structure Layout extends Directories where
  viewsFound : views ≠ ""
  cacheFound : cache ≠ ""
  viewsNulless : '\x00' ∉ views.toList
  cacheNulless : '\x00' ∉ cache.toList
  fits : Fits (spelled cache)
  room : cache.utf8ByteSize + 77 < pathLimit
  clear : ∀ slot, toDirectories.Good slot →
    toDirectories.place slot ∉ Directories.way views ++ Directories.way cache

namespace Directories

section Names

theorem parts_plain (name : String) (plain : Plain name) :
    ∀ part ∈ parts name, FileTree.Names part ∧ '.' ∉ part.toList := by
  intro part inside
  obtain ⟨segment, member, rfl⟩ := List.mem_map.mp inside
  have within := mem_splitAt _ _ segment member
  have dotless : '.' ∉ segment := fun dot => by
    have kept := (within '.' dot).2
    exact absurd kept (by decide)
  have apart := fun c here => alphabet_apart c (plain.alphabet c (within c here).1)
  have text : (String.ofList segment).toList = segment := String.toList_ofList
  refine ⟨⟨?_, ?_, ?_, ?_, ?_⟩, by rwa [text]⟩
  · exact fun slash => (apart '/' (text ▸ slash)).1 rfl
  · exact fun nul => (apart '\x00' (text ▸ nul)).2.2.2 rfl
  · intro empty
    have nothing : segment = [] := by rw [← text, empty]; rfl
    exact plain.segments (nothing ▸ member)
  · intro here
    exact dotless (by rw [← text, here]; decide)
  · intro above
    exact dotless (by rw [← text, above]; decide)

theorem dirs_plain (name : String) (plain : Plain name) :
    ∀ part ∈ (parts name).dropLast, FileTree.Names part ∧ '.' ∉ part.toList :=
  fun part inside => parts_plain name plain part ((List.dropLast_sublist _).subset inside)

theorem parts_split (name : String) : parts name = (parts name).dropLast ++ [(parts name).getLastD ""] := by
  have filled : parts name ≠ [] := by
    rw [parts, ne_eq, List.map_eq_nil_iff]
    exact splitAt_ne _ _
  rw [List.getLastD_eq_getLast?, List.getLast?_eq_some_getLast filled, Option.getD_some,
    List.dropLast_concat_getLast]

theorem names_long (name : String) (slashless : '/' ∉ name.toList) (nulless : '\x00' ∉ name.toList)
    (long : 2 < name.toList.length) : FileTree.Names name := by
  refine ⟨slashless, nulless, ?_, ?_, ?_⟩
  · rintro rfl
    exact absurd long (by decide)
  · rintro rfl
    exact absurd long (by decide)
  · rintro rfl
    exact absurd long (by decide)

theorem names_locks : FileTree.Names ".locks" := names_long _ (by decide) (by decide) (by decide)

theorem names_key (key : String) (good : Digest.Key key) (ending : String) (slashless : '/' ∉ ending.toList)
    (nulless : '\x00' ∉ ending.toList) (long : 2 < ending.toList.length) : FileTree.Names (key ++ ending) := by
  have digits : ∀ c, Digest.isDigit c = false → c ∉ key.toList := fun c other inside =>
    absurd ((good.digits c inside).symm.trans other) (by decide)
  refine names_long _ ?_ ?_ ?_
  · simp [slashless, digits '/' (by decide)]
  · simp [nulless, digits '\x00' (by decide)]
  · rw [String.toList_append, List.length_append]
    omega

theorem dot_file (slot : Slot) : '.' ∈ (file slot).toList := by
  cases slot <;> simp [file, Config.standard]

theorem last_file (slot : Slot) : (file slot).toList.getLast? = some slot.mark := by
  cases slot <;> simp [file, Slot.mark, Config.standard, List.getLast?_append]

variable {directories : Directories} {slot : Slot} (good : directories.Good slot)

include good

theorem names_file : FileTree.Names (file slot) := by
  cases slot with
  | template name =>
      have last := (parts_plain name good.plain ((parts name).getLastD "") (by
        rw [parts_split name]
        simp)).1
      refine names_long _ ?_ ?_ ?_
      · simpa [file, Config.standard] using last.slashless
      · simpa [file, Config.standard] using last.nulless
      · simp only [file, Config.standard, String.toList_append, List.length_append]
        exact Nat.lt_of_lt_of_le (by decide) (Nat.le_add_left _ _)
  | artifact key => exact names_key key good ".json" (by decide) (by decide) (by decide)
  | lock key => exact names_key key good ".lock" (by decide) (by decide) (by decide)

theorem walk_slot : walk [] (directories.names slot) = directories.place slot := by
  rw [Directories.names, walk_append, place]
  exact if_neg (names_file good).notParent

theorem place_inside : (directories.place slot).all isOutside = false := by
  have named := names_file good
  have slash : file slot ≠ "/" := fun same => named.slashless (by rw [same]; decide)
  simp [place, isOutside, named.notParent, slash]

end Names

section Roots

variable (directories : Directories)

theorem place_template (name : String) (good : directories.Good (.template name)) : directories.place (.template name)
    = walk [] (spelled directories.views) ++ ((parts name).dropLast ++ [file (.template name)]) := by
  have straight : ".." ∉ (parts name).dropLast := fun above => (dirs_plain name good.plain ".." above).1.notParent rfl
  rw [place, directory, walk_append, walk_names _ _ straight, List.append_assoc]

theorem place_artifact (key : String) :
    directories.place (.artifact key) = walk [] (spelled directories.cache) ++ [key ++ ".json"] := rfl

theorem place_lock (key : String) :
    directories.place (.lock key) = walk [] (spelled directories.cache) ++ [".locks", key ++ ".lock"] := by
  have straight : ".." ∉ [".locks"] := by decide
  rw [place, directory, walk_append, walk_names _ _ straight, List.append_assoc]
  rfl

end Roots

theorem before_slot (directories : Directories) (slot : Slot) : before [] (directories.names slot)
    = before [] (directories.directory slot) ++ [walk [] (directories.directory slot)] := before_append ..

theorem mem_before (location place : Location) (names : List String) (straight : ".." ∉ names)
    (inside : place ∈ before location names ++ [walk location names]) :
    place = location ∨ ∃ rest, ∃ part ∈ names, place = rest ++ [part] := by
  induction names generalizing location with
  | nil => exact .inl (List.mem_singleton.mp inside)
  | cons name rest ih =>
      obtain ⟨first, others⟩ := List.ne_and_not_mem_of_not_mem_cons straight
      have step : turn location name = location ++ [name] := if_neg (Ne.symm first)
      rcases List.mem_cons.mp inside with here | later
      · exact .inl here
      · rcases ih (turn location name) others later with same | ⟨before, part, member, same⟩
        · exact .inr ⟨location, name, List.mem_cons_self, same.trans step⟩
        · exact .inr ⟨before, part, List.mem_cons_of_mem _ member, same⟩

end Directories

namespace Layout

open Directories

variable (layout : Layout) {slot : Slot} (good : layout.Good slot)

include good

theorem spelled_folder : spelled (layout.folder slot) = layout.directory slot := by
  cases slot with
  | template name =>
      refine TemplateName.path.spelled_joinAll _ layout.viewsFound _ fun part inside => ?_
      exact (dirs_plain name good.plain part inside).1.component
  | artifact key => rfl
  | lock key => exact spelled_joinPath _ _ layout.cacheFound names_locks.component

theorem folder_ne : layout.folder slot ≠ "" := by
  cases slot with
  | template name =>
      refine TemplateName.path.joinAll_ne _ layout.viewsFound _ fun part inside => ?_
      exact (dirs_plain name good.plain part inside).1.component
  | artifact key => exact layout.cacheFound
  | lock key => exact joinPath_ne _ _ names_locks.component

theorem nul_folder : '\x00' ∉ (layout.folder slot).toList := by
  cases slot with
  | template name =>
      refine TemplateName.path.nul_joinAll _ _ (fun part inside => ?_) layout.viewsNulless
      exact (dirs_plain name good.plain part inside).1
  | artifact key => exact layout.cacheNulless
  | lock key => exact nul_joinPath _ _ layout.cacheNulless names_locks

theorem size_path : (layout.path slot).utf8ByteSize < pathLimit := by
  have room := layout.room
  cases slot with
  | template name => exact good.short
  | artifact key =>
      have whole := size_joinPath layout.cache (key ++ ".json")
      have ending : ".json".utf8ByteSize = 5 := rfl
      rw [Digest.size_key key _ good, ending] at whole
      exact Nat.lt_of_le_of_lt whole (by omega)
  | lock key =>
      have inner := size_joinPath layout.cache ".locks"
      have whole := size_joinPath (joinPath layout.cache ".locks") (key ++ ".lock")
      have middle : ".locks".utf8ByteSize = 6 := rfl
      have ending : ".lock".utf8ByteSize = 5 := rfl
      rw [middle] at inner
      rw [Digest.size_key key _ good, ending] at whole
      exact Nat.lt_of_le_of_lt whole (by omega)

theorem names_path : FileTree.names (layout.path slot) = .ok (layout.names slot) := by
  have named := names_file good
  have found := folder_ne layout good
  have nulless := nul_joinPath _ _ (nul_folder layout good) named
  rw [names_eq_ok (layout.path slot) (joinPath_ne _ _ named.component) nulless (size_path layout good), path,
    spelled_joinPath _ _ found named.component, spelled_folder layout good, Directories.names]

theorem names_folder : FileTree.names (layout.folder slot) = .ok (layout.directory slot) := by
  have short := Nat.lt_of_le_of_lt (le_joinPath (layout.folder slot) (file slot)) (size_path layout good)
  rw [names_eq_ok _ (folder_ne layout good) (nul_folder layout good) short, spelled_folder layout good]

omit good in
theorem names_cache : FileTree.names layout.cache = .ok (spelled layout.cache) := by
  have short : layout.cache.utf8ByteSize < pathLimit := Nat.lt_of_le_of_lt (Nat.le_add_right _ _) layout.room
  exact names_eq_ok _ layout.cacheFound layout.cacheNulless short

theorem fits_names : Fits (layout.names slot) := by
  cases slot with
  | template name => exact good.fits
  | artifact key =>
      refine List.forall_mem_append.mpr ⟨layout.fits, fun name inside => .inr ?_⟩
      obtain rfl := List.mem_singleton.mp inside
      rw [file, Digest.size_key key _ good]
      decide
  | lock key =>
      refine List.forall_mem_append.mpr ⟨List.forall_mem_append.mpr ⟨layout.fits, fun name inside => .inr ?_⟩,
        fun name inside => .inr ?_⟩
      · obtain rfl := List.mem_singleton.mp inside
        decide
      · obtain rfl := List.mem_singleton.mp inside
        rw [file, Digest.size_key key _ good]
        decide

theorem mem_ways (place : Location) (inside : place ∈ before [] (layout.names slot)) :
    place ∈ way layout.views ++ way layout.cache ∨
      ∃ rest part, place = rest ++ [part] ∧ ('.' ∉ part.toList ∨ part = ".locks") := by
  rw [before_slot] at inside
  cases slot with
  | template name =>
      have plain := dirs_plain name good.plain
      rw [directory, before_append, walk_append, List.append_assoc] at inside
      rcases List.mem_append.mp inside with early | late
      · exact .inl (List.mem_append_left _ (List.mem_append_left _ early))
      · have straight : ".." ∉ (parts name).dropLast := fun above => (plain ".." above).1.notParent rfl
        rcases mem_before _ place _ straight late with rfl | ⟨rest, part, member, same⟩
        · exact .inl (List.mem_append_left _ (List.mem_append_right _ (List.mem_singleton.mpr rfl)))
        · exact .inr ⟨rest, part, same, .inl (plain part member).2⟩
  | artifact key => exact .inl (List.mem_append_right _ inside)
  | lock key =>
      rw [directory, before_append, walk_append, List.append_assoc] at inside
      rcases List.mem_append.mp inside with early | late
      · exact .inl (List.mem_append_right _ (List.mem_append_left _ early))
      · rcases mem_before _ place _ (by decide) late with rfl | ⟨rest, part, member, same⟩
        · exact .inl (List.mem_append_right _ (List.mem_append_right _ (List.mem_singleton.mpr rfl)))
        · exact .inr ⟨rest, part, same, .inr (List.mem_singleton.mp member)⟩

theorem place_apart (other : Slot) (good' : layout.Good other) :
    layout.place other ∉ before [] (layout.names slot) := by
  intro inside
  rcases mem_ways layout good _ inside with crossed | ⟨rest, part, same, dotless | locks⟩
  · exact layout.clear other good' crossed
  · obtain ⟨_, rfl⟩ := List.append_inj' same rfl |>.imp id List.singleton_inj.mp
    exact dotless (dot_file other)
  · obtain ⟨_, ends⟩ := List.append_inj' same rfl |>.imp id List.singleton_inj.mp
    have last := last_file other
    have text : ".locks".toList.getLast? = some 's' := by decide
    rw [ends, locks, text] at last
    cases other <;> simp [Slot.mark] at last

theorem place_injective (other : Slot) (good' : layout.Good other) (same : layout.place slot = layout.place other) :
    slot = other := by
  obtain ⟨_, files⟩ := List.append_inj' same rfl |>.imp id List.singleton_inj.mp
  have marks : slot.mark = other.mark := by
    have last := last_file slot
    rw [files, last_file other] at last
    exact (Option.some.inj last).symm
  cases slot with
  | template name =>
      cases other with
      | template name' =>
          rw [place_template _ name good, place_template _ name' good', List.append_cancel_left_eq] at same
          obtain ⟨dirs, _⟩ := List.append_inj' same rfl
          have ends : (parts name).getLastD "" = (parts name').getLastD "" := (String.append_left_inj _).mp files
          have whole : parts name = parts name' := by
            rw [parts_split name, parts_split name', dirs, ends]
          refine congrArg Slot.template (TemplateName.plain_ext good.plain name' good'.plain ?_)
          exact (List.map_inj_right fun _ _ same => String.ofList_injective same).mp whole
      | artifact _ | lock _ => simp [Slot.mark] at marks
  | artifact key =>
      cases other with
      | artifact key' => exact congrArg Slot.artifact ((String.append_left_inj _).mp files)
      | template _ | lock _ => simp [Slot.mark] at marks
  | lock key =>
      cases other with
      | lock key' => exact congrArg Slot.lock ((String.append_left_inj _).mp files)
      | template _ | artifact _ => simp [Slot.mark] at marks

end Layout

section Apart

theorem length_turn (location : Location) (name : String) : (turn location name).length ≤ location.length + 1 := by
  rw [turn]
  split
  · rw [parent]
    split
    · simp
    · simp
    · omega
    · rw [List.length_dropLast]
      omega
  · simp

theorem turn_longer (location : Location) (name : String) (longer : (turn location name).length = location.length + 1) :
    turn location name = location ++ [name] := by
  by_cases up : name = ".."
  · subst up
    rw [turn, if_pos rfl] at longer ⊢
    rw [parent] at longer ⊢
    split
    · rename_i none
      rw [List.getLast?_eq_none_iff.mp none]
      rfl
    · rfl
    · rename_i root
      rw [root] at longer
      simp at longer
    · rename_i last _ _ found
      rw [found] at longer
      simp only [List.length_dropLast] at longer
      omega
  · exact if_neg up

theorem length_walk (location : Location) (names : List String) :
    (walk location names).length ≤ location.length + names.length := by
  induction names generalizing location with
  | nil => exact Nat.le_refl _
  | cons name rest ih =>
      have step := length_turn location name
      have later := ih (turn location name)
      rw [List.length_cons]
      exact Nat.le_trans later (by omega)

-- A path that never turns back passes only the beginnings of where it leads to.
theorem prefix_of_straight (location place : Location) (names : List String)
    (straight : (walk location names).length = location.length + names.length)
    (inside : place ∈ before location names ++ [walk location names]) : place <+: location ++ names := by
  induction names generalizing location with
  | nil =>
      obtain rfl := List.mem_singleton.mp inside
      exact List.prefix_append _ _
  | cons name rest ih =>
      have step := length_turn location name
      have later := length_walk (turn location name) rest
      rw [List.length_cons] at straight
      have longer : (turn location name).length = location.length + 1 := by
        have whole : (walk (turn location name) rest).length = location.length + (rest.length + 1) := straight
        omega
      have turned := turn_longer location name longer
      rcases List.mem_cons.mp inside with rfl | below
      · exact List.prefix_append _ _
      · have reached := ih (turn location name) (straight.trans (by omega)) below
        rwa [turned, List.append_assoc] at reached

def Straight (path : String) : Prop := walk [] (spelled path) = spelled path

theorem prefix_of_way (path : String) (straight : Straight path) (place : Location)
    (inside : place ∈ Directories.way path) : place <+: walk [] (spelled path) := by
  rw [straight]
  refine prefix_of_straight [] place (spelled path) ?_ inside
  rw [straight]
  exact (Nat.zero_add _).symm

theorem not_prefix_longer (place rest : Location) (some : rest ≠ []) : ¬ place ++ rest <+: place := by
  intro inside
  have shorter := inside.length_le
  have filled := List.length_pos_iff.mpr some
  rw [List.length_append] at shorter
  omega

theorem clear_of_apart (directories : Directories) (viewsStraight : Straight directories.views)
    (cacheStraight : Straight directories.cache)
    (viewsApart : ¬ walk [] (spelled directories.views) <+: walk [] (spelled directories.cache))
    (cacheApart : ¬ walk [] (spelled directories.cache) <+: walk [] (spelled directories.views)) (slot : Slot)
    (good : directories.Good slot) :
    directories.place slot ∉ Directories.way directories.views ++ Directories.way directories.cache := by
  intro crossed
  have reached : directories.place slot <+: walk [] (spelled directories.views) ∨
      directories.place slot <+: walk [] (spelled directories.cache) := by
    rcases List.mem_append.mp crossed with views | cache
    · exact .inl (prefix_of_way _ viewsStraight _ views)
    · exact .inr (prefix_of_way _ cacheStraight _ cache)
  have away : ∀ rest, rest ≠ [] → directories.place slot ≠ walk [] (spelled directories.cache) ++ rest := by
    intro rest some same
    rw [same] at reached
    rcases reached with views | cache
    · exact cacheApart ((List.prefix_append _ _).trans views)
    · exact not_prefix_longer _ rest some cache
  cases slot with
  | template name =>
      rw [Directories.place_template directories name good] at reached
      rcases reached with views | cache
      · exact not_prefix_longer _ _ (by simp) views
      · exact viewsApart ((List.prefix_append _ _).trans cache)
  | artifact key => exact away _ (by simp) (directories.place_artifact key)
  | lock key => exact away _ (by simp) (directories.place_lock key)

end Apart

end Stencil
