import Stencil.Proofs.Store.Contents

set_option autoImplicit false

namespace Stencil

open FileTree Directories

namespace FileTree

def filesAt (tree : FileTree) (location : Location) : List String :=
  tree.items.filterMap fun (other, item) =>
    match item, other.getLast? with
    | .file _ _, some name => if other.dropLast = location then some name else none
    | _, _ => none

def removeAll (tree : FileTree) (location : Location) (names : List String) : FileTree :=
  names.foldl (fun tree name => tree.remove (location ++ [name])) tree

variable (location : Location) {tree : FileTree}

theorem named_of_place (place : Location) (item : Item) (name : String)
    (named : (match item, place.getLast? with
      | .file _ _, some name => if place.dropLast = location then some name else none
      | _, _ => none) = some name) : place = location ++ [name] ∧ ∃ text modified, item = .file text modified := by
  split at named
  · rename_i text modified last found
    split at named
    · rename_i inside
      obtain rfl := Option.some.inj named
      obtain ⟨before, rfl⟩ := List.getLast?_eq_some_iff.mp found
      rw [List.dropLast_concat] at inside
      exact ⟨by rw [inside], text, modified, rfl⟩
    · cases named
  · cases named

theorem mem_filesAt (proper : tree.Proper) (name : String) :
    name ∈ tree.filesAt location ↔ ∃ text modified, tree.find? (location ++ [name]) = some (.file text modified) := by
  rw [filesAt, List.mem_filterMap]
  constructor
  · rintro ⟨⟨place, item⟩, inside, named⟩
    obtain ⟨rfl, text, modified, rfl⟩ := named_of_place location place item name named
    exact ⟨text, modified, ((mem_items proper _ _).mp inside).2⟩
  · rintro ⟨text, modified, found⟩
    have inside := inside_of_file _ text modified found
    exact ⟨⟨_, _⟩, (mem_items proper _ _).mpr ⟨inside, found⟩, by simp⟩

theorem nodup_filesAt (proper : tree.Proper) : (tree.filesAt location).Nodup := by
  refine List.Pairwise.filterMap _ (fun one other apart name named name' named' same => ?_) proper.unique
  obtain ⟨here, _⟩ := named_of_place location one.1 one.2 name named
  obtain ⟨there, _⟩ := named_of_place location other.1 other.2 name' named'
  exact apart (by rw [here, there, same])

theorem filesIn_open (path : String) (located : tree.locate path = .ok location) (opens : tree.Opens location) :
    tree.filesIn path = .ok (tree.filesAt location) := by
  obtain ⟨modified, found⟩ := opens
  rw [filesIn, located]
  simp only [bind, Except.bind, found]
  rfl

theorem proper_removeAll (names : List String) (proper : tree.Proper) : (tree.removeAll location names).Proper := by
  induction names generalizing tree with
  | nil => exact proper
  | cons name _ ih => exact ih (proper_remove proper _)

theorem find_removeAll (tree : FileTree) (names : List String) (inside : ∀ name ∈ names, isOutside name = false)
    (place : Location) : (tree.removeAll location names).find? place
      = if place ∈ names.map (fun name => location ++ [name]) then none else tree.find? place := by
  induction names generalizing tree with
  | nil => rfl
  | cons name rest ih =>
      obtain ⟨first, others⟩ := List.forall_mem_cons.mp inside
      have removed := ih (tree.remove (location ++ [name])) others
      rw [find_remove tree (location ++ [name]) place (by simp [first])] at removed
      refine Eq.trans removed ?_
      by_cases here : place = location ++ [name]
      · simp [here]
      · simp [here]

end FileTree

namespace Layout

variable {layout : Layout} {contents : Contents} {files : Files} (keeps : layout.Keeps contents files.tree)

include keeps

theorem putFile_path {slot : Slot} (good : layout.Good slot) (now : Nat) (key text : String) :
    ∃ next, Files.putFile now key (layout.folder slot) (layout.path slot) text files
        = .ok () { files with tree := next } ∧
      layout.Keeps (contents.write slot text now) next := by
  obtain ⟨grown, made, grows⟩ := make_directory keeps good now
  refine ⟨_, ?_, keeps_put keeps good grows text now⟩
  have folder : files.tree.makeDirectory now (layout.folder slot) = .ok grown := by
    rw [makeDirectory, names_folder layout good]
    exact made
  have written := writeFile_path keeps good grows text now
  simp only [Files.putFile, bind, EStateM.bind, Files.change, folder, written]

theorem artifact_of_name (name : String) :
    name ∈ (files.tree.filesAt (walk [] (spelled layout.cache))).filter Files.isArtifact ↔
      ∃ key, Digest.Key key ∧ contents (.artifact key) ≠ none ∧ name = key ++ ".json" := by
  rw [List.mem_filter, mem_filesAt _ keeps.proper]
  constructor
  · rintro ⟨⟨text, modified, found⟩, artifact⟩
    obtain ⟨slot, good, place⟩ := keeps.only _ text modified found
    obtain ⟨_, named⟩ := List.append_inj' place rfl
    have named : file slot = name := List.singleton_inj.mp named
    have ending : ".json".toList <:+ name.toList := by
      rw [Files.isArtifact, Bool.and_eq_true] at artifact
      exact (endsWith_iff name ".json").mp artifact.1
    have last := last_file slot
    obtain ⟨before, text⟩ := ending
    have json : ".json".toList.getLast? = some 'n' := by decide
    rw [named, ← text, List.getLast?_append, json] at last
    cases slot with
    | artifact key =>
        refine ⟨key, good, fun absent => ?_, named.symm⟩
        have held := keeps.holds _ good
        rw [place, found, absent] at held
        cases held
    | template _ | lock _ => simp [Slot.mark] at last
  · rintro ⟨key, good, written, rfl⟩
    have held := keeps.holds (.artifact key) good
    rw [place_artifact] at held
    cases content : contents (.artifact key) with
    | none => exact absurd content written
    | some pair =>
        rw [content] at held
        refine ⟨⟨_, _, held⟩, ?_⟩
        have some : key ≠ "" := fun empty => by
          have size := good.size
          rw [empty] at size
          cases size
        rw [Files.isArtifact, Bool.and_eq_true, endsWith_iff, String.toList_append]
        exact ⟨List.suffix_append _ _, by simpa [String.append_eq_right_iff] using some⟩

theorem free_cache : files.tree.Free (way layout.cache) :=
  free_of_apart keeps _ fun slot good inside => layout.clear slot good (List.mem_append_right _ inside)

theorem keeps_removeAll : layout.Keeps contents.clear (files.tree.removeAll (walk [] (spelled layout.cache))
    ((files.tree.filesAt (walk [] (spelled layout.cache))).filter Files.isArtifact)) := by
  have named := artifact_of_name keeps
  generalize (files.tree.filesAt (walk [] (spelled layout.cache))).filter Files.isArtifact = names at named
  have inside : ∀ name ∈ names, isOutside name = false := by
    intro name member
    obtain ⟨key, good, _, rfl⟩ := (named name).mp member
    have apart : FileTree.Names (file (.artifact key)) := names_key key good ".json" (by decide) (by decide) (by decide)
    have slash : key ++ ".json" ≠ "/" := fun same => apart.slashless (by rw [file, same]; decide)
    have parent : key ++ ".json" ≠ ".." := apart.notParent
    simp [isOutside, slash, parent]
  have removed : ∀ place, place ∈ names.map (fun name => walk [] (spelled layout.cache) ++ [name]) ↔
      ∃ key, Digest.Key key ∧ contents (.artifact key) ≠ none ∧ place = layout.place (.artifact key) := by
    intro place
    rw [List.mem_map]
    constructor
    · rintro ⟨name, member, rfl⟩
      obtain ⟨key, good, written, rfl⟩ := (named name).mp member
      exact ⟨key, good, written, rfl⟩
    · rintro ⟨key, good, written, rfl⟩
      exact ⟨_, (named _).mpr ⟨key, good, written, rfl⟩, rfl⟩
  have find := find_removeAll (walk [] (spelled layout.cache)) files.tree names inside
  have kept : ∀ slot, layout.Good slot → contents.clear slot ≠ none → contents.clear slot = contents slot := by
    intro slot good written
    cases slot with
    | artifact key => exact absurd rfl written
    | template _ | lock _ => rfl
  have away : ∀ slot, layout.Good slot → contents.clear slot ≠ none →
      ∀ place ∈ before [] (layout.names slot),
        place ∉ names.map (fun name => walk [] (spelled layout.cache) ++ [name]) := by
    intro slot good _ place within gone
    obtain ⟨key, good', _, rfl⟩ := (removed place).mp gone
    exact place_apart layout good (.artifact key) good' within
  refine ⟨proper_removeAll _ _ keeps.proper, fun slot good => ?_, fun place text modified => ?_,
    fun slot good written place within => ?_⟩
  · rw [find]
    split
    · rename_i gone
      obtain ⟨key, good', _, same⟩ := (removed _).mp gone
      rw [place_injective layout good (.artifact key) good' same]
      rfl
    · rename_i still
      have held := keeps.holds slot good
      cases slot with
      | artifact key =>
          cases content : contents (.artifact key) with
          | none => rwa [content] at held
          | some pair =>
              have written : contents (.artifact key) ≠ none := by rw [content]; exact Option.some_ne_none pair
              exact absurd ((removed _).mpr ⟨key, good, written, rfl⟩) still
      | template _ | lock _ => exact held
  · rw [find]
    split
    · intro absent
      cases absent
    · exact keeps.only place text modified
  · have opens := keeps.reached slot good (kept slot good written ▸ written) place within
    obtain ⟨time, found⟩ := opens
    exact ⟨time, by rw [find, if_neg (away slot good written place within), found]⟩

theorem locate_cache (cache : files.cache = layout.cache) :
    files.tree.filesIn files.cache = .ok (files.tree.filesAt (walk [] (spelled layout.cache))) ∧
        files.tree.locate files.cache = .ok (walk [] (spelled layout.cache)) ∨
      files.tree.filesIn files.cache = .error .notFound ∧ ∃ place ∈ way layout.cache, ¬ files.tree.Opens place := by
  have free := free_cache keeps
  have spelt : files.tree.locate files.cache = files.tree.locateFrom [] (spelled layout.cache) := by
    rw [locate, cache, names_cache layout]
    rfl
  have here : walk [] (spelled layout.cache) ∈ way layout.cache := List.mem_append_right _ (List.mem_singleton.mpr rfl)
  rcases locateFrom_free [] _ layout.fits (fun place inside => free place (List.mem_append_left _ inside)) with
    ⟨located, _⟩ | ⟨missing, place, inside, shut⟩
  · rw [← spelt] at located
    rcases opens_or_missing _ free _ here with opens | absent
    · exact .inl ⟨filesIn_open _ _ located opens, located⟩
    · refine .inr ⟨?_, _, here, ?_⟩
      · rw [filesIn, located]
        simp only [bind, Except.bind, absent]
      · rintro ⟨time, found⟩
        cases absent.symm.trans found
  · rw [← spelt] at missing
    refine .inr ⟨?_, place, List.mem_append_left _ inside, shut⟩
    rw [filesIn, missing]
    rfl

theorem clear_files (cache : files.cache = layout.cache) :
    ∃ (names : List String) (next : FileTree), files.clear = .ok names.length { files with tree := next } ∧
      names.Nodup ∧ (∀ name, name ∈ names ↔
        ∃ key, Digest.Key key ∧ contents (.artifact key) ≠ none ∧ name = key ++ ".json") ∧
      layout.Keeps contents.clear next := by
  rcases locate_cache keeps cache with ⟨listed, located⟩ | ⟨absent, place, inside, shut⟩
  · have named := artifact_of_name keeps
    have unique := (nodup_filesAt (walk [] (spelled layout.cache)) keeps.proper).filter Files.isArtifact
    refine ⟨_, _, ?_, unique, named, keeps_removeAll keeps⟩
    rw [Files.clear, listed]
    simp only [located]
    rfl
  · -- A program would have all directories on its way.
    have none' : ∀ key, Digest.Key key → contents (.artifact key) = none := by
      intro key good
      cases content : contents (.artifact key) with
      | none => rfl
      | some pair =>
          have written : contents (.artifact key) ≠ none := by rw [content]; exact Option.some_ne_none pair
          refine absurd (keeps.reached (.artifact key) good written place ?_) shut
          rw [before_slot]
          exact inside
    refine ⟨[], files.tree, ?_, .nil, fun name => ⟨fun member => absurd member List.not_mem_nil, ?_⟩,
      keeps_congr keeps fun slot good => ?_⟩
    · rw [Files.clear, absent]
      rfl
    · rintro ⟨key, good, written, _⟩
      exact absurd (none' key good) written
    · cases slot with
      | artifact key => exact none' key good
      | template _ | lock _ => rfl

end Layout

end Stencil
