import Stencil.Proofs.Store.Layout

set_option autoImplicit false

namespace Stencil

open FileTree Directories

abbrev Contents : Type := Slot → Option (String × Nat)

namespace Contents

def item (found : String × Nat) : Item := .file (some found.1) found.2

def write (contents : Contents) (slot : Slot) (text : String) (modified : Nat) : Contents :=
  fun other => if other = slot then some (text, modified) else contents other

def clear (contents : Contents) : Contents
  | .artifact _ => none
  | slot => contents slot

end Contents

-- A tree in which all files are files of the store. All directories on the way to one of them are there.
structure Layout.Keeps (layout : Layout) (contents : Contents) (tree : FileTree) : Prop where
  proper : tree.Proper
  holds : ∀ slot, layout.Good slot → tree.find? (layout.place slot) = (contents slot).map Contents.item
  only : ∀ place text modified, tree.find? place = some (.file text modified) →
    ∃ slot, layout.Good slot ∧ layout.place slot = place
  reached : ∀ slot, layout.Good slot → contents slot ≠ none →
    ∀ place ∈ before [] (layout.names slot), tree.Opens place

namespace Layout

section Reading

variable {layout : Layout} {contents : Contents} {tree : FileTree} (keeps : layout.Keeps contents tree)

include keeps

theorem free_of_apart (places : List Location) (apart : ∀ slot, layout.Good slot → layout.place slot ∉ places) :
    tree.Free places := by
  intro place inside text modified found
  obtain ⟨slot, good, rfl⟩ := keeps.only place text modified found
  exact apart slot good inside

variable {slot : Slot} (good : layout.Good slot)

include good

theorem free_slot : tree.Free (before [] (layout.names slot)) :=
  free_of_apart keeps _ fun other good' => place_apart layout good other good'

theorem item_path : tree.item (layout.path slot) = match contents slot with
    | some found => .ok (Contents.item found)
    | none => .error .notFound := by
  have found := keeps.holds slot good
  have fits := fits_names layout good
  rw [FileTree.item, locate, names_path layout good]
  simp only [bind, Except.bind]
  cases content : contents slot with
  | some pair =>
      have opens := keeps.reached slot good (by rw [content]; exact Option.some_ne_none pair)
      rw [content] at found
      rw [locateFrom_open [] _ fits opens, walk_slot good]
      simp only [found, Option.map_some]
      rfl
  | none =>
      rw [content] at found
      rcases locateFrom_free [] _ fits (free_slot keeps good) with ⟨located, _⟩ | ⟨missing, _⟩
      · rw [located, walk_slot good]
        simp only [found, Option.map_none]
      · rw [missing]

theorem readText_path : tree.readText (layout.path slot) = match contents slot with
    | some (text, _) => .ok text
    | none => .error .notFound := by
  rw [readText, item_path keeps good]
  cases contents slot <;> rfl

theorem modified_path : tree.modified (layout.path slot) = match contents slot with
    | some (_, modified) => .ok modified
    | none => .error .notFound := by
  rw [FileTree.modified, item_path keeps good]
  cases contents slot <;> rfl

theorem isFile_path : tree.isFile (layout.path slot) = (contents slot).isSome := by
  rw [isFile, item_path keeps good]
  cases contents slot <;> rfl

end Reading

theorem keeps_congr {layout : Layout} {contents contents' : Contents} {tree : FileTree}
    (keeps : layout.Keeps contents tree) (same : ∀ slot, layout.Good slot → contents slot = contents' slot) :
    layout.Keeps contents' tree := by
  refine ⟨keeps.proper, fun slot good => ?_, keeps.only, fun slot good => ?_⟩
  · rw [← same slot good]
    exact keeps.holds slot good
  · rw [← same slot good]
    exact keeps.reached slot good

theorem keeps_empty (layout : Layout) : layout.Keeps (fun _ => none) .empty := by
  have missing : ∀ place, place.all isOutside = false → empty.find? place = none := by
    intro place inside
    rw [find?, inside]
    rfl
  refine ⟨proper_empty, fun slot good => missing _ (place_inside good), fun place text modified found => ?_,
    fun slot good absent => absurd rfl absent⟩
  rw [missing place (inside_of_file place text modified found)] at found
  cases found

section Writing

variable {layout : Layout} {contents : Contents} {tree : FileTree} (keeps : layout.Keeps contents tree) {slot : Slot}
  (good : layout.Good slot)

include keeps good

theorem make_directory (now : Nat) : ∃ grown, tree.makeFrom now [] (layout.directory slot) = .ok grown ∧
    tree.Grows grown (before [] (layout.names slot)) := by
  have fits : Fits (layout.directory slot) := fun name inside =>
    fits_names layout good name (List.mem_append_left _ inside)
  have free := free_slot keeps good
  rw [before_slot] at free ⊢
  exact makeFrom_grows now [] (layout.directory slot) fits opens_start free

variable {grown : FileTree} (grows : tree.Grows grown (before [] (layout.names slot)))

include grows

theorem keeps_put (text : String) (modified : Nat) :
    layout.Keeps (contents.write slot text modified) (grown.put (layout.place slot) (.file (some text) modified)) := by
  have inside := place_inside good
  have put := fun other => find_put grown (layout.place slot) other (.file (some text) modified) inside
  have apart : ∀ other, layout.Good other → ∀ place ∈ before [] (layout.names other), place ≠ layout.place slot := by
    rintro other good' _ within rfl
    exact place_apart layout good' slot good within
  refine ⟨proper_put (grows.proper keeps.proper) _ _ inside, fun other good' => ?_, fun place found time => ?_,
    fun other good' written place within => ?_⟩
  · rw [put, Contents.write]
    by_cases same : other = slot
    · rw [if_pos (congrArg _ same), if_pos same]
      rfl
    · rw [if_neg (fun here => same (place_injective layout good' slot good here)), if_neg same]
      have held := keeps.holds other good'
      cases content : contents other with
      | some pair =>
          rw [content] at held
          exact grows.keeps _ _ held
      | none =>
          rw [content] at held
          -- What was made on the way is elsewhere.
          cases gained : grown.find? (layout.place other) with
          | none => rfl
          | some item =>
              rcases grows.gains _ item gained with old | ⟨way, _⟩
              · cases held.symm.trans old
              · exact absurd way (place_apart layout good other good')
  · rw [put]
    by_cases here : place = layout.place slot
    · exact fun _ => ⟨slot, good, here.symm⟩
    · rw [if_neg here, find_file grows]
      exact keeps.only place found time
  · have open' : grown.Opens place := by
      by_cases same : other = slot
      · exact grows.opens place (same ▸ within)
      · rw [Contents.write, if_neg same] at written
        exact opens_grows grows place (keeps.reached other good' written place within)
    obtain ⟨time, found⟩ := open'
    exact ⟨time, by rw [put, if_neg (apart other good' place within), found]⟩

theorem writeFile_path (text : String) (modified : Nat) : grown.writeFile (layout.path slot) (some text) modified
    = .ok (grown.put (layout.place slot) (.file (some text) modified)) := by
  rw [writeFile, locate, names_path layout good]
  simp only [bind, Except.bind]
  rw [locateFrom_open [] _ (fits_names layout good) grows.opens, walk_slot good]
  dsimp only
  cases found : grown.find? (layout.place slot) with
  | none => rfl
  | some item =>
      cases item with
      | file _ _ => rfl
      | directory time =>
          -- A directory that was there is at no file's place, nor is one that was made.
          have old := keeps.holds slot good
          rcases grows.gains _ _ found with before | ⟨way, _⟩
          · rw [before] at old
            cases content : contents slot with
            | none => rw [content] at old; cases old
            | some pair => rw [content] at old; cases old
          · exact absurd way (place_apart layout good slot good)

end Writing

section Writes

variable {layout : Layout} {contents : Contents} {tree : FileTree} (keeps : layout.Keeps contents tree) {slot : Slot}
  (good : layout.Good slot) (text : String) (modified : Nat)

include keeps good

theorem addFile_path (now : Nat) : ∃ next, tree.addFile now (layout.path slot) (some text) modified = .ok next ∧
    layout.Keeps (contents.write slot text modified) next := by
  obtain ⟨grown, made, grows⟩ := make_directory keeps good now
  refine ⟨_, ?_, keeps_put keeps good grows text modified⟩
  rw [addFile, names_path layout good]
  simp only [bind, Except.bind]
  rw [Directories.names, List.dropLast_concat, made]
  exact writeFile_path keeps good grows text modified

theorem writeFile_there (there : contents slot ≠ none) :
    ∃ next, tree.writeFile (layout.path slot) (some text) modified = .ok next ∧
      layout.Keeps (contents.write slot text modified) next := by
  have grows : tree.Grows tree (before [] (layout.names slot)) := grows_self _ (keeps.reached slot good there)
  exact ⟨_, writeFile_path keeps good grows text modified, keeps_put keeps good grows text modified⟩

end Writes

end Layout

end Stencil
