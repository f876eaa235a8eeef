import Stencil.Proofs.Expr.Grammar
import Stencil.Proofs.Store.Paths
import Stencil.Proofs.Store.Tree

set_option autoImplicit false

namespace Stencil.FileTree

section Ways

variable {tree next : FileTree}

theorem opens_of_enter (location goal : Location) (name : String) (entered : tree.enter location name = .ok goal) :
    tree.Opens location := by
  rw [enter] at entered
  split at entered
  · cases entered
  · cases entered
  · rename_i modified found
    exact ⟨modified, found⟩

theorem enter_opens (location goal : Location) (name : String) (entered : tree.enter location name = .ok goal)
    (opens : next.Opens location) : next.enter location name = .ok goal := by
  obtain ⟨modified, found⟩ := opens_of_enter location goal name entered
  obtain ⟨modified', found'⟩ := opens
  rw [enter, found] at entered
  rw [enter, found']
  exact entered

theorem enter_below (location goal : Location) (name : String) (down : name ≠ "..")
    (entered : tree.enter location name = .ok goal) : goal = location ++ [name] := by
  obtain ⟨modified, there⟩ := opens_of_enter location goal name entered
  rw [enter, there] at entered
  simp only [if_neg down] at entered
  split at entered
  · cases entered
  · exact (Except.ok.inj entered).symm

theorem locateFrom_cons (location goal : Location) (name : String) (rest : List String) :
    tree.locateFrom location (name :: rest) = .ok goal ↔
      ∃ place, tree.enter location name = .ok place ∧ tree.locateFrom place rest = .ok goal := by
  rw [locateFrom, bind_eq_ok]

theorem locateFrom_concat (location goal : Location) (names : List String) (name : String) :
    tree.locateFrom location (names ++ [name]) = .ok goal ↔
      ∃ place, tree.locateFrom location names = .ok place ∧ tree.enter place name = .ok goal := by
  induction names generalizing location with
  | nil =>
      rw [List.nil_append, locateFrom_cons]
      constructor
      · rintro ⟨place, entered, here⟩
        cases here
        exact ⟨location, rfl, entered⟩
      · rintro ⟨place, here, entered⟩
        cases here
        exact ⟨goal, entered, rfl⟩
  | cons first rest ih =>
      rw [List.cons_append, locateFrom_cons]
      simp only [ih, locateFrom_cons]
      constructor
      · rintro ⟨there, entered, place, located, last⟩
        exact ⟨place, ⟨there, entered, located⟩, last⟩
      · rintro ⟨place, ⟨there, entered, located⟩, last⟩
        exact ⟨there, entered, place, located, last⟩

theorem locateFrom_below (location goal : Location) (front names : List String) (down : ∀ name ∈ names, name ≠ "..")
    (located : tree.locateFrom location (front ++ names) = .ok goal) :
    ∃ folder, tree.locateFrom location front = .ok folder ∧ goal = folder ++ names := by
  induction names generalizing front with
  | nil => exact ⟨goal, by rwa [List.append_nil] at located, (List.append_nil goal).symm⟩
  | cons name rest ih =>
      obtain ⟨first, others⟩ := List.forall_mem_cons.mp down
      obtain ⟨place, reached, rfl⟩ := ih (front ++ [name]) others (by rwa [List.append_assoc])
      obtain ⟨folder, inside, entered⟩ := (locateFrom_concat location place front name).mp reached
      obtain rfl := enter_below folder place name first entered
      exact ⟨folder, inside, by rw [List.append_assoc, List.singleton_append]⟩

theorem locateFrom_opens (opens : ∀ place, tree.Opens place → next.Opens place) (location goal : Location)
    (names : List String) (located : tree.locateFrom location names = .ok goal) :
    next.locateFrom location names = .ok goal := by
  induction names generalizing location with
  | nil => exact located
  | cons name rest ih =>
      obtain ⟨place, entered, further⟩ := (locateFrom_cons location goal name rest).mp located
      have open' := opens location (opens_of_enter location place name entered)
      exact (locateFrom_cons location goal name rest).mpr
        ⟨place, enter_opens location place name entered open', ih place further⟩

theorem opens_of_located (location goal : Location) (names : List String)
    (located : tree.locateFrom location names = .ok goal) (opens : tree.Opens goal) : tree.Opens location := by
  cases names with
  | nil => cases located; exact opens
  | cons name rest =>
      obtain ⟨place, entered, _⟩ := (locateFrom_cons location goal name rest).mp located
      exact opens_of_enter location place name entered

theorem makeFrom_located (now : Nat) (location goal : Location) (names : List String)
    (located : tree.locateFrom location names = .ok goal) (opens : tree.Opens goal) :
    tree.makeFrom now location names = .ok tree := by
  induction names generalizing location with
  | nil => rfl
  | cons name rest ih =>
      obtain ⟨place, entered, further⟩ := (locateFrom_cons location goal name rest).mp located
      obtain ⟨modified, found⟩ := opens_of_located place goal rest further opens
      rw [makeFrom, entered]
      simp only [bind, Except.bind, found]
      exact ih place further

theorem makeFrom_keeps (now : Nat) (location : Location) (names : List String)
    (made : tree.makeFrom now location names = .ok next) (place : Location) (item : Item)
    (found : tree.find? place = some item) : next.find? place = some item := by
  induction names generalizing tree location with
  | nil => cases made; exact found
  | cons name rest ih =>
      rw [makeFrom, bind_eq_ok] at made
      obtain ⟨there, _, made⟩ := made
      cases here : tree.find? there with
      | none =>
          rw [here] at made
          exact ih there made ((grows_put there here now).keeps place item found)
      | some old =>
          rw [here] at made
          cases old with
          | file _ _ => cases made
          | directory _ => exact ih there made found

end Ways

section Paths

variable {tree next : FileTree}

theorem names_ok (path : String) (names : List String) (named : FileTree.names path = .ok names) :
    names = spelled path ∧ '\x00' ∉ path.toList ∧ path.utf8ByteSize < pathLimit := by
  rw [FileTree.names] at named
  split at named
  · cases named
  · split at named
    · cases named
    · rename_i good
      rw [Bool.or_eq_true, not_or] at good
      exact ⟨(Except.ok.inj named).symm, by simpa using good.1, by simpa using good.2⟩

theorem locate_eq_ok (path : String) (goal : Location) :
    tree.locate path = .ok goal ↔ ∃ names, FileTree.names path = .ok names ∧ tree.locateFrom [] names = .ok goal := by
  rw [locate, bind_eq_ok]

theorem item_eq_ok (path : String) (item : Item) :
    tree.item path = .ok item ↔ ∃ place, tree.locate path = .ok place ∧ tree.find? place = some item := by
  rw [FileTree.item, bind_eq_ok]
  refine exists_congr fun place => and_congr_right fun _ => ?_
  cases tree.find? place with
  | none => simp
  | some other => simp [pure, Except.pure]

theorem locate_opens (opens : ∀ place, tree.Opens place → next.Opens place) (path : String) (goal : Location)
    (located : tree.locate path = .ok goal) : next.locate path = .ok goal := by
  obtain ⟨names, named, way⟩ := (locate_eq_ok path goal).mp located
  exact (locate_eq_ok path goal).mpr ⟨names, named, locateFrom_opens opens [] goal names way⟩

theorem locate_joinPath (directory name : String) (found : directory ≠ "") (good : Names name) (goal : Location)
    (located : tree.locate (joinPath directory name) = .ok goal) :
    ∃ folder, tree.locate directory = .ok folder ∧ tree.Opens folder ∧ goal = folder ++ [name] := by
  obtain ⟨names, named, way⟩ := (locate_eq_ok _ goal).mp located
  obtain ⟨rfl, nulless, short⟩ := names_ok _ names named
  rw [spelled_joinPath directory name found good.component] at way
  obtain ⟨folder, inside, entered⟩ := (locateFrom_concat [] goal _ name).mp way
  have opens := opens_of_enter folder goal name entered
  have nulless' : '\x00' ∉ directory.toList := fun nul => nulless (by rw [joinPath]; split <;> simp [nul])
  have short' : directory.utf8ByteSize < pathLimit := Nat.lt_of_le_of_lt (le_joinPath directory name) short
  have reached := (locate_eq_ok directory folder).mpr ⟨_, names_eq_ok directory found nulless' short', inside⟩
  exact ⟨folder, reached, opens, enter_below folder goal name good.notParent entered⟩

theorem makeDirectory_located (now : Nat) (path : String) (goal : Location) (located : tree.locate path = .ok goal)
    (opens : tree.Opens goal) : tree.makeDirectory now path = .ok tree := by
  obtain ⟨names, named, way⟩ := (locate_eq_ok path goal).mp located
  rw [makeDirectory, named]
  exact makeFrom_located now [] goal names way opens

theorem makeDirectory_keeps (now : Nat) (directory : String) (made : tree.makeDirectory now directory = .ok next)
    (place : Location) (item : Item) (found : tree.find? place = some item) : next.find? place = some item := by
  rw [makeDirectory, bind_eq_ok] at made
  obtain ⟨names, _, made⟩ := made
  exact makeFrom_keeps now [] names made place item found

section Keeping

variable (keeps : ∀ place item, tree.find? place = some item → next.find? place = some item) (path : String)

include keeps

theorem locate_keeps (goal : Location) (located : tree.locate path = .ok goal) : next.locate path = .ok goal :=
  locate_opens (fun _ ⟨modified, opens⟩ => ⟨modified, keeps _ _ opens⟩) path goal located

theorem item_keeps (item : Item) (found : tree.item path = .ok item) : next.item path = .ok item := by
  obtain ⟨place, located, there⟩ := (item_eq_ok path item).mp found
  exact (item_eq_ok path item).mpr ⟨place, locate_keeps keeps path place located, keeps place item there⟩

end Keeping

section Writes

variable (path : String) (text : Option String) (modified : Nat)

theorem writeFile_eq_ok (written : tree.writeFile path text modified = .ok next) :
    ∃ place, tree.locate path = .ok place ∧ ¬ tree.Opens place ∧ place.all isOutside = false ∧
      next = tree.put place (.file text modified) := by
  rw [writeFile, bind_eq_ok] at written
  obtain ⟨place, located, written⟩ := written
  split at written
  · cases written
  · rename_i shut
    have closed : ¬ tree.Opens place := fun ⟨time, found⟩ => shut time found
    have inside : place.all isOutside = false :=
      Bool.eq_false_iff.mpr fun outside => closed ⟨0, by rw [find?, if_pos outside]⟩
    exact ⟨place, located, closed, inside, (Except.ok.inj written).symm⟩

theorem opens_put (place other : Location) (closed : ¬ tree.Opens place) (inside : place.all isOutside = false)
    (opens : tree.Opens other) : (tree.put place (.file text modified)).Opens other := by
  obtain ⟨time, found⟩ := opens
  refine ⟨time, ?_⟩
  rw [find_put tree place other _ inside, if_neg, found]
  rintro rfl
  exact closed ⟨time, found⟩

theorem item_written (written : tree.writeFile path text modified = .ok next) :
    next.item path = .ok (.file text modified) := by
  obtain ⟨place, located, closed, inside, rfl⟩ := writeFile_eq_ok path text modified written
  refine (item_eq_ok path _).mpr ⟨place, ?_, by rw [find_put tree place place _ inside, if_pos rfl]⟩
  exact locate_opens (fun other => opens_put text modified place other closed inside) path place located

theorem item_elsewhere (written : tree.writeFile path text modified = .ok next) (other : String) (item : Item)
    (found : tree.item other = .ok item) (apart : tree.locate other ≠ tree.locate path) :
    next.item other = .ok item := by
  obtain ⟨place, located, closed, inside, rfl⟩ := writeFile_eq_ok path text modified written
  obtain ⟨there, located', here⟩ := (item_eq_ok other item).mp found
  refine (item_eq_ok other item).mpr ⟨there, ?_, ?_⟩
  · exact locate_opens (fun other => opens_put text modified place other closed inside) other there located'
  · rw [find_put tree place there _ inside, if_neg, here]
    rintro rfl
    exact apart (located'.trans located.symm)

theorem writeFile_over (old : Option String) (time : Nat) (there : tree.item path = .ok (.file old time)) :
    ∃ next, tree.writeFile path text modified = .ok next := by
  obtain ⟨place, located, found⟩ := (item_eq_ok path _).mp there
  refine ⟨tree.put place (.file text modified), ?_⟩
  rw [writeFile, located]
  simp only [bind, Except.bind, found]
  rfl

end Writes

end Paths

end Stencil.FileTree
