import Stencil.Store.FileTree

set_option autoImplicit false

namespace Stencil.FileTree

structure Proper (tree : FileTree) : Prop where
  unique : tree.items.Pairwise fun one other => one.1 ≠ other.1
  inside : ∀ place item, (place, item) ∈ tree.items → place.all isOutside = false

def Opens (tree : FileTree) (place : Location) : Prop := ∃ modified, tree.find? place = some (.directory modified)

def Free (tree : FileTree) (places : List Location) : Prop :=
  ∀ place ∈ places, ∀ text modified, tree.find? place ≠ some (.file text modified)

def Fits (names : List String) : Prop := ∀ name ∈ names, name = ".." ∨ name.utf8ByteSize ≤ greatestName

instance (names : List String) : Decidable (Fits names) :=
  inferInstanceAs (Decidable (∀ name ∈ names, name = ".." ∨ name.utf8ByteSize ≤ greatestName))

section Places

variable {tree : FileTree}

theorem proper_empty : empty.Proper := ⟨.nil, fun _ _ none => absurd none List.not_mem_nil⟩

theorem opens_start : tree.Opens [] := ⟨0, rfl⟩

theorem lookup_first (items : List (Location × Item)) (place other : Location) (item : Item) :
    List.lookup other ((place, item) :: items) = if other = place then some item else items.lookup other := by
  rw [List.lookup_cons]
  by_cases same : other = place
  · simp [same]
  · simp [same, beq_false_of_ne same]

theorem lookup_remove (items : List (Location × Item)) (place other : Location) :
    (items.filter fun (there, _) => there != place).lookup other
      = if other = place then none else items.lookup other := by
  induction items with
  | nil => simp
  | cons entry rest ih =>
      obtain ⟨there, item⟩ := entry
      by_cases kept : there = place
      · subst kept
        by_cases same : other = there
        · simpa [same] using ih
        · simpa [same, lookup_first] using ih
      · by_cases found : other = there
        · subst found
          simp [kept]
        · simp [kept, lookup_first, found, ih]

theorem find_remove (tree : FileTree) (place other : Location) (inside : place.all isOutside = false) :
    (tree.remove place).find? other = if other = place then none else tree.find? other := by
  rw [find?, find?, remove, lookup_remove]
  by_cases same : other = place
  · simp [same, inside]
  · simp [same]

theorem find_put (tree : FileTree) (place other : Location) (item : Item) (inside : place.all isOutside = false) :
    (tree.put place item).find? other = if other = place then some item else tree.find? other := by
  have rest := find_remove tree place other inside
  rw [find?] at rest ⊢
  by_cases same : other = place
  · subst same
    simp [put, inside]
  · rw [put, lookup_first, if_neg same, rest, if_neg same, if_neg same]

theorem proper_remove (proper : tree.Proper) (place : Location) : (tree.remove place).Proper :=
  ⟨proper.unique.filter _, fun other item found => proper.inside other item (List.mem_filter.mp found).1⟩

theorem proper_put (proper : tree.Proper) (place : Location) (item : Item) (inside : place.all isOutside = false) :
    (tree.put place item).Proper := by
  have kept := proper_remove proper place
  refine ⟨.cons (fun other found => ?_) kept.unique, fun other there found => ?_⟩
  · have apart := (List.mem_filter.mp found).2
    exact Ne.symm (by simpa using apart)
  · rcases List.mem_cons.mp found with first | later
    · obtain ⟨rfl, rfl⟩ := Prod.mk.inj first
      exact inside
    · exact kept.inside other there later

theorem inside_of_missing (place : Location) (missing : tree.find? place = none) : place.all isOutside = false := by
  rw [find?] at missing
  split at missing
  · cases missing
  · rename_i inside
    simpa using inside

theorem inside_of_file (place : Location) (text : Option String) (modified : Nat)
    (found : tree.find? place = some (.file text modified)) : place.all isOutside = false := by
  rw [find?] at found
  split at found
  · cases found
  · rename_i inside
    simpa using inside

theorem mem_items (proper : tree.Proper) (place : Location) (item : Item) :
    (place, item) ∈ tree.items ↔ place.all isOutside = false ∧ tree.find? place = some item := by
  obtain ⟨items⟩ := tree
  obtain ⟨unique, inside⟩ := proper
  rw [find?]
  constructor
  · intro found
    have here := inside place item found
    refine ⟨here, ?_⟩
    rw [here, if_neg Bool.false_ne_true, List.lookup_eq_some_iff]
    obtain ⟨before, after, split⟩ := List.append_of_mem found
    refine ⟨before, after, split, fun other earlier => ?_⟩
    dsimp only at split
    subst split
    have apart := (List.pairwise_append.mp unique).2.2 other earlier (place, item) List.mem_cons_self
    exact bne_iff_ne.mpr (Ne.symm apart)
  · rintro ⟨here, found⟩
    rw [here, if_neg Bool.false_ne_true, List.lookup_eq_some_iff] at found
    obtain ⟨before, after, split, _⟩ := found
    exact split ▸ List.mem_append_right _ List.mem_cons_self

end Places

def turn (location : Location) (name : String) : Location :=
  if name = ".." then parent location else location ++ [name]

def walk (location : Location) (names : List String) : Location := names.foldl turn location

def before (location : Location) : List String → List Location
  | [] => []
  | name :: rest => location :: before (turn location name) rest

theorem walk_append (location : Location) (names rest : List String) :
    walk location (names ++ rest) = walk (walk location names) rest := List.foldl_append ..

theorem before_append (location : Location) (names rest : List String) :
    before location (names ++ rest) = before location names ++ before (walk location names) rest := by
  induction names generalizing location with
  | nil => rfl
  | cons name _ ih => exact congrArg _ (ih (turn location name))

theorem walk_names (location : Location) (names : List String) (straight : ".." ∉ names) :
    walk location names = location ++ names := by
  induction names generalizing location with
  | nil => exact (List.append_nil _).symm
  | cons name rest ih =>
      obtain ⟨first, others⟩ := List.ne_and_not_mem_of_not_mem_cons straight
      have joined := ih (turn location name) others
      rw [turn, if_neg (Ne.symm first), List.append_assoc] at joined
      rwa [walk, List.foldl_cons, turn, if_neg (Ne.symm first)]

section Ways

variable {tree : FileTree}

theorem enter_open (location : Location) (name : String) (opens : tree.Opens location)
    (fits : name = ".." ∨ name.utf8ByteSize ≤ greatestName) : tree.enter location name = .ok (turn location name) := by
  obtain ⟨modified, found⟩ := opens
  rw [enter, found, turn]
  by_cases up : name = ".."
  · simp only [if_pos up]
  · rcases fits with same | short
    · exact absurd same up
    · simp only [if_neg up, if_neg (Nat.not_lt_of_le short)]

theorem enter_missing (location : Location) (name : String) (missing : tree.find? location = none) :
    tree.enter location name = .error .notFound := by
  rw [enter, missing]

theorem locateFrom_open (location : Location) (names : List String) (fits : Fits names)
    (opens : ∀ place ∈ before location names, tree.Opens place) :
    tree.locateFrom location names = .ok (walk location names) := by
  induction names generalizing location with
  | nil => rfl
  | cons name rest ih =>
      obtain ⟨short, shorts⟩ := List.forall_mem_cons.mp fits
      obtain ⟨here, later⟩ := List.forall_mem_cons.mp opens
      rw [locateFrom, enter_open location name here short]
      exact ih (turn location name) shorts later

theorem opens_or_missing (places : List Location) (free : tree.Free places) (place : Location)
    (inside : place ∈ places) : tree.Opens place ∨ tree.find? place = none := by
  cases found : tree.find? place with
  | none => exact .inr rfl
  | some item =>
      cases item with
      | file text modified => exact absurd found (free place inside text modified)
      | directory modified => exact .inl ⟨modified, found⟩

theorem locateFrom_free (location : Location) (names : List String) (fits : Fits names)
    (free : tree.Free (before location names)) :
    tree.locateFrom location names = .ok (walk location names) ∧ (∀ place ∈ before location names, tree.Opens place) ∨
      tree.locateFrom location names = .error .notFound ∧ ∃ place ∈ before location names, ¬ tree.Opens place := by
  induction names generalizing location with
  | nil => exact .inl ⟨rfl, fun _ none => absurd none List.not_mem_nil⟩
  | cons name rest ih =>
      obtain ⟨short, shorts⟩ := List.forall_mem_cons.mp fits
      obtain ⟨_, later⟩ := List.forall_mem_cons.mp free
      rw [locateFrom]
      rcases opens_or_missing _ free location List.mem_cons_self with opens | missing
      · rw [enter_open location name opens short]
        rcases ih (turn location name) shorts later with ⟨located, others⟩ | ⟨failed, place, inside, shut⟩
        · exact .inl ⟨located, List.forall_mem_cons.mpr ⟨opens, others⟩⟩
        · exact .inr ⟨failed, place, List.mem_cons_of_mem _ inside, shut⟩
      · rw [enter_missing location name missing]
        refine .inr ⟨rfl, location, List.mem_cons_self, ?_⟩
        rintro ⟨modified, found⟩
        cases missing.symm.trans found

structure Grows (tree grown : FileTree) (places : List Location) : Prop where
  proper : tree.Proper → grown.Proper
  keeps : ∀ place item, tree.find? place = some item → grown.find? place = some item
  gains : ∀ place item, grown.find? place = some item →
    tree.find? place = some item ∨ place ∈ places ∧ ∃ modified, item = .directory modified
  opens : ∀ place ∈ places, grown.Opens place

theorem opens_grows {grown : FileTree} {places : List Location} (grows : tree.Grows grown places) (place : Location)
    (opens : tree.Opens place) : grown.Opens place := by
  obtain ⟨modified, found⟩ := opens
  exact ⟨modified, grows.keeps place _ found⟩

theorem find_file {grown : FileTree} {places : List Location} (grows : tree.Grows grown places) (place : Location)
    (text : Option String) (modified : Nat) :
    grown.find? place = some (.file text modified) ↔ tree.find? place = some (.file text modified) := by
  refine ⟨fun found => ?_, grows.keeps place _⟩
  rcases grows.gains place _ found with old | ⟨_, _, new⟩
  · exact old
  · cases new

theorem grows_put (place : Location) (missing : tree.find? place = none) (now : Nat) :
    tree.Grows (tree.put place (.directory now)) [place] := by
  have inside := inside_of_missing place missing
  refine ⟨fun proper => proper_put proper place _ inside, fun other item found => ?_, fun other item found => ?_,
    fun other here => ?_⟩
  · rw [find_put _ place other _ inside, if_neg]
    · exact found
    · rintro rfl
      cases missing.symm.trans found
  · rw [find_put _ place other _ inside] at found
    split at found
    · rename_i same
      obtain rfl := Option.some.inj found
      exact .inr ⟨List.mem_singleton.mpr same, now, rfl⟩
    · exact .inl found
  · obtain rfl := List.mem_singleton.mp here
    exact ⟨now, by rw [find_put _ other other _ inside, if_pos rfl]⟩

theorem grows_trans {between grown : FileTree} {places others : List Location} (first : tree.Grows between places)
    (second : between.Grows grown others) : tree.Grows grown (places ++ others) where
  proper proper := second.proper (first.proper proper)
  keeps place item found := second.keeps place item (first.keeps place item found)
  gains place item found := by
    rcases second.gains place item found with old | ⟨inside, new⟩
    · rcases first.gains place item old with older | ⟨inside, new⟩
      · exact .inl older
      · exact .inr ⟨List.mem_append_left _ inside, new⟩
    · exact .inr ⟨List.mem_append_right _ inside, new⟩
  opens place inside := by
    rcases List.mem_append.mp inside with earlier | later
    · exact opens_grows second place (first.opens place earlier)
    · exact second.opens place later

theorem grows_self (places : List Location) (opens : ∀ place ∈ places, tree.Opens place) : tree.Grows tree places :=
  ⟨id, fun _ _ => id, fun _ _ => .inl, opens⟩

theorem makeFrom_grows (now : Nat) (location : Location) (names : List String) (fits : Fits names)
    (opens : tree.Opens location) (free : tree.Free (before location names ++ [walk location names])) :
    ∃ grown, tree.makeFrom now location names = .ok grown ∧
      tree.Grows grown (before location names ++ [walk location names]) := by
  induction names generalizing tree location with
  | nil =>
      refine ⟨tree, rfl, grows_self _ fun place here => ?_⟩
      obtain rfl := List.mem_singleton.mp here
      exact opens
  | cons name rest ih =>
      obtain ⟨short, shorts⟩ := List.forall_mem_cons.mp fits
      obtain ⟨_, later⟩ := List.forall_mem_cons.mp free
      have next : turn location name ∈ before (turn location name) rest ++ [walk location (name :: rest)] := by
        cases rest with
        | nil => exact List.mem_singleton.mpr rfl
        | cons _ _ => exact List.mem_cons_self
      have here : tree.Grows tree [location] := grows_self _ fun place here => by
        obtain rfl := List.mem_singleton.mp here
        exact opens
      rw [makeFrom, enter_open location name opens short]
      simp only [bind, Except.bind]
      rcases opens_or_missing _ later (turn location name) next with ⟨modified, found⟩ | missing
      · obtain ⟨grown, made, grows⟩ := ih (turn location name) shorts ⟨modified, found⟩ later
        have whole := grows_trans here grows
        rw [found]
        exact ⟨grown, made, whole⟩
      · have put := grows_put (turn location name) missing now
        have still : (tree.put (turn location name) (.directory now)).Free
            (before (turn location name) rest ++ [walk location (name :: rest)]) := fun place inside text modified found =>
          later place inside text modified ((find_file put place text modified).mp found)
        obtain ⟨grown, made, grows⟩ := ih (turn location name) shorts (put.opens _ (List.mem_singleton.mpr rfl)) still
        rw [missing]
        have whole := grows_trans (grows_trans here put) grows
        refine ⟨grown, made, whole.proper, whole.keeps, fun place item found => ?_, fun place inside => ?_⟩
        · rcases whole.gains place item found with old | ⟨inside, new⟩
          · exact .inl old
          · refine .inr ⟨?_, new⟩
            rcases List.mem_append.mp inside with start | after
            · rcases List.mem_cons.mp start with same | second
              · exact same ▸ List.mem_cons_self
              · obtain rfl := List.mem_singleton.mp second
                exact List.mem_cons_of_mem _ next
            · exact List.mem_cons_of_mem _ after
        · rcases List.mem_cons.mp inside with rfl | after
          · exact opens_grows grows _ (opens_grows put _ opens)
          · exact grows.opens place after

end Ways

end Stencil.FileTree
