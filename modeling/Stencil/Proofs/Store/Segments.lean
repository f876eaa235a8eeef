import Mathlib.Tactic.SplitIfs
import Stencil.Proofs.Store.Located
import Stencil.Proofs.Store.Names

set_option autoImplicit false

namespace Stencil.TemplateName

open FileTree (Component spelled)
open TemplateName.path (joinAll)

def dotted (name : String) : List Char := name.toList.map fun c => if c = '/' then '.' else c

def entrance (root : String) : String := if root = "" || root.endsWith "/" then root else root ++ "/"

structure Downward (part : String) : Prop extends Component part where
  backslashless : '\\' ∉ part.toList
  relative : part.startsWith "/" = false

structure Leads (root suffix name path : String) (directories : List String) (file : String) : Prop where
  segments : (directories ++ [file]).map String.toList = (dotted name).splitOn '.'
  written : path = entrance root ++ "/".intercalate (directories ++ [file ++ suffix])
  spelled : FileTree.spelled path = FileTree.spelled root ++ (directories ++ [file ++ suffix])
  downward : ∀ part ∈ directories ++ [file ++ suffix], Downward part
  inside : ∀ (tree : FileTree) (goal : Location), tree.locate path = .ok goal →
    ∃ folder, tree.locateFrom [] (FileTree.spelled root) = .ok folder ∧
      goal = folder ++ (directories ++ [file ++ suffix])

section Splitting

theorem splitAt_dotted (name : String) : splitAt isSeparator name.toList = (dotted name).splitOn '.' := by
  rw [dotted]
  induction name.toList with
  | nil => rfl
  | cons c rest ih =>
      rw [splitAt_cons, List.map_cons, List.splitOn_cons_eq_if_modifyHead, ih]
      by_cases slash : c = '/'
      · subst slash
        rfl
      · simp [isSeparator, slash]

variable (coarse fine : Char → Bool)

-- To divide more finely is to divide the parts of a coarser division.
theorem splitAt_refine (text : List Char) (finer : ∀ c ∈ text, coarse c = true → fine c = true) :
    splitAt fine text = (splitAt coarse text).flatMap (splitAt fine) := by
  induction text with
  | nil => rfl
  | cons c rest ih =>
      obtain ⟨first, others⟩ := List.forall_mem_cons.mp finer
      rw [splitAt_cons, splitAt_cons, ih others]
      by_cases apart : coarse c = true
      · rw [if_pos apart, if_pos (first apart)]
        rfl
      · rw [if_neg apart]
        cases parts : splitAt coarse rest with
        | nil => exact absurd parts (splitAt_ne coarse rest)
        | cons part more =>
            rw [List.modifyHead_cons, List.flatMap_cons, List.flatMap_cons, splitAt_cons]
            split
            · rfl
            · cases inner : splitAt fine part with
              | nil => exact absurd inner (splitAt_ne fine part)
              | cons => rfl

end Splitting

section Acceptance

variable (name : String)

structure Accepted : Prop where
  visible : Text.trim name.toList ≠ []
  filled : [] ∉ (dotted name).splitOn '.'
  colonless : ':' ∉ name.toList
  backslashless : '\\' ∉ name.toList

variable {name}

theorem rootless_of_accepted (accepted : Accepted name) : name.toList.head?.any isSlash = false := by
  have filled := accepted.filled
  have backslashless := accepted.backslashless
  rw [dotted] at filled
  cases text : name.toList with
  | nil => rfl
  | cons c rest =>
      rw [text] at filled backslashless
      have backslash : c ≠ '\\' := fun same => backslashless (same ▸ List.mem_cons_self)
      have slash : c ≠ '/' := by
        rintro rfl
        rw [List.map_cons, if_pos rfl, List.splitOn_cons_eq_if_modifyHead, if_pos (beq_self_eq_true '.')] at filled
        exact filled List.mem_cons_self
      simp [isSlash, slash, backslash]

-- A part of two dots between slashes is divided once more.
theorem parentless_of_accepted (accepted : Accepted name) : ['.', '.'] ∉ splitAt isSlash name.toList := by
  intro parent
  have finer : ∀ c ∈ name.toList, isSlash c = true → isSeparator c = true := by
    intro c inside slash
    have backslash : c ≠ '\\' := fun same => accepted.backslashless (same ▸ inside)
    simp only [isSlash, backslash, decide_false, Bool.or_false, decide_eq_true_eq] at slash
    simp [isSeparator, slash]
  have filled := accepted.filled
  rw [← splitAt_dotted, splitAt_refine isSlash isSeparator _ finer] at filled
  exact filled (List.mem_flatMap.mpr ⟨_, parent, by decide⟩)

theorem segments_eq_ok (parts : List (List Char)) :
    segments name = .ok parts ↔ Accepted name ∧ parts = (dotted name).splitOn '.' := by
  constructor
  · intro divided
    dsimp only [segments] at divided
    split_ifs at divided with visible rooted parent backslash empty
    obtain rfl := Except.ok.inj divided
    rw [splitAt_dotted] at empty ⊢
    rw [Bool.or_eq_true, not_or] at rooted
    exact ⟨⟨by simpa using visible, by simpa using empty, by simpa using rooted.2, by simpa using backslash⟩, rfl⟩
  · rintro ⟨accepted, rfl⟩
    have visible : (Text.trim name.toList).isEmpty = false := by simpa using accepted.visible
    have colon : name.toList.contains ':' = false := by simpa using accepted.colonless
    have parents : (splitAt isSlash name.toList).contains ['.', '.'] = false := by
      simpa using parentless_of_accepted accepted
    have backslash : name.toList.contains '\\' = false := by simpa using accepted.backslashless
    have filled : (splitAt isSeparator name.toList).contains [] = false := by
      rw [splitAt_dotted]
      simpa using accepted.filled
    simp only [segments, visible, rootless_of_accepted accepted, colon, parents, backslash, filled, Bool.or_self,
      Bool.false_eq_true, if_false]
    exact congrArg Except.ok (splitAt_dotted name)

end Acceptance

section Paths

theorem joinPath_entrance (root name : String) : joinPath root name = entrance root ++ name := by
  rw [joinPath, entrance]
  split <;> rfl

theorem entrance_joinPath (root name : String) (good : Component name) :
    entrance (joinPath root name) = joinPath root name ++ "/" := by
  have last : (joinPath root name).endsWith "/" = false := by
    rw [Bool.eq_false_iff, ne_eq, FileTree.endsWith_iff, joinPath_entrance, String.toList_append]
    rintro ⟨before, ending⟩
    have same := congrArg List.getLast? ending
    have filled : name.toList ≠ [] := mt String.toList_eq_nil_iff.mp good.notEmpty
    rw [List.getLast?_append, List.getLast?_append, List.getLast?_eq_some_getLast filled] at same
    have slash : '/' = name.toList.getLast filled := Option.some.inj same
    exact good.slashless (slash.symm ▸ List.getLast_mem filled)
  rw [entrance, if_neg (by simp [joinPath_ne root name good, last])]

theorem joinAll_concat (root : String) (names : List String) (name : String) :
    joinAll root (names ++ [name]) = joinPath (joinAll root names) name := List.foldl_append

theorem joinAll_written (root : String) (names : List String) (some : names ≠ [])
    (good : ∀ name ∈ names, Component name) : joinAll root names = entrance root ++ "/".intercalate names := by
  induction names generalizing root with
  | nil => exact absurd rfl some
  | cons name rest ih =>
      obtain ⟨first, others⟩ := List.forall_mem_cons.mp good
      cases rest with
      | nil => exact joinPath_entrance root name
      | cons second more =>
          calc
            joinAll root (name :: second :: more) = joinAll (joinPath root name) (second :: more) := rfl
            _ = entrance (joinPath root name) ++ "/".intercalate (second :: more) :=
              ih (joinPath root name) (List.cons_ne_nil second more) others
            _ = entrance root ++ "/".intercalate (name :: second :: more) := by
              rw [entrance_joinPath root name first, joinPath_entrance, String.intercalate_cons_cons]
              simp only [String.append_assoc]

theorem spelled_component (name : String) (good : Component name) : spelled name = [name] := by
  have relative : name.startsWith "/" = false := by
    rw [Bool.eq_false_iff, ne_eq, String.startsWith_string_iff]
    rintro ⟨rest, start⟩
    exact good.slashless (start ▸ List.mem_cons_self)
  rw [spelled, relative]
  exact FileTree.parts_name name good

theorem spelled_descent (root : String) (names : List String) (good : ∀ name ∈ names, Component name) :
    spelled (joinAll root names) = spelled root ++ names := by
  by_cases found : root = ""
  · subst found
    cases names with
    | nil => rfl
    | cons name rest =>
        obtain ⟨first, others⟩ := List.forall_mem_cons.mp good
        have start : joinPath "" name = name := by simp [joinPath]
        have below := path.spelled_joinAll name first.notEmpty rest others
        rw [spelled_component name first] at below
        rw [joinAll, List.foldl_cons, start]
        exact below
  · exact path.spelled_joinAll root found names good

end Paths

section Parts

theorem downward_append (segment : List Char) (ending : String) (filled : segment ≠ [])
    (free : ∀ c ∈ segment, c ≠ '.' ∧ isSlash c = false) (flat : ∀ c ∈ ending.toList, isSlash c = false) :
    Downward (String.ofList segment ++ ending) := by
  cases segment with
  | nil => exact absurd rfl filled
  | cons first letters =>
      have text : (String.ofList (first :: letters) ++ ending).toList = first :: (letters ++ ending.toList) := by simp
      have slashes : ∀ c ∈ (String.ofList (first :: letters) ++ ending).toList, isSlash c = false := by
        intro c inside
        rw [text, ← List.cons_append] at inside
        rcases List.mem_append.mp inside with early | late
        · exact (free c early).2
        · exact flat c late
      have dotless : ∀ rest : List Char, (String.ofList (first :: letters) ++ ending).toList ≠ '.' :: rest := by
        intro rest same
        rw [text] at same
        exact (free first List.mem_cons_self).1 (List.cons.inj same).1
      have slashless : '/' ∉ (String.ofList (first :: letters) ++ ending).toList := fun slash =>
        absurd (slashes '/' slash) (by decide)
      have backslashless : '\\' ∉ (String.ofList (first :: letters) ++ ending).toList := fun backslash =>
        absurd (slashes '\\' backslash) (by decide)
      refine ⟨⟨slashless, fun empty => ?_, fun here => ?_, fun parent => ?_⟩, backslashless, ?_⟩
      · rw [empty] at text
        cases text
      · exact dotless [] (congrArg String.toList here)
      · exact dotless ['.'] (congrArg String.toList parent)
      · rw [Bool.eq_false_iff, ne_eq, String.startsWith_string_iff]
        rintro ⟨rest, start⟩
        exact slashless (start ▸ List.mem_cons_self)

variable {root suffix name other path path' : String} {directories directories' : List String} {file file' : String}

theorem free_of_accepted (accepted : Accepted name) (segment : List Char)
    (inside : segment ∈ (dotted name).splitOn '.') :
    segment ≠ [] ∧ ∀ c ∈ segment, c ≠ '.' ∧ isSlash c = false := by
  refine ⟨fun empty => accepted.filled (empty ▸ inside), fun c member => ?_⟩
  rw [← splitAt_dotted] at inside
  obtain ⟨within, kept⟩ := mem_splitAt isSeparator _ segment inside c member
  simp only [isSeparator, Bool.or_eq_false_iff, decide_eq_false_iff_not] at kept
  have backslash : c ≠ '\\' := fun same => accepted.backslashless (same ▸ within)
  exact ⟨kept.1, by simp [isSlash, kept.2, backslash]⟩

theorem path_eq_ok (root suffix name path : String) :
    TemplateName.path root suffix name = .ok path ↔
      Accepted name ∧ path = joinAll root (((dotted name).splitOn '.').map String.ofList) ++ suffix := by
  rw [TemplateName.path]
  cases divided : segments name with
  | error fault =>
      refine ⟨fun failed => (nomatch failed), fun ⟨accepted, _⟩ => ?_⟩
      rw [(segments_eq_ok _).mpr ⟨accepted, rfl⟩] at divided
      cases divided
  | ok parts =>
      obtain ⟨accepted, rfl⟩ := (segments_eq_ok parts).mp divided
      exact ⟨fun found => ⟨accepted, (Except.ok.inj found).symm⟩, fun ⟨_, found⟩ => congrArg Except.ok found.symm⟩

variable (flat : ∀ c ∈ suffix.toList, isSlash c = false)

include flat

theorem downward_of_accepted (accepted : Accepted name)
    (divided : (directories ++ [file]).map String.toList = (dotted name).splitOn '.') :
    ∀ part ∈ directories ++ [file ++ suffix], Downward part := by
  have parts : ∀ part ∈ directories ++ [file], part.toList ≠ [] ∧ ∀ c ∈ part.toList, c ≠ '.' ∧ isSlash c = false :=
    fun part inside => free_of_accepted accepted _ (divided ▸ List.mem_map_of_mem inside)
  intro part inside
  rcases List.mem_append.mp inside with above | last
  · obtain ⟨filled, free⟩ := parts part (List.mem_append_left _ above)
    have whole := downward_append part.toList "" filled free (fun _ none => absurd none List.not_mem_nil)
    rwa [String.ofList_toList, String.append_empty] at whole
  · obtain rfl := List.mem_singleton.mp last
    obtain ⟨filled, free⟩ := parts file (List.mem_append_right _ List.mem_cons_self)
    have whole := downward_append file.toList suffix filled free flat
    rwa [String.ofList_toList] at whole

theorem leads_of_path (found : TemplateName.path root suffix name = .ok path) :
    ∃ directories file, Leads root suffix name path directories file := by
  obtain ⟨accepted, rfl⟩ := (path_eq_ok root suffix name path).mp found
  have some := List.splitOn_ne_nil '.' (dotted name)
  obtain ⟨directories, file, divided⟩ : ∃ directories file,
      ((dotted name).splitOn '.').map String.ofList = directories ++ [file] :=
    ⟨_, _, (List.dropLast_concat_getLast (mt List.map_eq_nil_iff.mp some)).symm⟩
  have segments : (directories ++ [file]).map String.toList = (dotted name).splitOn '.' := by
    rw [← divided, List.map_map]
    simp [Function.comp_def]
  have downward := downward_of_accepted flat accepted segments
  have single := fun part inside => (downward part inside).toComponent
  have joined : joinAll root (directories ++ [file]) ++ suffix = joinAll root (directories ++ [file ++ suffix]) := by
    rw [joinAll_concat, joinAll_concat, joinPath_append]
  rw [divided, joined]
  refine ⟨directories, file, segments, ?_, spelled_descent root _ single, downward, fun tree goal located => ?_⟩
  · exact joinAll_written root _ (by simp) single
  · obtain ⟨names, named, way⟩ := (FileTree.locate_eq_ok _ goal).mp located
    obtain ⟨rfl, _, _⟩ := FileTree.names_ok _ names named
    rw [spelled_descent root _ single] at way
    exact FileTree.locateFrom_below [] goal _ _ (fun part inside => (downward part inside).notParent) way

omit flat

theorem dotted_of_spelled (leads : Leads root suffix name path directories file)
    (leads' : Leads root suffix other path' directories' file') (same : spelled path = spelled path') :
    dotted name = dotted other := by
  rw [leads.spelled, leads'.spelled] at same
  obtain ⟨rfl, last⟩ := List.append_inj' (List.append_cancel_left same) rfl
  have ending := congrArg String.toList (List.singleton_inj.mp last)
  rw [String.toList_append, String.toList_append] at ending
  obtain rfl := String.toList_inj.mp (List.append_cancel_right ending)
  have whole := congrArg (List.intercalate ['.']) (leads.segments.symm.trans leads'.segments)
  rwa [List.intercalate_splitOn, List.intercalate_splitOn] at whole

theorem path_of_dotted (leads : Leads root suffix name path directories file)
    (leads' : Leads root suffix other path' directories' file') (same : dotted name = dotted other) : path = path' := by
  have divided : (directories ++ [file]).map String.toList = (directories' ++ [file']).map String.toList := by
    rw [leads.segments, leads'.segments, same]
  have parts := (List.map_inj_right fun _ _ => String.toList_inj.mp).mp divided
  obtain ⟨rfl, last⟩ := List.append_inj' parts rfl
  obtain rfl := List.singleton_inj.mp last
  rw [leads.written, leads'.written]

end Parts

/-- With a suffix that has no slash, a name has a path exactly if it is accepted. The path goes from the root down to
the file, one step for each part of the name and none anywhere else, and two names have the same path, as texts or as
the names that they spell out, exactly if they are the same when written with dots. -/
theorem path_descends (root suffix : String) (flat : ∀ c ∈ suffix.toList, isSlash c = false) :
    (∀ name, (∃ path, TemplateName.path root suffix name = .ok path) ↔ Accepted name) ∧
    (∀ name path, TemplateName.path root suffix name = .ok path →
      ∃ directories file, Leads root suffix name path directories file) ∧
    ∀ name other path path', TemplateName.path root suffix name = .ok path →
      TemplateName.path root suffix other = .ok path' →
      (path = path' ↔ dotted name = dotted other) ∧ (spelled path = spelled path' ↔ dotted name = dotted other) := by
  refine ⟨fun name => ?_, fun name path => leads_of_path flat, fun name other path path' found found' => ?_⟩
  · constructor
    · rintro ⟨path, found⟩
      exact ((path_eq_ok root suffix name path).mp found).1
    · exact fun accepted => ⟨_, (path_eq_ok root suffix name _).mpr ⟨accepted, rfl⟩⟩
  · obtain ⟨directories, file, leads⟩ := leads_of_path flat found
    obtain ⟨directories', file', leads'⟩ := leads_of_path flat found'
    have spell : path = path' → spelled path = spelled path' := congrArg spelled
    have read := dotted_of_spelled leads leads'
    have write := path_of_dotted leads leads'
    exact ⟨⟨read ∘ spell, write⟩, ⟨read, spell ∘ write⟩⟩

theorem path_descends_mail :
    (∀ c ∈ ".tpl.html".toList, isSlash c = false) ∧
    (∃ directories file,
      Leads "views" ".tpl.html" "mail.note/first" "views/mail/note/first.tpl.html" directories file) ∧
    (TemplateName.path "views" ".tpl.html" "mail/note.first" = .ok "views/mail/note/first.tpl.html" ∧
      dotted "mail.note/first" = dotted "mail/note.first") ∧
    ∀ path, TemplateName.path "views" ".tpl.html" "mail..note" ≠ .ok path := by
  have level : ".tpl.html".toList.any isSlash = false := by decide
  have flat : ∀ c ∈ ".tpl.html".toList, isSlash c = false := fun c kept =>
    Bool.eq_false_iff.mpr (List.any_eq_false.mp level c kept)
  obtain ⟨accepted, leads, same⟩ := path_descends "views" ".tpl.html" flat
  have first : TemplateName.path "views" ".tpl.html" "mail.note/first" = .ok "views/mail/note/first.tpl.html" :=
    (path_eq_ok _ _ _ _).mpr ⟨⟨by decide +kernel, by decide, by decide, by decide⟩, by decide +kernel⟩
  have second : TemplateName.path "views" ".tpl.html" "mail/note.first" = .ok "views/mail/note/first.tpl.html" :=
    (path_eq_ok _ _ _ _).mpr ⟨⟨by decide +kernel, by decide, by decide, by decide⟩, by decide +kernel⟩
  refine ⟨flat, leads _ _ first, ⟨second, (same _ _ _ _ first second).1.mp rfl⟩, fun path found => ?_⟩
  exact absurd (by decide) ((accepted "mail..note").mp ⟨path, found⟩).filled

end Stencil.TemplateName
