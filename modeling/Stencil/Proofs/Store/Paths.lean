import Stencil.Store.Files

set_option autoImplicit false

namespace Stencil

namespace FileTree

structure Component (name : String) : Prop where
  slashless : '/' ∉ name.toList
  notEmpty : name ≠ ""
  notHere : name ≠ "."
  notParent : name ≠ ".."

structure Names (name : String) : Prop where
  slashless : '/' ∉ name.toList
  nulless : '\x00' ∉ name.toList
  notEmpty : name ≠ ""
  notHere : name ≠ "."
  notParent : name ≠ ".."

theorem Names.component {name : String} (good : Names name) : Component name :=
  ⟨good.slashless, good.notEmpty, good.notHere, good.notParent⟩

theorem endsWith_iff (text ending : String) : text.endsWith ending = true ↔ ending.toList <:+ text.toList := by
  rw [String.endsWith, String.Slice.endsWith_string_iff, String.copy_toSlice]

theorem names_eq_ok (path : String) (found : path ≠ "") (nulless : '\x00' ∉ path.toList)
    (short : path.utf8ByteSize < pathLimit) : names path = .ok (spelled path) := by
  have text : path.toList.contains '\x00' = false := by simpa using nulless
  rw [names, if_neg found, text, Bool.false_or, if_neg (by simpa using short)]

theorem parts_name (name : String) (good : Component name) : parts name.toList = [name] := by
  simp [parts, List.splitOn_eq_singleton good.slashless, good.notEmpty, good.notHere]

theorem parts_slash (path rest : List Char) : parts (path ++ '/' :: rest) = parts path ++ parts rest := by
  simp only [parts, List.splitOn_append_cons_self, List.map_append, List.filter_append]

theorem parts_nil : parts [] = [] := rfl

theorem startsWith_append (path rest : String) (found : path ≠ "") :
    (path ++ rest).startsWith "/" = path.startsWith "/" := by
  rw [Bool.eq_iff_iff, String.startsWith_string_iff, String.startsWith_string_iff, String.toList_append]
  cases text : path.toList with
  | nil => exact absurd (String.toList_eq_nil_iff.mp text) found
  | cons c rest => simp [List.cons_prefix_cons]

theorem spelled_slash (path name : String) (found : path ≠ "") (good : Component name) :
    spelled (path ++ "/" ++ name) = spelled path ++ [name] := by
  have text : (path ++ "/" ++ name).toList = path.toList ++ '/' :: name.toList := by simp
  rw [spelled, spelled, String.append_assoc, startsWith_append path _ found, ← String.append_assoc, text, parts_slash,
    parts_name name good]
  split <;> rfl

end FileTree

open FileTree

theorem joinPath_ne (directory name : String) (good : Component name) : joinPath directory name ≠ "" := by
  rw [joinPath]
  split <;> simp [good.notEmpty]

theorem joinPath_append (directory name rest : String) :
    joinPath directory name ++ rest = joinPath directory (name ++ rest) := by
  rw [joinPath, joinPath]
  split <;> simp only [String.append_assoc]

theorem spelled_joinPath (directory name : String) (found : directory ≠ "") (good : Component name) :
    spelled (joinPath directory name) = spelled directory ++ [name] := by
  rw [joinPath]
  by_cases slash : directory.endsWith "/" = true
  · -- The slash at the end spells out nothing of its own.
    obtain ⟨before, text⟩ := (endsWith_iff directory "/").mp slash
    have text : directory.toList = before ++ '/' :: [] := text.symm
    have whole : (directory ++ name).toList = before ++ '/' :: name.toList := by simp [text]
    rw [if_pos (by simp [slash]), spelled, spelled, startsWith_append directory _ found, whole, text, parts_slash,
      parts_slash, parts_nil, List.append_nil, parts_name name good]
    split <;> rfl
  · rw [if_neg (by simp [found, slash])]
    exact spelled_slash directory name found good

theorem nul_joinPath (directory name : String) (nulless : '\x00' ∉ directory.toList) (good : Names name) :
    '\x00' ∉ (joinPath directory name).toList := by
  rw [joinPath]
  split <;> simp [nulless, good.nulless]

theorem size_joinPath (directory name : String) :
    (joinPath directory name).utf8ByteSize ≤ directory.utf8ByteSize + 1 + name.utf8ByteSize := by
  have slash : "/".utf8ByteSize = 1 := rfl
  rw [joinPath]
  split <;> simp only [String.utf8ByteSize_append, slash] <;> omega

theorem le_joinPath (directory name : String) : directory.utf8ByteSize ≤ (joinPath directory name).utf8ByteSize := by
  rw [joinPath]
  split <;> simp only [String.utf8ByteSize_append] <;> omega

namespace TemplateName.path

variable (root : String) (found : root ≠ "") (segments : List String)

section Components

variable (good : ∀ name ∈ segments, Component name)

include found good

theorem joinAll_ne : joinAll root segments ≠ "" := by
  induction segments generalizing root with
  | nil => exact found
  | cons name rest ih =>
      obtain ⟨first, others⟩ := List.forall_mem_cons.mp good
      exact ih (joinPath root name) (joinPath_ne root name first) others

theorem spelled_joinAll : spelled (joinAll root segments) = spelled root ++ segments := by
  induction segments generalizing root with
  | nil => rw [List.append_nil]; rfl
  | cons name rest ih =>
      obtain ⟨first, others⟩ := List.forall_mem_cons.mp good
      have joined := ih (joinPath root name) (joinPath_ne root name first) others
      rw [spelled_joinPath root name found first, List.append_assoc] at joined
      exact joined

end Components

theorem nul_joinAll (good : ∀ name ∈ segments, Names name) (nulless : '\x00' ∉ root.toList) :
    '\x00' ∉ (joinAll root segments).toList := by
  induction segments generalizing root with
  | nil => exact nulless
  | cons name rest ih =>
      obtain ⟨first, others⟩ := List.forall_mem_cons.mp good
      exact ih (joinPath root name) others (nul_joinPath root name nulless first)

end TemplateName.path

end Stencil
