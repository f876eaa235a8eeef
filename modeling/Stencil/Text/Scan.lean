set_option autoImplicit false

namespace Stencil.Text

def byteSize : List Char → Nat
  | [] => 0
  | c :: rest => c.utf8Size + byteSize rest

theorem byteSize_append (first second : List Char) : byteSize (first ++ second) = byteSize first + byteSize second := by
  induction first with
  | nil => exact (Nat.zero_add _).symm
  | cons c rest ih => rw [List.cons_append, byteSize, byteSize, ih, Nat.add_assoc]

def breaks (text : List Char) : Nat := text.count '\n'

def prepend (c : Char) (parts : Option (List Char × List Char)) : Option (List Char × List Char) :=
  parts.map fun (before, after) => (c :: before, after)

theorem prepend_eq_some {c : Char} {parts : Option (List Char × List Char)}
    {before after : List Char} : prepend c parts = some (before, after) ↔
      ∃ inner, parts = some (inner, after) ∧ before = c :: inner := by
  cases parts with
  | none => simp [prepend]
  | some pair =>
      obtain ⟨inner, tail⟩ := pair
      simp only [prepend, Option.map_some, Option.some.injEq, Prod.mk.injEq]
      constructor
      · rintro ⟨rfl, rfl⟩
        exact ⟨inner, ⟨rfl, rfl⟩, rfl⟩
      · rintro ⟨_, ⟨rfl, rfl⟩, rfl⟩
        exact ⟨rfl, rfl⟩

def behind? : List Char → List Char → Option (List Char)
  | [], text => some text
  | _ :: _, [] => none
  | m :: mark, c :: text => if m = c then behind? mark text else none

theorem behind_eq_some {mark text after : List Char} :
    behind? mark text = some after ↔ text = mark ++ after := by
  induction mark generalizing text with
  | nil => simp [behind?]
  | cons m mark ih =>
      cases text with
      | nil => simp [behind?]
      | cons c text =>
          by_cases same : m = c
          · simp [behind?, same, ih]
          · simp [behind?, same, Ne.symm same]

def cut (mark : List Char) : List Char → Option (List Char × List Char)
  | [] => if mark.isEmpty then some ([], []) else none
  | c :: rest =>
      match behind? mark (c :: rest) with
      | some after => some ([], after)
      | none => prepend c (cut mark rest)

theorem eq_append_of_cut (mark text before after : List Char)
    (found : cut mark text = some (before, after)) : text = before ++ mark ++ after := by
  induction text generalizing before with
  | nil =>
      simp only [cut] at found
      split at found
      · simp_all
      · simp at found
  | cons c rest ih =>
      simp only [cut] at found
      split at found
      · rename_i tail here
        simp only [Option.some.injEq, Prod.mk.injEq] at found
        obtain ⟨rfl, rfl⟩ := found
        simpa using behind_eq_some.mp here
      · obtain ⟨early, inside, rfl⟩ := prepend_eq_some.mp found
        simp [ih early inside]

theorem length_of_cut {mark text before after : List Char}
    (found : cut mark text = some (before, after)) :
    text.length = before.length + mark.length + after.length := by
  simp [eq_append_of_cut mark text before after found, Nat.add_assoc]

end Stencil.Text
