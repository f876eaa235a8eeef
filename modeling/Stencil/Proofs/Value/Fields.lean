import Stencil.Value.Basic

set_option autoImplicit false

namespace Stencil.Fields

def Ordered (fields : Fields) : Prop := fields.Pairwise fun before after => before.1 < after.1

theorem mem_insert (name : String) (value : Value) (fields : Fields) (field : String × Value)
    (inside : field ∈ insert name value fields) : field = (name, value) ∨ field ∈ fields := by
  induction fields with
  | nil => exact Or.inl (List.mem_singleton.mp inside)
  | cons first rest ih =>
      obtain ⟨other, old⟩ := first
      rw [insert] at inside
      split at inside
      · exact List.mem_cons.mp inside
      · split at inside
        · exact (List.mem_cons.mp inside).imp_right (List.mem_cons_of_mem _)
        · rcases List.mem_cons.mp inside with here | later
          · exact Or.inr (here ▸ List.mem_cons_self ..)
          · exact (ih later).imp_right (List.mem_cons_of_mem _)

theorem mem_foldl (entries fields : Fields) (field : String × Value)
    (inside : field ∈ entries.foldl (fun all (name, value) => insert name value all) fields) :
    field ∈ fields ∨ field ∈ entries := by
  induction entries generalizing fields with
  | nil => exact Or.inl inside
  | cons entry entries ih =>
      rcases ih _ inside with before | later
      · rcases mem_insert entry.1 entry.2 fields field before with here | old
        · exact Or.inr (here ▸ List.mem_cons_self ..)
        · exact Or.inl old
      · exact Or.inr (List.mem_cons_of_mem _ later)

theorem mem_ofList (entries : List (String × Value)) (field : String × Value)
    (inside : field ∈ ofList entries) : field ∈ entries :=
  (mem_foldl entries [] field inside).resolve_left (List.not_mem_nil)

theorem ordered_insert (name : String) (value : Value) (fields : Fields) (ordered : Ordered fields) :
    Ordered (insert name value fields) := by
  induction fields with
  | nil => exact List.pairwise_singleton _ _
  | cons first rest ih =>
      obtain ⟨other, old⟩ := first
      obtain ⟨least, sorted⟩ := List.pairwise_cons.mp ordered
      rw [insert]
      by_cases before : name < other
      · rw [if_pos before]
        refine List.pairwise_cons.mpr ⟨fun field inside => ?_, ordered⟩
        rcases List.mem_cons.mp inside with here | later
        · exact here ▸ before
        · exact String.lt_trans before (least field later)
      · rw [if_neg before]
        by_cases same : name = other
        · rw [if_pos same, same]
          exact List.pairwise_cons.mpr ⟨least, sorted⟩
        · rw [if_neg same]
          have after : other < name := Std.lt_of_le_of_ne (String.not_lt.mp before) (Ne.symm same)
          refine List.pairwise_cons.mpr ⟨fun field inside => ?_, ih sorted⟩
          rcases mem_insert name value rest field inside with here | later
          · exact here ▸ after
          · exact least field later

theorem ordered_foldl (entries fields : Fields) (ordered : Ordered fields) :
    Ordered (entries.foldl (fun all (name, value) => insert name value all) fields) := by
  induction entries generalizing fields with
  | nil => exact ordered
  | cons entry entries ih => exact ih _ (ordered_insert entry.1 entry.2 fields ordered)

theorem ordered_ofList (entries : List (String × Value)) : Ordered (ofList entries) :=
  ordered_foldl entries [] List.Pairwise.nil

theorem insert_last (name : String) (value : Value) (fields : Fields)
    (last : ∀ field ∈ fields, field.1 < name) : insert name value fields = fields ++ [(name, value)] := by
  induction fields with
  | nil => rfl
  | cons first rest ih =>
      obtain ⟨other, old⟩ := first
      have less : other < name := last (other, old) (List.mem_cons_self ..)
      have later : ¬ name < other := String.lt_asymm less
      have differ : name ≠ other := fun same => String.lt_irrefl other (same ▸ less)
      rw [insert, if_neg later, if_neg differ, ih fun field inside => last field (List.mem_cons_of_mem _ inside)]
      rfl

theorem foldl_append (entries fields : Fields) (ordered : Ordered (fields ++ entries)) :
    entries.foldl (fun all (name, value) => insert name value all) fields = fields ++ entries := by
  induction entries generalizing fields with
  | nil => exact (List.append_nil _).symm
  | cons entry entries ih =>
      obtain ⟨name, value⟩ := entry
      obtain ⟨_, _, across⟩ := List.pairwise_append.mp ordered
      have last := insert_last name value fields fun field inside =>
        across field inside (name, value) (List.mem_cons_self ..)
      have regrouped : fields ++ (name, value) :: entries = (fields ++ [(name, value)]) ++ entries := by
        simp
      rw [regrouped] at ordered ⊢
      rw [List.foldl_cons]
      dsimp only
      rw [last]
      exact ih _ ordered

theorem ofList_ordered (fields : Fields) (ordered : Ordered fields) : ofList fields = fields :=
  foldl_append fields [] ordered

theorem get_cons (name query : String) (value : Value) (rest : Fields) :
    get? ((name, value) :: rest) query = if query = name then some value else get? rest query := by
  by_cases same : query = name
  · simp [get?, same]
  · have missed : (query == name) = false := by simpa using same
    simp [get?, List.lookup_cons, missed, same]

-- The order does not matter here, since the first field of a name counts.
theorem get_insert (fields : Fields) (name query : String) (value : Value) :
    get? (insert name value fields) query = if query = name then some value else get? fields query := by
  induction fields with
  | nil => rw [insert, get_cons]
  | cons field rest ih =>
      obtain ⟨other, old⟩ := field
      rw [insert]
      by_cases before : name < other
      · rw [if_pos before, get_cons]
      · rw [if_neg before]
        by_cases hit : name = other
        · rw [if_pos hit, get_cons, get_cons, hit]
          by_cases same : query = other
          · rw [if_pos same, if_pos same]
          · rw [if_neg same, if_neg same, if_neg same]
        · rw [if_neg hit, get_cons, get_cons, ih]
          by_cases found : query = other
          · rw [if_pos found, if_neg (found ▸ Ne.symm hit), if_pos found]
          · rw [if_neg found, if_neg found]

end Stencil.Fields
