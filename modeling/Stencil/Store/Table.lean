set_option autoImplicit false

namespace Stencil

-- No name stands twice.
abbrev Table (α : Type) : Type := List (String × α)

namespace Table

variable {α : Type}

def get? (name : String) : Table α → Option α
  | [] => none
  | (other, a) :: rest => if other = name then some a else get? name rest

def set (name : String) (a : α) : Table α → Table α
  | [] => [(name, a)]
  | (other, old) :: rest =>
      if other = name then (name, a) :: rest else (other, old) :: set name a rest

theorem get_set (table : Table α) (name query : String) (a : α) :
    (table.set name a).get? query = if query = name then some a else table.get? query := by
  induction table with
  | nil => simp only [set, get?, eq_comm]
  | cons entry rest ih =>
      obtain ⟨other, old⟩ := entry
      by_cases hit : other = name
      · subst hit
        by_cases same : query = other
        · simp [set, get?, same]
        · simp [set, get?, same, Ne.symm same]
      · by_cases found : other = query
        · subst found
          simp [set, get?, hit]
        · simp [set, get?, hit, found, ih]

end Table

end Stencil
