import Stencil.Proofs.Json.Record
import Stencil.Proofs.Value.Fields

set_option autoImplicit false

namespace Stencil

mutual
def Value.Ordered : Value → Prop
  | .list items => Value.OrderedItems items
  | .object fields => Fields.Ordered fields ∧ Value.OrderedFields fields
  | _ => True

def Value.OrderedItems : List Value → Prop
  | [] => True
  | item :: rest => item.Ordered ∧ Value.OrderedItems rest

def Value.OrderedFields : List (String × Value) → Prop
  | [] => True
  | (_, value) :: rest => value.Ordered ∧ Value.OrderedFields rest
end

def Number.FloatReadsBack : Number → Prop
  | .int _ _ => True
  | .float x finite => (Number.float x finite).reread? = some (.float x finite)

mutual
def Value.FloatsReadBack : Value → Prop
  | .number n => n.FloatReadsBack
  | .list items => Value.FloatsReadBackItems items
  | .object fields => Value.FloatsReadBackFields fields
  | _ => True

def Value.FloatsReadBackItems : List Value → Prop
  | [] => True
  | item :: rest => item.FloatsReadBack ∧ Value.FloatsReadBackItems rest

def Value.FloatsReadBackFields : List (String × Value) → Prop
  | [] => True
  | (_, value) :: rest => value.FloatsReadBack ∧ Value.FloatsReadBackFields rest
end

theorem Number.reread_self (n : Number) (reads : n.FloatReadsBack) : n.reread? = some n := by
  cases n with
  | int n fits => exact Number.reread_int n fits
  | float x finite => exact reads

theorem Value.orderedFields_of_forall (fields : List (String × Value))
    (all : ∀ name value, (name, value) ∈ fields → value.Ordered) : Value.OrderedFields fields := by
  induction fields with
  | nil => trivial
  | cons field rest ih =>
      exact ⟨all field.1 field.2 (List.mem_cons_self ..), ih fun name value inside =>
        all name value (List.mem_cons_of_mem _ inside)⟩

namespace Json

mutual
theorem ordered_toValue (tree : Tree) (value : Value) (read : tree.toValue? = some value) :
    value.Ordered := by
  cases tree with
  | null | bool _ | number _ | string _ =>
      simp only [Tree.toValue?, Option.some.injEq] at read
      rw [← read]
      trivial
  | array items =>
      simp only [Tree.toValue?, Option.map_eq_some_iff] at read
      obtain ⟨values, inner, rfl⟩ := read
      exact ordered_itemValues items values inner
  | object members =>
      simp only [Tree.toValue?, Option.map_eq_some_iff] at read
      obtain ⟨entries, inner, rfl⟩ := read
      refine ⟨Fields.ordered_ofList entries, ?_⟩
      exact Value.orderedFields_of_forall _ fun name value inside =>
        ordered_memberValues members entries inner name value (Fields.mem_ofList entries _ inside)
  | unreadable => simp [Tree.toValue?] at read

theorem ordered_itemValues (items : List Tree) (values : List Value)
    (read : itemValues? items = some values) : Value.OrderedItems values := by
  cases items with
  | nil =>
      obtain rfl := Option.some.inj read
      trivial
  | cons item rest =>
      rw [itemValues?] at read
      split at read
      · rename_i first others
        obtain rfl := Option.some.inj read
        exact ⟨ordered_toValue item _ first, ordered_itemValues rest _ others⟩
      · simp at read

theorem ordered_memberValues (members : List (String × Tree)) (entries : List (String × Value))
    (read : memberValues? members = some entries) (name : String) (value : Value)
    (inside : (name, value) ∈ entries) : value.Ordered := by
  match members with
  | [] =>
      obtain rfl := Option.some.inj read
      simp at inside
  | (_, member) :: rest =>
      rw [memberValues?] at read
      split at read
      · rename_i first others
        obtain rfl := Option.some.inj read
        rcases List.mem_cons.mp inside with here | later
        · obtain ⟨rfl, rfl⟩ := here
          exact ordered_toValue member _ first
        · exact ordered_memberValues rest _ others name value later
      · simp at read
end

mutual
theorem toValue_ofValue (value : Value) (ordered : value.Ordered) :
    (Tree.ofValue value).toValue? = some value := by
  cases value with
  | null | bool _ | number _ | string _ => rfl
  | list items => rw [Tree.ofValue, Tree.toValue?, itemValues_ofValues items ordered, Option.map_some]
  | object fields =>
      rw [Tree.ofValue, Tree.toValue?, memberValues_ofFields fields ordered.2, Option.map_some,
        Fields.ofList_ordered fields ordered.1]

theorem itemValues_ofValues (items : List Value) (ordered : Value.OrderedItems items) :
    itemValues? (ofValues items) = some items := by
  cases items with
  | nil => rfl
  | cons item rest =>
      rw [ofValues, itemValues?, toValue_ofValue item ordered.1, itemValues_ofValues rest ordered.2]

theorem memberValues_ofFields (fields : List (String × Value)) (ordered : Value.OrderedFields fields) :
    memberValues? (ofFields fields) = some fields := by
  match fields with
  | [] => rfl
  | (name, value) :: rest =>
      rw [ofFields, memberValues?, toValue_ofValue value ordered.1, memberValues_ofFields rest ordered.2]
end

mutual
theorem reread_ofValue (value : Value) (reads : value.FloatsReadBack) :
    (Tree.ofValue value).reread = Tree.ofValue value := by
  cases value with
  | null | bool _ | string _ => rfl
  | number n =>
      rw [Tree.ofValue, Tree.reread, rereadNumber, n.reread_self reads]
      rfl
  | list items => rw [Tree.ofValue, Tree.reread, reread_ofValues items reads]
  | object fields => rw [Tree.ofValue, Tree.reread, reread_ofFields fields reads]

theorem reread_ofValues (items : List Value) (reads : Value.FloatsReadBackItems items) :
    rereadItems (ofValues items) = ofValues items := by
  cases items with
  | nil => rfl
  | cons item rest => rw [ofValues, rereadItems, reread_ofValue item reads.1, reread_ofValues rest reads.2]

theorem reread_ofFields (fields : List (String × Value)) (reads : Value.FloatsReadBackFields fields) :
    rereadMembers (ofFields fields) = ofFields fields := by
  match fields with
  | [] => rfl
  | (name, value) :: rest =>
      rw [ofFields, rereadMembers, reread_ofValue value reads.1, reread_ofFields rest reads.2]
end

mutual
theorem isReadable_ofValue (value : Value) : (Tree.ofValue value).isReadable = true := by
  cases value with
  | null | bool _ | number _ | string _ => rfl
  | list items => exact isReadable_ofValues items
  | object fields => exact isReadable_ofFields fields

theorem isReadable_ofValues (items : List Value) : allReadable (ofValues items) = true := by
  cases items with
  | nil => rfl
  | cons item rest =>
      rw [ofValues, allReadable, isReadable_ofValue item, isReadable_ofValues rest]
      rfl

theorem isReadable_ofFields (fields : List (String × Value)) :
    allReadableMembers (ofFields fields) = true := by
  match fields with
  | [] => rfl
  | (name, value) :: rest =>
      rw [ofFields, allReadableMembers, isReadable_ofValue value, isReadable_ofFields rest]
      rfl
end

end Json

def Value.reread? (value : Value) : Option Value := (Json.Tree.ofValue value).reread.toValue?

theorem Value.reread_self (value : Value) (ordered : value.Ordered) (reads : value.FloatsReadBack) :
    value.reread? = some value := by
  rw [reread?, Json.reread_ofValue value reads, Json.toValue_ofValue value ordered]

end Stencil
