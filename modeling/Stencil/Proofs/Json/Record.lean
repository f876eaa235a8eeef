import Stencil.Json.Record
import Stencil.Proofs.Json.Printed

set_option autoImplicit false

namespace Stencil.Json

theorem named_val (members : List (String × Tree)) (name : String) :
    (named members name).map Subtype.val
      = (members.filter fun member => member.1 = name).map Prod.snd := by
  rw [named, List.map_filterMap, ← List.filterMap_eq_filter, List.map_filterMap]
  conv => rhs; rw [← List.attach_map_subtype_val members, List.filterMap_map]
  congr
  funext ⟨⟨other, part⟩, inside⟩
  by_cases same : other = name <;> simp [same, Option.guard]

theorem filter_name (members : List (String × Tree)) (name : String) (part : Tree)
    (distinct : (members.map Prod.fst).Nodup) (inside : (name, part) ∈ members) :
    members.filter (fun member => member.1 = name) = [(name, part)] := by
  induction members with
  | nil => simp at inside
  | cons member rest ih =>
      rw [List.map_cons, List.nodup_cons] at distinct
      rcases List.mem_cons.mp inside with here | later
      · subst here
        rw [List.filter_cons_of_pos (by simp), List.filter_eq_nil_iff.mpr]
        intro other among same
        exact distinct.1 (List.mem_map.mpr ⟨other, among, of_decide_eq_true same⟩)
      · have other : member.1 ≠ name := fun same =>
          distinct.1 (List.mem_map.mpr ⟨(name, part), later, same.symm⟩)
        rw [List.filter_cons_of_neg (by simpa using other), ih distinct.2 later]

theorem named_of_mem (members : List (String × Tree)) (name : String) (part : Tree)
    (distinct : (members.map Prod.fst).Nodup) (inside : (name, part) ∈ members) :
    ∃ smaller, named members name = [⟨part, smaller⟩] := by
  have values := named_val members name
  rw [filter_name members name part distinct inside] at values
  cases parts : named members name with
  | nil => simp [parts] at values
  | cons first rest =>
      simp only [parts, List.map_cons, List.map_nil, List.cons.injEq, List.map_eq_nil_iff] at values
      obtain ⟨value, smaller⟩ := first
      obtain ⟨rfl, rfl⟩ := values
      exact ⟨smaller, rfl⟩

theorem fieldOf_of_mem (members : List (String × Tree)) (field : Field) (part : Tree)
    (distinct : (members.map Prod.fst).Nodup) (inside : (field.name, part) ∈ members) :
    ∃ smaller, fieldOf? members field = some ⟨part, smaller⟩ := by
  obtain ⟨smaller, found⟩ := named_of_mem members field.name part distinct inside
  exact ⟨smaller, by rw [fieldOf?, found]⟩

theorem fields_of_mem (members : List (String × Tree)) (distinct : (members.map Prod.fst).Nodup)
    (fields : List Field) (parts : List Tree) (count : fields.length = parts.length)
    (inside : ∀ member ∈ (fields.map Field.name).zip parts, member ∈ members) :
    ∃ smaller, fields.mapM (fieldOf? members) = some (parts.attachWith _ smaller) := by
  induction fields generalizing parts with
  | nil =>
      obtain rfl := List.eq_nil_of_length_eq_zero count.symm
      exact ⟨fun _ none => by simp at none, rfl⟩
  | cons field fields ih =>
      cases parts with
      | nil => simp at count
      | cons part parts =>
          simp only [List.map_cons, List.zip_cons_cons, List.forall_mem_cons] at inside
          obtain ⟨here, first⟩ := fieldOf_of_mem members field part distinct inside.1
          obtain ⟨smaller, others⟩ := ih parts (Nat.succ.inj count) inside.2
          refine ⟨List.forall_mem_cons.mpr ⟨here, smaller⟩, ?_⟩
          rw [List.mapM_cons, first, others]
          rfl

theorem names_zip (fields : List Field) (parts : List Tree) (count : fields.length = parts.length) :
    ((fields.map Field.name).zip parts).map Prod.fst = fields.map Field.name := by
  rw [List.map_fst_zip]
  simp [count]

theorem rereadMembers_zip (names : List String) (parts : List Tree) :
    rereadMembers (names.zip parts) = names.zip (rereadItems parts) := by
  induction names generalizing parts with
  | nil => rfl
  | cons name names ih =>
      cases parts with
      | nil => rfl
      | cons part parts => simp only [List.zip_cons_cons, rereadMembers, rereadItems, ih]

theorem reread_record (fields : List Field) (parts : List Tree) :
    (Tree.record fields parts).reread = Tree.record fields (rereadItems parts) := by
  rw [Tree.record, Tree.reread, rereadMembers_zip, Tree.record]

theorem allReadableMembers_zip (names : List String) (parts : List Tree)
    (readable : allReadable parts = true) : allReadableMembers (names.zip parts) = true := by
  induction names generalizing parts with
  | nil => rfl
  | cons name names ih =>
      cases parts with
      | nil => rfl
      | cons part parts =>
          rw [allReadable, Bool.and_eq_true] at readable
          rw [List.zip_cons_cons, allReadableMembers, readable.1, ih parts readable.2]
          rfl

theorem isReadable_record (fields : List Field) (parts : List Tree)
    (readable : allReadable parts = true) : (Tree.record fields parts).isReadable = true := by
  rw [Tree.record, Tree.isReadable, allReadableMembers_zip _ parts readable]

theorem rereadItems_eq_map (items : List Tree) : rereadItems items = items.map Tree.reread := by
  induction items with
  | nil => rfl
  | cons item items ih => rw [rereadItems, List.map_cons, ih]

theorem length_rereadItems (parts : List Tree) : (rereadItems parts).length = parts.length := by
  rw [rereadItems_eq_map, List.length_map]

theorem allReadable_of_forall (items : List Tree) (all : ∀ item ∈ items, item.isReadable = true) :
    allReadable items = true := by
  induction items with
  | nil => rfl
  | cons item items ih =>
      rw [allReadable, all item (List.mem_cons_self ..), ih fun other inside =>
        all other (List.mem_cons_of_mem _ inside)]
      rfl

theorem record_reread (fields : List Field) (parts : List Tree)
    (distinct : (fields.map Field.name).Nodup) (count : fields.length = parts.length) :
    ∃ smaller, (Tree.record fields parts).reread.record? fields
      = some ((rereadItems parts).attachWith _ smaller) := by
  rw [Tree.record, Tree.reread, rereadMembers_zip]
  have count' : fields.length = (rereadItems parts).length := by rw [length_rereadItems, count]
  rw [← names_zip fields _ count'] at distinct
  exact fields_of_mem _ distinct fields _ count' fun _ inside => inside

namespace Variant

variable {Form : Type}

def Distinct [DecidableEq Form] (variant : Variant Form) (form : Form) : Prop :=
  (variant.tag :: (variant.fields form).map Field.name).Nodup ∧
    variant.forms.find? (fun other => variant.name other == variant.name form) = some form

instance [DecidableEq Form] (variant : Variant Form) (form : Form) :
    Decidable (variant.Distinct form) := inferInstanceAs (Decidable (_ ∧ _))

theorem read_write [DecidableEq Form] (variant : Variant Form) (form : Form) (numbered : Bool)
    (parts : List Tree) (distinct : variant.Distinct form)
    (count : (variant.fields form).length = parts.length) :
    ∃ smaller, variant.read? numbered (variant.write form parts).reread
      = some (form, (rereadItems parts).attachWith _ smaller) := by
  obtain ⟨names, named⟩ := distinct
  have tagged : (Tree.string (variant.name form)).reread = .string (variant.name form) := rfl
  rw [write, Tree.reread, rereadMembers, rereadMembers_zip, tagged]
  have count' : (variant.fields form).length = (rereadItems parts).length := by
    rw [length_rereadItems, count]
  generalize rereadItems parts = values at count' ⊢
  have own : (((variant.tag, Tree.string (variant.name form))
      :: ((variant.fields form).map Field.name).zip values).map Prod.fst).Nodup := by
    rw [List.map_cons, names_zip _ _ count']
    exact names
  obtain ⟨_, tag⟩ := named_of_mem _ variant.tag _ own (List.mem_cons_self ..)
  obtain ⟨smaller, read⟩ := fields_of_mem _ own (variant.fields form) values count'
    fun _ inside => List.mem_cons_of_mem _ inside
  refine ⟨smaller, ?_⟩
  simp only [read?, tag, form?, named, Tree.record?, read, Option.bind_eq_bind, Option.bind_some,
    Option.pure_def]

theorem reread_write (variant : Variant Form) (form : Form) (parts : List Tree) :
    (variant.write form parts).reread = variant.write form (rereadItems parts) := by
  rw [write, Tree.reread, rereadMembers, rereadMembers_zip]
  rfl

theorem isReadable_write (variant : Variant Form) (form : Form) (parts : List Tree)
    (readable : allReadable parts = true) : (variant.write form parts).isReadable = true := by
  rw [write, Tree.isReadable, allReadableMembers, allReadableMembers_zip _ parts readable]
  rfl

end Variant

theorem reread_ofNat (n : Nat) : (Tree.ofNat n).reread = Tree.ofNat n := by
  rw [Tree.ofNat, Tree.reread, rereadNumber, Number.ofNat, Number.reread_int]
  rfl

theorem isReadable_ofNat (n : Nat) : (Tree.ofNat n).isReadable = true := rfl

theorem natural_reread (n : Nat) : (Tree.ofNat n).reread.natural? = some (n % Decimal.wordLimit) := by
  rw [reread_ofNat]
  rfl

theorem natural_lt (tree : Tree) (n : Nat) (read : tree.natural? = some n) : n < Decimal.wordLimit := by
  unfold Tree.natural? at read
  split at read
  · rename_i fits
    obtain rfl := Option.some.inj read
    have below : Int.ofNat _ < (0x10000000000000000 : Int) := fits.2
    exact Int.ofNat_lt.mp below
  · simp at read

theorem choice_reread {Choice : Type} (choices : List Choice) (name : Choice → String)
    (choice : Choice) (named : choices.find? (fun other => name other == name choice) = some choice) :
    (Tree.string (name choice)).reread.choice? choices name = some choice := named

end Stencil.Json
