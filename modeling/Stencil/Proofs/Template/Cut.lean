import Stencil.Template.Echo
import Stencil.Template.Invocation

set_option autoImplicit false

namespace Stencil

namespace Text

theorem behind_append {mark text after : List Char} (other : List Char) (found : behind? mark text = some after) :
    behind? mark (text ++ other) = some (after ++ other) := by
  rw [behind_eq_some] at found ⊢
  rw [found, List.append_assoc]

theorem behind_within {mark front : List Char} (other : List Char) (enough : mark.length ≤ front.length)
    (absent : behind? mark front = none) : behind? mark (front ++ other) = none := by
  cases found : behind? mark (front ++ other) with
  | none => rfl
  | some after =>
      have whole := behind_eq_some.mp found
      obtain ⟨tail, same⟩ := List.prefix_of_prefix_length_le ⟨after, whole.symm⟩ (List.prefix_append front other) enough
      rw [behind_eq_some.mpr same.symm] at absent
      cases absent

theorem cut_start (mark other : List Char) : cut mark (mark ++ other) = some ([], other) := by
  cases mark with
  | nil => cases other <;> rfl
  | cons c mark =>
      have first : behind? (c :: mark) (c :: (mark ++ other)) = some other := behind_eq_some.mpr rfl
      rw [List.cons_append, cut, first]

theorem cut_before (mark text before after other : List Char) (found : cut mark text = some (before, after)) :
    cut mark (before ++ (mark ++ other)) = some (before, other) := by
  induction text generalizing before with
  | nil =>
      rw [cut] at found
      by_cases empty : mark.isEmpty = true
      · rw [if_pos empty] at found
        obtain ⟨rfl, rfl⟩ := Prod.mk.inj (Option.some.inj found)
        exact cut_start mark other
      · rw [if_neg empty] at found
        cases found
  | cons c rest ih =>
      have whole := eq_append_of_cut mark (c :: rest) before after found
      rw [cut] at found
      cases here : behind? mark (c :: rest) with
      | some tail =>
          rw [here] at found
          obtain ⟨rfl, rfl⟩ := Prod.mk.inj (Option.some.inj found)
          exact cut_start mark other
      | none =>
          rw [here] at found
          obtain ⟨inner, later, rfl⟩ := prepend_eq_some.mp found
          have absent : behind? mark (c :: inner ++ mark) = none := by
            cases early : behind? mark (c :: inner ++ mark) with
            | none => rfl
            | some tail =>
                rw [whole, behind_append after early] at here
                cases here
          have still : behind? mark (c :: (inner ++ (mark ++ other))) = none := by
            have enough : mark.length ≤ (c :: inner ++ mark).length := by
              rw [List.length_append]
              omega
            have further := behind_within other enough absent
            rwa [List.append_assoc, List.cons_append] at further
          rw [List.cons_append, cut, still]
          exact prepend_eq_some.mpr ⟨inner, ih inner later, rfl⟩

theorem cut_absent (mark text before after : List Char) (nonempty : mark ≠ [])
    (found : cut mark text = some (before, after)) : cut mark before = none := by
  have empty : ¬ mark.isEmpty = true := fun empty => nonempty (List.isEmpty_iff.mp empty)
  induction text generalizing before with
  | nil =>
      rw [cut, if_neg empty] at found
      cases found
  | cons c rest ih =>
      have whole := eq_append_of_cut mark (c :: rest) before after found
      rw [cut] at found
      cases here : behind? mark (c :: rest) with
      | some tail =>
          rw [here] at found
          obtain ⟨rfl, rfl⟩ := Prod.mk.inj (Option.some.inj found)
          rw [cut, if_neg empty]
      | none =>
          rw [here] at found
          obtain ⟨inner, later, rfl⟩ := prepend_eq_some.mp found
          rw [cut]
          cases early : behind? mark (c :: inner) with
          | some tail =>
              rw [whole, List.append_assoc, behind_append _ early] at here
              cases here
          | none => rw [ih inner later, prepend, Option.map_none]

end Text

namespace Template

theorem breaks_append (first second : List Char) :
    Text.breaks (first ++ second) = Text.breaks first + Text.breaks second := List.count_append

theorem breaks_enclosed (opener closer : List Char) (noneBefore : Text.breaks opener = 0)
    (noneBehind : Text.breaks closer = 0) (inside : List Char) :
    Text.breaks (opener ++ inside ++ closer) = Text.breaks inside := by
  rw [breaks_append, breaks_append, noneBefore, noneBehind, Nat.zero_add, Nat.add_zero]

theorem cutBetween_eq_some (opener closer text before body after : List Char) :
    cutBetween opener closer text = some (before, body, after) ↔
      ∃ inside, Text.cut opener text = some (before, inside) ∧ Text.cut closer inside = some (body, after) := by
  unfold cutBetween
  constructor
  · intro found
    cases first : Text.cut opener text with
    | none =>
        rw [first] at found
        cases found
    | some parts =>
        obtain ⟨early, inside⟩ := parts
        rw [first] at found
        obtain ⟨⟨content, rest⟩, second, same⟩ := Option.map_eq_some_iff.mp found
        simp only [Prod.mk.injEq] at same
        obtain ⟨rfl, rfl, rfl⟩ := same
        exact ⟨inside, rfl, second⟩
  · intro ⟨inside, first, second⟩
    simp only [first, second, Option.map_some]

theorem eq_append_of_cutBetween (opener closer text before body after : List Char)
    (found : cutBetween opener closer text = some (before, body, after)) :
    text = before ++ (opener ++ body ++ closer) ++ after := by
  obtain ⟨inside, first, second⟩ := (cutBetween_eq_some _ _ _ _ _ _).mp found
  rw [Text.eq_append_of_cut _ _ _ _ first, Text.eq_append_of_cut _ _ _ _ second]
  simp

theorem cutBetween_before (opener closer text before body after other : List Char)
    (found : cutBetween opener closer text = some (before, body, after)) :
    cutBetween opener closer (before ++ (opener ++ body ++ closer) ++ other) = some (before, body, other) := by
  obtain ⟨inside, first, second⟩ := (cutBetween_eq_some _ _ _ _ _ _).mp found
  refine (cutBetween_eq_some _ _ _ _ _ _).mpr ⟨body ++ (closer ++ other), ?_, ?_⟩
  · have again := Text.cut_before opener text before inside (body ++ (closer ++ other)) first
    simp only [List.append_assoc] at again ⊢
    exact again
  · exact Text.cut_before closer inside body after other second

theorem cutBetween_absent (opener closer text before body after : List Char) (nonempty : opener ≠ [])
    (found : cutBetween opener closer text = some (before, body, after)) : cutBetween opener closer before = none := by
  obtain ⟨inside, first, _⟩ := (cutBetween_eq_some _ _ _ _ _ _).mp found
  rw [cutBetween, Text.cut_absent opener text before inside nonempty first]

theorem named_eq (text after : List Char) (d : Directive) (found : named? text = some (d, after)) :
    text = d.name.toList ++ after := by
  simp only [named?, Option.map_eq_some_iff, Prod.mk.injEq] at found
  obtain ⟨d, known, rfl, rfl⟩ := found
  have same := List.find?_some known
  rw [beq_iff_eq] at same
  rw [same, String.toList_ofList, List.takeWhile_append_dropWhile]

theorem nextDirective_eq (afterWord : Bool) (text before after : List Char) (d : Directive)
    (found : nextDirective? afterWord text = some (before, d, after)) :
    text = before ++ '@' :: (d.name.toList ++ after) := by
  induction text generalizing afterWord before with
  | nil => simp [nextDirective?] at found
  | cons c rest ih =>
      rw [nextDirective?] at found
      split at found
      · rename_i here
        split at here
        · rename_i mark
          rw [Bool.and_eq_true, decide_eq_true_eq] at mark
          obtain ⟨rfl, rfl, rfl⟩ := Option.some.inj found
          rw [← named_eq rest after d here, mark.1]
          rfl
        · simp at here
      · simp only [Option.map_eq_some_iff, Prod.mk.injEq] at found
        obtain ⟨⟨early, e, tail⟩, inside, rfl, rfl, rfl⟩ := found
        rw [ih _ early inside]
        rfl

theorem breaks_name (d : Directive) : Text.breaks d.name.toList = 0 := by
  cases d <;> decide +kernel

theorem group_of_groupRest (quote : Option Char) (depth : Nat) (text group after : List Char)
    (found : groupRest? quote depth text = some (group, after)) :
    groupRest? quote depth group = some (group, []) := by
  fun_induction groupRest? quote depth text generalizing group with
  | case1 => cases found
  | case2 => cases found
  | case3 depth q c rest ih =>
      obtain ⟨outer, inside, rfl⟩ := Text.prepend_eq_some.mp found
      obtain ⟨inner, within, rfl⟩ := Text.prepend_eq_some.mp inside
      simp [groupRest?, ih inner within, Text.prepend]
  | case4 depth rest q plain ih =>
      obtain ⟨inner, inside, rfl⟩ := Text.prepend_eq_some.mp found
      rw [groupRest?.eq_def]
      simp only [if_neg plain, if_pos, ih inner inside, Text.prepend, Option.map_some]
  | case5 depth c rest q plain other ih =>
      obtain ⟨inner, inside, rfl⟩ := Text.prepend_eq_some.mp found
      rw [groupRest?.eq_def]
      simp only [if_neg plain, if_neg other, ih inner inside, Text.prepend, Option.map_some]
  | case6 depth c rest quoted ih =>
      obtain ⟨inner, inside, rfl⟩ := Text.prepend_eq_some.mp found
      rw [groupRest?, if_pos quoted, ih inner inside, Text.prepend, Option.map_some]
  | case7 depth rest unquoted ih =>
      obtain ⟨inner, inside, rfl⟩ := Text.prepend_eq_some.mp found
      rw [groupRest?, if_neg unquoted, if_pos rfl, ih inner inside, Text.prepend, Option.map_some]
  | case8 depth rest last unquoted other =>
      obtain ⟨rfl, rfl⟩ := Prod.mk.inj (Option.some.inj found)
      rw [groupRest?, if_neg unquoted, if_neg other, if_pos rfl, if_pos last]
  | case9 depth rest more unquoted other ih =>
      obtain ⟨inner, inside, rfl⟩ := Text.prepend_eq_some.mp found
      rw [groupRest?, if_neg unquoted, if_neg other, if_pos rfl, if_neg more, ih inner inside, Text.prepend,
        Option.map_some]
  | case10 depth c rest unquoted opens closes ih =>
      obtain ⟨inner, inside, rfl⟩ := Text.prepend_eq_some.mp found
      rw [groupRest?, if_neg unquoted, if_neg opens, if_neg closes, ih inner inside, Text.prepend, Option.map_some]

end Template

end Stencil
