import Stencil.Program.Compile
import Stencil.Proofs.Template.Account
import Stencil.Proofs.Template.Bytes
import Stencil.Proofs.Text.Slices

set_option autoImplicit false

namespace Stencil

open Template

namespace Sliced

def useFrom? (afterWord : Bool) (place : Nat) : List Char → Option (Nat × Nat)
  | [] => none
  | c :: rest =>
      let name := rest.takeWhile Text.isWord
      if c = '@' && !afterWord && !name.isEmpty then some (place, place + 1 + Text.byteSize name)
      else useFrom? (Text.isWord c) (place + c.utf8Size) rest

def endsInWord (text : List Char) : Bool := text.getLast?.any Text.isWord

-- The search knows what stands in front of the place at which it starts.
def use? (text : List Char) (search : Nat) : Run Fault (Option (Nat × Nat)) := do
  let front ← slice text 0 search
  let rest ← sliceFrom text search
  return useFrom? (endsInWord front) search rest

def argumentsAt (text : List Char) (d : Directive) (line afterName : Nat) : Run Fault (Option (List Char) × Nat) := do
  let _ ← sliceFrom text afterName
  let opening := skip isGap text afterName
  if (Text.bytes text)[opening]? = some '('.toUInt8 then
    match closingFrom? text opening with
    | none => refuse ⟨.malformed (.unbalanced d), line⟩
    | some close => do
        let group ← slice text opening (close + 1)
        return (some group, close + 1)
  else return (none, afterName)

-- The pieces from `cursor` on. The next use is looked for from `search` on, behind the names that are of no directive.
def usesAt (text : List Char) (line : Nat) : Nat → Nat → Nat → Run Fault (List Piece)
  | 0, _, _ => .error .unfinished
  | rounds + 1, cursor, search => do
      match ← use? text search with
      | none =>
          let rest ← sliceFrom text cursor
          return textPiece rest (← lineAt text line cursor)
      | some (start, stop) =>
          let name ← slice text (start + 1) stop
          match Directive.ofName? (String.ofList name) with
          | none => usesAt text line rounds cursor stop
          | some d =>
              let begins ← lineAt text line start
              let (args, behind) ← argumentsAt text d begins stop
              let front ← slice text cursor start
              let first ← lineAt text line cursor
              return textPiece front first ++ .directive d args begins :: (← usesAt text line rounds behind behind)

def directives (line : Nat) (text : List Char) : Run Fault (List Piece) := usesAt text line (text.length + 1) 0 0

section Search

def behind (passed : List Char) (next : Option (List Char × Directive × List Char)) :
    Option (List Char × Directive × List Char) :=
  next.map fun (before, d, after) => (passed ++ before, d, after)

theorem behind_behind (passed others : List Char) (next : Option (List Char × Directive × List Char)) :
    behind passed (behind others next) = behind (passed ++ others) next := by
  cases next with
  | none => rfl
  | some parts => simp only [behind, Option.map_some, List.append_assoc]

theorem nextDirective_step (afterWord : Bool) (c : Char) (rest : List Char)
    (unnamed : (c = '@' && !afterWord) = true → named? rest = none) :
    nextDirective? afterWord (c :: rest) = behind [c] (nextDirective? (Text.isWord c) rest) := by
  by_cases mark : (c = '@' && !afterWord) = true
  · simp only [nextDirective?, if_pos mark, unnamed mark]
    rfl
  · simp only [nextDirective?, if_neg mark]
    rfl

theorem nextDirective_wordChar (afterWord : Bool) {c : Char} (word : Text.isWord c = true) (rest : List Char) :
    nextDirective? afterWord (c :: rest) = behind [c] (nextDirective? true rest) := by
  rw [nextDirective_step, word]
  intro mark
  obtain rfl : c = '@' := of_decide_eq_true (Bool.and_eq_true_iff.mp mark).1
  cases word

theorem nextDirective_name (afterWord : Bool) (name after : List Char) (nonempty : name ≠ [])
    (word : ∀ c ∈ name, Text.isWord c = true) :
    nextDirective? afterWord (name ++ after) = behind name (nextDirective? true after) := by
  induction name generalizing afterWord with
  | nil => exact absurd rfl nonempty
  | cons c name ih =>
      obtain ⟨first, others⟩ := List.forall_mem_cons.mp word
      rw [List.cons_append, nextDirective_wordChar afterWord first]
      cases name with
      | nil => rfl
      | cons d name =>
          rw [ih true (List.cons_ne_nil d name) others, behind_behind]
          rfl

theorem named_empty (rest : List Char) (empty : (rest.takeWhile Text.isWord).isEmpty = true) : named? rest = none := by
  rw [named?, List.isEmpty_iff.mp empty]
  rfl

theorem unnamed_of_unused {afterWord : Bool} {c : Char} {rest : List Char}
    (unused : ¬ (c = '@' && !afterWord && !(rest.takeWhile Text.isWord).isEmpty) = true)
    (mark : (c = '@' && !afterWord) = true) : named? rest = none := by
  rw [mark, Bool.true_and, Bool.not_eq_true', Bool.not_eq_false] at unused
  exact named_empty rest unused

variable {afterWord : Bool} {place : Nat} {text : List Char}

theorem nextDirective_unused (absent : useFrom? afterWord place text = none) : nextDirective? afterWord text = none := by
  induction text generalizing afterWord place with
  | nil => rfl
  | cons c rest ih =>
      rw [useFrom?] at absent
      by_cases used : (c = '@' && !afterWord && !(rest.takeWhile Text.isWord).isEmpty) = true
      · rw [if_pos used] at absent
        cases absent
      · rw [if_neg used] at absent
        rw [nextDirective_step afterWord c rest (unnamed_of_unused used), ih absent]
        rfl

structure IsUse (afterWord : Bool) (text front name after : List Char) : Prop where
  whole : text = front ++ '@' :: (name ++ after)
  nonempty : name ≠ []
  word : ∀ c ∈ name, Text.isWord c = true
  next : nextDirective? afterWord text =
    match Directive.ofName? (String.ofList name) with
    | some d => some (front, d, after)
    | none => behind (front ++ '@' :: name) (nextDirective? true after)

theorem isUse_here (rest : List Char) (named : ¬ (rest.takeWhile Text.isWord).isEmpty = true) :
    IsUse false ('@' :: rest) [] (rest.takeWhile Text.isWord) (rest.dropWhile Text.isWord) := by
  have whole : rest.takeWhile Text.isWord ++ rest.dropWhile Text.isWord = rest := List.takeWhile_append_dropWhile
  have nonempty : rest.takeWhile Text.isWord ≠ [] := fun empty => named (List.isEmpty_iff.mpr empty)
  have word : ∀ c ∈ rest.takeWhile Text.isWord, Text.isWord c = true := fun c => List.mem_takeWhile_imp
  refine ⟨by rw [List.nil_append, whole], nonempty, word, ?_⟩
  cases known : Directive.ofName? (String.ofList (rest.takeWhile Text.isWord)) with
  | some d =>
      have here : named? rest = some (d, rest.dropWhile Text.isWord) := by
        rw [named?, known]
        rfl
      simp [nextDirective?, here]
  | none =>
      have unknown : named? rest = none := by
        rw [named?, known]
        rfl
      have behindMark := nextDirective_name false _ (rest.dropWhile Text.isWord) nonempty word
      rw [whole] at behindMark
      rw [nextDirective_step false '@' rest fun _ => unknown, show Text.isWord '@' = false from rfl, behindMark,
        behind_behind]
      rfl

theorem isUse_behind {c : Char} {front name after : List Char}
    (unused : ¬ (c = '@' && !afterWord && !(text.takeWhile Text.isWord).isEmpty) = true)
    (use : IsUse (Text.isWord c) text front name after) : IsUse afterWord (c :: text) (c :: front) name after := by
  refine ⟨congrArg (c :: ·) use.whole, use.nonempty, use.word, ?_⟩
  rw [nextDirective_step afterWord c text (unnamed_of_unused unused), use.next]
  cases Directive.ofName? (String.ofList name) with
  | some d => rfl
  | none => exact behind_behind ..

theorem isUse_of_useFrom {start stop : Nat} (found : useFrom? afterWord place text = some (start, stop)) :
    ∃ front name after, IsUse afterWord text front name after ∧ start = place + Text.byteSize front ∧
      stop = start + 1 + Text.byteSize name := by
  induction text generalizing afterWord place with
  | nil => cases found
  | cons c rest ih =>
      rw [useFrom?] at found
      by_cases used : (c = '@' && !afterWord && !(rest.takeWhile Text.isWord).isEmpty) = true
      · rw [if_pos used] at found
        cases found
        simp only [Bool.and_eq_true, decide_eq_true_eq, Bool.not_eq_true'] at used
        obtain ⟨⟨rfl, rfl⟩, named⟩ := used
        exact ⟨[], _, _, isUse_here rest (by rw [named]; exact Bool.false_ne_true), rfl, rfl⟩
      · rw [if_neg used] at found
        obtain ⟨front, name, after, use, rfl, rfl⟩ := ih found
        exact ⟨c :: front, name, after, isUse_behind used use, Nat.add_assoc .., rfl⟩

end Search

section Arguments

variable (front rest : List Char) (d : Directive) (line : Nat)

theorem ascii_of_gap (c : Char) (gap : isGap c = true) : Text.isAscii c = true := by
  simp only [isGap, Bool.or_eq_true, decide_eq_true_eq] at gap
  rcases gap with rfl | rfl <;> rfl

theorem split_gap : front ++ rest = (front ++ rest.takeWhile isGap) ++ rest.dropWhile isGap := by
  rw [List.append_assoc, List.takeWhile_append_dropWhile]

theorem skip_gap : skip isGap (front ++ rest) (Text.byteSize front) = Text.byteSize (front ++ rest.takeWhile isGap) := by
  rw [skip_append ascii_of_gap, Text.byteSize_append]

-- The byte behind the gap opens a group exactly where the characters behind it do.
theorem opens_iff : (Text.bytes (front ++ rest))[Text.byteSize (front ++ rest.takeWhile isGap)]? = some '('.toUInt8 ↔
    ∃ more, rest.dropWhile isGap = '(' :: more := by
  rw [split_gap, Text.byte_at_iff _ _ rfl]

theorem arguments_none (plain : ¬ ∃ more, rest.dropWhile isGap = '(' :: more) : arguments? rest = some (none, rest) := by
  rw [arguments?]
  split
  · rename_i more left
    exact absurd ⟨more, left⟩ plain
  · rfl

theorem group_append (passed more : List Char) :
    (match closingFrom? (passed ++ '(' :: more) (Text.byteSize passed) with
      | none => refuse ⟨.malformed (.unbalanced d), line⟩
      | some close => do
          let group ← slice (passed ++ '(' :: more) (Text.byteSize passed) (close + 1)
          return (some group, close + 1) : Run Fault (Option (List Char) × Nat)) =
    match (group? ('(' :: more)).map fun (group, after) => (some group, after) with
    | some (args, after) => .ok (args, Text.placeOf (passed ++ '(' :: more) after)
    | none => refuse ⟨.malformed (.unbalanced d), line⟩ := by
  cases ends : closingFrom? (passed ++ '(' :: more) (Text.byteSize passed) with
  | none =>
      rw [closingFrom_append] at ends
      simp only [Option.map_eq_none_iff.mp ends, Option.map_none]
  | some close =>
      obtain ⟨inside, after, closed, cut, size⟩ := group_of_closing ends
      have part : (slice (passed ++ '(' :: more) (Text.byteSize passed) (close + 1) : Run Fault _) = .ok inside :=
        slice_of_cut passed after (congrArg _ cut) rfl size
      have stop : Text.placeOf (passed ++ '(' :: more) after = close + 1 := by
        rw [cut, ← List.append_assoc, Text.placeOf_append, Text.byteSize_append, size]
      simp only [closed, Option.map_some, stop]
      rw [part]
      rfl

theorem argumentsAt_append : argumentsAt (front ++ rest) d line (Text.byteSize front) =
    match arguments? rest with
    | some (args, after) => .ok (args, Text.placeOf (front ++ rest) after)
    | none => refuse ⟨.malformed (.unbalanced d), line⟩ := by
  rw [argumentsAt, sliceFrom_append, ok_bind]
  simp only [skip_gap]
  by_cases opens : ∃ more, rest.dropWhile isGap = '(' :: more
  · rw [if_pos ((opens_iff front rest).mpr opens)]
    obtain ⟨more, left⟩ := opens
    have split := left ▸ split_gap front rest
    rw [arguments?, left, split]
    exact group_append d line (front ++ rest.takeWhile isGap) more
  · rw [if_neg (mt (opens_iff front rest).mp opens), arguments_none rest opens]
    simp only [Text.placeOf_append]
    rfl

end Arguments

theorem use_append (front rest : List Char) :
    use? (front ++ rest) (Text.byteSize front) = .ok (useFrom? (endsInWord front) (Text.byteSize front) rest) := by
  have early : (slice (front ++ rest) 0 (Text.byteSize front) : Run Fault _) = .ok front :=
    slice_of_cut [] rest rfl rfl (Nat.zero_add _)
  rw [use?, early, ok_bind, sliceFrom_append]
  rfl

def unclosed (found : Unclosed) : Fault := ⟨.malformed (.unbalanced found.directive), found.line⟩

theorem endsInWord_name (front name : List Char) (nonempty : name ≠ []) (word : ∀ c ∈ name, Text.isWord c = true) :
    endsInWord (front ++ name) = true := by
  rw [endsInWord, List.getLast?_append_of_ne_nil front nonempty, List.getLast?_eq_some_getLast nonempty, Option.any_some]
  exact word _ (List.getLast_mem nonempty)

theorem breaks_use {name : List Char} (word : ∀ c ∈ name, Text.isWord c = true) : Text.breaks ('@' :: name) = 0 := by
  refine List.count_eq_zero.mpr fun inside => ?_
  rcases List.mem_cons.mp inside with same | inside
  · cases same
  · cases word '\n' inside

theorem divideDirectives_none {afterWord : Bool} (line : Nat) {text : List Char}
    (absent : nextDirective? afterWord text = none) : divideDirectives afterWord line text = .ok (textPiece text line) := by
  rw [divideDirectives]
  split
  · rfl
  · rename_i found
    rw [absent] at found
    cases found

theorem divideDirectives_some {afterWord : Bool} (line : Nat) {text before afterName : List Char} {d : Directive}
    (present : nextDirective? afterWord text = some (before, d, afterName)) :
    divideDirectives afterWord line text =
      match arguments? afterName with
      | none => .error ⟨d, line + Text.breaks before⟩
      | some (args, after) =>
          (divideDirectives args.isNone (line + Text.breaks before + Text.breaks (args.getD [])) after).map fun pieces =>
            textPiece before line ++ .directive d args (line + Text.breaks before) :: pieces := by
  rw [divideDirectives]
  split
  · rename_i found
    rw [present] at found
    cases found
  · rename_i found
    rw [present] at found
    cases found
    split <;> rename_i read <;> simp only [read]

theorem last_of_groupRest {quote : Option Char} {depth : Nat} {text group after : List Char}
    (found : groupRest? quote depth text = some (group, after)) : ∃ inner, group = inner ++ [')'] := by
  fun_induction groupRest? quote depth text generalizing group with
  | case1 => cases found
  | case2 => cases found
  | case3 depth q d rest ih =>
      obtain ⟨outer, inside, rfl⟩ := Text.prepend_eq_some.mp found
      obtain ⟨inner, within, rfl⟩ := Text.prepend_eq_some.mp inside
      obtain ⟨others, rfl⟩ := ih within
      exact ⟨_ :: d :: others, rfl⟩
  | case4 _ _ _ _ ih | case5 _ _ _ _ _ _ ih | case6 _ _ _ _ ih | case7 _ _ _ ih | case9 _ _ _ _ _ ih
  | case10 _ _ _ _ _ _ ih =>
      obtain ⟨inner, inside, rfl⟩ := Text.prepend_eq_some.mp found
      obtain ⟨others, rfl⟩ := ih inside
      exact ⟨_ :: others, rfl⟩
  | case8 depth rest last unquoted other =>
      obtain ⟨rfl, rfl⟩ := Prod.mk.inj (Option.some.inj found)
      exact ⟨[], rfl⟩

theorem written_of_arguments {text after : List Char} {args : Option (List Char)}
    (read : arguments? text = some (args, after)) :
    ∃ written, text = written ++ after ∧ Text.breaks written = Text.breaks (args.getD []) ∧
      ∀ front, endsInWord front = true → endsInWord (front ++ written) = args.isNone := by
  obtain ⟨written, whole, level, fills⟩ := arguments_fill text after args read
  refine ⟨written, whole, level, fun front word => ?_⟩
  cases args with
  | none =>
      obtain rfl : written = [] := List.append_right_eq_self.mp (List.cons.inj (fills .otherwise 0)).2
      rw [List.append_nil, word]
      rfl
  | some group =>
      obtain ⟨⟨_, closed⟩, gap, _, same⟩ := fills .otherwise 0
      obtain ⟨inner, rfl⟩ := last_of_groupRest closed
      rw [List.append_assoc, List.cons.injEq, List.append_right_inj] at same
      rw [same.2, ← List.append_assoc, ← List.append_assoc, endsInWord, List.getLast?_concat]
      rfl

section Rounds

variable (passed before name after : List Char)

theorem slice_name : (slice (passed ++ (before ++ '@' :: (name ++ after))) (Text.byteSize (passed ++ before) + 1)
    (Text.byteSize (passed ++ before) + 1 + Text.byteSize name) : Run Fault _) = .ok name :=
  slice_of_cut (passed ++ before ++ ['@']) after
    (by simp only [List.append_assoc, List.cons_append, List.nil_append]) (Text.byteSize_append _ ['@']) rfl

theorem byteSize_use :
    Text.byteSize (passed ++ before) + 1 + Text.byteSize name = Text.byteSize (passed ++ (before ++ '@' :: name)) := by
  rw [Text.byteSize_append, Text.byteSize_append, Text.byteSize_append, Text.byteSize, show '@'.utf8Size = 1 from rfl]
  omega

variable {passed before name after} {search : Nat}
  (used : use? (passed ++ (before ++ '@' :: (name ++ after))) search = .ok (some (Text.byteSize (passed ++ before),
    Text.byteSize (passed ++ before) + 1 + Text.byteSize name)))

include used

theorem usesAt_unknown (unknown : Directive.ofName? (String.ofList name) = none) (line rounds cursor : Nat) :
    usesAt (passed ++ (before ++ '@' :: (name ++ after))) line (rounds + 1) cursor search
      = usesAt (passed ++ (before ++ '@' :: (name ++ after))) line rounds cursor
          (Text.byteSize (passed ++ (before ++ '@' :: name))) := by
  rw [usesAt, used, ok_bind]
  dsimp only
  rw [slice_name, ok_bind]
  simp only [unknown, byteSize_use]

theorem usesAt_known {d : Directive} (known : Directive.ofName? (String.ofList name) = some d) (line rounds : Nat) :
    usesAt (passed ++ (before ++ '@' :: (name ++ after))) line (rounds + 1) (Text.byteSize passed) search =
      match arguments? after with
      | none => refuse ⟨.malformed (.unbalanced d), line + Text.breaks (passed ++ before)⟩
      | some (args, left) => do
          let next := Text.placeOf (passed ++ (before ++ '@' :: (name ++ after))) left
          let pieces ← usesAt (passed ++ (before ++ '@' :: (name ++ after))) line rounds next next
          return textPiece before (line + Text.breaks passed)
            ++ .directive d args (line + Text.breaks (passed ++ before)) :: pieces := by
  have begins : (lineAt (passed ++ (before ++ '@' :: (name ++ after))) line (Text.byteSize (passed ++ before)) : Run Fault _)
      = .ok (line + Text.breaks (passed ++ before)) := lineAt_of_cut _ _ (List.append_assoc ..).symm rfl line
  have front : (slice (passed ++ (before ++ '@' :: (name ++ after))) (Text.byteSize passed)
      (Text.byteSize (passed ++ before)) : Run Fault _) = .ok before :=
    slice_of_cut _ _ rfl rfl (Text.byteSize_append ..).symm
  have first := @lineAt_append Fault passed (before ++ '@' :: (name ++ after)) line
  have arguments := argumentsAt_append (passed ++ (before ++ '@' :: name)) after d (line + Text.breaks (passed ++ before))
  rw [List.append_assoc, List.append_assoc, List.cons_append] at arguments
  rw [usesAt, used, ok_bind]
  dsimp only
  rw [slice_name, ok_bind]
  simp only [known, byteSize_use]
  rw [begins, ok_bind, arguments]
  cases arguments? after with
  | none => rfl
  | some parts =>
      obtain ⟨args, left⟩ := parts
      dsimp only
      rw [ok_bind, front, ok_bind, first, ok_bind]

end Rounds

theorem usesAt_append (line rounds : Nat) (passed skipped rest : List Char) (enough : rest.length < rounds)
    (seeks : nextDirective? (endsInWord passed) (skipped ++ rest)
      = behind skipped (nextDirective? (endsInWord (passed ++ skipped)) rest)) :
    usesAt (passed ++ (skipped ++ rest)) line rounds (Text.byteSize passed) (Text.byteSize (passed ++ skipped))
      = lift ((divideDirectives (endsInWord passed) (line + Text.breaks passed) (skipped ++ rest)).mapError unclosed) := by
  induction rounds generalizing passed skipped rest with
  | zero => exact absurd enough (Nat.not_lt_zero _)
  | succ rounds ih =>
      have search : use? (passed ++ (skipped ++ rest)) (Text.byteSize (passed ++ skipped))
          = .ok (useFrom? (endsInWord (passed ++ skipped)) (Text.byteSize (passed ++ skipped)) rest) := by
        rw [← List.append_assoc]
        exact use_append (passed ++ skipped) rest
      cases found : useFrom? (endsInWord (passed ++ skipped)) (Text.byteSize (passed ++ skipped)) rest with
      | none =>
          rw [nextDirective_unused found] at seeks
          rw [usesAt, search, ok_bind, found, divideDirectives_none _ seeks]
          dsimp only
          rw [sliceFrom_append, ok_bind, lineAt_append]
          rfl
      | some places =>
          obtain ⟨start, stop⟩ := places
          obtain ⟨front, name, after, ⟨rfl, nonempty, word, next⟩, rfl, rfl⟩ := isUse_of_useFrom found
          have shorter : after.length < rounds := by
            simp only [List.length_append, List.length_cons] at enough
            omega
          have ends : endsInWord (passed ++ (skipped ++ front ++ '@' :: name)) = true := by
            have last := endsInWord_name (passed ++ (skipped ++ front ++ ['@'])) name nonempty word
            simpa only [List.append_assoc, List.cons_append, List.nil_append] using last
          have cut : skipped ++ (front ++ '@' :: (name ++ after)) = skipped ++ front ++ '@' :: (name ++ after) :=
            (List.append_assoc ..).symm
          rw [next, cut] at seeks
          rw [found, cut, ← Text.byteSize_append, List.append_assoc passed] at search
          rw [cut]
          cases known : Directive.ofName? (String.ofList name) with
          | none =>
              rw [known] at seeks
              have further := ih passed (skipped ++ front ++ '@' :: name) after shorter (by
                rw [ends, List.append_assoc, List.cons_append, seeks]
                simp only [behind_behind, List.append_assoc])
              rw [List.append_assoc (skipped ++ front), List.cons_append] at further
              rw [usesAt_unknown search known, further]
          | some d =>
              rw [known] at seeks
              rw [usesAt_known search known, divideDirectives_some _ seeks, breaks_append, ← Nat.add_assoc]
              cases read : arguments? after with
              | none => rfl
              | some parts =>
                  obtain ⟨args, left⟩ := parts
                  obtain ⟨written, rfl, level, follows⟩ := written_of_arguments read
                  have fewer : left.length < rounds := by
                    rw [List.length_append] at shorter
                    omega
                  have further := ih (passed ++ (skipped ++ front ++ '@' :: name) ++ written) [] left fewer
                    (by rw [List.append_nil, List.nil_append]; cases nextDirective? _ left <;> rfl)
                  have whole : passed ++ (skipped ++ front ++ '@' :: (name ++ (written ++ left)))
                      = (passed ++ (skipped ++ front ++ '@' :: name) ++ written) ++ left := by
                    simp only [List.append_assoc, List.cons_append]
                  rw [List.append_nil, List.nil_append, follows _ ends] at further
                  dsimp only
                  rw [whole, Text.placeOf_append, further, breaks_append, breaks_append, breaks_append, breaks_use word, level]
                  simp only [Nat.add_zero, ← Nat.add_assoc]
                  cases divideDirectives args.isNone _ left <;> rfl

theorem directives_eq (line : Nat) (text : List Char) :
    directives line text = lift ((divideDirectives false line text).mapError unclosed) := by
  refine usesAt_append line _ [] [] text (Nat.lt_succ_self _) ?_
  rw [List.nil_append, List.append_nil]
  cases nextDirective? (endsInWord []) text <;> rfl

theorem boundaries_of_closing {text : List Char} {start close : Nat} (opens : (Text.bytes text)[start]? = some '('.toUInt8)
    (ends : closingFrom? text start = some close) :
    Text.Boundary text start ∧ Text.Boundary text close ∧ Text.Boundary text (close + 1) := by
  obtain ⟨before, rest, rfl, rfl⟩ := Text.split_of_byte '(' rfl text start opens
  obtain ⟨group, after, closed, whole, size⟩ := group_of_closing ends
  obtain ⟨inner, rfl⟩ := last_of_groupRest closed
  have behindInner : Text.byteSize (before ++ inner) + 1 = close + 1 := by
    rw [← size, Text.byteSize_append, Text.byteSize_append, Nat.add_assoc]
    rfl
  refine ⟨Text.boundary_append before _, ?_, ?_⟩
  · refine Text.boundary_of_cut _ (')' :: after) ?_ (Nat.succ.inj behindInner)
    rw [whole]
    simp only [List.append_assoc, List.cons_append, List.nil_append]
  · refine Text.boundary_of_cut (before ++ (inner ++ [')'])) after ?_ ?_
    · rw [whole]
      exact (List.append_assoc ..).symm
    · rw [Text.byteSize_append, size]

theorem boundaries_of_use {text : List Char} {search start stop : Nat} (found : use? text search = .ok (some (start, stop))) :
    Text.Boundary text start ∧ Text.Boundary text (start + 1) ∧ Text.Boundary text stop := by
  obtain ⟨_, _, later⟩ := (bind_eq_ok _ _ _).mp found
  obtain ⟨rest, cut, _⟩ := (bind_eq_ok _ _ _).mp later
  obtain ⟨passed, rfl, rfl⟩ := cut_of_sliceFrom cut
  rw [use_append] at found
  obtain ⟨front, name, after, use, rfl, rfl⟩ := isUse_of_useFrom (Except.ok.inj found)
  rw [use.whole, ← Text.byteSize_append]
  refine ⟨?_, ?_, ?_⟩
  · exact Text.boundary_of_cut _ _ (List.append_assoc ..).symm rfl
  · refine Text.boundary_of_cut (passed ++ front ++ ['@']) (name ++ after) ?_ (Text.byteSize_append ..)
    simp only [List.append_assoc, List.cons_append, List.nil_append]
  · refine Text.boundary_of_cut _ after ?_ (byteSize_use passed front name).symm
    simp only [List.append_assoc, List.cons_append]

theorem boundaries_of_arguments {text : List Char} {d : Directive} {line place stop : Nat} {args : Option (List Char)}
    (found : argumentsAt text d line place = .ok (args, stop)) :
    Text.Boundary text place ∧ Text.Boundary text (skip isGap text place) ∧ Text.Boundary text stop := by
  obtain ⟨rest, cut, _⟩ := (bind_eq_ok _ _ _).mp found
  obtain ⟨front, rfl, rfl⟩ := cut_of_sliceFrom cut
  rw [argumentsAt_append] at found
  refine ⟨Text.boundary_append front rest, Text.boundary_of_cut _ _ (split_gap front rest) (skip_gap front rest).symm, ?_⟩
  cases read : arguments? rest with
  | none =>
      rw [read] at found
      cases found
  | some parts =>
      obtain ⟨args', after⟩ := parts
      rw [read] at found
      obtain ⟨written, rfl, _⟩ := written_of_arguments read
      cases found
      rw [← List.append_assoc, Text.placeOf_append]
      exact Text.boundary_append _ after

end Sliced

end Stencil
