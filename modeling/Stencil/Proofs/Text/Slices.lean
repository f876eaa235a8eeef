import Stencil.Proofs.Text.Bytes

set_option autoImplicit false

namespace Stencil

namespace Text

def Boundary (text : List Char) (place : Nat) : Prop := String.Pos.Raw.IsValid (String.ofList text) ⟨place⟩

instance (text : List Char) (place : Nat) : Decidable (Boundary text place) :=
  inferInstanceAs (Decidable (String.Pos.Raw.IsValid _ _))

theorem utf8ByteSize_ofList (text : List Char) : (String.ofList text).utf8ByteSize = byteSize text := by
  induction text with
  | nil => rfl
  | cons c rest ih =>
      rw [← List.singleton_append, String.ofList_append, String.utf8ByteSize_append, ih, List.singleton_append, byteSize,
        ← String.singleton_eq_ofList, String.utf8ByteSize_singleton]

theorem boundary_iff (text : List Char) (place : Nat) :
    Boundary text place ↔ ∃ before after, text = before ++ after ∧ byteSize before = place := by
  rw [Boundary, String.Pos.Raw.isValid_iff_exists_append]
  constructor
  · rintro ⟨front, back, whole, size⟩
    refine ⟨front.toList, back.toList, ?_, ?_⟩
    · rw [← String.toList_append, ← whole, String.toList_ofList]
    · rw [← utf8ByteSize_ofList, String.ofList_toList]
      exact (congrArg String.Pos.Raw.byteIdx size).symm
  · rintro ⟨before, after, rfl, rfl⟩
    refine ⟨String.ofList before, String.ofList after, String.ofList_append, ?_⟩
    exact String.Pos.Raw.ext (utf8ByteSize_ofList before).symm

example : ¬ Boundary ['é', '@'] 1 := by decide

theorem boundary_of_cut {text : List Char} {place : Nat} (before after : List Char) (whole : text = before ++ after)
    (size : byteSize before = place) : Boundary text place := (boundary_iff _ _).mpr ⟨before, after, whole, size⟩

theorem boundary_append (before after : List Char) : Boundary (before ++ after) (byteSize before) :=
  boundary_of_cut before after rfl rfl

theorem boundary_end (text : List Char) : Boundary text (byteSize text) := by
  have ends := boundary_append text []
  rwa [List.append_nil] at ends

def placeOf (text after : List Char) : Nat := byteSize text - byteSize after

theorem placeOf_append (before after : List Char) : placeOf (before ++ after) after = byteSize before := by
  rw [placeOf, byteSize_append, Nat.add_sub_cancel]

theorem placeOf_cons (c : Char) {rest after : List Char} (within : byteSize after ≤ byteSize rest) :
    placeOf (c :: rest) after = c.utf8Size + placeOf rest after := by
  rw [placeOf, byteSize, Nat.add_sub_assoc within, placeOf]

def takeBytes : Nat → List Char → List Char
  | 0, _ => []
  | _ + 1, [] => []
  | size + 1, c :: rest => c :: takeBytes (size + 1 - c.utf8Size) rest

def dropBytes : Nat → List Char → List Char
  | 0, text => text
  | _ + 1, [] => []
  | size + 1, c :: rest => dropBytes (size + 1 - c.utf8Size) rest

theorem byteSize_cons (c : Char) (rest : List Char) :
    ∃ size, byteSize (c :: rest) = size + 1 ∧ size + 1 - c.utf8Size = byteSize rest := by
  have positive := c.utf8Size_pos
  exact ⟨byteSize (c :: rest) - 1, by rw [byteSize]; omega, by rw [byteSize]; omega⟩

theorem takeBytes_append (before after : List Char) : takeBytes (byteSize before) (before ++ after) = before := by
  induction before with
  | nil => cases after <;> rfl
  | cons c rest ih =>
      obtain ⟨size, whole, behind⟩ := byteSize_cons c rest
      rw [whole, List.cons_append, takeBytes, behind, ih]

theorem dropBytes_append (before after : List Char) : dropBytes (byteSize before) (before ++ after) = after := by
  induction before with
  | nil => cases after <;> rfl
  | cons c rest ih =>
      obtain ⟨size, whole, behind⟩ := byteSize_cons c rest
      rw [whole, List.cons_append, dropBytes, behind, ih]

theorem drop_bytes (before rest : List Char) : (bytes (before ++ rest)).drop (byteSize before) = bytes rest := by
  rw [bytes_append, ← length_bytes, List.drop_left]

def firstByte (c : Char) : UInt8 := (String.utf8EncodeChar c).headD 0

theorem encode_first (c : Char) : ∃ others, String.utf8EncodeChar c = firstByte c :: others ∧ ∀ b ∈ others, 128 ≤ b := by
  obtain ⟨b, others, encoded, high⟩ := encode_cons c
  exact ⟨others, by rw [firstByte, encoded, List.headD_cons], high⟩

theorem bytes_first (c : Char) (rest : List Char) :
    ∃ others, bytes (c :: rest) = firstByte c :: (others ++ bytes rest) ∧ 1 + others.length = c.utf8Size ∧
      ∀ b ∈ others, 128 ≤ b := by
  obtain ⟨others, encoded, high⟩ := encode_first c
  refine ⟨others, by rw [bytes_cons, encoded, List.cons_append], ?_, high⟩
  rw [← String.length_utf8EncodeChar, encoded, List.length_cons, Nat.add_comm]

theorem firstByte_ascii {c : Char} (ascii : isAscii c = true) : firstByte c = c.toUInt8 := by
  rw [firstByte, encode_ascii ascii, List.headD_cons]

theorem firstByte_high {c : Char} (wide : ¬ isAscii c = true) : 128 ≤ firstByte c := by
  obtain ⟨others, encoded, _⟩ := encode_first c
  exact encode_high wide _ (by rw [encoded]; exact List.mem_cons_self)

theorem firstByte_eq (c : Char) {d : Char} (ascii : isAscii d = true) : firstByte c = d.toUInt8 ↔ c = d := by
  by_cases narrow : isAscii c = true
  · rw [firstByte_ascii narrow, toUInt8_inj narrow ascii]
  · exact ⟨fun same => absurd same (ne_of_high (firstByte_high narrow) ascii), fun same => absurd (same ▸ ascii) narrow⟩

theorem byte_at (before : List Char) (c : Char) (rest : List Char) :
    (bytes (before ++ c :: rest))[byteSize before]? = some (firstByte c) := by
  obtain ⟨others, encoded, _⟩ := encode_first c
  rw [← Nat.add_zero (byteSize before), ← List.getElem?_drop, drop_bytes, bytes_cons, encoded]
  rfl

theorem byte_at_end (before : List Char) : (bytes before)[byteSize before]? = none := by
  rw [← length_bytes]
  exact List.getElem?_length _

theorem byte_at_iff (before rest : List Char) {d : Char} (ascii : isAscii d = true) :
    (bytes (before ++ rest))[byteSize before]? = some d.toUInt8 ↔ ∃ more, rest = d :: more := by
  cases rest with
  | nil => simp [byte_at_end]
  | cons c rest => simp [byte_at, firstByte_eq c ascii]

def asciiTest (test : Char → Bool) (b : UInt8) : Bool := b < 128 && test (Char.ofNat b.toNat)

section Tests

variable {test : Char → Bool}

theorem asciiTest_high {b : UInt8} (high : 128 ≤ b) : asciiTest test b = false := by
  rw [asciiTest, decide_eq_false (UInt8.not_lt.mpr high), Bool.false_and]

theorem asciiTest_ascii {c : Char} (ascii : isAscii c = true) : asciiTest test c.toUInt8 = test c := by
  rw [asciiTest, decide_eq_true (ascii_below ascii), Bool.true_and, toNat_byte ascii, Char.ofNat_toNat]

theorem asciiTest_first (ascii : ∀ c, test c = true → isAscii c = true) (c : Char) : asciiTest test (firstByte c) = test c := by
  by_cases narrow : isAscii c = true
  · rw [firstByte_ascii narrow, asciiTest_ascii narrow]
  · rw [asciiTest_high (firstByte_high narrow)]
    exact (Bool.eq_false_iff.mpr fun holds => narrow (ascii c holds)).symm

theorem takeWhile_bytes (ascii : ∀ c, test c = true → isAscii c = true) (text : List Char) :
    (bytes text).takeWhile (asciiTest test) = bytes (text.takeWhile test) := by
  induction text with
  | nil => rfl
  | cons c rest ih =>
      obtain ⟨others, encoded, _, _⟩ := bytes_first c rest
      have tested := asciiTest_first ascii c
      by_cases holds : test c = true
      · have single : String.utf8EncodeChar c = [firstByte c] := by
          rw [firstByte_ascii (ascii c holds), encode_ascii (ascii c holds)]
        rw [bytes_cons, single, List.singleton_append, List.takeWhile_cons_of_pos (tested.trans holds), ih,
          List.takeWhile_cons_of_pos holds, bytes_cons, single, List.singleton_append]
      · rw [encoded, List.takeWhile_cons_of_neg (by rwa [tested]), List.takeWhile_cons_of_neg holds]
        rfl

end Tests

theorem count_bytes (text : List Char) : (bytes text).count '\n'.toUInt8 = breaks text := by
  induction text with
  | nil => rfl
  | cons c rest ih =>
      rw [bytes_cons, List.count_append, ih, breaks, breaks, List.count_cons, Nat.add_comm]
      refine congrArg _ ?_
      by_cases ascii : isAscii c = true
      · rw [encode_ascii ascii, List.count_singleton]
        simp only [beq_iff_eq, toUInt8_inj ascii (rfl : isAscii '\n' = true)]
      · have other : c ≠ '\n' := by
          rintro rfl
          exact ascii rfl
        have absent : '\n'.toUInt8 ∉ String.utf8EncodeChar c := fun inside =>
          ne_of_high (encode_high ascii _ inside) (rfl : isAscii '\n' = true) rfl
        rw [List.count_eq_zero.mpr absent, if_neg (by simpa using other)]

def findByte? (mark : List UInt8) (place : Nat) : List UInt8 → Option Nat
  | [] => if mark.isEmpty then some place else none
  | b :: rest => if mark.isPrefixOf (b :: rest) then some place else findByte? mark (place + 1) rest

def find? (mark text : List Char) : Option Nat := findByte? (bytes mark) 0 (bytes text)

section Marks

variable {mark : List Char} (ascii : mark.all isAscii = true)

include ascii

theorem prefix_bytes (text : List Char) : (bytes mark).isPrefixOf (bytes text) = (behind? mark text).isSome := by
  induction mark generalizing text with
  | nil => rfl
  | cons m mark ih =>
      obtain ⟨first, others⟩ := Bool.and_eq_true_iff.mp ascii
      rw [bytes_cons, encode_ascii first, List.singleton_append]
      cases text with
      | nil => rfl
      | cons c rest =>
          obtain ⟨more, encoded, _⟩ := encode_first c
          rw [bytes_cons, encoded, List.cons_append, List.isPrefixOf, behind?]
          by_cases same : m = c
          · subst same
            have alone : [] = more := (List.cons.inj ((encode_ascii first).symm.trans encoded)).2
            rw [if_pos rfl, ← firstByte_ascii first, beq_self_eq_true, Bool.true_and, ← alone, List.nil_append, ih others]
          · have differs : m.toUInt8 ≠ firstByte c := fun equal => same ((firstByte_eq c first).mp equal.symm).symm
            rw [if_neg same, beq_false_of_ne differs, Bool.false_and]
            rfl

-- No byte of a character but its first may start the mark.
theorem findByte_high (nonempty : mark ≠ []) (place : Nat) (others rest : List UInt8) (high : ∀ b ∈ others, 128 ≤ b) :
    findByte? (bytes mark) place (others ++ rest) = findByte? (bytes mark) (place + others.length) rest := by
  induction others generalizing place with
  | nil => rfl
  | cons b others ih =>
      obtain ⟨first, behind⟩ := List.forall_mem_cons.mp high
      have absent : ¬ (bytes mark).isPrefixOf (b :: (others ++ rest)) = true := by
        cases mark with
        | nil => exact absurd rfl nonempty
        | cons m mark =>
            obtain ⟨narrow, _⟩ := Bool.and_eq_true_iff.mp ascii
            rw [bytes_cons, encode_ascii narrow, List.singleton_append, List.isPrefixOf,
              beq_false_of_ne (ne_of_high first narrow).symm, Bool.false_and]
            exact Bool.false_ne_true
      rw [List.cons_append, findByte?, if_neg absent, ih (place + 1) behind, List.length_cons, Nat.add_assoc,
        Nat.add_comm 1]

theorem findByte_bytes (nonempty : mark ≠ []) (place : Nat) (text : List Char) :
    findByte? (bytes mark) place (bytes text) = (cut mark text).map fun (before, _) => place + byteSize before := by
  induction text generalizing place with
  | nil =>
      cases mark with
      | nil => exact absurd rfl nonempty
      | cons m mark =>
          obtain ⟨b, others, encoded, _⟩ := encode_cons m
          rw [bytes_cons, encoded]
          rfl
  | cons c rest ih =>
      have stands := prefix_bytes ascii (c :: rest)
      obtain ⟨others, encoded, size, high⟩ := bytes_first c rest
      rw [encoded] at stands ⊢
      rw [findByte?, stands, cut]
      cases found : behind? mark (c :: rest) with
      | some after => rfl
      | none =>
          rw [Option.isSome_none, if_neg Bool.false_ne_true, findByte_high ascii nonempty _ _ _ high, Nat.add_assoc, size, ih]
          cases cut mark rest with
          | none => rfl
          | some parts => exact congrArg some (Nat.add_assoc ..)

theorem find_eq (nonempty : mark ≠ []) (text : List Char) :
    find? mark text = (cut mark text).map fun (before, _) => byteSize before := by
  rw [find?, findByte_bytes ascii nonempty]
  simp only [Nat.zero_add]

end Marks

end Text

namespace Sliced

-- Why a scan stops: for an error of its own, or at a cut inside a character, at a place in front of the text, or for
-- want of rounds.
inductive Halt (ε : Type) where
  | refused (error : ε)
  | misplaced
  | underflow
  | unfinished
deriving DecidableEq

abbrev Run (ε α : Type) : Type := Except (Halt ε) α

variable {ε α β : Type}

def lift (result : Except ε α) : Run ε α := result.mapError .refused

def refuse (error : ε) : Run ε α := .error (.refused error)

theorem ok_bind (a : α) (next : α → Run ε β) : (Except.ok a >>= next) = next a := rfl

theorem lift_ok (a : α) : lift (.ok a : Except ε α) = .ok a := rfl

theorem lift_bind (first : Except ε α) (next : α → Except ε β) :
    lift (first >>= next) = lift first >>= fun a => lift (next a) := by
  cases first <;> rfl

def slice (text : List Char) (start stop : Nat) : Run ε (List Char) :=
  if start ≤ stop ∧ Text.Boundary text start ∧ Text.Boundary text stop then
    .ok (Text.takeBytes (stop - start) (Text.dropBytes start text))
  else .error .misplaced

def sliceFrom (text : List Char) (start : Nat) : Run ε (List Char) := slice text start (Text.byteSize text)

def back : Nat → Run ε Nat
  | 0 => .error .underflow
  | place + 1 => .ok place

def skip (test : Char → Bool) (text : List Char) (place : Nat) : Nat :=
  place + (((Text.bytes text).drop place).takeWhile (Text.asciiTest test)).length

def lineAt (text : List Char) (line place : Nat) : Run ε Nat := do
  let front ← slice text 0 place
  return line + (Text.bytes front).count '\n'.toUInt8

theorem slice_between (before part after : List Char) :
    (slice (before ++ (part ++ after)) (Text.byteSize before) (Text.byteSize before + Text.byteSize part) : Run ε _)
      = .ok part := by
  have starts := Text.boundary_append before (part ++ after)
  have stops := Text.boundary_append (before ++ part) after
  rw [List.append_assoc, Text.byteSize_append] at stops
  rw [slice, if_pos ⟨Nat.le_add_right _ _, starts, stops⟩, Nat.add_sub_cancel_left, Text.dropBytes_append,
    Text.takeBytes_append]

theorem sliceFrom_append (before rest : List Char) :
    (sliceFrom (before ++ rest) (Text.byteSize before) : Run ε _) = .ok rest := by
  have whole : (slice (before ++ (rest ++ [])) _ _ : Run ε _) = _ := slice_between before rest []
  rwa [List.append_nil, ← Text.byteSize_append] at whole

theorem slice_of_cut {text part : List Char} {start stop : Nat} (before after : List Char)
    (cut : text = before ++ (part ++ after)) (starts : Text.byteSize before = start) (stops : start + Text.byteSize part = stop) :
    (slice text start stop : Run ε _) = .ok part := by
  subst cut starts stops
  exact slice_between before part after

theorem isSlice_of_slice {text part : List Char} {start stop : Nat} (found : (slice text start stop : Run ε _) = .ok part) :
    Text.IsSlice text start stop part := by
  have conditions : start ≤ stop ∧ Text.Boundary text start ∧ Text.Boundary text stop := by
    by_contra fails
    rw [slice, if_neg fails] at found
    cases found
  obtain ⟨ordered, starts, stops⟩ := conditions
  obtain ⟨before, rest, rfl, rfl⟩ := (Text.boundary_iff _ _).mp starts
  obtain ⟨front, after, same, rfl⟩ := (Text.boundary_iff _ _).mp stops
  have within : ∃ between, front = before ++ between ∧ rest = between ++ after := by
    rcases List.append_eq_append_iff.mp same with further | ⟨between, rfl, rfl⟩
    · exact further
    · rw [Text.byteSize_append] at ordered
      obtain rfl := Text.byteSize_eq_zero between (by omega)
      exact ⟨[], (List.append_nil _).trans (List.append_nil _) |>.symm, rfl⟩
  obtain ⟨between, rfl, rfl⟩ := within
  rw [Text.byteSize_append, slice_between] at found
  cases found
  exact ⟨before, after, rfl, rfl, (Text.byteSize_append ..).symm⟩

example : (slice ['é', '@'] 1 3 : Run Unit (List Char)) = .error .misplaced := by decide

theorem boundaries_of_slice {text part : List Char} {start stop : Nat} (found : (slice text start stop : Run ε _) = .ok part) :
    Text.Boundary text start ∧ Text.Boundary text stop := by
  obtain ⟨before, after, rfl, rfl, rfl⟩ := isSlice_of_slice found
  refine ⟨Text.boundary_append before _, Text.boundary_of_cut (before ++ part) after ?_ ?_⟩
  · exact (List.append_assoc ..).symm
  · exact Text.byteSize_append before part

theorem cut_of_sliceFrom {text rest : List Char} {start : Nat} (found : (sliceFrom text start : Run ε _) = .ok rest) :
    ∃ before, text = before ++ rest ∧ Text.byteSize before = start := by
  obtain ⟨before, after, whole, size, ends⟩ := isSlice_of_slice found
  have none : after = [] := by
    rw [whole, Text.byteSize_append, Text.byteSize_append] at ends
    exact Text.byteSize_eq_zero after (by omega)
  rw [none, List.append_nil] at whole
  exact ⟨before, whole, size⟩

theorem lineAt_append (before rest : List Char) (line : Nat) :
    (lineAt (before ++ rest) line (Text.byteSize before) : Run ε _) = .ok (line + Text.breaks before) := by
  have front : (slice (before ++ rest) 0 (0 + Text.byteSize before) : Run ε _) = .ok before := slice_between [] before rest
  rw [Nat.zero_add] at front
  rw [lineAt, front, ok_bind, Text.count_bytes]
  rfl

theorem lineAt_of_cut {text : List Char} {place : Nat} (before after : List Char) (cut : text = before ++ after)
    (size : Text.byteSize before = place) (line : Nat) : (lineAt text line place : Run ε _) = .ok (line + Text.breaks before) := by
  subst cut size
  exact lineAt_append before after line

theorem skip_append {test : Char → Bool} (ascii : ∀ c, test c = true → Text.isAscii c = true) (before rest : List Char) :
    skip test (before ++ rest) (Text.byteSize before) = Text.byteSize before + Text.byteSize (rest.takeWhile test) := by
  rw [skip, Text.drop_bytes, Text.takeWhile_bytes ascii, Text.length_bytes]

end Sliced

end Stencil
