import Stencil.Proofs.Store.Paths
import Stencil.Store.Digest
import Stencil.Text.Word

set_option autoImplicit false

namespace Stencil

namespace Digest

def isDigit (c : Char) : Bool := ('0' ≤ c && c ≤ '9') || ('a' ≤ c && c ≤ 'f')

structure Key (key : String) : Prop where
  size : key.utf8ByteSize = 64
  digits : ∀ c ∈ key.toList, isDigit c = true

theorem isDigit_hexDigit : ∀ n : Nat, n < 16 → isDigit (Text.hexDigit n) = true := by decide

theorem small_of_isDigit (c : Char) (digit : isDigit c = true) : c.utf8Size = 1 := by
  rw [Char.utf8Size_eq_one_iff]
  simp only [isDigit, Bool.or_eq_true, Bool.and_eq_true, decide_eq_true_eq, Char.le_def] at digit
  rcases digit with ⟨_, below⟩ | ⟨_, below⟩
  · exact UInt32.le_trans below (by decide)
  · exact UInt32.le_trans below (by decide)

theorem size_digits (text : List Char) (digits : ∀ c ∈ text, isDigit c = true) :
    (String.ofList text).utf8ByteSize = text.length := by
  induction text with
  | nil => rfl
  | cons c rest ih =>
      obtain ⟨first, others⟩ := List.forall_mem_cons.mp digits
      rw [String.ofList_cons, String.utf8ByteSize_append, String.utf8ByteSize_singleton, small_of_isDigit c first,
        ih others, List.length_cons, Nat.add_comm]

theorem size_key (key ending : String) (good : Key key) :
    (key ++ ending).utf8ByteSize = 64 + ending.utf8ByteSize := by
  rw [String.utf8ByteSize_append, good.size]

theorem length_bigEndian (count n : Nat) : (bigEndian count n).length = count := by
  induction count with
  | zero => rfl
  | succ count ih => rw [bigEndian, List.length_cons, ih]

theorem length_sha256 (message : List UInt8) : (sha256 message).length = 32 := by
  simp [sha256, length_bigEndian]

theorem digits_hexadecimal (bytes : List UInt8) : ∀ c ∈ hexadecimal bytes, isDigit c = true := by
  intro c inside
  obtain ⟨byte, _, inside⟩ := List.mem_flatMap.mp inside
  have small := byte.toNat_lt
  rcases List.mem_cons.mp inside with rfl | second
  · exact isDigit_hexDigit _ (by omega)
  · obtain rfl := List.mem_singleton.mp second
    exact isDigit_hexDigit _ (by omega)

theorem length_hexadecimal (bytes : List UInt8) : (hexadecimal bytes).length = 2 * bytes.length := by
  induction bytes with
  | nil => rfl
  | cons byte rest ih =>
      have tail : (hexadecimal (byte :: rest)).length = 2 + (hexadecimal rest).length := by
        simp only [hexadecimal, List.flatMap_cons, List.length_append, List.length_cons, List.length_nil]
      rw [tail, ih, List.length_cons]
      omega

theorem key_good (name : String) : Key (key name) := by
  have digits := digits_hexadecimal (sha256 name.toUTF8.toList)
  refine ⟨?_, fun c inside => digits c (by simpa [key] using inside)⟩
  rw [key, size_digits _ digits, length_hexadecimal, length_sha256]

end Digest

namespace TemplateName

structure Plain (name : String) : Prop where
  alphabet : ∀ c ∈ name.toList, c = '.' ∨ c = '-' ∨ Text.isWord c = true
  segments : [] ∉ splitAt isSeparator name.toList

def Plain.holds (name : String) : Bool :=
  (name.toList.all fun c => c == '.' || c == '-' || Text.isWord c) && !(splitAt isSeparator name.toList).contains []

theorem plain_iff (name : String) : Plain name ↔ Plain.holds name = true := by
  have letters : ∀ c, (c == '.' || c == '-' || Text.isWord c) = true ↔ c = '.' ∨ c = '-' ∨ Text.isWord c = true := by
    simp [or_assoc]
  simp only [Plain.holds, Bool.and_eq_true, List.all_eq_true, letters, Bool.not_eq_true', List.contains_eq_mem,
    decide_eq_false_iff_not]
  exact ⟨fun plain => ⟨plain.alphabet, plain.segments⟩, fun both => ⟨both.1, both.2⟩⟩

instance (name : String) : Decidable (Plain name) := decidable_of_iff _ (plain_iff name).symm

def listed (ranges : List (Nat × Nat)) : List Nat :=
  ranges.flatMap fun (low, high) => List.range' low (high + 1 - low)

theorem mem_listed (ranges : List (Nat × Nat)) (n : Nat) (inside : Text.inRanges ranges n = true) :
    n ∈ listed ranges := by
  induction ranges with
  | nil => cases inside
  | cons range rest ih =>
      obtain ⟨low, high⟩ := range
      rw [Text.inRanges] at inside
      split at inside
      · cases inside
      · rw [listed, List.flatMap_cons]
        rcases Bool.or_eq_true_iff.mp inside with here | later
        · refine List.mem_append_left _ (List.mem_range'_1.mpr ?_)
          have below := of_decide_eq_true here
          omega
        · exact List.mem_append_right _ (ih later)

theorem isBlank_of_isWord (c : Char) (word : Text.isWord c = true) : Text.isBlank c = false := by
  have apart : ((listed Text.blankRanges).all fun n => !Text.isWord (Char.ofNat n)) = true := by decide +kernel
  rw [Bool.eq_false_iff]
  intro blank
  have found := List.all_eq_true.mp apart c.toNat (mem_listed _ _ blank)
  rw [Char.ofNat_toNat, word] at found
  cases found

theorem alphabet_apart (c : Char) (plain : c = '.' ∨ c = '-' ∨ Text.isWord c = true) :
    c ≠ '/' ∧ c ≠ '\\' ∧ c ≠ ':' ∧ c ≠ '\x00' := by
  have apart : ∀ other : Char, Text.isWord other = false → other ≠ '.' → other ≠ '-' → c ≠ other := by
    rintro _ word dot dash rfl
    rcases plain with here | here | here
    · exact dot here
    · exact dash here
    · exact absurd (here.symm.trans word) (by decide)
  exact ⟨apart _ (by decide +kernel) (by decide) (by decide), apart _ (by decide +kernel) (by decide) (by decide),
    apart _ (by decide +kernel) (by decide) (by decide), apart _ (by decide +kernel) (by decide) (by decide)⟩

section Splitting

variable (separates : Char → Bool) (text : List Char)

theorem splitAt_ne : splitAt separates text ≠ [] := by
  cases text with
  | nil => exact List.cons_ne_nil _ _
  | cons _ _ =>
      rw [splitAt]
      split
      · exact List.cons_ne_nil _ _
      · split <;> exact List.cons_ne_nil _ _

theorem splitAt_cons (c : Char) (rest : List Char) :
    splitAt separates (c :: rest)
      = if separates c then [] :: splitAt separates rest else (splitAt separates rest).modifyHead (List.cons c) := by
  have some := splitAt_ne separates rest
  rw [splitAt]
  cases parts : splitAt separates rest with
  | nil => exact absurd parts some
  | cons first others => rfl

theorem splitAt_eq_splitOn (separator : Char) (same : ∀ c ∈ text, separates c = true ↔ c = separator) :
    splitAt separates text = text.splitOn separator := by
  induction text with
  | nil => rfl
  | cons c rest ih =>
      obtain ⟨first, others⟩ := List.forall_mem_cons.mp same
      rw [splitAt_cons, List.splitOn_cons_eq_if_modifyHead, ih others]
      by_cases here : c = separator
      · rw [if_pos (first.mpr here), if_pos (by simpa using here)]
      · rw [if_neg (fun separated => here (first.mp separated)), if_neg (by simpa using here)]

theorem splitAt_none (none : ∀ c ∈ text, separates c = false) : splitAt separates text = [text] := by
  induction text with
  | nil => rfl
  | cons c rest ih =>
      obtain ⟨first, others⟩ := List.forall_mem_cons.mp none
      rw [splitAt_cons, ih others, first]
      rfl

theorem mem_splitAt (segment : List Char) (inside : segment ∈ splitAt separates text) :
    ∀ c ∈ segment, c ∈ text ∧ separates c = false := by
  induction text generalizing segment with
  | nil =>
      obtain rfl := List.mem_singleton.mp inside
      exact fun _ none => absurd none List.not_mem_nil
  | cons c rest ih =>
      have below : ∀ found ∈ splitAt separates rest, ∀ other ∈ found, other ∈ c :: rest ∧ separates other = false := by
        intro found member other within
        obtain ⟨here, kept⟩ := ih found member other within
        exact ⟨List.mem_cons_of_mem _ here, kept⟩
      rw [splitAt_cons] at inside
      split at inside
      · rcases List.mem_cons.mp inside with rfl | later
        · exact fun _ none => absurd none List.not_mem_nil
        · exact below segment later
      · rename_i kept
        cases parts : splitAt separates rest with
        | nil =>
            rw [parts] at inside
            cases inside
        | cons first others =>
            rw [parts] at inside below
            rcases List.mem_cons.mp inside with rfl | later
            · intro other within
              rcases List.mem_cons.mp within with rfl | within
              · exact ⟨List.mem_cons_self, by simpa using kept⟩
              · exact below first List.mem_cons_self other within
            · exact below segment (List.mem_cons_of_mem _ later)

end Splitting

section Plain

variable {name : String} (plain : Plain name)

include plain

theorem isSeparator_plain : ∀ c ∈ name.toList, isSeparator c = true ↔ c = '.' := by
  intro c inside
  have apart := alphabet_apart c (plain.alphabet c inside)
  simp [isSeparator, apart.1]

theorem split_plain : splitAt isSeparator name.toList = name.toList.splitOn '.' :=
  splitAt_eq_splitOn _ _ '.' (isSeparator_plain plain)

theorem plain_ext (other : String) (plain' : Plain other)
    (same : splitAt isSeparator name.toList = splitAt isSeparator other.toList) : name = other := by
  rw [split_plain plain, split_plain plain'] at same
  have joined := congrArg (List.intercalate ['.']) same
  rw [List.intercalate_splitOn, List.intercalate_splitOn] at joined
  exact String.toList_inj.mp joined

theorem segments_plain : segments name = .ok (splitAt isSeparator name.toList) := by
  obtain ⟨alphabet, filled⟩ := plain
  have apart : ∀ c ∈ name.toList, c ≠ '/' ∧ c ≠ '\\' ∧ c ≠ ':' ∧ c ≠ '\x00' :=
    fun c inside => alphabet_apart c (alphabet c inside)
  have slashless : ∀ c ∈ name.toList, isSlash c = false := fun c inside => by
    simp [isSlash, (apart c inside).1, (apart c inside).2.1]
  have colon : name.toList.contains ':' = false := by
    simpa using fun inside => (apart ':' inside).2.2.1 rfl
  have backslash : name.toList.contains '\\' = false := by
    simpa using fun inside => (apart '\\' inside).2.1 rfl
  rw [segments]
  cases text : name.toList with
  | nil => exact absurd (by rw [text]; exact List.mem_singleton.mpr rfl) filled
  | cons c rest =>
      rw [text] at alphabet filled slashless colon backslash
      obtain ⟨first, _⟩ := List.forall_mem_cons.mp slashless
      have nonblank : Text.isBlank c = false := by
        rcases alphabet c List.mem_cons_self with rfl | rfl | word
        · rfl
        · rfl
        · exact isBlank_of_isWord c word
      have full : (Text.trim (c :: rest)).isEmpty = false := by
        have kept : List.dropWhile Text.isBlank (rest.reverse ++ [c]) ≠ [] := by
          rw [List.dropWhile_append]
          split <;> simp [nonblank]
        rw [Text.trim, Text.trimStart, List.dropWhile_cons_of_neg (by rw [nonblank]; exact Bool.false_ne_true),
          Text.trimEnd, List.reverse_cons, List.isEmpty_reverse, List.isEmpty_eq_false_iff]
        exact kept
      have parents : (splitAt isSlash (c :: rest)).contains ['.', '.'] = false := by
        rw [splitAt_none _ _ slashless]
        simp only [List.contains_cons, List.contains_nil, Bool.or_false, beq_eq_false_iff_ne]
        intro same
        rw [← same] at filled
        exact filled (by decide)
      have nothing : (splitAt isSeparator (c :: rest)).contains [] = false := by simpa using filled
      simp only [full, List.head?_cons, Option.any_some, first, colon, parents, backslash, nothing, Bool.or_self,
        Bool.false_eq_true, if_false]

end Plain

end TemplateName

end Stencil
