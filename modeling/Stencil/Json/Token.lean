import Stencil.Json.Tree
import Stencil.Text.Hex

set_option autoImplicit false

namespace Stencil.Json

-- A text is absent from its token where it holds half a surrogate pair.
inductive Token where
  | mark (c : Char)
  | scalar (tree : Tree)
  | text (content : Option String)

inductive Piece where
  | char (c : Char)
  | unit (n : Nat)

def unit? (a b c d : Char) : Option Nat :=
  match Text.hexValue? a, Text.hexValue? b, Text.hexValue? c, Text.hexValue? d with
  | some a, some b, some c, some d => some (((a * 16 + b) * 16 + c) * 16 + d)
  | _, _, _, _ => none

def unescapeChar? (c : Char) : Option Char :=
  if c = '"' || c = '\\' || c = '/' then some c
  else if c = 'b' then some '\x08'
  else if c = 'f' then some '\x0c'
  else if c = 'n' then some '\n'
  else if c = 'r' then some '\r'
  else if c = 't' then some '\t'
  else none

def quoted? : List Char → Option (List Piece × List Char)
  | [] => none
  | '"' :: rest => some ([], rest)
  | '\\' :: 'u' :: a :: b :: c :: d :: rest =>
      match unit? a b c d with
      | some n => (quoted? rest).map fun (pieces, after) => (.unit n :: pieces, after)
      | none => none
  | '\\' :: c :: rest =>
      match unescapeChar? c with
      | some plain => (quoted? rest).map fun (pieces, after) => (.char plain :: pieces, after)
      | none => none
  | c :: rest =>
      if c.toNat < 0x20 then none
      else (quoted? rest).map fun (pieces, after) => (.char c :: pieces, after)

def isHighUnit (n : Nat) : Bool := 0xD800 ≤ n && n < 0xDC00

def isLowUnit (n : Nat) : Bool := 0xDC00 ≤ n && n < 0xE000

-- Joins pairs of units; a unit of a pair that stands alone has no character.
def joinPieces? : List Piece → Option (List Char)
  | [] => some []
  | .char c :: rest => (joinPieces? rest).map (c :: ·)
  | .unit high :: .unit low :: rest =>
      if isHighUnit high && isLowUnit low then
        let point := 0x10000 + (high - 0xD800) * 0x400 + (low - 0xDC00)
        (joinPieces? rest).map (Char.ofNat point :: ·)
      else if isHighUnit high || isLowUnit high then none
      else (joinPieces? (.unit low :: rest)).map (Char.ofNat high :: ·)
  | .unit n :: rest =>
      if isHighUnit n || isLowUnit n then none else (joinPieces? rest).map (Char.ofNat n :: ·)

def leadingDigits (text : List Char) : List Char := text.takeWhile Decimal.isDigit

def afterDigits (text : List Char) : List Char := text.dropWhile Decimal.isDigit

def whole? : List Char → Option (List Char × List Char)
  | '0' :: rest => some (['0'], rest)
  | text =>
      if (leadingDigits text).isEmpty then none else some (leadingDigits text, afterDigits text)

def fraction? : List Char → Option (Option (List Char) × List Char)
  | '.' :: rest =>
      if (leadingDigits rest).isEmpty then none
      else some (some (leadingDigits rest), afterDigits rest)
  | text => some (none, text)

def exponentDigits? (negative : Bool) (text : List Char) :
    Option (Option (Bool × List Char) × List Char) :=
  if (leadingDigits text).isEmpty then none
  else some (some (negative, leadingDigits text), afterDigits text)

def signedExponent? : List Char → Option (Option (Bool × List Char) × List Char)
  | '+' :: rest => exponentDigits? false rest
  | '-' :: rest => exponentDigits? true rest
  | rest => exponentDigits? false rest

def exponent? : List Char → Option (Option (Bool × List Char) × List Char)
  | 'e' :: rest => signedExponent? rest
  | 'E' :: rest => signedExponent? rest
  | text => some (none, text)

def unsigned? (negative : Bool) (text : List Char) : Option (Decimal.Numeral × List Char) := do
  let (whole, afterWhole) ← whole? text
  let (fraction, afterFraction) ← fraction? afterWhole
  let (exponent, after) ← exponent? afterFraction
  pure (⟨negative, whole, fraction, exponent⟩, after)

def numeral? : List Char → Option (Decimal.Numeral × List Char)
  | '-' :: rest => unsigned? true rest
  | text => unsigned? false text

def isMark (c : Char) : Bool :=
  c = '[' || c = ']' || c = '\x7b' || c = '\x7d' || c = ',' || c = ':'

def isSpace (c : Char) : Bool := c = ' ' || c = '\n' || c = '\t' || c = '\r'

def token? : List Char → Option (Token × List Char)
  | '"' :: rest => (quoted? rest).map fun (pieces, after) =>
      (.text ((joinPieces? pieces).map String.ofList), after)
  | 'n' :: 'u' :: 'l' :: 'l' :: rest => some (.scalar .null, rest)
  | 't' :: 'r' :: 'u' :: 'e' :: rest => some (.scalar (.bool true), rest)
  | 'f' :: 'a' :: 'l' :: 's' :: 'e' :: rest => some (.scalar (.bool false), rest)
  | c :: rest =>
      if isMark c then some (.mark c, rest)
      else (numeral? (c :: rest)).map fun (numeral, after) =>
        (.scalar (((Number.ofNumeral? numeral).map Tree.number).getD .unreadable), after)
  | [] => none

theorem length_of_quoted? {text after : List Char} {pieces : List Piece}
    (found : quoted? text = some (pieces, after)) : after.length < text.length := by
  fun_induction quoted? text generalizing pieces with
  | case1 => simp at found
  | case2 rest => simp_all
  | case3 a b c d rest n _ ih =>
      simp only [Option.map_eq_some_iff, Prod.mk.injEq] at found
      obtain ⟨⟨inner, tail⟩, here, _, rfl⟩ := found
      have shorter : tail.length < rest.length := ih here
      simp only [List.length_cons]; omega
  | case4 => simp at found
  | case5 c rest _ plain _ ih =>
      simp only [Option.map_eq_some_iff, Prod.mk.injEq] at found
      obtain ⟨⟨inner, tail⟩, here, _, rfl⟩ := found
      have shorter : tail.length < rest.length := ih here
      simp only [List.length_cons]; omega
  | case6 => simp at found
  | case7 => simp at found
  | case8 c rest _ _ _ _ ih =>
      simp only [Option.map_eq_some_iff, Prod.mk.injEq] at found
      obtain ⟨⟨inner, tail⟩, here, _, rfl⟩ := found
      have shorter : tail.length < rest.length := ih here
      simp only [List.length_cons]; omega

theorem length_afterDigits (text : List Char) : (afterDigits text).length ≤ text.length :=
  (List.dropWhile_sublist _).length_le

theorem length_afterDigits_lt {text : List Char} (digits : (leadingDigits text).isEmpty = false) :
    (afterDigits text).length < text.length := by
  have whole : text = leadingDigits text ++ afterDigits text :=
    (List.takeWhile_append_dropWhile).symm
  have positive : 0 < (leadingDigits text).length := by
    cases shape : leadingDigits text with
    | nil => simp [shape] at digits
    | cons c rest => simp
  have := congrArg List.length whole
  simp only [List.length_append] at this
  omega

theorem length_of_whole? {text after digits : List Char}
    (found : whole? text = some (digits, after)) : after.length < text.length := by
  unfold whole? at found
  split at found
  · simp_all
  · split at found
    · simp at found
    · rename_i nonempty
      simp only [Option.some.injEq, Prod.mk.injEq] at found
      obtain ⟨_, rfl⟩ := found
      exact length_afterDigits_lt (by simpa using nonempty)

theorem length_of_fraction? {text after : List Char} {digits : Option (List Char)}
    (found : fraction? text = some (digits, after)) : after.length ≤ text.length := by
  unfold fraction? at found
  split at found
  · rename_i rest
    split at found
    · simp at found
    · simp only [Option.some.injEq, Prod.mk.injEq] at found
      obtain ⟨_, rfl⟩ := found
      have := length_afterDigits rest
      simp only [List.length_cons]; omega
  · simp_all

theorem length_of_exponentDigits? {negative : Bool} {text after : List Char}
    {digits : Option (Bool × List Char)}
    (found : exponentDigits? negative text = some (digits, after)) : after.length ≤ text.length := by
  unfold exponentDigits? at found
  split at found
  · simp at found
  · simp only [Option.some.injEq, Prod.mk.injEq] at found
    obtain ⟨_, rfl⟩ := found
    exact length_afterDigits text

theorem length_of_signedExponent? {text after : List Char} {digits : Option (Bool × List Char)}
    (found : signedExponent? text = some (digits, after)) : after.length ≤ text.length := by
  unfold signedExponent? at found
  split at found
  · have := length_of_exponentDigits? found
    simp only [List.length_cons]; omega
  · have := length_of_exponentDigits? found
    simp only [List.length_cons]; omega
  · exact length_of_exponentDigits? found

theorem length_of_exponent? {text after : List Char} {digits : Option (Bool × List Char)}
    (found : exponent? text = some (digits, after)) : after.length ≤ text.length := by
  unfold exponent? at found
  split at found
  · have := length_of_signedExponent? found
    simp only [List.length_cons]; omega
  · have := length_of_signedExponent? found
    simp only [List.length_cons]; omega
  · simp_all

theorem length_of_unsigned? {text after : List Char} {numeral : Decimal.Numeral} {negative : Bool}
    (found : unsigned? negative text = some (numeral, after)) : after.length < text.length := by
  simp only [unsigned?, Option.bind_eq_bind, Option.pure_def, Option.bind_eq_some_iff,
    Option.some.injEq, Prod.mk.injEq] at found
  obtain ⟨⟨whole, afterWhole⟩, first, ⟨fraction, afterFraction⟩, second, ⟨exponent, last⟩, third,
    _, rfl⟩ := found
  have one : afterWhole.length < text.length := length_of_whole? first
  have two : afterFraction.length ≤ afterWhole.length := length_of_fraction? second
  have three : last.length ≤ afterFraction.length := length_of_exponent? third
  show last.length < text.length
  omega

theorem length_of_numeral? {text after : List Char} {numeral : Decimal.Numeral}
    (found : numeral? text = some (numeral, after)) : after.length < text.length := by
  unfold numeral? at found
  split at found
  · have := length_of_unsigned? found
    simp only [List.length_cons]; omega
  · exact length_of_unsigned? found

theorem length_of_token? {text after : List Char} {token : Token}
    (found : token? text = some (token, after)) : after.length < text.length := by
  unfold token? at found
  split at found
  · simp only [Option.map_eq_some_iff, Prod.mk.injEq] at found
    obtain ⟨⟨pieces, tail⟩, here, _, rfl⟩ := found
    have := length_of_quoted? here
    simp only [List.length_cons]; omega
  · simp_all; omega
  · simp_all; omega
  · simp_all; omega
  · split at found
    · simp_all
    · simp only [Option.map_eq_some_iff, Prod.mk.injEq] at found
      obtain ⟨⟨numeral, tail⟩, here, _, rfl⟩ := found
      exact length_of_numeral? here
  · simp at found

def tokens? (text : List Char) : Option (List Token) :=
  match text with
  | [] => some []
  | c :: rest =>
      if isSpace c then tokens? rest
      else
        match _found : token? (c :: rest) with
        | none => none
        | some (token, after) => (tokens? after).map (token :: ·)
termination_by text.length
decreasing_by
  · simp
  · exact length_of_token? _found

end Stencil.Json
