import Stencil.Expr.Header
import Stencil.Proofs.Expr.Placed
import Stencil.Proofs.Text.Slices

set_option autoImplicit false

namespace Stencil

namespace Sliced

def quotedAt? (quote : Char) (place : Nat) : List Char → Option (List Char × Nat)
  | [] => none
  | ['\\'] => none
  | '\\' :: c :: rest =>
      (quotedAt? quote (place + '\\'.utf8Size + c.utf8Size) rest).map fun (content, close) =>
        match escaped? quote c with
        | some plain => (plain :: content, close)
        | none => ('\\' :: c :: content, close)
  | c :: rest =>
      if c = quote then some ([], place)
      else (quotedAt? quote (place + c.utf8Size) rest).map fun (content, close) => (c :: content, close)

def stringAt (text : List Char) (place : Nat) (quote : UInt8) : Run ParseError (List Char × Nat) := do
  let rest ← sliceFrom text (place + 1)
  match quotedAt? (Char.ofNat quote.toNat) 0 rest with
  | some (content, close) => return (content, place + 1 + close + 1)
  | none => refuse ⟨.unterminated, place⟩

def decimal (digits : List Char) : Float :=
  let whole := digits.takeWhile Decimal.isDigit
  let fraction := (digits.dropWhile Decimal.isDigit).tail
  Decimal.nearest (Decimal.natOfDigits (whole ++ fraction)) (-(fraction.length : Int))

def numberAt (text : List Char) (place : Nat) : Run ParseError (Token × Nat) := do
  let stop := skip Decimal.isDigit text place
  let bytes := Text.bytes text
  if bytes[stop]? = some '.'.toUInt8 ∧ (bytes[stop + 1]?).any (Text.asciiTest Decimal.isDigit) = true then
    let last := skip Decimal.isDigit text (stop + 1)
    let digits ← slice text place last
    return (.float (decimal digits), last)
  else
    let digits ← slice text place stop
    match numberToken.integer digits [] with
    | .ok (token, _) => return (token, stop)
    | .error fault => refuse ⟨fault, place⟩

def wordAt (text : List Char) (place : Nat) : Run ParseError (Token × Nat) := do
  let stop := skip isNameChar text place
  let word ← slice text place stop
  return (.word (String.ofList word), stop)

def symbolByte? (bytes : List UInt8) : Option (Symbol × Nat) :=
  Symbol.all.findSome? fun s =>
    let mark := Text.bytes s.spelling
    if mark.isPrefixOf bytes then some (s, mark.length) else none

def symbolAt (text : List Char) (place : Nat) : Run ParseError (Token × Nat) :=
  match symbolByte? ((Text.bytes text).drop place) with
  | some (s, size) => return (.symbol s, place + size)
  | none => do
      let rest ← sliceFrom text place
      refuse ⟨.unexpectedCharacter (rest.headD '?'), place⟩

-- All that decides how far a token goes are bytes that are characters by themselves, so that it ends inside no character.
def tokenAt (text : List Char) (place : Nat) (b : UInt8) : Run ParseError (Token × Nat) :=
  if b = '$'.toUInt8 then
    let stop := skip isNameChar text (place + 1)
    if stop = place + 1 then refuse ⟨.noVariableName, place⟩
    else if ((Text.bytes text)[place + 1]?).any (Text.asciiTest Decimal.isDigit) then refuse ⟨.digitFirst, place⟩
    else do
      let name ← slice text (place + 1) stop
      return (.variableName (String.ofList name), stop)
  else if b = '\''.toUInt8 || b = '"'.toUInt8 then do
    let (content, stop) ← stringAt text place b
    return (.text (String.ofList content), stop)
  else if Text.asciiTest Decimal.isDigit b then numberAt text place
  else if Text.asciiTest isNameChar b then wordAt text place
  else symbolAt text place

def tokensAt (text : List Char) : Nat → Nat → Run ParseError (List Located)
  | 0, _ => .error .unfinished
  | rounds + 1, place =>
      match (Text.bytes text)[place]? with
      | none => return []
      | some b =>
          if Text.asciiTest Text.isAsciiBlank b then tokensAt text rounds (place + 1)
          else do
            let (token, next) ← tokenAt text place b
            let behind ← tokensAt text rounds next
            return ⟨token, place⟩ :: behind

def tokenize (text : List Char) : Run ParseError (List Located) := tokensAt text (text.length + 1) 0

theorem ascii_of_nameChar (c : Char) (named : isNameChar c = true) : Text.isAscii c = true := by
  have bound : c.val.toNat ≤ 127 := by
    delta isNameChar Char.isAlphanum Char.isAlpha Char.isUpper Char.isLower Char.isDigit at named
    simp only [Bool.or_eq_true, Bool.and_eq_true, decide_eq_true_eq, ge_iff_le, UInt32.le_iff_toNat_le] at named
    rcases named with ((⟨_, upper⟩ | ⟨_, lower⟩) | ⟨_, digit⟩) | rfl
    · exact Nat.le_trans upper (by decide)
    · exact Nat.le_trans lower (by decide)
    · exact Nat.le_trans digit (by decide)
    · decide
  exact decide_eq_true bound

theorem ascii_of_digit (c : Char) (digit : Decimal.isDigit c = true) : Text.isAscii c = true :=
  ascii_of_nameChar c (Token.digit_named c digit)

theorem ascii_of_blank (c : Char) (blank : Text.isAsciiBlank c = true) : Text.isAscii c = true := by
  simp only [Text.isAsciiBlank, Bool.or_eq_true, decide_eq_true_eq] at blank
  rcases blank with (((rfl | rfl) | rfl) | rfl) | rfl <;> rfl

theorem ascii_of_quote {c : Char} (marks : c = '\'' ∨ c = '"') : Text.isAscii c = true := by
  rcases marks with rfl | rfl <;> rfl

theorem ascii_of_spelling (s : Symbol) : s.spelling.all Text.isAscii = true := by
  cases s <;> rfl

def placed (text : List Char) (place : Nat) : Except ParseFault (Token × List Char) → Run ParseError (Token × Nat)
  | .error fault => refuse ⟨fault, place⟩
  | .ok (token, after) => .ok (token, Text.placeOf text after)

theorem byteSize_of_quotedText {quote : Char} {text content after : List Char}
    (found : quotedText? quote text = some (content, after)) : Text.byteSize after < Text.byteSize text := by
  obtain ⟨passed, rfl, quoted⟩ := Token.quoted_of_quotedText quote text content after found
  have some : 0 < Text.byteSize passed := by
    cases quoted <;> exact byteSize_visible _ _
  rw [Text.byteSize_append]
  omega

theorem quotedAt_plain (quote c : Char) (place : Nat) (rest : List Char) (plain : c ≠ '\\') :
    quotedAt? quote place (c :: rest) =
      if c = quote then some ([], place)
      else (quotedAt? quote (place + c.utf8Size) rest).map fun (content, close) => (c :: content, close) := by
  rw [quotedAt?]
  · exact fun same => absurd same plain
  · exact fun _ _ same => absurd same plain

-- By induction on how the text is read.
theorem quotedAt_eq (quote : Char) (single : quote.utf8Size = 1) (place : Nat) (text : List Char) :
    quotedAt? quote place text =
      (quotedText? quote text).map fun (content, after) => (content, place + Text.placeOf text after - 1) := by
  fun_induction quotedText? quote text generalizing place with
  | case1 => rfl
  | case2 => rfl
  | case3 c rest ih =>
      rw [quotedAt?, ih]
      cases found : quotedText? quote rest with
      | none => rfl
      | some parts =>
          obtain ⟨content, after⟩ := parts
          have within := byteSize_of_quotedText found
          have size : Text.placeOf ('\\' :: c :: rest) after = '\\'.utf8Size + (c.utf8Size + Text.placeOf rest after) := by
            rw [Text.placeOf_cons, Text.placeOf_cons c (by omega)]
            rw [Text.byteSize]
            omega
          cases escaped? quote c <;> simp only [Option.map_some, size, Nat.add_assoc]
  | case4 rest lone escape =>
      have size : Text.placeOf (quote :: rest) rest = 1 := by
        rw [Text.placeOf_cons quote (Nat.le_refl _), single, Text.placeOf, Nat.sub_self]
      rw [quotedAt_plain quote quote place rest (Token.plain_of_cases lone escape), if_pos rfl]
      simp only [Option.map_some, size, Nat.add_sub_cancel]
  | case5 c rest lone escape other ih =>
      rw [quotedAt_plain quote c place rest (Token.plain_of_cases lone escape), if_neg other, ih]
      cases found : quotedText? quote rest with
      | none => rfl
      | some parts =>
          obtain ⟨content, after⟩ := parts
          have within := byteSize_of_quotedText found
          simp only [Option.map_some, Text.placeOf_cons c (Nat.le_of_lt within), Nat.add_assoc]

section Parts

variable (before : List Char) (c : Char) (rest : List Char)

theorem next_place (ascii : Text.isAscii c = true) : Text.byteSize (before ++ [c]) = Text.byteSize before + 1 := by
  rw [Text.byteSize_append, ← Text.length_bytes [c], Text.bytes_cons, Text.encode_ascii ascii]
  rfl

theorem tokenAt_variable : tokenAt (before ++ '$' :: rest) (Text.byteSize before) '$'.toUInt8
    = placed (before ++ '$' :: rest) (Text.byteSize before) (firstToken '$' rest) := by
  have whole : before ++ '$' :: rest = (before ++ ['$']) ++ rest := List.append_cons ..
  have split : rest.takeWhile isNameChar ++ rest.dropWhile isNameChar = rest := List.takeWhile_append_dropWhile
  rw [tokenAt, if_pos rfl, firstToken, if_pos rfl, whole, ← next_place before '$' rfl, skip_append ascii_of_nameChar]
  dsimp only
  cases name : rest.takeWhile isNameChar with
  | nil => exact if_pos rfl
  | cons d others =>
      have some := byteSize_visible d others
      rw [name] at split
      have start := Text.byte_at (before ++ ['$']) d (others ++ rest.dropWhile isNameChar)
      rw [← List.cons_append, split] at start
      rw [if_neg (by omega), start, Option.any_some, Text.asciiTest_first ascii_of_digit]
      dsimp only
      by_cases digit : Decimal.isDigit d = true
      · rw [if_pos digit, if_pos digit]
        rfl
      · have part : (slice ((before ++ ['$']) ++ (d :: others ++ rest.dropWhile isNameChar)) _ _ : Run ParseError _) = _ :=
          slice_between (before ++ ['$']) (d :: others) (rest.dropWhile isNameChar)
        rw [split] at part
        rw [if_neg digit, if_neg digit, part, ok_bind, placed]
        have ends := Text.placeOf_append ((before ++ ['$']) ++ d :: others) (rest.dropWhile isNameChar)
        rw [List.append_assoc, split, Text.byteSize_append] at ends
        rw [ends]
        rfl

theorem stringAt_append (quote : Char) (marks : quote = '\'' ∨ quote = '"') :
    stringAt (before ++ quote :: rest) (Text.byteSize before) quote.toUInt8 = match quotedText? quote rest with
      | some (content, after) => .ok (content, Text.placeOf (before ++ quote :: rest) after)
      | none => refuse ⟨.unterminated, Text.byteSize before⟩ := by
  have ascii := ascii_of_quote marks
  have single : quote.utf8Size = 1 := by
    rcases marks with rfl | rfl <;> rfl
  have back : Char.ofNat quote.toUInt8.toNat = quote := by
    rcases marks with rfl | rfl <;> rfl
  have inside : (sliceFrom (before ++ quote :: rest) (Text.byteSize before + 1) : Run ParseError _) = .ok rest := by
    rw [← next_place before quote ascii, List.append_cons]
    exact sliceFrom_append (before ++ [quote]) rest
  rw [stringAt, inside, ok_bind, back, quotedAt_eq quote single]
  cases found : quotedText? quote rest with
  | none => rfl
  | some parts =>
      obtain ⟨content, after⟩ := parts
      have within := byteSize_of_quotedText found
      have ends : Text.placeOf (before ++ quote :: rest) after
          = Text.byteSize before + 1 + (0 + Text.placeOf rest after - 1) + 1 := by
        rw [Text.placeOf, Text.placeOf, Text.byteSize_append, Text.byteSize, single]
        omega
      simp only [Option.map_some, ends]
      rfl

theorem tokenAt_quoted (quote : Char) (marks : quote = '\'' ∨ quote = '"') :
    tokenAt (before ++ quote :: rest) (Text.byteSize before) quote.toUInt8
      = placed (before ++ quote :: rest) (Text.byteSize before) (firstToken quote rest) := by
  have dollar : quote ≠ '$' := by
    rcases marks with rfl | rfl <;> decide
  have dollar' : quote.toUInt8 ≠ '$'.toUInt8 := by
    rcases marks with rfl | rfl <;> decide
  have listed : (quote = '\'' || quote = '"') = true := by simpa using marks
  have listed' : (quote.toUInt8 = '\''.toUInt8 || quote.toUInt8 = '"'.toUInt8) = true := by
    rcases marks with rfl | rfl <;> decide
  rw [tokenAt, if_neg dollar', if_pos listed', stringAt_append before rest quote marks, firstToken, if_neg dollar,
    if_pos listed]
  cases quotedText? quote rest <;> rfl

theorem point_iff (front left : List Char) :
    ((Text.bytes (front ++ left))[Text.byteSize front]? = some '.'.toUInt8 ∧
      ((Text.bytes (front ++ left))[Text.byteSize front + 1]?).any (Text.asciiTest Decimal.isDigit) = true) ↔
        ∃ d others, left = '.' :: d :: others ∧ Decimal.isDigit d = true := by
  cases left with
  | nil => simp [Text.byte_at_end]
  | cons p more =>
      rw [Text.byte_at, Option.some.injEq, Text.firstByte_eq p rfl]
      by_cases point : p = '.'
      · subst point
        rw [← next_place front '.' rfl, List.append_cons]
        cases more with
        | nil => simp [Text.byte_at_end]
        | cons d others =>
            rw [Text.byte_at, Option.any_some, Text.asciiTest_first ascii_of_digit]
            simp
      · simp [point]

theorem decimal_point (whole fraction : List Char) (digits : ∀ c ∈ whole, Decimal.isDigit c = true) :
    decimal (whole ++ '.' :: fraction)
      = Decimal.nearest (Decimal.natOfDigits (whole ++ fraction)) (-(fraction.length : Int)) := by
  have other : ∀ c ∈ ('.' :: fraction).head?, Decimal.isDigit c = false := by
    rintro c ⟨⟩
    rfl
  obtain ⟨taken, left⟩ := Token.takeWhile_stops Decimal.isDigit whole ('.' :: fraction) (List.all_eq_true.mpr digits) other
  rw [decimal, taken, left, List.tail_cons]

theorem number_behind (whole more : List Char) (digits : ∀ c ∈ whole, Decimal.isDigit c = true) :
    let text := before ++ (whole ++ '.' :: more)
    let last := skip Decimal.isDigit text (Text.byteSize (before ++ whole) + 1)
    (do
      let digits ← slice text (Text.byteSize before) last
      return (Token.float (decimal digits), last) : Run ParseError (Token × Nat)) =
        .ok (.float (Decimal.nearest (Decimal.natOfDigits (whole ++ more.takeWhile Decimal.isDigit))
          (-((more.takeWhile Decimal.isDigit).length : Int))), Text.placeOf text (more.dropWhile Decimal.isDigit)) := by
  intro text last
  have split : more.takeWhile Decimal.isDigit ++ more.dropWhile Decimal.isDigit = more := List.takeWhile_append_dropWhile
  have front : text = ((before ++ whole) ++ ['.']) ++ more := by simp [text]
  have cut : text = before ++ ((whole ++ '.' :: more.takeWhile Decimal.isDigit) ++ more.dropWhile Decimal.isDigit) := by
    rw [List.append_assoc, List.cons_append, split]
  have ends : last = Text.byteSize before + Text.byteSize (whole ++ '.' :: more.takeWhile Decimal.isDigit) := by
    rw [show last = skip Decimal.isDigit text _ from rfl, ← next_place (before ++ whole) '.' rfl, front,
      skip_append ascii_of_digit, ← Text.byteSize_append, ← Text.byteSize_append]
    simp
  have behind : Text.placeOf text (more.dropWhile Decimal.isDigit) = last := by
    rw [cut, ← List.append_assoc, Text.placeOf_append, Text.byteSize_append, ends]
  have part : (slice text (Text.byteSize before) last : Run ParseError _) = .ok (whole ++ '.' :: more.takeWhile Decimal.isDigit) := by
    rw [ends, cut]
    exact slice_between ..
  rw [part, ok_bind, decimal_point whole _ digits, behind]
  rfl

theorem numberAt_append : numberAt (before ++ rest) (Text.byteSize before)
    = placed (before ++ rest) (Text.byteSize before) (numberToken rest) := by
  have split : rest.takeWhile Decimal.isDigit ++ rest.dropWhile Decimal.isDigit = rest := List.takeWhile_append_dropWhile
  have digits : ∀ c ∈ rest.takeWhile Decimal.isDigit, Decimal.isDigit c = true := fun c => List.mem_takeWhile_imp
  have whole : before ++ rest = (before ++ rest.takeWhile Decimal.isDigit) ++ rest.dropWhile Decimal.isDigit := by
    rw [List.append_assoc, split]
  have stop := skip_append ascii_of_digit before rest
  rw [← Text.byteSize_append] at stop
  have pointed := point_iff (before ++ rest.takeWhile Decimal.isDigit) (rest.dropWhile Decimal.isDigit)
  rw [← whole] at pointed
  rw [numberAt, stop]
  by_cases point : ∃ d others, rest.dropWhile Decimal.isDigit = '.' :: d :: others ∧ Decimal.isDigit d = true
  · rw [if_pos (pointed.mpr point)]
    obtain ⟨d, others, left, digit⟩ := point
    have float := number_behind before (rest.takeWhile Decimal.isDigit) (d :: others) digits
    rw [← left, split] at float
    refine float.trans ?_
    simp only [numberToken, left, if_pos digit, placed]
  · have part := @slice_between ParseError before (rest.takeWhile Decimal.isDigit) (rest.dropWhile Decimal.isDigit)
    rw [split, ← Text.byteSize_append] at part
    have ends := Text.placeOf_append (before ++ rest.takeWhile Decimal.isDigit) (rest.dropWhile Decimal.isDigit)
    rw [← whole] at ends
    rw [if_neg fun holds => point (pointed.mp holds), part, ok_bind, Token.numberToken_whole]
    · by_cases large : greatestInteger < Decimal.natOfDigits (rest.takeWhile Decimal.isDigit)
      · simp only [numberToken.integer, if_pos large, placed]
      · simp only [numberToken.integer, if_neg large, placed, ends]
        rfl
    · exact fun d others left => Bool.eq_false_iff.mpr fun digit => point ⟨d, others, left, digit⟩

theorem wordAt_append : wordAt (before ++ rest) (Text.byteSize before)
    = placed (before ++ rest) (Text.byteSize before)
        (.ok (.word (String.ofList (rest.takeWhile isNameChar)), rest.dropWhile isNameChar)) := by
  have split : rest.takeWhile isNameChar ++ rest.dropWhile isNameChar = rest := List.takeWhile_append_dropWhile
  have part := @slice_between ParseError before (rest.takeWhile isNameChar) (rest.dropWhile isNameChar)
  have ends := Text.placeOf_append (before ++ rest.takeWhile isNameChar) (rest.dropWhile isNameChar)
  rw [List.append_assoc, split, Text.byteSize_append] at ends
  rw [split] at part
  simp only [wordAt, skip_append ascii_of_nameChar, part, placed, ends]
  rfl

theorem symbolByte_bytes (text : List Char) :
    symbolByte? (Text.bytes text) = (symbol? text).map fun (s, _) => (s, Text.byteSize s.spelling) := by
  rw [symbolByte?, symbol?, List.map_findSome?]
  refine congrFun (congrArg List.findSome? ?_) _
  funext s
  simp only [Text.prefix_bytes (ascii_of_spelling s), Text.length_bytes, Function.comp]
  cases Text.behind? s.spelling text <;> rfl

theorem symbolAt_append : symbolAt (before ++ c :: rest) (Text.byteSize before)
    = placed (before ++ c :: rest) (Text.byteSize before) (match symbol? (c :: rest) with
      | some (s, after) => .ok (.symbol s, after)
      | none => .error (.unexpectedCharacter c)) := by
  rw [symbolAt, Text.drop_bytes, symbolByte_bytes, sliceFrom_append]
  cases found : symbol? (c :: rest) with
  | none => rfl
  | some parts =>
      obtain ⟨s, after⟩ := parts
      have ends := Text.placeOf_append (before ++ s.spelling) after
      rw [List.append_assoc, ← Token.spelling_of_symbol _ _ _ found, Text.byteSize_append] at ends
      simp only [Option.map_some, placed, ends]
      rfl

theorem tokenAt_append : tokenAt (before ++ c :: rest) (Text.byteSize before) (Text.firstByte c)
    = placed (before ++ c :: rest) (Text.byteSize before) (firstToken c rest) := by
  by_cases dollar : c = '$'
  · subst dollar
    exact tokenAt_variable before rest
  by_cases quoted : c = '\'' ∨ c = '"'
  · rw [Text.firstByte_ascii (ascii_of_quote quoted)]
    exact tokenAt_quoted before rest c quoted
  have unquoted : ¬ (c = '\'' || c = '"') = true := by simpa using quoted
  have unquoted' : ¬ (Text.firstByte c = '\''.toUInt8 || Text.firstByte c = '"'.toUInt8) = true := by
    simpa [Text.firstByte_eq c (rfl : Text.isAscii '\'' = true), Text.firstByte_eq c (rfl : Text.isAscii '"' = true)]
      using quoted
  rw [tokenAt, firstToken, if_neg fun same => dollar ((Text.firstByte_eq c rfl).mp same), if_neg unquoted', if_neg dollar,
    if_neg unquoted, Text.asciiTest_first ascii_of_digit, Text.asciiTest_first ascii_of_nameChar]
  by_cases digit : Decimal.isDigit c = true
  · rw [if_pos digit, if_pos digit]
    exact numberAt_append before (c :: rest)
  rw [if_neg digit, if_neg digit]
  by_cases named : isNameChar c = true
  · rw [if_pos named, if_pos named]
    exact wordAt_append before (c :: rest)
  · rw [if_neg named, if_neg named]
    exact symbolAt_append before c rest

end Parts

theorem tokensAt_append (rounds : Nat) (before rest : List Char) (enough : rest.length < rounds) :
    tokensAt (before ++ rest) rounds (Text.byteSize before) = lift (tokensFrom (Text.byteSize before) rest) := by
  induction rounds generalizing before rest with
  | zero => exact absurd enough (Nat.not_lt_zero _)
  | succ rounds ih =>
      cases rest with
      | nil =>
          rw [tokensAt, List.append_nil, Text.byte_at_end, tokensFrom]
          rfl
      | cons c rest =>
          have shorter : rest.length < rounds := Nat.lt_of_succ_lt_succ enough
          rw [tokensAt, Text.byte_at]
          dsimp only
          rw [Text.asciiTest_first ascii_of_blank]
          by_cases blank : Text.isAsciiBlank c = true
          · rw [if_pos blank, tokensFrom_blank _ c rest blank, ← next_place before c (ascii_of_blank c blank), List.append_cons,
              ih _ rest shorter]
          · rw [if_neg blank, tokenAt_append]
            cases first : firstToken c rest with
            | error fault =>
                rw [tokensFrom_fault _ c rest fault blank first]
                rfl
            | ok read =>
                obtain ⟨token, after⟩ := read
                obtain ⟨passed, rfl⟩ := Token.passed_of_firstToken c rest after token first
                have cut : before ++ c :: (passed ++ after) = (before ++ c :: passed) ++ after := by
                  rw [List.append_assoc, List.cons_append]
                have fewer : after.length < rounds := by
                  rw [List.length_append] at shorter
                  omega
                have behind := ih (before ++ c :: passed) after fewer
                rw [tokensFrom_behind _ c passed after token blank first, placed, ok_bind, cut, Text.placeOf_append]
                dsimp only
                rw [behind, Text.byteSize_append]
                cases tokensFrom (Text.byteSize before + Text.byteSize (c :: passed)) after <;> rfl

theorem tokenize_eq (text : List Char) : tokenize text = lift (Stencil.tokenize text) :=
  tokensAt_append _ [] text (Nat.lt_succ_self _)

theorem boundary_of_tokenize {text : List Char} {tokens : List Located} (read : tokenize text = .ok tokens) :
    ∀ found ∈ tokens, Text.Boundary text found.offset := by
  intro found inside
  rw [tokenize_eq] at read
  cases whole : Stencil.tokenize text with
  | error fault =>
      rw [whole] at read
      cases read
  | ok tokens =>
      rw [whole] at read
      cases read
      obtain ⟨front, c, rest, _, rfl, place, _⟩ := (placed_tokenize text tokens whole).stands found inside
      exact place ▸ Text.boundary_append front (c :: rest)

theorem boundary_of_tokenAt {text : List Char} {place next : Nat} {b : UInt8} {token : Token}
    (starts : Text.Boundary text place) (byte : (Text.bytes text)[place]? = some b)
    (read : tokenAt text place b = .ok (token, next)) : Text.Boundary text next := by
  obtain ⟨before, rest, rfl, rfl⟩ := (Text.boundary_iff _ _).mp starts
  cases rest with
  | nil =>
      rw [List.append_nil, Text.byte_at_end] at byte
      cases byte
  | cons c rest =>
      rw [Text.byte_at] at byte
      obtain rfl := Option.some.inj byte
      rw [tokenAt_append] at read
      cases first : firstToken c rest with
      | error fault =>
          rw [first] at read
          cases read
      | ok parts =>
          obtain ⟨token', after⟩ := parts
          obtain ⟨passed, rfl⟩ := Token.passed_of_firstToken c rest after token' first
          rw [first, placed] at read
          cases read
          rw [← List.cons_append, ← List.append_assoc, Text.placeOf_append]
          exact Text.boundary_append _ after

theorem boundary_of_stringAt {text content : List Char} {quote : Char} {start stop : Nat}
    (marks : quote = '\'' ∨ quote = '"') (opens : (Text.bytes text)[start]? = some quote.toUInt8)
    (read : stringAt text start quote.toUInt8 = .ok (content, stop)) : Text.Boundary text stop := by
  obtain ⟨before, rest, rfl, rfl⟩ := Text.split_of_byte quote (ascii_of_quote marks) text start opens
  rw [stringAt_append before rest quote marks] at read
  cases found : quotedText? quote rest with
  | none =>
      rw [found] at read
      cases read
  | some parts =>
      obtain ⟨content', after⟩ := parts
      rw [found] at read
      cases read
      obtain ⟨passed, whole, _⟩ := Token.quoted_of_quotedText quote rest content after found
      rw [whole, ← List.cons_append, ← List.append_assoc, Text.placeOf_append]
      exact Text.boundary_append _ after

def reading {α : Type} (parse : Cursor → Except ParseError α) (text : List Char) : Run ParseError α := do
  let tokens ← tokenize text
  lift (parse (.start tokens (Text.byteSize text)))

theorem reading_eq {α : Type} (parse : Cursor → Except ParseError α) (text : List Char) :
    reading parse text = lift (cursor text >>= parse) := by
  rw [reading, tokenize_eq, cursor]
  cases Stencil.tokenize text <;> rfl

def parse : List Char → Run ParseError Expr := reading Expr.single

def parseAll : List Char → Run ParseError (List Expr) := reading Expr.several

def eachHeader : List Char → Run ParseError EachHeader := reading EachHeader.read

def forHeader : List Char → Run ParseError ForHeader := reading ForHeader.read

section Whole

variable (text : List Char)

theorem parse_eq : parse text = lift (Expr.parse text) := reading_eq _ text

theorem parseAll_eq : parseAll text = lift (Expr.parseAll text) := reading_eq _ text

theorem eachHeader_eq : eachHeader text = lift (EachHeader.parse text) := reading_eq _ text

theorem forHeader_eq : forHeader text = lift (ForHeader.parse text) := reading_eq _ text

end Whole

end Sliced

end Stencil
