import Stencil.Proofs.Template.Groups
import Stencil.Proofs.Text.Bytes

set_option autoImplicit false

namespace Stencil

namespace Template

def closingByte? (quote : Option UInt8) (depth place : Nat) : List UInt8 → Option Nat
  | [] => none
  | b :: rest =>
      match quote with
      | some q =>
          if b = '\\'.toUInt8 then
            match rest with
            | [] => none
            | _ :: rest => closingByte? (some q) depth (place + 2) rest
          else if b = q then closingByte? none depth (place + 1) rest
          else closingByte? (some q) depth (place + 1) rest
      | none =>
          if b = '\''.toUInt8 || b = '"'.toUInt8 then closingByte? (some b) depth (place + 1) rest
          else if b = '('.toUInt8 then closingByte? none (depth + 1) (place + 1) rest
          else if b = ')'.toUInt8 then if depth ≤ 1 then some place else closingByte? none (depth - 1) (place + 1) rest
          else closingByte? none depth (place + 1) rest

section Search

-- The bytes of a character that is not ASCII are none of those that the search looks for.
theorem closingByte_high (quote : Option Char) (depth place : Nat) (encoded rest : List UInt8)
    (ascii : ∀ q ∈ quote, Text.isAscii q = true) (high : ∀ b ∈ encoded, 128 ≤ b) :
    closingByte? (quote.map Char.toUInt8) depth place (encoded ++ rest)
      = closingByte? (quote.map Char.toUInt8) depth (place + encoded.length) rest := by
  induction encoded generalizing place with
  | nil => rfl
  | cons b encoded ih =>
      have differs (d : Char) (ascii : Text.isAscii d = true) : b ≠ d.toUInt8 :=
        Text.ne_of_high (high b List.mem_cons_self) ascii
      have further := ih (place + 1) fun d inside => high d (List.mem_cons_of_mem b inside)
      rw [List.length_cons, Nat.add_comm encoded.length, ← Nat.add_assoc, ← further, List.cons_append]
      cases quote with
      | none =>
          simp only [Option.map_none, closingByte?, differs _ (rfl : Text.isAscii '\'' = true),
            differs _ (rfl : Text.isAscii '"' = true), differs _ (rfl : Text.isAscii '(' = true),
            differs _ (rfl : Text.isAscii ')' = true), decide_false, Bool.or_self, Bool.false_eq_true, if_false]
      | some q =>
          rw [Option.map_some, closingByte?.eq_def]
          simp only [differs _ (rfl : Text.isAscii '\\' = true), differs q (ascii q rfl), if_false]

variable {depth place : Nat} {c : Char}

theorem closingByte_inside (q : Char) (ascii : Text.isAscii q = true) (plain : c ≠ '\\') (rest : List Char) :
    closingByte? (some q.toUInt8) depth place (Text.bytes (c :: rest))
      = closingByte? ((if c = q then none else some q).map Char.toUInt8) depth (place + c.utf8Size) (Text.bytes rest) := by
  rw [Text.bytes_cons, ← String.length_utf8EncodeChar]
  by_cases narrow : Text.isAscii c = true
  · rw [Text.encode_ascii narrow, List.singleton_append, closingByte?.eq_def]
    simp only [Text.toUInt8_inj narrow ascii, Text.toUInt8_inj narrow (rfl : Text.isAscii '\\' = true), if_neg plain]
    split <;> rfl
  · have other : c ≠ q := by
      rintro rfl
      exact narrow ascii
    rw [if_neg other]
    exact closingByte_high (some q) _ _ _ _ (by simpa using ascii) (Text.encode_high narrow)

theorem closingByte_escaped (q : Char) (ascii : Text.isAscii q = true) (d : Char) (rest : List Char) :
    closingByte? (some q.toUInt8) depth place (Text.bytes ('\\' :: d :: rest))
      = closingByte? (some q.toUInt8) depth (place + 1 + d.utf8Size) (Text.bytes rest) := by
  obtain ⟨b, others, encoded, high⟩ := Text.encode_cons d
  have passes : closingByte? (some q.toUInt8) depth (place + 2) (others ++ Text.bytes rest)
      = closingByte? (some q.toUInt8) depth (place + 2 + others.length) (Text.bytes rest) :=
    closingByte_high (some q) depth _ others _ (by simpa using ascii) high
  have size : place + 1 + d.utf8Size = place + 2 + others.length := by
    rw [← String.length_utf8EncodeChar, encoded, List.length_cons]
    omega
  rw [Text.bytes_cons, Text.bytes_cons, Text.encode_ascii (rfl : Text.isAscii '\\' = true), encoded, size, ← passes,
    List.singleton_append, List.cons_append, closingByte?, if_pos rfl]

theorem closingByte_bare (bare : Bare c) (rest : List Char) :
    closingByte? none depth place (Text.bytes (c :: rest))
      = closingByte? none depth (place + c.utf8Size) (Text.bytes rest) := by
  rw [Text.bytes_cons, ← String.length_utf8EncodeChar]
  by_cases narrow : Text.isAscii c = true
  · obtain ⟨single, double, opens, closes⟩ := bare
    rw [Text.encode_ascii narrow, List.singleton_append, closingByte?.eq_def]
    simp only [Text.toUInt8_inj narrow (rfl : Text.isAscii '\'' = true),
      Text.toUInt8_inj narrow (rfl : Text.isAscii '"' = true), Text.toUInt8_inj narrow (rfl : Text.isAscii '(' = true),
      Text.toUInt8_inj narrow (rfl : Text.isAscii ')' = true),
      single, double, opens, closes, decide_false, Bool.or_self, Bool.false_eq_true, if_false, List.length_singleton]
  · exact closingByte_high none _ _ _ _ (by simp) (Text.encode_high narrow)

def lastPlace (place : Nat) (parts : Option (List Char × List Char)) : Option Nat :=
  parts.map fun (group, _) => place + Text.byteSize group - 1

theorem lastPlace_prepend (place : Nat) (c : Char) (parts : Option (List Char × List Char)) :
    lastPlace place (Text.prepend c parts) = lastPlace (place + c.utf8Size) parts := by
  cases parts with
  | none => rfl
  | some parts => exact congrArg (fun size => some (size - 1)) (Nat.add_assoc ..).symm

-- By induction on the search among the characters.
theorem closingByte_bytes (quote : Option Char) (depth place : Nat) (text : List Char)
    (ascii : ∀ q ∈ quote, Text.isAscii q = true) :
    closingByte? (quote.map Char.toUInt8) depth place (Text.bytes text) = lastPlace place (groupRest? quote depth text) := by
  have outside : ∀ q ∈ (none : Option Char), Text.isAscii q = true := fun q known => absurd known (Option.not_mem_none q)
  fun_induction groupRest? quote depth text generalizing place with
  | case1 => rfl
  | case2 depth q => rfl
  | case3 depth q d rest ih =>
      rw [Option.map_some, closingByte_escaped q (ascii q rfl), lastPlace_prepend, lastPlace_prepend]
      exact ih _ ascii
  | case4 depth rest q plain ih =>
      rw [Option.map_some, closingByte_inside q (ascii q rfl) plain, if_pos rfl, lastPlace_prepend]
      exact ih _ outside
  | case5 depth c rest q plain other ih =>
      rw [Option.map_some, closingByte_inside q (ascii q rfl) plain, if_neg other, lastPlace_prepend]
      exact ih _ ascii
  | case6 depth c rest quoted ih =>
      have narrow : Text.isAscii c = true := by
        simp only [Bool.or_eq_true, decide_eq_true_eq] at quoted
        rcases quoted with rfl | rfl <;> rfl
      rw [lastPlace_prepend, ← ih _ (by simpa using narrow), ← String.length_utf8EncodeChar, Text.bytes_cons,
        Text.encode_ascii narrow, List.singleton_append, Option.map_none, closingByte?.eq_def]
      simp only [Text.toUInt8_inj narrow (rfl : Text.isAscii '\'' = true),
        Text.toUInt8_inj narrow (rfl : Text.isAscii '"' = true), quoted, if_true]
      rfl
  | case7 depth rest unquoted ih =>
      rw [lastPlace_prepend]
      exact ih _ outside
  | case8 depth rest last unquoted other => exact if_pos last
  | case9 depth rest more unquoted other ih =>
      rw [lastPlace_prepend, ← ih _ outside]
      exact if_neg more
  | case10 depth c rest unquoted opens closes ih =>
      simp only [Bool.or_eq_true, decide_eq_true_eq, not_or] at unquoted
      rw [Option.map_none, closingByte_bare ⟨unquoted.1, unquoted.2, opens, closes⟩, lastPlace_prepend]
      exact ih _ outside

end Search

def closingFrom? (text : List Char) (start : Nat) : Option Nat := closingByte? none 0 start ((Text.bytes text).drop start)

theorem closingFrom_append (before rest : List Char) :
    closingFrom? (before ++ rest) (Text.byteSize before) = lastPlace (Text.byteSize before) (group? rest) := by
  rw [closingFrom?, Text.bytes_append, ← Text.length_bytes before, List.drop_left]
  exact closingByte_bytes none 0 _ rest nofun

theorem closingParen_eq (text : List Char) :
    closingParen? text = closingFrom? text (Text.byteSize (text.takeWhile (· != '('))) := by
  have found := closingFrom_append (text.takeWhile (· != '(')) (text.dropWhile (· != '('))
  rw [List.takeWhile_append_dropWhile] at found
  exact found.symm

-- The tokens that are read from a quoted text end where the search finds its end.
def EndsAlike (quote : Char) (text : List Char) : Prop :=
  match quotedText? quote text with
  | none => ∀ depth place, closingByte? (some quote.toUInt8) depth place (Text.bytes text) = none
  | some (_, left) => ∃ literal, text = literal ++ left ∧ ∀ depth place,
      closingByte? (some quote.toUInt8) depth place (Text.bytes text)
        = closingByte? none depth (place + Text.byteSize literal) (Text.bytes left)

theorem lastPlace_prependAll (place : Nat) (passed : List Char) (parts : Option (List Char × List Char)) :
    lastPlace place (Text.prependAll passed parts) = lastPlace (place + Text.byteSize passed) parts := by
  cases parts with
  | none => rfl
  | some parts =>
      refine congrArg (fun size => some (size - 1)) ?_
      rw [Text.byteSize_append, Nat.add_assoc]

theorem endsAlike (quote : Char) (ascii : Text.isAscii quote = true) (text : List Char) : EndsAlike quote text := by
  have quoted (depth place : Nat) :
      closingByte? (some quote.toUInt8) depth place (Text.bytes text)
        = lastPlace place (groupRest? (some quote) depth text) :=
    closingByte_bytes (some quote) depth place text (by simpa using ascii)
  rw [EndsAlike]
  cases found : quotedText? quote text with
  | none =>
      intro depth place
      rw [quoted, groupRest_unclosed quote depth text found]
      rfl
  | some parts =>
      obtain ⟨content, left⟩ := parts
      obtain ⟨literal, rfl, closed⟩ := Token.quoted_of_quotedText quote text content left found
      refine ⟨literal, rfl, fun depth place => ?_⟩
      rw [quoted, groupRest_quoted closed, lastPlace_prependAll]
      exact (closingByte_bytes none depth _ left nofun).symm

section Behind

variable {before rest : List Char}

theorem group_of_closing {close : Nat} (ends : closingFrom? (before ++ '(' :: rest) (Text.byteSize before) = some close) :
    ∃ group after, group? ('(' :: rest) = some (group, after) ∧ '(' :: rest = group ++ after ∧
      Text.byteSize before + Text.byteSize group = close + 1 := by
  rw [closingFrom_append] at ends
  obtain ⟨⟨group, after⟩, closed, same⟩ := Option.map_eq_some_iff.mp ends
  obtain ⟨inner, _, rfl⟩ := Text.prepend_eq_some.mp (closed : Text.prepend '(' (groupRest? none 1 rest) = _)
  refine ⟨_, after, closed, eq_append_of_groupRest? closed, ?_⟩
  have starts : Text.byteSize ('(' :: inner) = 1 + Text.byteSize inner := rfl
  dsimp only at same
  omega

theorem last_of_closing {close : Nat} {slice : List Char} {located : List Located}
    (ends : closingFrom? (before ++ '(' :: rest) (Text.byteSize before) = some close)
    (isSlice : Text.IsSlice (before ++ '(' :: rest) (Text.byteSize before) (close + 1) slice)
    (read : tokenize slice = .ok located) :
    ∃ early, located = early ++ [⟨.symbol .closeParen, close - Text.byteSize before⟩] ∧ nesting located = 0 ∧
      ∀ part, part <+: early → part ≠ [] → 0 < nesting part := by
  obtain ⟨group, after, closed, whole, place⟩ := group_of_closing ends
  obtain ⟨after', cut, size⟩ := Text.cut_of_isSlice isSlice
  obtain rfl := (Text.cut_unique slice group after' after (cut.symm.trans whole) (by omega)).1
  obtain ⟨early, rfl, total, above⟩ := closes_last rest slice after located closed read
  have offset : Text.byteSize slice - 1 = close - Text.byteSize before := by omega
  exact ⟨early, by rw [offset], total, above⟩

theorem closing_of_last {stop : Nat} {slice : List Char} {located : List Located}
    (isSlice : Text.IsSlice (before ++ '(' :: rest) (Text.byteSize before) stop slice)
    (read : tokenize slice = .ok located) (returns : Returns located) :
    ∃ group blanks last, slice = group ++ blanks ∧ (∀ c ∈ blanks, Text.isAsciiBlank c) ∧
      located.getLast? = some last ∧ last.offset + 1 = Text.byteSize group ∧
      closingFrom? (before ++ '(' :: rest) (Text.byteSize before) = some (Text.byteSize before + last.offset) := by
  obtain ⟨after, cut, _⟩ := Text.cut_of_isSlice isSlice
  obtain ⟨group, blanks, last, same, blank, ends, place, closed⟩ :=
    group_of_returns rest slice after located cut read returns
  refine ⟨group, blanks, last, same, blank, ends, place, ?_⟩
  have stop : Text.byteSize before + Text.byteSize group - 1 = Text.byteSize before + last.offset := by omega
  rw [closingFrom_append, closed, ← stop]
  rfl

theorem closing_unblanked {stop : Nat} {slice : List Char} {located : List Located}
    (isSlice : Text.IsSlice (before ++ '(' :: rest) (Text.byteSize before) stop slice)
    (read : tokenize slice = .ok located) (returns : Returns located)
    (visible : ∀ c ∈ slice.getLast?, ¬ Text.isAsciiBlank c) :
    closingFrom? (before ++ '(' :: rest) (Text.byteSize before) = some (stop - 1) := by
  obtain ⟨group, blanks, last, rfl, blank, _, place, closed⟩ := closing_of_last isSlice read returns
  obtain ⟨_, _, size⟩ := Text.cut_of_isSlice isSlice
  have none : blanks = [] := by
    rcases List.eq_nil_or_concat blanks with empty | ⟨early, c, rfl⟩
    · exact empty
    · have final : c ∈ (group ++ early.concat c).getLast? := by
        rw [List.concat_eq_append, ← List.append_assoc, List.getLast?_concat]
        rfl
      exact absurd (blank c (by simp)) (visible c final)
  rw [none, List.append_nil] at size
  exact closed.trans (congrArg some (by omega))

end Behind

structure Agreement (text : List Char) (start : Nat) : Prop where
  characters : ∀ before rest, text = before ++ '(' :: rest → Text.byteSize before = start →
    closingFrom? text start = (group? ('(' :: rest)).map fun (group, _) => start + Text.byteSize group - 1
  slice : ∀ close, closingFrom? text start = some close → ∃ group, Text.IsSlice text start (close + 1) group
  closes : ∀ close group located, closingFrom? text start = some close → Text.IsSlice text start (close + 1) group →
    tokenize group = .ok located →
      ∃ early, located = early ++ [⟨.symbol .closeParen, close - start⟩] ∧ nesting located = 0 ∧
        ∀ part, part <+: early → part ≠ [] → 0 < nesting part
  returns : ∀ stop slice located, Text.IsSlice text start stop slice → tokenize slice = .ok located → Returns located →
    ∃ group blanks last, slice = group ++ blanks ∧ (∀ c ∈ blanks, Text.isAsciiBlank c) ∧
      located.getLast? = some last ∧ last.offset + 1 = Text.byteSize group ∧
      closingFrom? text start = some (start + last.offset)
  unblanked : ∀ stop slice located, Text.IsSlice text start stop slice → tokenize slice = .ok located →
    Returns located → (∀ c ∈ slice.getLast?, ¬ Text.isAsciiBlank c) → closingFrom? text start = some (stop - 1)
  literals : ∀ quote, quote = '\'' ∨ quote = '"' → ∀ inside, EndsAlike quote inside

/-- The search for the parenthesis that closes a group goes over the bytes of a text and knows of quotes, backslashes and
parentheses only. It ends at the token that closes the first parenthesis, if the text in between has tokens. Tokens that
return to no open parenthesis with the last one end there, with nothing but blanks behind them. -/
theorem search_agrees (text : List Char) (start : Nat) (opens : (Text.bytes text)[start]? = some '('.toUInt8) :
    Agreement text start := by
  obtain ⟨before, rest, rfl, rfl⟩ := Text.split_of_byte '(' rfl text start opens
  constructor
  case characters =>
    intro before' rest' cut size
    obtain ⟨rfl, same⟩ := Text.cut_unique before before' _ _ cut size.symm
    rw [← same]
    exact closingFrom_append before ('(' :: rest)
  case slice =>
    intro close ends
    obtain ⟨group, after, _, whole, size⟩ := group_of_closing ends
    exact ⟨group, before, after, by rw [whole], rfl, size⟩
  case closes => exact fun _ _ _ ends isSlice read => last_of_closing ends isSlice read
  case returns => exact fun _ _ _ isSlice read returns => closing_of_last isSlice read returns
  case unblanked => exact fun _ _ _ isSlice read returns visible => closing_unblanked isSlice read returns visible
  case literals =>
    intro quote known inside
    have ascii : Text.isAscii quote = true := by
      rcases known with rfl | rfl <;> rfl
    exact endsAlike quote ascii inside

def quotedTest : List Char := "@if('é\\')')".toList

def quotedGroup : List Char := "('é\\')')".toList

def quotedTokens : List Located := [⟨.symbol .openParen, 0⟩, ⟨.text "é')", 1⟩, ⟨.symbol .closeParen, 8⟩]

-- The quote behind the backslash does not end the text, so that the parenthesis after it is not the last one.
theorem search_agrees_condition :
    (Text.bytes quotedTest)[3]? = some '('.toUInt8 ∧ closingFrom? quotedTest 3 = some 11 ∧
      Text.IsSlice quotedTest 3 (11 + 1) quotedGroup ∧ tokenize quotedGroup = .ok quotedTokens ∧
      ∃ early, quotedTokens = early ++ [⟨.symbol .closeParen, 11 - 3⟩] ∧ nesting quotedTokens = 0 ∧
        ∀ part, part <+: early → part ≠ [] → 0 < nesting part := by
  have opens : (Text.bytes quotedTest)[3]? = some '('.toUInt8 := by decide +kernel
  have read : tokenize quotedGroup = .ok quotedTokens := by
    have paren : firstToken '(' "'é\\')')".toList = .ok (.symbol .openParen, "'é\\')')".toList) := rfl
    have literal : firstToken '\'' "é\\')')".toList = .ok (.text "é')", [')']) := rfl
    have closes : firstToken ')' [] = .ok (.symbol .closeParen, []) := rfl
    change tokensFrom 0 ('(' :: "'é\\')')".toList) = _
    rw [tokensFrom_token 0 '(' _ _ _ (by decide) paren]
    change Except.map _ (tokensFrom 1 ('\'' :: "é\\')')".toList)) = _
    rw [tokensFrom_token 1 '\'' _ _ _ (by decide) literal]
    change Except.map _ (Except.map _ (tokensFrom 8 [')'])) = _
    rw [tokensFrom_token 8 ')' _ _ _ (by decide) closes, tokensFrom]
    rfl
  have agreement := search_agrees quotedTest 3 opens
  have ends : closingFrom? quotedTest 3 = some 11 := by
    rw [agreement.characters "@if".toList "'é\\')')".toList rfl rfl]
    decide +kernel
  have cut : Text.IsSlice quotedTest 3 (11 + 1) quotedGroup := ⟨"@if".toList, [], by decide, by decide, by decide⟩
  exact ⟨opens, ends, cut, read, agreement.closes 11 quotedGroup quotedTokens ends cut read⟩

-- Blanks behind the last token belong to no token, and the search does not reach them.
theorem blank_behind_search : ¬ ∀ text start stop slice located, (Text.bytes text)[start]? = some '('.toUInt8 →
    Text.IsSlice text start stop slice → tokenize slice = .ok located → Returns located →
      closingFrom? text start = some (stop - 1) := by
  intro all
  have opens : firstToken '(' [')', ' '] = .ok (.symbol .openParen, [')', ' ']) := rfl
  have closes : firstToken ')' [' '] = .ok (.symbol .closeParen, [' ']) := rfl
  have read : tokenize ['(', ')', ' '] = .ok [⟨.symbol .openParen, 0⟩, ⟨.symbol .closeParen, 1⟩] := by
    rw [tokenize, tokensFrom_token 0 '(' _ _ _ (by decide) opens, tokensFrom_token _ ')' _ _ _ (by decide) closes,
      tokensFrom_blank _ ' ' [] (by decide), tokensFrom]
    rfl
  have returns : Returns [⟨.symbol .openParen, 0⟩, ⟨.symbol .closeParen, 1⟩] := by
    refine ⟨List.cons_ne_nil _ _, rfl, fun part within some zero => ?_⟩
    rcases List.prefix_cons_iff.mp within with rfl | ⟨others, rfl, further⟩
    · exact absurd rfl some
    · rcases List.prefix_cons_iff.mp further with rfl | ⟨others, rfl, last⟩
      · cases zero
      · rw [List.prefix_nil.mp last]
  have cut : Text.IsSlice ['(', ')', ' '] 0 3 ['(', ')', ' '] := ⟨[], [], rfl, rfl, rfl⟩
  have claimed := all ['(', ')', ' '] 0 3 _ _ (by decide) cut read returns
  have ends : closingFrom? ['(', ')', ' '] 0 = some 1 := by decide
  rw [ends] at claimed
  cases claimed

end Template

end Stencil
