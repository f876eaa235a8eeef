import Stencil.Proofs.Expr.Written

set_option autoImplicit false

namespace Stencil

theorem tokensFrom_token (offset : Nat) (c : Char) (rest after : List Char) (token : Token)
    (visible : ¬ Text.isAsciiBlank c) (first : firstToken c rest = .ok (token, after)) :
    tokensFrom offset (c :: rest) =
      (tokensFrom (offset + Text.byteSize ((c :: rest).take ((c :: rest).length - after.length))) after).map
        (⟨token, offset⟩ :: ·) := by
  rw [tokensFrom, if_neg visible]
  split
  · rename_i fault failed
    rw [first] at failed
    cases failed
  · rename_i found left read
    rw [first] at read
    cases read
    rfl

theorem tokensFrom_fault (offset : Nat) (c : Char) (rest : List Char) (fault : ParseFault)
    (visible : ¬ Text.isAsciiBlank c) (first : firstToken c rest = .error fault) :
    tokensFrom offset (c :: rest) = .error ⟨fault, offset⟩ := by
  rw [tokensFrom, if_neg visible]
  split
  · rename_i other failed
    rw [first] at failed
    cases failed
    rfl
  · rename_i found left read
    rw [first] at read
    cases read

theorem tokensFrom_blank (offset : Nat) (c : Char) (rest : List Char) (blank : Text.isAsciiBlank c) :
    tokensFrom offset (c :: rest) = tokensFrom (offset + 1) rest := by
  rw [tokensFrom, if_pos blank]

theorem tokensFrom_cons (offset : Nat) (c : Char) (rest after : List Char) (token : Token)
    (visible : ¬ Text.isAsciiBlank c) (first : firstToken c rest = .ok (token, after)) :
    ∃ next, tokensFrom offset (c :: rest) = (tokensFrom next after).map (⟨token, offset⟩ :: ·) :=
  ⟨_, tokensFrom_token offset c rest after token visible first⟩

theorem byteSize_of_blank (c : Char) (blank : Text.isAsciiBlank c) : Text.byteSize [c] = 1 := by
  simp only [Text.isAsciiBlank, Bool.or_eq_true, decide_eq_true_eq] at blank
  rcases blank with (((rfl | rfl) | rfl) | rfl) | rfl <;> decide

theorem tokensFrom_behind (offset : Nat) (c : Char) (passed left : List Char) (token : Token)
    (visible : ¬ Text.isAsciiBlank c) (first : firstToken c (passed ++ left) = .ok (token, left)) :
    tokensFrom offset (c :: (passed ++ left)) =
      (tokensFrom (offset + Text.byteSize (c :: passed)) left).map (⟨token, offset⟩ :: ·) := by
  have taken : (c :: (passed ++ left)).take ((c :: (passed ++ left)).length - left.length) = c :: passed := by
    rw [← List.cons_append, List.length_append, Nat.add_sub_cancel, List.take_left]
  rw [tokensFrom_token offset c _ left token visible first, taken]

theorem tokensFrom_passed {offset : Nat} (c : Char) (passed left : List Char) (token : Token) (located : List Located)
    (visible : ¬ Text.isAsciiBlank c) (first : firstToken c (passed ++ left) = .ok (token, left))
    (read : tokensFrom offset (c :: (passed ++ left)) = .ok located) :
    ∃ behind, tokensFrom (offset + Text.byteSize (c :: passed)) left = .ok behind ∧
      located = ⟨token, offset⟩ :: behind := by
  rw [tokensFrom_behind offset c passed left token visible first] at read
  cases more : tokensFrom (offset + Text.byteSize (c :: passed)) left with
  | error e =>
      rw [more] at read
      cases read
  | ok behind =>
      rw [more] at read
      exact ⟨behind, rfl, (Except.ok.inj read).symm⟩

namespace Token

def Spellable : Token → Prop
  | .variableName name => IsName name
  | .word name => IsName name
  | .int n => n ≤ greatestInteger
  | .float _ => False
  | .text _ => True
  | .symbol _ => True

def Ends (after : List Char) : Prop := ∀ c ∈ after.head?, c = ' '

theorem takeWhile_stops (test : Char → Bool) (text after : List Char) (all : text.all test)
    (stops : ∀ c ∈ after.head?, test c = false) :
    (text ++ after).takeWhile test = text ∧ (text ++ after).dropWhile test = after := by
  have stop : after.takeWhile test = [] ∧ after.dropWhile test = after := by
    cases after with
    | nil => exact ⟨rfl, rfl⟩
    | cons c rest =>
        have other := stops c rfl
        exact ⟨List.takeWhile_cons_of_neg (by simp [other]), List.dropWhile_cons_of_neg (by simp [other])⟩
  rw [List.all_eq_true] at all
  rw [List.takeWhile_append_of_pos all, List.dropWhile_append_of_pos all, stop.1, stop.2]
  exact ⟨List.append_nil text, rfl⟩

theorem stops_of_ends (test : Char → Bool) (space : test ' ' = false) {after : List Char} (ends : Ends after) :
    ∀ c ∈ after.head?, test c = false := fun c first => (ends c first).symm ▸ space

theorem quotedText_escape (content after : List Char) :
    quotedText? '\'' (content.flatMap escape ++ '\'' :: after) = some (content, after) := by
  induction content with
  | nil => rfl
  | cons c rest ih =>
      by_cases backslash : c = '\\'
      · subst backslash
        simp [escape, quotedText?, ih, escaped?]
      · by_cases quote : c = '\''
        · subst quote
          simp [escape, quotedText?, ih, escaped?]
        · simp [escape, backslash, quote, quotedText?, ih]

theorem symbol_spelling (s : Symbol) (after : List Char) (ends : Ends after) :
    symbol? (s.spelling ++ after) = some (s, after) := by
  cases after with
  | nil => cases s <;> rfl
  | cons c rest =>
      obtain rfl := ends c rfl
      cases s <;> rfl

theorem symbol_start (s : Symbol) :
    ∃ c rest, s.spelling = c :: rest ∧ Text.isAsciiBlank c = false ∧ c ≠ '$' ∧ c ≠ '\'' ∧ c ≠ '"' ∧
      Decimal.isDigit c = false ∧ isNameChar c = false := by
  cases s <;> exact ⟨_, _, rfl, by decide⟩

theorem name_start (name : String) (valid : IsName name) :
    ∃ c rest, name.toList = c :: rest ∧ isNameChar c = true ∧ Decimal.isDigit c = false ∧
      (c :: rest).all isNameChar := by
  obtain ⟨all, c, first, letter⟩ := valid
  cases whole : name.toList with
  | nil =>
      rw [whole] at first
      cases first
  | cons d rest =>
      rw [whole] at first all
      obtain rfl := Option.some.inj first
      rw [List.all_cons, Bool.and_eq_true] at all
      exact ⟨_, rest, rfl, all.1, letter, by simp [all]⟩

theorem nameChar_plain (c : Char) (named : isNameChar c = true) :
    Text.isAsciiBlank c = false ∧ c ≠ '$' ∧ c ≠ '\'' ∧ c ≠ '"' := by
  refine ⟨?_, ?_, ?_, ?_⟩
  · cases blank : Text.isAsciiBlank c with
    | false => rfl
    | true =>
        simp only [Text.isAsciiBlank, Bool.or_eq_true, decide_eq_true_eq] at blank
        rcases blank with (((rfl | rfl) | rfl) | rfl) | rfl <;> cases named
  all_goals
    rintro rfl
    cases named

theorem digit_named (c : Char) (digit : Decimal.isDigit c = true) : isNameChar c = true := by
  simp only [Decimal.isDigit, Bool.and_eq_true, decide_eq_true_eq] at digit
  simp only [isNameChar, Char.isAlphanum, Char.isDigit, Bool.or_eq_true, Bool.and_eq_true, decide_eq_true_eq]
  exact Or.inl (Or.inr digit)

section Stopped

variable (name : String) (valid : IsName name) (after : List Char) (stops : ∀ c ∈ after.head?, isNameChar c = false)

include valid stops

theorem firstToken_variable : firstToken '$' (name.toList ++ after) = .ok (.variableName name, after) := by
  obtain ⟨c, rest, whole, _, letter, all⟩ := name_start name valid
  obtain ⟨taken, left⟩ := takeWhile_stops isNameChar (c :: rest) after all stops
  rw [whole, firstToken, if_pos rfl, taken, left]
  simp only [letter, Bool.false_eq_true, if_false, ← whole, String.ofList_toList]

theorem firstToken_word :
    ∃ c rest, name.toList = c :: rest ∧ Text.isAsciiBlank c = false ∧
      firstToken c (rest ++ after) = .ok (.word name, after) := by
  obtain ⟨c, rest, whole, named, letter, all⟩ := name_start name valid
  obtain ⟨blank, dollar, single, double⟩ := nameChar_plain c named
  obtain ⟨taken, left⟩ := takeWhile_stops isNameChar (c :: rest) after all stops
  rw [List.cons_append] at taken left
  refine ⟨c, rest, whole, blank, ?_⟩
  rw [firstToken, if_neg dollar, if_neg (by simp [single, double]), if_neg (by simp [letter]), if_pos named, taken,
    left, ← whole, String.ofList_toList]

end Stopped

theorem firstToken_numeral (n : Nat) (after : List Char) :
    ∃ c rest, Decimal.natDigits n = c :: rest ∧ Text.isAsciiBlank c = false ∧
      firstToken c (rest ++ after) = numberToken (Decimal.natDigits n ++ after) := by
  obtain ⟨some, digits⟩ := Decimal.natDigits_digits n
  cases whole : Decimal.natDigits n with
  | nil => exact absurd whole some
  | cons c rest =>
      rw [whole] at digits
      have digit := digits c (List.mem_cons_self ..)
      obtain ⟨blank, dollar, single, double⟩ := nameChar_plain c (digit_named c digit)
      refine ⟨c, rest, rfl, blank, ?_⟩
      rw [firstToken, if_neg dollar, if_neg (by simp [single, double]), if_pos digit, List.cons_append]

theorem numberToken_whole (text : List Char)
    (whole : ∀ d rest, text.dropWhile Decimal.isDigit = '.' :: d :: rest → Decimal.isDigit d = false) :
    numberToken text = numberToken.integer (text.takeWhile Decimal.isDigit) (text.dropWhile Decimal.isDigit) := by
  rw [numberToken]
  split
  · rename_i d rest left
    rw [if_neg (by simp [whole d rest left]), left]
  · rfl

theorem numberToken_digits (n : Nat) (after : List Char) (stops : ∀ c ∈ after.head?, Decimal.isDigit c = false)
    (pointless : ∀ d rest, after = '.' :: d :: rest → Decimal.isDigit d = false) :
    numberToken (Decimal.natDigits n ++ after) = numberToken.integer (Decimal.natDigits n) after := by
  have digits := (Decimal.natDigits_digits n).2
  obtain ⟨taken, left⟩ := takeWhile_stops Decimal.isDigit _ after (List.all_eq_true.mpr digits) stops
  rw [numberToken_whole _ (by rwa [left]), taken, left]

theorem firstToken_digits (n : Nat) (after : List Char) (ends : Ends after) :
    ∃ c rest, Decimal.natDigits n = c :: rest ∧ Text.isAsciiBlank c = false ∧
      firstToken c (rest ++ after) = numberToken.integer (Decimal.natDigits n) after := by
  have pointless (d : Char) (rest : List Char) (same : after = '.' :: d :: rest) : Decimal.isDigit d = false := by
    cases ends '.' (by rw [same]; rfl)
  rw [← numberToken_digits n after (stops_of_ends _ (by decide) ends) pointless]
  exact firstToken_numeral n after

theorem integer_natDigits (n : Nat) (after : List Char) :
    numberToken.integer (Decimal.natDigits n) after =
      if greatestInteger < n then .error (.tooLarge (toString n)) else .ok (.int n, after) := by
  have text : String.ofList (Decimal.natDigits n) = toString n := rfl
  simp only [numberToken.integer, Decimal.natOfDigits_natDigits, text]

theorem firstToken_int (n : Nat) (fits : n ≤ greatestInteger) (after : List Char) (ends : Ends after) :
    ∃ c rest, Decimal.natDigits n = c :: rest ∧ Text.isAsciiBlank c = false ∧
      firstToken c (rest ++ after) = .ok (.int n, after) := by
  obtain ⟨c, rest, whole, blank, read⟩ := firstToken_digits n after ends
  rw [integer_natDigits, if_neg (Nat.not_lt.mpr fits)] at read
  exact ⟨c, rest, whole, blank, read⟩

theorem firstToken_text (content : String) (after : List Char) :
    firstToken '\'' (content.toList.flatMap escape ++ ['\''] ++ after) = .ok (.text content, after) := by
  have read := quotedText_escape content.toList after
  rw [List.append_assoc, List.singleton_append, firstToken, if_neg (by decide), if_pos (by decide), read]
  simp only [String.ofList_toList]

theorem firstToken_symbol (s : Symbol) (after : List Char) (ends : Ends after) :
    ∃ c rest, s.spelling = c :: rest ∧ Text.isAsciiBlank c = false ∧
      firstToken c (rest ++ after) = .ok (.symbol s, after) := by
  obtain ⟨c, rest, whole, blank, dollar, single, double, digit, named⟩ := symbol_start s
  have read := symbol_spelling s after ends
  rw [whole, List.cons_append] at read
  refine ⟨c, rest, whole, blank, ?_⟩
  rw [firstToken, if_neg dollar, if_neg (by simp [single, double]), if_neg (by simp [digit]),
    if_neg (by simp [named]), read]

theorem firstToken_spelling (token : Token) (spellable : token.Spellable) (after : List Char) (ends : Ends after) :
    ∃ c rest, token.spelling = c :: rest ∧ Text.isAsciiBlank c = false ∧
      firstToken c (rest ++ after) = .ok (token, after) := by
  cases token with
  | variableName name =>
      have stops := stops_of_ends isNameChar (by decide) ends
      exact ⟨_, _, rfl, by decide, firstToken_variable name spellable after stops⟩
  | word name => exact firstToken_word name spellable after (stops_of_ends _ (by decide) ends)
  | int n => exact firstToken_int n spellable after ends
  | float x => exact spellable.elim
  | text content => exact ⟨_, _, rfl, by decide, firstToken_text content after⟩
  | symbol s => exact firstToken_symbol s after ends

theorem tokensFrom_spelling (token : Token) (spellable : token.Spellable) (after : List Char) (ends : Ends after)
    (offset : Nat) :
    ∃ next, tokensFrom offset (token.spelling ++ after) = (tokensFrom next after).map (⟨token, offset⟩ :: ·) := by
  obtain ⟨c, rest, whole, visible, first⟩ := firstToken_spelling token spellable after ends
  rw [whole]
  exact tokensFrom_cons offset c _ after token (by simp [visible]) first

theorem tokensFrom_spaced (tokens : List Token) (spellable : ∀ token ∈ tokens, token.Spellable) (offset : Nat) :
    ∃ located, tokensFrom offset (spaced tokens) = .ok located ∧ located.map Located.token = tokens := by
  induction tokens generalizing offset with
  | nil => exact ⟨[], by rw [spaced, tokensFrom], rfl⟩
  | cons token rest ih =>
      rw [List.forall_mem_cons] at spellable
      cases rest with
      | nil =>
          obtain ⟨next, read⟩ := tokensFrom_spelling token spellable.1 [] (by simp [Ends]) offset
          refine ⟨[⟨token, offset⟩], ?_, rfl⟩
          rw [List.append_nil] at read
          rw [spaced, read, tokensFrom]
          rfl
      | cons second rest =>
          obtain ⟨next, read⟩ :=
            tokensFrom_spelling token spellable.1 (' ' :: spaced (second :: rest)) (by simp [Ends]) offset
          obtain ⟨located, more, same⟩ := ih spellable.2 (next + 1)
          refine ⟨⟨token, offset⟩ :: located, ?_, congrArg (token :: ·) same⟩
          have skipped : tokensFrom next (' ' :: spaced (second :: rest)) = .ok located := by
            rw [tokensFrom_blank next ' ' _ (by decide), more]
          rw [spaced, read, skipped]
          · rfl
          · exact List.cons_ne_nil _ _

end Token

theorem Value.spellable_token (value : Value) (written : value.Written) : value.token.Spellable := by
  obtain rfl | ⟨b, rfl⟩ | ⟨n, fits, rfl⟩ | ⟨s, rfl⟩ := written
  · exact ⟨by decide, 'n', rfl, by decide⟩
  · cases b with
    | false => exact ⟨by decide, 'f', rfl, by decide⟩
    | true => exact ⟨by decide, 't', rfl, by decide⟩
  · have below : n % Decimal.wordLimit ≤ greatestInteger := Nat.le_trans (Nat.mod_le n _) fits
    exact below
  · trivial

theorem fieldToken_name (field : String) (valid : IsName field) : fieldToken field = .word field := by
  obtain ⟨c, rest, whole, _, letter, _⟩ := Token.name_start field valid
  rw [fieldToken, whole, List.all_cons, letter, Bool.false_and, if_neg (by decide)]

theorem fieldToken_numeral (n : Nat) : fieldToken (toString n) = .int n := by
  have digits : (toString n).toList = Decimal.natDigits n := String.toList_ofList
  rw [fieldToken, digits, if_pos (List.all_eq_true.mpr (Decimal.natDigits_digits n).2), Decimal.natOfDigits_natDigits]

namespace Expr

theorem spellable_between (opening closing : Symbol) (tokens : List Token) (inner : ∀ token ∈ tokens, token.Spellable) :
    ∀ token ∈ .symbol opening :: (tokens ++ [.symbol closing]), token.Spellable := by
  rw [List.forall_mem_cons, List.forall_mem_append, List.forall_mem_singleton]
  exact ⟨trivial, inner, trivial⟩

theorem spellable_enclosed (loosest rank : Nat) (tokens : List Token) (inner : ∀ token ∈ tokens, token.Spellable) :
    ∀ token ∈ enclosed loosest rank tokens, token.Spellable := by
  rw [enclosed]
  split
  · exact spellable_between _ _ tokens inner
  · exact inner

mutual
theorem spellable_tokens (e : Expr) (written : e.Written (· ≤ greatestInteger)) :
    ∀ token ∈ e.tokens, token.Spellable := by
  cases e with
  | literal value =>
      rw [tokens, List.forall_mem_singleton]
      exact value.spellable_token written
  | var name =>
      rw [tokens, List.forall_mem_singleton]
      exact written
  | array items => exact spellable_between _ _ _ (spellable_listTokens items written)
  | member target field =>
      rw [tokens, List.forall_mem_append, List.forall_mem_cons, List.forall_mem_singleton]
      refine ⟨spellable_enclosed _ _ _ (spellable_tokens target written.1), trivial, ?_⟩
      rcases written.2 with valid | ⟨n, fits, rfl⟩
      · rw [fieldToken_name field valid]
        exact valid
      · rw [fieldToken_numeral]
        exact fits
  | index target key =>
      rw [tokens, List.forall_mem_append]
      exact ⟨spellable_enclosed _ _ _ (spellable_tokens target written.1),
        spellable_between _ _ _ (spellable_tokens key written.2)⟩
  | unary op operand =>
      rw [tokens, List.forall_mem_cons]
      exact ⟨trivial, spellable_enclosed _ _ _ (spellable_tokens operand written)⟩
  | binary op left right | coalesce left right =>
      rw [tokens, List.forall_mem_append, List.forall_mem_cons]
      exact ⟨spellable_enclosed _ _ _ (spellable_tokens left written.1), trivial,
        spellable_enclosed _ _ _ (spellable_tokens right written.2)⟩
  | choice test positive negative =>
      rw [tokens, List.forall_mem_append, List.forall_mem_cons, List.forall_mem_append, List.forall_mem_cons]
      exact ⟨spellable_enclosed _ _ _ (spellable_tokens test written.1), trivial, spellable_tokens positive written.2.1,
        trivial, spellable_tokens negative written.2.2⟩
  | elvis test otherwise =>
      rw [tokens, List.forall_mem_append, List.forall_mem_cons, List.forall_mem_cons]
      exact ⟨spellable_enclosed _ _ _ (spellable_tokens test written.1), trivial, trivial,
        spellable_tokens otherwise written.2⟩
  | call function args =>
      rw [tokens, List.forall_mem_cons]
      exact ⟨written.1, spellable_between _ _ _ (spellable_listTokens args written.2.2)⟩
  | isset target =>
      rw [tokens, List.forall_mem_cons]
      exact ⟨⟨by decide, 'i', rfl, by decide⟩, spellable_between _ _ _ (spellable_tokens target written)⟩
  | empty target =>
      rw [tokens, List.forall_mem_cons]
      exact ⟨⟨by decide, 'e', rfl, by decide⟩, spellable_between _ _ _ (spellable_tokens target written)⟩

theorem spellable_listTokens (items : List Expr) (written : AllWritten (· ≤ greatestInteger) items) :
    ∀ token ∈ listTokens items, token.Spellable := by
  cases items with
  | nil => simp [listTokens]
  | cons e rest =>
      rw [listTokens, List.forall_mem_append]
      exact ⟨spellable_tokens e written.1, spellable_moreTokens rest written.2⟩

theorem spellable_moreTokens (items : List Expr) (written : AllWritten (· ≤ greatestInteger) items) :
    ∀ token ∈ moreTokens items, token.Spellable := by
  cases items with
  | nil => simp [moreTokens]
  | cons e rest =>
      rw [moreTokens, List.forall_mem_cons, List.forall_mem_append]
      exact ⟨trivial, spellable_tokens e written.1, spellable_moreTokens rest written.2⟩
end

end Expr

end Stencil
