import Stencil.Proofs.Expr.Spelling

set_option autoImplicit false

namespace Stencil

inductive Lexes : List Char → List Token → Prop where
  | ended : Lexes [] []
  | blank {c : Char} {rest : List Char} {tokens : List Token} (skipped : Text.isAsciiBlank c) (behind : Lexes rest tokens) :
      Lexes (c :: rest) tokens
  | token {c : Char} {rest after : List Char} {token : Token} {tokens : List Token} (visible : ¬ Text.isAsciiBlank c)
      (first : firstToken c rest = .ok (token, after)) (behind : Lexes after tokens) :
      Lexes (c :: rest) (token :: tokens)

theorem lexes_of_tokensFrom (offset : Nat) (text : List Char) (located : List Located)
    (read : tokensFrom offset text = .ok located) : Lexes text (located.map Located.token) := by
  match text with
  | [] =>
      rw [tokensFrom] at read
      obtain rfl := Except.ok.inj read
      exact .ended
  | c :: rest =>
      by_cases blank : Text.isAsciiBlank c
      · rw [tokensFrom_blank offset c rest blank] at read
        exact .blank blank (lexes_of_tokensFrom _ rest located read)
      · cases first : firstToken c rest with
        | error fault =>
            rw [tokensFrom_fault offset c rest fault blank first] at read
            cases read
        | ok found =>
            obtain ⟨token, after⟩ := found
            rw [tokensFrom_token offset c rest after token blank first] at read
            cases more : tokensFrom (offset + Text.byteSize ((c :: rest).take ((c :: rest).length - after.length))) after with
            | error e =>
                rw [more] at read
                cases read
            | ok behind =>
                rw [more] at read
                obtain rfl := Except.ok.inj read
                exact .token blank first (lexes_of_tokensFrom _ after behind more)
termination_by text.length
decreasing_by
  · simp
  · exact length_of_firstToken first

theorem tokensFrom_of_lexes (text : List Char) (tokens : List Token) (lexes : Lexes text tokens) (offset : Nat) :
    ∃ located, tokensFrom offset text = .ok located ∧ located.map Located.token = tokens := by
  induction lexes generalizing offset with
  | ended => exact ⟨[], by rw [tokensFrom], rfl⟩
  | @blank c rest tokens skipped _ ih =>
      obtain ⟨located, read, same⟩ := ih (offset + 1)
      exact ⟨located, by rw [tokensFrom_blank offset c rest skipped, read], same⟩
  | @token c rest after token tokens visible first _ ih =>
      obtain ⟨next, starts⟩ := tokensFrom_cons offset c rest after token visible first
      obtain ⟨located, read, same⟩ := ih next
      refine ⟨⟨token, offset⟩ :: located, ?_, congrArg (token :: ·) same⟩
      rw [starts, read]
      rfl

namespace Token

def goesOn (c : Char) : Bool := isNameChar c || ['.', '=', '>', '?', '&', '|', '+', '-'].contains c

def Apart (after : List Char) : Prop := ∀ c ∈ after.head?, goesOn c = false

variable {after : List Char}

theorem nameless_of_apart (apart : Apart after) : ∀ c ∈ after.head?, isNameChar c = false := by
  intro c first
  have free := apart c first
  rw [goesOn, Bool.or_eq_false_iff] at free
  exact free.1

theorem digitless_of_apart (apart : Apart after) : ∀ c ∈ after.head?, Decimal.isDigit c = false := by
  intro c first
  cases digit : Decimal.isDigit c with
  | false => rfl
  | true => exact (digit_named c digit).symm.trans (nameless_of_apart apart c first)

theorem takeWhile_apart (test : Char → Bool) (text : List Char) (stops : ∀ c ∈ after.head?, test c = false) :
    (text ++ after).takeWhile test = text.takeWhile test ∧
      (text ++ after).dropWhile test = text.dropWhile test ++ after := by
  induction text with
  | nil =>
      cases after with
      | nil => exact ⟨rfl, rfl⟩
      | cons c rest =>
          have stop := stops c rfl
          constructor <;> simp [stop]
  | cons c rest ih =>
      cases holds : test c with
      | false => constructor <;> simp [holds]
      | true => exact ⟨by simp [holds, ih.1], by simp [holds, ih.2]⟩

theorem quotedText_plain (quote c : Char) (rest : List Char) (plain : c ≠ '\\') :
    quotedText? quote (c :: rest) =
      if c = quote then some ([], rest)
      else (quotedText? quote rest).map fun (content, left) => (c :: content, left) := by
  rw [quotedText?]
  · exact fun same => absurd same plain
  · exact fun _ _ same => absurd same plain

theorem plain_of_cases {c : Char} {rest : List Char} (lone : c = '\\' → rest = [] → False)
    (escape : ∀ d others, c = '\\' → rest = d :: others → False) : c ≠ '\\' := by
  intro slash
  cases rest with
  | nil => exact lone slash rfl
  | cons d others => exact escape d others slash rfl

theorem quotedText_append (quote : Char) (text content left : List Char)
    (found : quotedText? quote text = some (content, left)) :
    quotedText? quote (text ++ after) = some (content, left ++ after) := by
  fun_induction quotedText? quote text generalizing content with
  | case1 => cases found
  | case2 => cases found
  | case3 c rest ih =>
      obtain ⟨⟨inner, tail⟩, here, same⟩ := Option.map_eq_some_iff.mp found
      dsimp only at same
      cases escaped : escaped? quote c with
      | none =>
          rw [escaped] at same
          obtain ⟨rfl, rfl⟩ := Prod.mk.inj same
          simp only [List.cons_append, quotedText?, ih inner here, Option.map_some, escaped]
      | some plain =>
          rw [escaped] at same
          obtain ⟨rfl, rfl⟩ := Prod.mk.inj same
          simp only [List.cons_append, quotedText?, ih inner here, Option.map_some, escaped]
  | case4 rest lone escape =>
      obtain ⟨rfl, rfl⟩ := Prod.mk.inj (Option.some.inj found)
      rw [List.cons_append, quotedText_plain quote quote _ (plain_of_cases lone escape), if_pos rfl]
  | case5 c rest lone escape other ih =>
      obtain ⟨⟨inner, tail⟩, here, same⟩ := Option.map_eq_some_iff.mp found
      obtain ⟨rfl, rfl⟩ := Prod.mk.inj same
      rw [List.cons_append, quotedText_plain quote c _ (plain_of_cases lone escape), if_neg other, ih inner here]
      rfl

theorem quotedText_absent (quote : Char) (text : List Char) (absent : quote ∉ text) : quotedText? quote text = none := by
  fun_induction quotedText? quote text with
  | case1 => rfl
  | case2 => rfl
  | case3 c rest ih =>
      rw [ih (by simp_all)]
      rfl
  | case4 rest => simp at absent
  | case5 c rest lone escape other ih =>
      rw [ih (by simp_all)]
      rfl

theorem quotedText_unclosed (quote : Char) (text : List Char) (unclosed : quotedText? quote text = none)
    (absent : quote ∉ after) : quotedText? quote (text ++ after) = none := by
  fun_induction quotedText? quote text with
  | case1 => exact quotedText_absent quote after absent
  | case2 =>
      cases after with
      | nil => rfl
      | cons d rest =>
          rw [List.singleton_append, quotedText?, quotedText_absent quote rest (by simp_all)]
          rfl
  | case3 c rest ih =>
      rw [List.cons_append, List.cons_append, quotedText?, ih (Option.map_eq_none_iff.mp unclosed)]
      rfl
  | case4 => cases unclosed
  | case5 c rest lone escape other ih =>
      rw [List.cons_append, quotedText_plain quote c _ (plain_of_cases lone escape), if_neg other,
        ih (Option.map_eq_none_iff.mp unclosed)]
      rfl

theorem behind_apart (mark text : List Char) (stops : ∀ c ∈ after.head?, c ∉ mark) :
    Text.behind? mark (text ++ after) = (Text.behind? mark text).map (· ++ after) := by
  induction mark generalizing text with
  | nil => rfl
  | cons m mark ih =>
      cases text with
      | nil =>
          cases after with
          | nil => rfl
          | cons c rest =>
              have differs : m ≠ c := fun same => stops c rfl (same ▸ List.mem_cons_self)
              simp [Text.behind?, differs]
      | cons c text =>
          by_cases same : m = c
          · simp only [List.cons_append, Text.behind?, if_pos same]
            exact ih text fun d first inside => stops d first (List.mem_cons_of_mem m inside)
          · simp [Text.behind?, same]

-- Only the first character of a symbol can stand behind a token that it does not belong to.
theorem goesOn_spelling (s : Symbol) : s.spelling.tail.all goesOn = true := by
  cases s <;> decide

theorem symbol_append (c : Char) (rest : List Char) (apart : Apart after) :
    symbol? (c :: (rest ++ after)) = (symbol? (c :: rest)).map fun (s, left) => (s, left ++ after) := by
  rw [symbol?, symbol?, List.map_findSome?]
  congr 1
  funext s
  obtain ⟨first, others, spelled, _⟩ := symbol_start s
  have stops : ∀ d ∈ after.head?, d ∉ others := by
    intro d here inside
    have on := goesOn_spelling s
    rw [spelled, List.tail_cons, List.all_eq_true] at on
    cases (apart d here).symm.trans (on d inside)
  rw [Function.comp, spelled]
  by_cases same : first = c
  · simp only [Text.behind?, if_pos same, behind_apart others rest stops, Option.map_map]
    rfl
  · simp [Text.behind?, same]

theorem integer_append (digits left : List Char) :
    numberToken.integer digits (left ++ after) =
      (numberToken.integer digits left).map fun (token, left) => (token, left ++ after) := by
  simp only [numberToken.integer]
  split <;> rfl

theorem numberToken_append (text : List Char) (apart : Apart after) :
    numberToken (text ++ after) = (numberToken text).map fun (token, left) => (token, left ++ after) := by
  have stops := digitless_of_apart apart
  obtain ⟨taken, left⟩ := takeWhile_apart Decimal.isDigit text stops
  by_cases fraction : ∃ d rest, text.dropWhile Decimal.isDigit = '.' :: d :: rest ∧ Decimal.isDigit d = true
  · obtain ⟨d, rest, found, digit⟩ := fraction
    obtain ⟨taken', left'⟩ := takeWhile_apart Decimal.isDigit (d :: rest) stops
    rw [List.cons_append] at taken' left'
    simp only [numberToken, taken, left, found, List.cons_append, digit, if_true, taken', left', Except.map]
  · have whole : ∀ d rest, text.dropWhile Decimal.isDigit = '.' :: d :: rest → Decimal.isDigit d = false := by
      intro d rest found
      cases digit : Decimal.isDigit d with
      | false => rfl
      | true => exact absurd ⟨d, rest, found, digit⟩ fraction
    have wholeBehind : ∀ d rest, (text ++ after).dropWhile Decimal.isDigit = '.' :: d :: rest →
        Decimal.isDigit d = false := by
      intro d rest found
      rw [left] at found
      cases behind : text.dropWhile Decimal.isDigit with
      | nil =>
          rw [behind, List.nil_append] at found
          have point := apart '.' (by rw [found]; rfl)
          cases point
      | cons c others =>
          rw [behind, List.cons_append] at found
          obtain ⟨rfl, further⟩ := List.cons.inj found
          cases others with
          | nil => exact stops d (by rw [show after = d :: rest from further]; rfl)
          | cons e others =>
              obtain rfl := (List.cons.inj further).1
              exact whole e others behind
    rw [numberToken_whole _ wholeBehind, numberToken_whole _ whole, taken, left, integer_append]

theorem firstToken_append (c : Char) (rest : List Char) (apart : Apart after)
    (quoted : c = '\'' ∨ c = '"' → (quotedText? c rest).isSome ∨ c ∉ after) :
    firstToken c (rest ++ after) = (firstToken c rest).map fun (token, left) => (token, left ++ after) := by
  have nameless := nameless_of_apart apart
  by_cases dollar : c = '$'
  · obtain ⟨taken, left⟩ := takeWhile_apart isNameChar rest nameless
    rw [firstToken, firstToken, if_pos dollar, if_pos dollar]
    simp only [taken, left]
    split
    · rfl
    · split <;> rfl
  · by_cases quote : c = '\'' || c = '"'
    · rw [firstToken, firstToken, if_neg dollar, if_neg dollar, if_pos quote, if_pos quote]
      cases found : quotedText? c rest with
      | some parts =>
          obtain ⟨content, left⟩ := parts
          rw [quotedText_append c rest content left found]
          rfl
      | none =>
          have marks : c = '\'' ∨ c = '"' := by simpa using quote
          have absent := (quoted marks).resolve_left (by simp [found])
          rw [quotedText_unclosed c rest found absent]
          rfl
    · by_cases digit : Decimal.isDigit c
      · rw [firstToken, firstToken, if_neg dollar, if_neg dollar, if_neg quote, if_neg quote, if_pos digit, if_pos digit]
        exact numberToken_append (c :: rest) apart
      · by_cases named : isNameChar c
        · obtain ⟨taken, left⟩ := takeWhile_apart isNameChar (c :: rest) nameless
          rw [List.cons_append] at taken left
          rw [firstToken, firstToken, if_neg dollar, if_neg dollar, if_neg quote, if_neg quote, if_neg digit,
            if_neg digit, if_pos named, if_pos named, taken, left]
          rfl
        · rw [firstToken, firstToken, if_neg dollar, if_neg dollar, if_neg quote, if_neg quote, if_neg digit,
            if_neg digit, if_neg named, if_neg named, symbol_append c rest apart]
          cases symbol? (c :: rest) <;> rfl

end Token

variable {text after : List Char} {tokens others whole : List Token}

theorem lexes_append (apart : Token.Apart after) (early : Lexes text tokens) (late : Lexes after others) :
    Lexes (text ++ after) (tokens ++ others) := by
  induction early with
  | ended => exact late
  | blank skipped _ ih => exact .blank skipped ih
  | @token c rest left token tokens visible first _ ih =>
      refine .token visible ?_ ih
      rw [List.append_eq, Token.firstToken_append c rest apart, first]
      · rfl
      · intro marks
        refine .inl ?_
        cases found : quotedText? c rest with
        | some parts => rfl
        | none =>
            have dollar : c ≠ '$' := by
              rcases marks with rfl | rfl
              all_goals decide
            rw [firstToken, if_neg dollar, if_pos (by simpa using marks), found] at first
            cases first

theorem lexes_divide (apart : Token.Apart after) (single : '\'' ∉ after) (double : '"' ∉ after)
    (lexes : Lexes (text ++ after) whole) :
    ∃ tokens others, whole = tokens ++ others ∧ Lexes text tokens ∧ Lexes after others := by
  generalize joined : text ++ after = characters at lexes
  induction lexes generalizing text with
  | ended =>
      obtain ⟨rfl, rfl⟩ := List.append_eq_nil_iff.mp joined
      exact ⟨[], [], rfl, .ended, .ended⟩
  | @blank c rest whole skipped behind ih =>
      cases text with
      | nil =>
          rw [List.nil_append] at joined
          exact ⟨[], whole, rfl, .ended, joined ▸ .blank skipped behind⟩
      | cons d text =>
          obtain ⟨rfl, more⟩ := List.cons.inj joined
          obtain ⟨tokens, others, rfl, early, late⟩ := ih more
          exact ⟨tokens, others, rfl, .blank skipped early, late⟩
  | @token c rest left token whole visible first behind ih =>
      cases text with
      | nil =>
          rw [List.nil_append] at joined
          exact ⟨[], token :: whole, rfl, .ended, joined ▸ .token visible first behind⟩
      | cons d text =>
          obtain ⟨rfl, rfl⟩ := List.cons.inj joined
          have quoted : d = '\'' ∨ d = '"' → (quotedText? d text).isSome ∨ d ∉ after := by
            rintro (rfl | rfl)
            · exact .inr single
            · exact .inr double
          rw [List.append_eq, Token.firstToken_append d text apart quoted] at first
          cases found : firstToken d text with
          | error fault =>
              rw [found] at first
              cases first
          | ok parts =>
              rw [found] at first
              obtain ⟨rfl, joined⟩ := Prod.mk.inj (Except.ok.inj first)
              obtain ⟨tokens, others, rfl, early, late⟩ := ih joined
              exact ⟨_, others, rfl, .token visible found early, late⟩

end Stencil
