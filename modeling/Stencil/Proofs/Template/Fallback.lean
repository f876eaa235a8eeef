import Stencil.Proofs.Expr.Guarded
import Stencil.Proofs.Expr.RoundTrip
import Stencil.Proofs.Template.Division

set_option autoImplicit false

namespace Stencil.Template

section

variable {text before after : List Char} {whole early late : List Token}

theorem expandFallback_of_or (lexes : Lexes text whole) (dollar : text.head? = some '$')
    (first : FirstOr text before after) :
    expandFallback text = "isset(".toList ++ Text.trimEnd before ++ ") ? ".toList ++ Text.trimEnd before ++
      " : ".toList ++ Text.trimStart after := by
  have found := (divideAtOr_eq_some text before after whole lexes).mpr first
  cases text with
  | nil => cases dollar
  | cons c rest =>
      obtain rfl := Option.some.inj dollar
      rw [expandFallback, found]

theorem expandFallback_of_none (lexes : Lexes text whole)
    (none : text.head? = some '$' → ∀ before after, ¬ FirstOr text before after) : expandFallback text = text := by
  unfold expandFallback
  split
  · split
    · rename_i before after found
      exact absurd ((divideAtOr_eq_some _ before after whole lexes).mp found) (none rfl before after)
    · rfl
  · rfl

theorem lexes_of_or (place : OrAt text before after) (first : Lexes before early) (second : Lexes after late) :
    Lexes text (early ++ .word "or" :: late) := by
  obtain ⟨⟨c, d, behind, blank, last, rfl, rfl⟩, _⟩ := place
  have or_ := Lexes.token (by decide) (firstToken_or d behind last) second
  exact lexes_append (apart_blank c _ (isBlank_of_ascii c blank)) first (.blank blank or_)

theorem lexes_guarded {left right : List Char} (first : Lexes left early) (second : Lexes right late) :
    Lexes ("isset(".toList ++ left ++ ") ? ".toList ++ left ++ " : ".toList ++ right) (guardedTokens early late) := by
  have name (rest : List Char) :
      firstToken 'i' ('s' :: 's' :: 'e' :: 't' :: '(' :: rest) = .ok (.word "isset", '(' :: rest) := rfl
  have opened (rest : List Char) : firstToken '(' rest = .ok (.symbol .openParen, rest) := rfl
  have closed (rest : List Char) : firstToken ')' rest = .ok (.symbol .closeParen, rest) := rfl
  have question (rest : List Char) : firstToken '?' (' ' :: rest) = .ok (.symbol .question, ' ' :: rest) := rfl
  have colon (rest : List Char) : firstToken ':' rest = .ok (.symbol .colon, rest) := rfl
  have apart (rest : List Char) : Token.Apart (')' :: rest) := fun _ first => by
    obtain rfl := Option.some.inj first
    rfl
  have negative := Lexes.blank (by decide : Text.isAsciiBlank ' ')
    (.token (by decide) (colon (' ' :: right)) (.blank (by decide) second))
  have positive := lexes_append (apart_blank ' ' _ (by decide)) first negative
  have test := Lexes.token (by decide) (closed _)
    (.blank (by decide : Text.isAsciiBlank ' ') (.token (by decide) (question _) (.blank (by decide) positive)))
  have whole := Lexes.token (by decide) (name _) (.token (by decide) (opened _) (lexes_append (apart _) first test))
  simpa [guardedTokens, issetTokens] using whole

theorem lexes_expanded (lexes : Lexes text whole) (dollar : text.head? = some '$') (place : FirstOr text before after)
    (first : Lexes before early) (second : Lexes after late) :
    Lexes (expandFallback text) (guardedTokens early late) := by
  rw [expandFallback_of_or lexes dollar place]
  exact lexes_guarded (lexes_trimEnd first) (lexes_trimStart second)

end

-- The tokens of the first part stand once in the one text and twice in the other, and both are settled.
theorem balanced_of_guarded (early late : List Token) (source : Balanced (early ++ .word "or" :: late))
    (guarded : Balanced (guardedTokens early late)) : Balanced early := by
  refine ⟨fun start within => source.opened start (within.trans (List.prefix_append _ _)), ?_⟩
  have total := source.settled
  have twice := guarded.settled
  simp only [guardedTokens, issetTokens, balance_append, balance, List.cons_append, Token.nesting] at total twice
  omega

section

variable {text a b : List Char} {x y : Expr}

theorem wholly_expanded (dollar : text.head? = some '$') (first : FirstOr text a b) (left : Expr.parse a = .ok x)
    (right : Expr.parse b = .ok y) :
    ∃ early late peak further, Lexes a early ∧ Wholly peak early x ∧ Lexes b late ∧ Wholly further late y ∧
      Lexes (expandFallback text) (guardedTokens early late) := by
  obtain ⟨early, peak, lexes, _, wholly⟩ := (parse_eq_ok a x).mp left
  obtain ⟨late, further, lexes', _, wholly'⟩ := (parse_eq_ok b y).mp right
  have whole := lexes_of_or first.toOrAt lexes lexes'
  exact ⟨early, late, peak, further, lexes, wholly, lexes', wholly', lexes_expanded whole dollar first lexes lexes'⟩

theorem parse_expanded (dollar : text.head? = some '$') (first : FirstOr text a b) (left : Expr.parse a = .ok x)
    (right : Expr.parse b = .ok y) :
    Expr.parse (expandFallback text) = .ok (.choice (.isset x) x y) ∨
      ∃ offset, Expr.parse (expandFallback text) = .error ⟨.tooDeep, offset⟩ := by
  obtain ⟨early, late, peak, further, _, wholly, _, wholly', lexes⟩ := wholly_expanded dollar first left right
  obtain ⟨read, deep⟩ := parse_of_wholly lexes (wholly_guarded wholly wholly')
  by_cases enough : max peak further + 1 ≤ greatestNesting
  · exact .inl (read.mpr enough)
  · exact .inr (deep (by omega))

theorem parse_blank (d : Char) (blank : Text.isAsciiBlank d) (read : Expr.parse a = .ok x) :
    Expr.parse (d :: a) = .ok x := by
  obtain ⟨tokens, peak, lexes, enough, wholly⟩ := (parse_eq_ok a x).mp read
  exact (parse_eq_ok (d :: a) x).mpr ⟨tokens, peak, .blank blank lexes, enough, wholly⟩

theorem parse_group {peak : Nat} {tokens : List Token} (lexes : Lexes a tokens) (wholly : Wholly peak tokens x) :
    Expr.parse ('(' :: (a ++ [')'])) = .ok x ↔ peak + 1 ≤ greatestNesting := by
  have mark : firstToken '(' (a ++ [')']) = .ok (.symbol .openParen, a ++ [')']) := rfl
  have enclosed := Lexes.token (by decide) mark ((lexes_closed a _).mpr ⟨tokens, rfl, lexes⟩)
  refine (parse_of_wholly enclosed ⟨⟨_, _, rfl, rfl, by simp⟩, fun tail stops => ?_⟩).1
  have group : Parses (readAt 10) peak (.symbol .openParen :: (tokens ++ [.symbol .closeParen])) x tail :=
    parses_group (wholly.reads _ (stops_unbound rfl))
  refine parses_expression (parses_place (Nat.zero_le 10) (Nat.le_refl 10) stops (fun _ token here => ?_) group)
  obtain rfl := Option.some.inj here
  rfl

end

/-- Where the first `or` outside strings stands between two expressions, of which the first starts with a variable,
the short form is read as the choice on them, apart from the level that the choice opens: it is read exactly if each
of the two may be put in parentheses. It has the value of `a ?? b`, which is the one of `a` where that is set and not
null, whatever stands in the place of `b`, and what `b` gives where `isset(a)` is false. Where it cannot be told whether
`a` is set, for another reason than an undefined variable, there is no value. -/
theorem fallback_reads (text a b : List Char) (d : Char) (x y : Expr) (dollar : a.head? = some '$')
    (first : FirstOr text a (d :: b)) (left : Expr.parse a = .ok x) (right : Expr.parse b = .ok y) :
    (Expr.parse (expandFallback text) = .ok (.choice (.isset x) x y) ∨
      ∃ offset, Expr.parse (expandFallback text) = .error ⟨.tooDeep, offset⟩) ∧
    (Expr.parse (expandFallback text) = .ok (.choice (.isset x) x y) ↔
      Expr.parse ('(' :: (a ++ [')'])) = .ok x ∧ Expr.parse ('(' :: (b ++ [')'])) = .ok y) ∧
    ∀ vars,
      evaluate vars (.choice (.isset x) x y) = evaluate vars (.coalesce x y) ∧
      (evaluate vars (.isset x) = .ok (.bool true) ↔ ∃ v, evaluate vars x = .ok v ∧ v.isNull = false) ∧
      (∀ v, evaluate vars x = .ok v → v.isNull = false → ∀ z, evaluate vars (.choice (.isset x) x z) = .ok v) ∧
      (evaluate vars (.isset x) = .ok (.bool false) →
        evaluate vars (.choice (.isset x) x y) = evaluate vars y) ∧
      ∀ fault, (∀ name, fault ≠ .undefined name) → evaluate vars (.isset x) = .error fault →
        evaluate vars (.choice (.isset x) x y) = .error fault := by
  have blank : Text.isAsciiBlank d := by
    obtain ⟨_, _, _, _, last, listed, _⟩ := first.blanks
    obtain ⟨rfl, _⟩ := List.cons.inj listed
    exact last
  have starts : text.head? = some '$' := by
    obtain ⟨_, _, _, _, _, _, listed⟩ := first.blanks
    rw [listed, List.head?_append, dollar]
    rfl
  have spaced := parse_blank d blank right
  refine ⟨parse_expanded starts first left spaced, ?_, fun vars => ⟨evaluate_guarded vars x y, isset_eq_true vars x,
    fun v value present z => ?_, choice_of_bool vars x y _ false, fun fault _ => choice_of_fault vars x y _ fault⟩⟩
  · obtain ⟨early, late, peak, further, lexes, wholly, behind, wholly', whole⟩ :=
      wholly_expanded starts first left spaced
    have lexes' : Lexes b late := by
      cases behind with
      | blank _ rest => exact rest
      | token visible => exact absurd blank visible
    rw [(parse_of_wholly whole (wholly_guarded wholly wholly')).1, parse_group lexes wholly, parse_group lexes' wholly']
    omega
  · rw [choice_of_bool vars x z _ true ((isset_eq_true vars x).mpr ⟨v, value, present⟩)]
    exact value

theorem ok_of_isSome {ε α : Type} (result : Except ε α) (given : result.toOption.isSome) : ∃ a, result = .ok a := by
  cases result with
  | error fault => cases given
  | ok a => exact ⟨a, rfl⟩

theorem firstOr_of_search (text before after : List Char) (read : (tokenize text).toOption.isSome)
    (found : divideAtOr none text = some (before, after)) : FirstOr text before after := by
  obtain ⟨located, lexed⟩ := ok_of_isSome _ read
  exact (divideAtOr_eq_some text before after _ (lexes_of_tokensFrom 0 text located lexed)).mp found

theorem fallback_reads_guest :
    ∃ e, Expr.parse (expandFallback "$name or 'Guest'".toList) = .ok e ∧
      evaluate [] e = .ok (.string "Guest") ∧ evaluate [("name", .string "Ada")] e = .ok (.string "Ada") := by
  have first := firstOr_of_search "$name or 'Guest'".toList "$name".toList " 'Guest'".toList (by decide +kernel)
    (by decide)
  have left : Expr.parse "$name".toList = .ok (.var "name") :=
    parse_print (.var "name") ⟨by decide, 'n', rfl, by decide⟩ (by decide)
  have right : Expr.parse "'Guest'".toList = .ok (.literal (.string "Guest")) :=
    parse_print (.literal (.string "Guest")) (.inr (.inr (.inr ⟨"Guest", rfl⟩))) (by decide)
  obtain ⟨read, _, values⟩ := fallback_reads _ _ _ ' ' _ _ rfl first left right
  obtain ⟨_, shallow⟩ := ok_of_isSome (Expr.parse (expandFallback "$name or 'Guest'".toList)) (by decide +kernel)
  refine ⟨_, read.resolve_right fun ⟨offset, deep⟩ => ?_, ?_, ?_⟩
  · cases deep.symm.trans shallow
  · obtain ⟨_, _, _, unset, _⟩ := values []
    rw [unset (by rw [evaluate, soft]; rfl), evaluate]
  · obtain ⟨_, _, present, _⟩ := values [("name", .string "Ada")]
    exact present (.string "Ada") (by rw [evaluate]; rfl) rfl _

/-- Where the first expression fails, the second is not asked. -/
theorem fallback_of_fault :
    ∃ x y e, Expr.parse "$n / 0".toList = .ok x ∧ Expr.parse "5".toList = .ok y ∧
      FirstOr "$n / 0 or 5".toList "$n / 0".toList " 5".toList ∧
      Expr.parse (expandFallback "$n / 0 or 5".toList) = .ok e ∧
      evaluate [("n", .ofNat 1)] x = .error .divisionByZero ∧ evaluate [("n", .ofNat 1)] y = .ok (.ofNat 5) ∧
      evaluate [("n", .ofNat 1)] e = .error .divisionByZero := by
  have name : (Expr.var "n").Fits := ⟨by decide, 'n', rfl, by decide⟩
  have numeral (n : Nat) (small : n ≤ greatestInteger) : (Expr.literal (.ofNat n)).Fits :=
    .inr (.inr (.inl ⟨n, small, rfl⟩))
  have left : Expr.parse "$n / 0".toList = .ok (.binary .div (.var "n") (.literal (.ofNat 0))) :=
    parse_print (.binary .div (.var "n") (.literal (.ofNat 0))) ⟨name, numeral 0 (by decide)⟩ (by decide)
  have right : Expr.parse "5".toList = .ok (.literal (.ofNat 5)) :=
    parse_print (.literal (.ofNat 5)) (numeral 5 (by decide)) (by decide)
  have first := firstOr_of_search "$n / 0 or 5".toList "$n / 0".toList " 5".toList (by decide +kernel) (by decide)
  have failed : evaluate [("n", .ofNat 1)] (.binary .div (.var "n") (.literal (.ofNat 0))) =
      .error .divisionByZero := by
    simp only [evaluate]
    rfl
  obtain ⟨_, shallow⟩ := ok_of_isSome (Expr.parse (expandFallback "$n / 0 or 5".toList)) (by decide +kernel)
  have read := (parse_expanded rfl first left (parse_blank ' ' (by decide) right)).resolve_right
    fun ⟨_, deep⟩ => by cases deep.symm.trans shallow
  refine ⟨_, _, _, left, right, first, read, failed, by rw [evaluate], choice_of_fault _ _ _ _ _ ?_⟩
  rw [evaluate_isset, Expr.soft_other _ _ rfl, failed]
  rfl

/-- A text that is read as an expression stays as it is, or it starts with a variable and is divided at its first `or`
outside strings. Then the text put in its place is read if what stands on the two sides of this `or` is read, as the
choice on the two and apart from the level that the choice opens, and otherwise it is not read. -/
theorem expandFallback_accepted (text : List Char) (e : Expr) (parsed : Expr.parse text = .ok e) :
    ((text.head? = some '$' → ∀ left right, ¬ FirstOr text left right) ∧ expandFallback text = text) ∨
    ∃ left right, text.head? = some '$' ∧ FirstOr text left right ∧
      (∀ x y, Expr.parse left = .ok x → Expr.parse right = .ok y →
        Expr.parse (expandFallback text) = .ok (.choice (.isset x) x y) ∨
        ∃ offset, Expr.parse (expandFallback text) = .error ⟨.tooDeep, offset⟩) ∧
      ∀ t, Expr.parse (expandFallback text) = .ok t →
        ∃ x y, Expr.parse left = .ok x ∧ Expr.parse right = .ok y ∧ t = .choice (.isset x) x y := by
  obtain ⟨whole, _, lexes, _, _⟩ := (parse_eq_ok text e).mp parsed
  by_cases divided : ∃ left right, text.head? = some '$' ∧ FirstOr text left right
  · obtain ⟨left, right, dollar, first⟩ := divided
    refine .inr ⟨left, right, dollar, first, fun x y => parse_expanded dollar first, fun t read => ?_⟩
    have found := (divideAtOr_eq_some text left right whole lexes).mpr first
    obtain ⟨_, early, late, rfl, lexes', lexes''⟩ := or_of_divideAtOr text left right whole lexes found
    have expanded := lexes_expanded lexes dollar first lexes' lexes''
    -- so the parenthesis behind `isset` is closed where the first part ends
    have balanced := balanced_of_guarded early late (balanced_of_parse text _ e lexes parsed)
      (balanced_of_parse _ _ t expanded read)
    obtain ⟨x, y, peak, further, wholly, enough, wholly', enough', same⟩ :=
      operands_of_guarded _ early late t expanded balanced read
    exact ⟨x, y, (parse_eq_ok left x).mpr ⟨early, peak, lexes', enough, wholly⟩,
      (parse_eq_ok right y).mpr ⟨late, further, lexes'', enough', wholly'⟩, same⟩
  · have none (dollar : text.head? = some '$') (left right : List Char) : ¬ FirstOr text left right :=
      fun first => divided ⟨left, right, dollar, first⟩
    exact .inl ⟨none, expandFallback_of_none lexes none⟩

theorem expandFallback_accepted_guest :
    ∃ e t x y, Expr.parse "$name or 'Guest'".toList = .ok e ∧
      Expr.parse (expandFallback "$name or 'Guest'".toList) = .ok t ∧ t = .choice (.isset x) x y := by
  obtain ⟨e, parsed⟩ := ok_of_isSome (Expr.parse "$name or 'Guest'".toList) (by decide +kernel)
  obtain ⟨t, read⟩ := ok_of_isSome (Expr.parse (expandFallback "$name or 'Guest'".toList)) (by decide +kernel)
  rcases expandFallback_accepted "$name or 'Guest'".toList e parsed with ⟨_, same⟩ | ⟨left, right, _, _, _, divided⟩
  · exact absurd same (by decide)
  · obtain ⟨x, y, _, _, choice⟩ := divided t read
    exact ⟨e, t, x, y, parsed, read, choice⟩

def isUnclosed : Except ParseError Expr → Bool
  | .error ⟨.expected .closeBracket, _⟩ => true
  | _ => false

/-- An `or` between the brackets of an index is taken for the one of the short form as well. -/
theorem expandFallback_inside_index :
    (∃ e, Expr.parse "$a[$b or $c]".toList = .ok e) ∧
    (∀ t, Expr.parse (expandFallback "$a[$b or $c]".toList) ≠ .ok t) ∧
    ∀ offset, Expr.parse (expandFallback "$a[$b or $c]".toList) ≠ .error ⟨.tooDeep, offset⟩ := by
  have unclosed : isUnclosed (Expr.parse (expandFallback "$a[$b or $c]".toList)) := by decide +kernel
  refine ⟨ok_of_isSome _ (by decide +kernel), fun t read => ?_, fun offset failed => ?_⟩
  · rw [read] at unclosed
    cases unclosed
  · rw [failed] at unclosed
    cases unclosed

end Stencil.Template
