import Mathlib.Data.List.TakeWhile
import Stencil.Proofs.Expr.Lexes

set_option autoImplicit false

namespace Stencil

namespace Token

def Takes (kind : Char → Prop) (text after : List Char) : Prop := ∃ passed, text = passed ++ after ∧ ∀ c ∈ passed, kind c

variable {kind : Char → Prop}

theorem takes_trans {text middle after : List Char} (early : Takes kind text middle) (late : Takes kind middle after) :
    Takes kind text after := by
  obtain ⟨passed, rfl, all⟩ := early
  obtain ⟨passed', rfl, all'⟩ := late
  refine ⟨passed ++ passed', (List.append_assoc ..).symm, fun c inside => ?_⟩
  exact (List.mem_append.mp inside).elim (all c) (all' c)

theorem takes_cons {c : Char} (rest : List Char) (holds : kind c) : Takes kind (c :: rest) rest :=
  ⟨[c], rfl, by simpa using holds⟩

theorem takes_dropWhile (test : Char → Bool) (holds : ∀ c, test c = true → kind c) (text : List Char) :
    Takes kind text (text.dropWhile test) :=
  ⟨text.takeWhile test, List.takeWhile_append_dropWhile.symm, fun c inside => holds c (List.mem_takeWhile_imp inside)⟩

theorem spelling_of_symbol (text after : List Char) (s : Symbol) (read : symbol? text = some (s, after)) :
    text = s.spelling ++ after := by
  rw [symbol?] at read
  obtain ⟨s', _, here⟩ := List.exists_of_findSome?_eq_some read
  obtain ⟨left, spelled, same⟩ := Option.map_eq_some_iff.mp here
  obtain ⟨rfl, rfl⟩ := Prod.mk.inj same
  exact Text.behind_eq_some.mp spelled

theorem integer_unsymbolic (digits text after : List Char) (s : Symbol) :
    numberToken.integer digits text ≠ .ok (.symbol s, after) := by
  intro read
  rw [numberToken.integer] at read
  split at read <;> cases read

theorem numberToken_unsymbolic (text after : List Char) (s : Symbol) : numberToken text ≠ .ok (.symbol s, after) := by
  intro read
  rw [numberToken] at read
  split at read
  · split at read
    · cases read
    · exact integer_unsymbolic _ _ _ _ read
  · exact integer_unsymbolic _ _ _ _ read

theorem spelling_of_firstToken (c : Char) (rest after : List Char) (s : Symbol)
    (first : firstToken c rest = .ok (.symbol s, after)) : c :: rest = s.spelling ++ after := by
  rw [firstToken] at first
  split at first
  · dsimp only at first
    split at first
    · cases first
    · split at first <;> cases first
  · split at first
    · split at first <;> cases first
    · split at first
      · exact absurd first (numberToken_unsymbolic _ after s)
      · split at first
        · cases first
        · split at first
          · rename_i s' left read
            obtain ⟨same, rfl⟩ := Prod.mk.inj (Except.ok.inj first)
            obtain rfl := Token.symbol.inj same
            exact spelling_of_symbol _ _ _ read
          · cases first

section Kinds

variable (named : ∀ c, isNameChar c = true → kind c) (point : kind '.')

include named point

theorem takes_numberToken (text after : List Char) (token : Token) (read : numberToken text = .ok (token, after)) :
    Takes kind text after := by
  have digits (c : Char) (digit : Decimal.isDigit c = true) : kind c := named c (digit_named c digit)
  have whole := takes_dropWhile Decimal.isDigit digits text
  rw [numberToken] at read
  split at read
  · rename_i d rest left
    split at read
    · obtain ⟨_, rfl⟩ := Prod.mk.inj (Except.ok.inj read)
      rw [left] at whole
      exact takes_trans whole (takes_trans (takes_cons (d :: rest) point) (takes_dropWhile _ digits _))
    · rw [length_of_integer read, ← left]
      exact whole
  · rw [length_of_integer read]
    exact whole

theorem takes_firstToken (dollar : kind '$') (c : Char) (rest after : List Char) (token : Token)
    (unquoted : ¬ (c = '\'' || c = '"')) (spelled : ∀ s, token = .symbol s → ∀ d ∈ s.spelling, kind d)
    (first : firstToken c rest = .ok (token, after)) : Takes kind (c :: rest) after := by
  rw [firstToken] at first
  split at first
  · rename_i mark
    subst mark
    dsimp only at first
    split at first
    · cases first
    · split at first
      · cases first
      · obtain ⟨_, rfl⟩ := Prod.mk.inj (Except.ok.inj first)
        exact takes_trans (takes_cons rest dollar) (takes_dropWhile _ named rest)
  · split at first
    · exact takes_numberToken named point _ _ _ first
    · split at first
      · obtain ⟨_, rfl⟩ := Prod.mk.inj (Except.ok.inj first)
        exact takes_dropWhile _ named _
      · split at first
        · rename_i s left read
          obtain ⟨rfl, rfl⟩ := Prod.mk.inj (Except.ok.inj first)
          exact ⟨s.spelling, spelling_of_symbol _ _ _ read, spelled s rfl⟩
        · cases first

theorem kind_of_firstToken (dollar : kind '$') (c : Char) (rest after : List Char) (token : Token)
    (unquoted : ¬ (c = '\'' || c = '"')) (spelled : ∀ s, token = .symbol s → ∀ d ∈ s.spelling, kind d)
    (first : firstToken c rest = .ok (token, after)) : ∃ passed, rest = passed ++ after ∧ ∀ d ∈ c :: passed, kind d := by
  obtain ⟨passed, listed, all⟩ := takes_firstToken named point dollar c rest after token unquoted spelled first
  have shorter := length_of_firstToken first
  cases passed with
  | nil =>
      rw [listed] at shorter
      exact absurd shorter (Nat.lt_irrefl _)
  | cons d passed =>
      obtain ⟨rfl, rfl⟩ := List.cons.inj listed
      exact ⟨passed, rfl, all⟩

end Kinds

inductive Quoted (quote : Char) : List Char → Prop where
  | closed (plain : quote ≠ '\\') : Quoted quote [quote]
  | escaped (c : Char) {passed : List Char} (behind : Quoted quote passed) : Quoted quote ('\\' :: c :: passed)
  | plain {c : Char} {passed : List Char} (plain : c ≠ '\\') (other : c ≠ quote) (behind : Quoted quote passed) :
      Quoted quote (c :: passed)

theorem quoted_of_quotedText (quote : Char) (text content left : List Char)
    (found : quotedText? quote text = some (content, left)) : ∃ passed, text = passed ++ left ∧ Quoted quote passed := by
  fun_induction quotedText? quote text generalizing content with
  | case1 => cases found
  | case2 => cases found
  | case3 c rest ih =>
      obtain ⟨⟨inner, tail⟩, here, same⟩ := Option.map_eq_some_iff.mp found
      obtain rfl : tail = left := by
        dsimp only at same
        split at same <;> exact (Prod.mk.inj same).2
      obtain ⟨passed, rfl, quoted⟩ := ih inner here
      exact ⟨'\\' :: c :: passed, rfl, .escaped c quoted⟩
  | case4 rest lone escape =>
      obtain ⟨rfl, rfl⟩ := Prod.mk.inj (Option.some.inj found)
      exact ⟨[quote], rfl, .closed (plain_of_cases lone escape)⟩
  | case5 c rest lone escape other ih =>
      obtain ⟨⟨inner, tail⟩, here, same⟩ := Option.map_eq_some_iff.mp found
      obtain ⟨rfl, rfl⟩ := Prod.mk.inj same
      obtain ⟨passed, rfl, quoted⟩ := ih inner here
      exact ⟨c :: passed, rfl, .plain (plain_of_cases lone escape) other quoted⟩

theorem quotedText_of_quoted {quote : Char} {passed : List Char} (quoted : Quoted quote passed) (left : List Char) :
    ∃ content, quotedText? quote (passed ++ left) = some (content, left) := by
  induction quoted with
  | closed plain => exact ⟨[], by rw [List.singleton_append, quotedText_plain _ _ _ plain, if_pos rfl]⟩
  | escaped c _ ih =>
      obtain ⟨content, found⟩ := ih
      simp only [List.cons_append, quotedText?, found, Option.map_some]
      split
      · exact ⟨_, rfl⟩
      · exact ⟨_, rfl⟩
  | plain plain other _ ih =>
      obtain ⟨content, found⟩ := ih
      rw [List.cons_append, quotedText_plain _ _ _ plain, if_neg other, found]
      exact ⟨_, rfl⟩

theorem quoted_of_firstToken (c : Char) (rest after : List Char) (token : Token) (quote : c = '\'' || c = '"')
    (first : firstToken c rest = .ok (token, after)) : ∃ passed, rest = passed ++ after ∧ Quoted c passed := by
  have dollar : c ≠ '$' := by
    rintro rfl
    cases quote
  rw [firstToken, if_neg dollar, if_pos quote] at first
  split at first
  · rename_i content left found
    obtain ⟨_, rfl⟩ := Prod.mk.inj (Except.ok.inj first)
    exact quoted_of_quotedText c rest content left found
  · cases first

theorem passed_of_firstToken (c : Char) (rest after : List Char) (token : Token)
    (first : firstToken c rest = .ok (token, after)) : ∃ passed, rest = passed ++ after := by
  by_cases quote : c = '\'' || c = '"'
  · obtain ⟨passed, whole, _⟩ := quoted_of_firstToken c rest after token quote first
    exact ⟨passed, whole⟩
  · obtain ⟨passed, whole, _⟩ := @kind_of_firstToken (fun _ => True) (fun _ _ => trivial) trivial trivial c rest
      after token quote (fun _ _ _ _ => trivial) first
    exact ⟨passed, whole⟩

end Token

inductive Tokenized : Nat → List Char → List Located → Prop where
  | ended (offset : Nat) : Tokenized offset [] []
  | blank {offset : Nat} {c : Char} {rest : List Char} {located : List Located} (skipped : Text.isAsciiBlank c)
      (behind : Tokenized (offset + Text.byteSize [c]) rest located) : Tokenized offset (c :: rest) located
  | token {offset : Nat} {c : Char} {passed left : List Char} {token : Token} {located : List Located}
      (visible : ¬ Text.isAsciiBlank c) (first : firstToken c (passed ++ left) = .ok (token, left))
      (behind : Tokenized (offset + Text.byteSize (c :: passed)) left located) :
      Tokenized offset (c :: (passed ++ left)) (⟨token, offset⟩ :: located)

theorem tokenized_of_tokensFrom (offset : Nat) (text : List Char) (located : List Located)
    (read : tokensFrom offset text = .ok located) : Tokenized offset text located := by
  match text with
  | [] =>
      rw [tokensFrom] at read
      obtain rfl := Except.ok.inj read
      exact .ended offset
  | c :: rest =>
      by_cases blank : Text.isAsciiBlank c
      · rw [tokensFrom_blank offset c rest blank, ← byteSize_of_blank c blank] at read
        exact .blank blank (tokenized_of_tokensFrom _ rest located read)
      · cases first : firstToken c rest with
        | error fault =>
            rw [tokensFrom_fault offset c rest fault blank first] at read
            cases read
        | ok found =>
            obtain ⟨token, left⟩ := found
            have shorter := length_of_firstToken first
            obtain ⟨passed, whole⟩ := Token.passed_of_firstToken c rest left token first
            rw [whole] at first read ⊢
            obtain ⟨behind, later, rfl⟩ := tokensFrom_passed c passed left token located blank first read
            exact .token blank first (tokenized_of_tokensFrom _ left behind later)
termination_by text.length
decreasing_by
  · simp
  · exact shorter

theorem tokensFrom_of_tokenized (offset : Nat) (text : List Char) (located : List Located)
    (tokenized : Tokenized offset text located) : tokensFrom offset text = .ok located := by
  induction tokenized with
  | ended => rw [tokensFrom]
  | @blank offset c rest _ skipped _ ih => rw [tokensFrom_blank offset c rest skipped, ← byteSize_of_blank c skipped, ih]
  | @token offset c passed left token _ visible first _ ih =>
      rw [tokensFrom_behind offset c passed left token visible first, ih]
      rfl

end Stencil
