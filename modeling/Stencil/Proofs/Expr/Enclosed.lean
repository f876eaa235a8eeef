import Stencil.Proofs.Expr.Grammar
import Stencil.Proofs.Expr.Spelling

set_option autoImplicit false

namespace Stencil

def Token.nesting : Token → Int
  | .symbol .openParen => 1
  | .symbol .closeParen => -1
  | _ => 0

def nesting : List Located → Int
  | [] => 0
  | token :: rest => token.token.nesting + nesting rest

theorem nesting_append (first second : List Located) : nesting (first ++ second) = nesting first + nesting second := by
  induction first with
  | nil => simp [nesting]
  | cons token rest ih =>
      simp only [List.cons_append, nesting, ih]
      omega

-- A list is read up to and with the symbol that closes it, which nothing in it has opened.
def Phrase.nesting : Phrase → Int
  | .items close => (Token.symbol close).nesting
  | .moreItems close => (Token.symbol close).nesting
  | _ => 0

theorem nesting_ofToken (level : Level) (token : Token) (op : BinaryOp) (known : level.ofToken? token = some op) :
    token.nesting = 0 := by
  cases token with
  | symbol s =>
      cases s with
      | openParen => cases level <;> cases known
      | closeParen => cases level <;> cases known
      | _ => rfl
  | _ => rfl

theorem nesting_unaryOp (token : Token) (op : UnaryOp) (known : unaryOp? token = some op) : token.nesting = 0 := by
  cases token with
  | symbol s =>
      cases s with
      | openParen => cases known
      | closeParen => cases known
      | _ => rfl
  | _ => rfl

theorem nesting_isSelection (token : Token) (known : isSelection token = some ()) : token.nesting = 0 := by
  cases token with
  | symbol s =>
      cases s with
      | openParen => cases known
      | closeParen => cases known
      | _ => rfl
  | _ => rfl

theorem nesting_fieldOf (token : Token) (field : String) (known : Cursor.fieldOf? token = some field) :
    token.nesting = 0 := by
  cases token with
  | symbol s => cases known
  | _ => rfl

-- The tokens between two places, with the parentheses that they leave open. On the way there are never more closed
-- than opened.
def Cursor.Spans (c next : Cursor) (count : Int) : Prop :=
  ∃ passed, c.rest = passed ++ next.rest ∧ nesting passed = count ∧
    ∀ early, early <+: passed → early = passed ∨ 0 ≤ nesting early

namespace Cursor

theorem spans_of_passes {c next : Cursor} {token : Token} (passes : c.Passes token next) :
    c.Spans next token.nesting := by
  obtain ⟨offset, rest, found, rfl⟩ := passes
  refine ⟨[⟨token, offset⟩], found, by simp [nesting], fun early within => ?_⟩
  rcases List.prefix_cons_iff.mp within with rfl | ⟨others, rfl, none⟩
  · exact .inr (Int.le_refl 0)
  · exact .inl (by rw [List.prefix_nil.mp none])

theorem spans_stay (c : Cursor) : c.Spans c 0 := ⟨[], rfl, rfl, fun _ within => .inl (List.prefix_nil.mp within)⟩

theorem spans_trans {c middle next : Cursor} {first second : Int} (early : c.Spans middle first)
    (late : middle.Spans next second) (positive : 0 ≤ first) : c.Spans next (first + second) := by
  obtain ⟨passed, found, count, free⟩ := early
  obtain ⟨passed', found', count', free'⟩ := late
  refine ⟨passed ++ passed', by rw [found, found', List.append_assoc], by rw [nesting_append, count, count'],
    fun start within => ?_⟩
  rcases List.prefix_or_prefix_of_prefix within (List.prefix_append passed passed') with inside | ⟨rest, rfl⟩
  · refine .inr ?_
    rcases free start inside with rfl | enough
    · rwa [count]
    · exact enough
  · rcases free' rest ((List.prefix_append_right_inj passed).mp within) with rfl | enough
    · exact .inl rfl
    · refine .inr ?_
      rw [nesting_append, count]
      omega

end Cursor

theorem spans_of_derives (phrase : Phrase) (c next : Cursor) (result : List Expr)
    (derived : Derives phrase c result next) : c.Spans next phrase.nesting := by
  induction derived with
  | expression _ _ ih | test _ ih | present _ ih | operand _ ih | plain _ ih => exact ih
  | elvis _ mark colon _ first second =>
      have parts := Cursor.spans_trans (Cursor.spans_trans first (Cursor.spans_of_passes mark) (by decide))
        (Cursor.spans_trans (Cursor.spans_of_passes colon) second (by decide)) (by decide)
      simpa [Phrase.nesting, Token.nesting] using parts
  | choice _ mark _ colon _ first second third =>
      have parts := Cursor.spans_trans (Cursor.spans_trans first (Cursor.spans_of_passes mark) (by decide))
        (Cursor.spans_trans second (Cursor.spans_trans (Cursor.spans_of_passes colon) third (by decide)) (by decide))
        (by decide)
      simpa [Phrase.nesting, Token.nesting] using parts
  | coalesce _ mark _ _ first second =>
      have parts := Cursor.spans_trans (Cursor.spans_trans first (Cursor.spans_of_passes mark) (by decide)) second
        (by decide)
      simp only [Phrase.nesting, Token.nesting, Int.add_zero] at parts
      exact parts
  | level _ _ start more | access _ _ start more =>
      simpa [Phrase.nesting] using Cursor.spans_trans start more (by simp [Phrase.nesting])
  | unlinked | unselected => exact Cursor.spans_stay _
  | link mark known _ _ _ operand more =>
      have none := nesting_ofToken _ _ _ known
      have behind := Cursor.spans_trans operand more (by simp [Phrase.nesting])
      have parts := Cursor.spans_trans (Cursor.spans_of_passes mark) behind (Int.le_of_eq none.symm)
      rw [none] at parts
      simpa [Phrase.nesting] using parts
  | unary mark known _ _ ih =>
      have none := nesting_unaryOp _ _ known
      have parts := Cursor.spans_trans (Cursor.spans_of_passes mark) ih (Int.le_of_eq none.symm)
      simp only [none, Phrase.nesting, Int.add_zero] at parts
      exact parts
  | @member _ afterMark afterField _ _ _ name _ _ _ mark known _ named same _ more =>
      have none := nesting_isSelection _ known
      have none' := nesting_fieldOf _ _ same
      have field : afterMark.deeper.Spans afterField name.nesting := Cursor.spans_of_passes named
      have behind : afterMark.Spans afterField name.nesting := field
      have further := Cursor.spans_trans behind more (Int.le_of_eq none'.symm)
      have parts := Cursor.spans_trans (Cursor.spans_of_passes mark) further (Int.le_of_eq none.symm)
      simpa [none, none', Phrase.nesting] using parts
  | index mark _ _ closed _ inner more =>
      have parts := Cursor.spans_trans (Cursor.spans_trans (Cursor.spans_of_passes mark) inner (by decide))
        (Cursor.spans_trans (Cursor.spans_of_passes closed) more (by decide)) (by decide)
      simpa [Phrase.nesting, Token.nesting] using parts
  | integer mark | double mark | text mark | var mark | constant mark _ => exact Cursor.spans_of_passes mark
  | group mark _ closed ih =>
      have parts := Cursor.spans_trans (Cursor.spans_trans (Cursor.spans_of_passes mark) ih (by decide))
        (Cursor.spans_of_passes closed) (by decide)
      simpa [Phrase.nesting, Token.nesting] using parts
  | array mark _ ih =>
      have parts := Cursor.spans_trans (Cursor.spans_of_passes mark) ih (by decide)
      simpa [Phrase.nesting, Token.nesting] using parts
  | call named mark _ _ ih =>
      have parts := Cursor.spans_trans (Cursor.spans_of_passes named)
        (Cursor.spans_trans (Cursor.spans_of_passes mark) ih (by decide)) (by simp [Token.nesting])
      simpa [Phrase.nesting, Token.nesting] using parts
  | noItems closed | noMoreItems closed => exact Cursor.spans_of_passes closed
  | items _ _ start more =>
      have parts := Cursor.spans_trans start more (by decide)
      simpa [Phrase.nesting] using parts
  | moreItems comma _ _ start more =>
      have parts := Cursor.spans_trans (Cursor.spans_of_passes comma) (Cursor.spans_trans start more (by decide))
        (by decide)
      simpa [Phrase.nesting, Token.nesting] using parts

-- Of tokens that start with a call: its parenthesis stays open up to the last of them.
def Enclosed (tokens : List Located) : Prop :=
  ∀ n, n < tokens.length → 1 < n → 0 < nesting (tokens.take n)

theorem ended_of_enclosed (name mark : Located) (passed rest : List Located)
    (opened : name.token.nesting + mark.token.nesting = 1) (closed : nesting passed = -1)
    (enclosed : Enclosed (name :: mark :: (passed ++ rest))) : rest = [] := by
  cases rest with
  | nil => rfl
  | cons token rest =>
      have within : passed.length + 2 < (name :: mark :: (passed ++ token :: rest)).length := by
        simp only [List.length_cons, List.length_append]
        omega
      have still := enclosed (passed.length + 2) within (by omega)
      have taken : (name :: mark :: (passed ++ token :: rest)).take (passed.length + 2) = name :: mark :: passed := by
        simp only [List.take_succ_cons, List.take_left]
      rw [taken] at still
      simp only [nesting] at still
      omega

structure Cursor.Calls (function : String) (c : Cursor) : Prop where
  starts : ∃ offset place tail, c.rest = ⟨.word function, offset⟩ :: ⟨.symbol .openParen, place⟩ :: tail
  enclosed : Enclosed c.rest

def Phrase.Reads (function : String) (phrase : Phrase) (c : Cursor) (result : List Expr) (next : Cursor) : Prop :=
  match phrase with
  | .links _ _ _ left => c.rest = [] → result = [left] ∧ next.rest = []
  | .selections _ target => c.rest = [] → result = [target] ∧ next.rest = []
  | .items _ | .moreItems _ => True
  | _ => c.Calls function → (∃ args, result = [.call function args]) ∧ next.rest = []

theorem reads_of_derives (function : String) (phrase : Phrase) (c next : Cursor) (result : List Expr)
    (plain : ∀ offset args e, callOf function offset args = .ok e → e = .call function args)
    (nullary : ∀ offset e, constant function offset ≠ .ok e)
    (lone : unaryOp? (.word function) = none)
    (derived : Derives phrase c result next) : phrase.Reads function c result next := by
  induction derived with
  | expression _ _ ih | test _ ih | present _ ih | operand _ ih | plain _ ih =>
      exact fun calls => ih ⟨calls.starts, calls.enclosed⟩
  | elvis _ mark _ _ first _ | choice _ mark _ _ _ first _ _ | coalesce _ mark _ _ first _ =>
      intro calls
      obtain ⟨_, _, found, _⟩ := mark
      have ended := (first calls).2
      rw [found] at ended
      cases ended
  | level _ _ start more | access _ _ start more =>
      intro calls
      obtain ⟨made, ended⟩ := start calls
      obtain ⟨args, same⟩ := made
      obtain rfl := List.cons.inj same |>.1
      obtain ⟨rest, last⟩ := more ended
      exact ⟨⟨args, rest⟩, last⟩
  | unlinked | unselected => exact fun ended => ⟨rfl, ended⟩
  | link mark _ _ _ _ _ _ | member mark _ _ _ _ _ _ | index mark _ _ _ _ _ _ =>
      intro ended
      obtain ⟨_, _, found, _⟩ := mark
      rw [found] at ended
      cases ended
  | unary mark known _ _ _ =>
      intro calls
      obtain ⟨_, _, found, _⟩ := mark
      obtain ⟨_, _, _, starts⟩ := calls.starts
      rw [starts] at found
      cases found
      rw [lone] at known
      cases known
  | integer mark | double mark | text mark | var mark | group mark _ _ _ | array mark _ _ =>
      intro calls
      obtain ⟨_, _, found, _⟩ := mark
      obtain ⟨_, _, _, starts⟩ := calls.starts
      rw [starts] at found
      cases found
  | call named mark inner made _ =>
      intro calls
      have closed := spans_of_derives _ _ _ _ inner
      obtain ⟨_, _, found, rfl⟩ := named
      obtain ⟨_, _, opened, rfl⟩ := mark
      obtain ⟨passed, whole, count, _⟩ := closed
      dsimp only at opened whole
      obtain ⟨_, _, _, starts⟩ := calls.starts
      have enclosed := calls.enclosed
      rw [found, opened, whole] at enclosed
      rw [starts] at found
      cases found
      refine ⟨⟨_, congrArg (fun e => [e]) (plain _ _ _ made)⟩, ?_⟩
      exact ended_of_enclosed _ _ passed _ (by simp [Token.nesting]) count enclosed
  | constant named made =>
      intro calls
      obtain ⟨_, _, found, _⟩ := named
      obtain ⟨_, _, _, starts⟩ := calls.starts
      rw [starts] at found
      cases found
      exact absurd made (nullary _ _)
  | noItems | noMoreItems | items | moreItems => trivial

theorem tokens_escape (rest : List Char) (tokens : List Located) (read : tokenize ('e' :: '(' :: rest) = .ok tokens) :
    ∃ offset place tail, tokens = ⟨.word "e", offset⟩ :: ⟨.symbol .openParen, place⟩ :: tail := by
  obtain ⟨next, named⟩ := tokensFrom_cons 0 'e' ('(' :: rest) ('(' :: rest) (.word "e") (by decide) rfl
  obtain ⟨last, opened⟩ := tokensFrom_cons next '(' rest rest (.symbol .openParen) (by decide) rfl
  rw [tokenize, named, opened] at read
  cases behind : tokensFrom last rest with
  | error e =>
      rw [behind] at read
      cases read
  | ok tail =>
      rw [behind] at read
      obtain rfl := Except.ok.inj read
      exact ⟨_, _, tail, rfl⟩

theorem parse_escape (rest : List Char) (e : Expr)
    (enclosed : ∀ tokens, tokenize ('e' :: '(' :: rest) = .ok tokens → Enclosed tokens)
    (parsed : Expr.parse ('e' :: '(' :: rest) = .ok e) : ∃ args, e = .call "e" args := by
  have plain : ∀ offset args e, callOf "e" offset args = .ok e → e = .call "e" args := by
    intro offset args e made
    exact (Except.ok.inj made).symm
  have nullary : ∀ offset e, constant "e" offset ≠ .ok e := by
    intro offset e made
    cases made
  have lone : unaryOp? (.word "e") = none := by decide
  obtain ⟨c, next, read, inner, _⟩ := (parse_iff_whole _ e).mp parsed
  rw [cursor] at read
  obtain ⟨tokens, lexed, read⟩ := (bind_eq_ok _ _ _).mp read
  obtain rfl := Except.ok.inj read
  have derived := derives_expression _ _ _ inner
  have reads := reads_of_derives "e" _ _ _ _ plain nullary lone derived
  obtain ⟨⟨args, same⟩, _⟩ := reads ⟨tokens_escape rest tokens lexed, enclosed tokens lexed⟩
  exact ⟨args, (List.cons.inj same).1⟩

end Stencil
