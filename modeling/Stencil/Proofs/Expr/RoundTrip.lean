import Stencil.Proofs.Expr.Headers

set_option autoImplicit false

namespace Stencil

def Expr.printAll (list : List Expr) : List Char := Token.spaced (Expr.listTokens list)

def EachHeader.print (header : EachHeader) : List Char := Token.spaced header.tokens

def ForHeader.print (header : ForHeader) : List Char := Token.spaced header.tokens

def Expr.Fits (e : Expr) : Prop := e.Written (· ≤ greatestInteger)

def Expr.Small (e : Expr) : Prop := e.nodes ≤ greatestNesting / 2

structure ReadsBack {α : Type} (parse : List Char → Except ParseError α) (text : List Char) (a : α) (small : Prop) :
    Prop where
  only : parse text = .ok a ∨ ∃ offset, parse text = .error ⟨.tooDeep, offset⟩
  reads : small → parse text = .ok a

theorem readsBack_of_gives {α : Type} {parse : List Char → Except ParseError α} {text : List Char} {a : α} {small : Prop}
    {needed : Nat} (given : Yields (parse text) needed (· = a)) (enough : small → needed ≤ greatestNesting) :
    ReadsBack parse text a small := by
  constructor
  · by_cases within : needed ≤ greatestNesting
    · obtain ⟨_, read, rfl⟩ := given.done within
      exact Or.inl read
    · exact Or.inr (given.deep (Nat.lt_of_not_le within))
  · intro holds
    obtain ⟨_, read, rfl⟩ := given.done (enough holds)
    exact read

theorem cursor_spaced (tokens : List Token) (spellable : ∀ token ∈ tokens, token.Spellable) :
    Yields (cursor (Token.spaced tokens)) 0 fun c => c.Shows tokens 0 := by
  obtain ⟨located, read, same⟩ := Token.tokensFrom_spaced tokens spellable 0
  rw [cursor, tokenize, read]
  exact Yields.of_ok _ ⟨same, rfl, Nat.zero_le _⟩

theorem stops_nil (place : Nat) : Stops place [] := by simp [Stops]

theorem yields_parse (e : Expr) (fits : e.Fits) : Yields (Expr.parse e.print) (e.peak + 1) (· = e) := by
  rw [Expr.parse]
  refine ((cursor_spaced _ (e.spellable_tokens fits)).bind (e.peak + 1) ?_).needing _ (by omega)
  intro c shows
  rw [← List.append_nil e.tokens] at shows
  refine (((rereads e fits).reads_whole (stops_nil 0) c 0 shows).bind 0 ?_).needing _ (by omega)
  rintro ⟨_, next, _⟩ ⟨rfl, reached⟩
  exact (Cursor.yields_expectEnd reached).bind 0 fun _ _ => Yields.of_ok _ rfl

theorem parse_print (e : Expr) (fits : e.Fits) (within : e.peak < greatestNesting) : Expr.parse e.print = .ok e := by
  obtain ⟨_, read, rfl⟩ := (yields_parse e fits).done within
  exact read

theorem peak_small (e : Expr) (small : e.Small) : e.peak + 1 ≤ greatestNesting := by
  have bound := e.peak_nodes
  unfold Expr.Small greatestNesting at *
  omega

theorem yields_parseAll (list : List Expr) (fits : Expr.AllWritten (· ≤ greatestInteger) list) :
    Yields (Expr.parseAll (Expr.printAll list)) (Expr.greatestPeak list) (· = list) := by
  rw [Expr.parseAll]
  refine ((cursor_spaced _ (Expr.spellable_listTokens list fits)).bind (Expr.greatestPeak list) ?_).needing _ (by omega)
  intro c shows
  cases list with
  | nil =>
      have ended : c.rest.isEmpty = true := by rw [List.map_eq_nil_iff.mp shows.listed, List.isEmpty_nil]
      rw [Expr.several, if_pos ended]
      exact Yields.of_ok _ rfl
  | cons e rest =>
      obtain ⟨token, behind, starts, _⟩ := (rereads e fits.1).starts
      have left : ¬ c.rest.isEmpty = true := by
        intro ended
        have listed := shows.listed
        rw [List.isEmpty_iff.mp ended, Expr.listTokens, starts] at listed
        cases listed
      have stops : Stops 0 (Expr.moreTokens rest) := by
        cases rest with
        | nil => exact stops_nil 0
        | cons => exact stops_unbound rfl
      rw [Expr.several, if_neg left]
      have first := (rereads e fits.1).reads_whole stops c 0 shows
      refine (first.bind (Expr.greatestPeak rest) ?_).needing _ (by rw [Expr.greatestPeak]; omega)
      rintro ⟨_, afterFirst, _⟩ ⟨rfl, reached⟩
      refine ((yields_moreArguments rest fits.2 afterFirst 0 reached).bind 0 ?_).needing _ (by omega)
      rintro ⟨_, next, _⟩ ⟨rfl, last⟩
      exact (Cursor.yields_expectEnd last).bind 0 fun _ _ => Yields.of_ok _ rfl

theorem EachHeader.spellable (header : EachHeader) (written : header.Written Expr.Fits) :
    ∀ token ∈ header.tokens, token.Spellable := by
  have names : ∀ token ∈ header.nameTokens, token.Spellable := by
    rw [nameTokens]
    cases key : header.key with
    | none => exact List.forall_mem_singleton.mpr written.value
    | some name =>
        rw [List.forall_mem_cons, List.forall_mem_cons, List.forall_mem_singleton]
        exact ⟨written.key name key, trivial, written.value⟩
  rw [tokens, List.forall_mem_append, List.forall_mem_cons]
  exact ⟨header.source.spellable_tokens written.parts, ⟨by decide, 'a', rfl, by decide⟩, names⟩

theorem yields_eachHeader (header : EachHeader) (written : header.Written Expr.Fits) :
    Yields (EachHeader.parse header.print) (header.source.peak + 1) (· = header) := by
  rw [EachHeader.parse]
  refine ((cursor_spaced _ (header.spellable written)).bind (header.source.peak + 1) ?_).needing _ (by omega)
  intro c shows
  have first := (rereads header.source written.parts).reads_whole (stops_unbound rfl) c 0 shows
  refine (first.bind 0 ?_).needing _ (by omega)
  rintro ⟨source, afterSource, _⟩ ⟨same, reached⟩
  obtain ⟨names, _, eaten, shown⟩ := Cursor.eatKeyword_shown "as" rfl reached
  simp only [eaten]
  obtain ⟨_, key, value⟩ := header
  cases key with
  | none =>
      refine (Cursor.yields_variableName _ shown).bind 0 ?_
      rintro ⟨_, afterFirst, _⟩ ⟨rfl, last⟩
      simp only [Cursor.eat_other last (by simp)]
      exact (Cursor.yields_expectEnd last).bind 0 fun _ _ => Yields.of_ok _ (congrArg (EachHeader.mk · none _) same)
  | some key =>
      refine (Cursor.yields_variableName _ shown).bind 0 ?_
      rintro ⟨_, afterFirst, _⟩ ⟨rfl, last⟩
      obtain ⟨afterArrow, _, eaten, shown⟩ := Cursor.eat_shown last
      simp only [eaten]
      refine (Cursor.yields_variableName _ shown).bind 0 ?_
      rintro ⟨_, afterSecond, _⟩ ⟨rfl, ended⟩
      exact (Cursor.yields_expectEnd ended).bind 0 fun _ _ => Yields.of_ok _ (congrArg (EachHeader.mk · (some _) _) same)

theorem Assignment.spellable (statement : Assignment) (named : IsName statement.name)
    (fits : statement.Each Expr.Fits) : ∀ token ∈ statement.tokens, token.Spellable := by
  cases statement with
  | set name value | add name value | sub name value =>
      rw [tokens, List.forall_mem_cons, List.forall_mem_cons]
      exact ⟨named, trivial, value.spellable_tokens fits⟩
  | increment name | decrement name =>
      rw [tokens, List.forall_mem_cons, List.forall_mem_singleton]
      exact ⟨named, trivial⟩

theorem Assignment.spellable_listTokens (list : List Assignment) (named : ∀ statement ∈ list, IsName statement.name)
    (fits : ∀ statement ∈ list, statement.Each Expr.Fits) : ∀ token ∈ listTokens list, token.Spellable := by
  induction list with
  | nil => simp [listTokens]
  | cons statement rest ih =>
      rw [List.forall_mem_cons] at named fits
      have first := statement.spellable named.1 fits.1
      cases rest with
      | nil => exact first
      | cons second rest =>
          rw [listTokens, List.forall_mem_append, List.forall_mem_cons]
          · exact ⟨first, trivial, ih named.2 fits.2⟩
          · simp

theorem ForHeader.spellable (header : ForHeader) (written : header.Written Expr.Fits) :
    ∀ token ∈ header.tokens, token.Spellable := by
  have test : ∀ token ∈ header.testTokens, token.Spellable := by
    rw [testTokens]
    cases condition : header.condition with
    | none => simp
    | some e => exact e.spellable_tokens (written.parts.2.1 e condition)
  rw [tokens, List.forall_mem_append, List.forall_mem_cons, List.forall_mem_append, List.forall_mem_cons]
  exact ⟨Assignment.spellable_listTokens _ written.init written.parts.1, trivial, test, trivial,
    Assignment.spellable_listTokens _ written.step written.parts.2.2⟩

theorem yields_forHeader (header : ForHeader) (written : header.Written Expr.Fits) :
    Yields (ForHeader.parse header.print) header.peak (· = header) := by
  rw [ForHeader.parse]
  refine ((cursor_spaced _ (header.spellable written)).bind header.peak ?_).needing _ (by omega)
  intro c shows
  refine ((yields_initial header.init written.parts.1 shows).bind
    (max header.testPeak (Assignment.greatestPeak header.step)) ?_).needing _ (by rw [ForHeader.peak]; omega)
  rintro ⟨init, afterInit⟩ ⟨sameInit, reached⟩
  refine ((Cursor.yields_expect reached).bind
    (max header.testPeak (Assignment.greatestPeak header.step)) ?_).needing _ (by omega)
  rintro ⟨second, _⟩ shown
  refine ((yields_loopTest header.condition written.parts.2.1 shown).bind
    (Assignment.greatestPeak header.step) ?_).needing _ (by rw [ForHeader.testPeak]; omega)
  rintro ⟨test, afterTest⟩ ⟨sameTest, reached⟩
  refine ((Cursor.yields_expect reached).bind (Assignment.greatestPeak header.step) ?_).needing _ (by omega)
  rintro ⟨third, _⟩ shown
  refine ((yields_final header.step written.parts.2.2 shown).bind 0 ?_).needing _ (by omega)
  rintro ⟨step, last⟩ ⟨sameStep, reached⟩
  refine (Cursor.yields_expectEnd reached).bind 0 fun _ _ => Yields.of_ok _ ?_
  obtain rfl : init = header.init := sameInit
  obtain rfl : test = header.condition := sameTest
  obtain rfl : step = header.step := sameStep
  rfl

theorem Expr.allWritten_iff (numeral : Nat → Prop) (list : List Expr) :
    AllWritten numeral list ↔ ∀ e ∈ list, e.Written numeral := by
  induction list with
  | nil => simp [AllWritten]
  | cons e rest ih => rw [AllWritten, ih, List.forall_mem_cons]

theorem greatestPeak_small (list : List Expr) (small : ∀ e ∈ list, e.Small) :
    Expr.greatestPeak list ≤ greatestNesting := by
  induction list with
  | nil => exact Nat.zero_le _
  | cons e rest ih =>
      rw [List.forall_mem_cons] at small
      exact Nat.max_le.mpr ⟨peak_small e small.1, ih small.2⟩

theorem Assignment.peak_small (statement : Assignment) (small : statement.Each Expr.Small) :
    statement.peak ≤ greatestNesting := by
  cases statement with
  | set _ value | add _ value | sub _ value => exact Stencil.peak_small value small
  | increment | decrement => exact Nat.zero_le _

theorem Assignment.greatestPeak_small (list : List Assignment) (small : ∀ statement ∈ list, statement.Each Expr.Small) :
    greatestPeak list ≤ greatestNesting := by
  induction list with
  | nil => exact Nat.zero_le _
  | cons statement rest ih =>
      rw [List.forall_mem_cons] at small
      exact Nat.max_le.mpr ⟨statement.peak_small small.1, ih small.2⟩

theorem ForHeader.peak_small (header : ForHeader) (small : header.Each Expr.Small) : header.peak ≤ greatestNesting := by
  have test : header.testPeak ≤ greatestNesting := by
    rw [testPeak]
    cases condition : header.condition with
    | none => exact Nat.zero_le _
    | some e => exact Stencil.peak_small e (small.2.1 e condition)
  exact Nat.max_le.mpr ⟨Assignment.greatestPeak_small _ small.1,
    Nat.max_le.mpr ⟨test, Assignment.greatestPeak_small _ small.2.2⟩⟩

theorem printed_read_back :
    (∀ e : Expr, e.Fits → ReadsBack Expr.parse e.print e e.Small) ∧
    (∀ list : List Expr, (∀ e ∈ list, e.Fits) →
      ReadsBack Expr.parseAll (Expr.printAll list) list (∀ e ∈ list, e.Small)) ∧
    (∀ header : EachHeader, header.Written Expr.Fits →
      ReadsBack EachHeader.parse header.print header (header.Each Expr.Small)) ∧
    ∀ header : ForHeader, header.Written Expr.Fits →
      ReadsBack ForHeader.parse header.print header (header.Each Expr.Small) := by
  refine ⟨fun e fits => ?_, fun list fits => ?_, fun header written => ?_, fun header written => ?_⟩
  · exact readsBack_of_gives (yields_parse e fits) (peak_small e)
  · have all := (Expr.allWritten_iff (· ≤ greatestInteger) list).mpr fits
    exact readsBack_of_gives (yields_parseAll list all) (greatestPeak_small list)
  · exact readsBack_of_gives (yields_eachHeader header written) (peak_small header.source)
  · exact readsBack_of_gives (yields_forHeader header written) header.peak_small

theorem sample_read_back :
    Expr.parse "( $a + 1 ) * - $b [ 'it\\'s' ]".toList =
      .ok (.binary .mul (.binary .add (.var "a") (.literal (.ofNat 1)))
        (.unary .neg (.index (.var "b") (.literal (.string "it's"))))) ∧
    Expr.parseAll "$a ?? $b . 0 , null".toList =
      .ok [.coalesce (.var "a") (.member (.var "b") "0"), .literal .null] ∧
    EachHeader.parse "$a as $k => $v".toList = .ok ⟨.var "a", some "k", "v"⟩ ∧
    ForHeader.parse "$i = 1 ; $i < 2 ; $i ++".toList =
      .ok ⟨[.set "i" (.literal (.ofNat 1))], some (.binary .lt (.var "i") (.literal (.ofNat 2))), [.increment "i"]⟩ := by
  have a : IsName "a" := ⟨by decide, 'a', rfl, by decide⟩
  have b : IsName "b" := ⟨by decide, 'b', rfl, by decide⟩
  have i : IsName "i" := ⟨by decide, 'i', rfl, by decide⟩
  have k : IsName "k" := ⟨by decide, 'k', rfl, by decide⟩
  have v : IsName "v" := ⟨by decide, 'v', rfl, by decide⟩
  have one : (Value.ofNat 1).Written := Or.inr (Or.inr (Or.inl ⟨1, by decide, rfl⟩))
  have two : (Value.ofNat 2).Written := Or.inr (Or.inr (Or.inl ⟨2, by decide, rfl⟩))
  have text : (Value.string "it's").Written := Or.inr (Or.inr (Or.inr ⟨_, rfl⟩))
  refine ⟨?_, ?_, ?_, ?_⟩
  · exact (printed_read_back.1 (.binary .mul (.binary .add (.var "a") (.literal (.ofNat 1)))
      (.unary .neg (.index (.var "b") (.literal (.string "it's"))))) ⟨⟨a, one⟩, b, text⟩).reads
      (Nat.le_of_ble_eq_true rfl)
  · refine (printed_read_back.2.1 [.coalesce (.var "a") (.member (.var "b") "0"), .literal .null] ?_).reads ?_
    · rw [List.forall_mem_cons, List.forall_mem_singleton]
      exact ⟨⟨a, b, Or.inr ⟨0, by decide, rfl⟩⟩, Or.inl rfl⟩
    · rw [List.forall_mem_cons, List.forall_mem_singleton]
      exact ⟨Nat.le_of_ble_eq_true rfl, Nat.le_of_ble_eq_true rfl⟩
  · exact (printed_read_back.2.2.1 ⟨.var "a", some "k", "v"⟩ ⟨a, by simpa using k, v⟩).reads (Nat.le_of_ble_eq_true rfl)
  · refine (printed_read_back.2.2.2 ⟨[.set "i" (.literal (.ofNat 1))],
      some (.binary .lt (.var "i") (.literal (.ofNat 2))), [.increment "i"]⟩ ⟨⟨?_, ?_, ?_⟩, ?_, ?_⟩).reads ⟨?_, ?_, ?_⟩
    · exact List.forall_mem_singleton.mpr one
    · rintro _ ⟨⟩
      exact ⟨i, two⟩
    · exact List.forall_mem_singleton.mpr trivial
    · exact List.forall_mem_singleton.mpr i
    · exact List.forall_mem_singleton.mpr i
    · exact List.forall_mem_singleton.mpr (Nat.le_of_ble_eq_true rfl)
    · rintro _ ⟨⟩
      exact Nat.le_of_ble_eq_true rfl
    · exact List.forall_mem_singleton.mpr trivial

theorem parse_large_field (n : Nat) (beyond : greatestInteger < n) :
    Expr.parse ('$' :: 'a' :: ' ' :: '.' :: ' ' :: Decimal.natDigits n) = .error ⟨.tooLarge (toString n), 5⟩ := by
  have numeral : tokensFrom 5 (Decimal.natDigits n) = .error ⟨.tooLarge (toString n), 5⟩ := by
    obtain ⟨c, rest, whole, blank, read⟩ := Token.firstToken_digits n [] (by simp [Token.Ends])
    rw [Token.integer_natDigits, if_pos beyond, List.append_nil] at read
    rw [whole]
    exact tokensFrom_fault 5 c rest _ (by simp [blank]) read
  have dot : tokensFrom 3 ('.' :: ' ' :: Decimal.natDigits n) = .error ⟨.tooLarge (toString n), 5⟩ := by
    rw [tokensFrom_token 3 '.' _ (' ' :: Decimal.natDigits n) (.symbol .dot) (by decide) rfl]
    have passed : ('.' :: ' ' :: Decimal.natDigits n).length - (' ' :: Decimal.natDigits n).length = 1 := by
      simp only [List.length_cons]
      omega
    rw [passed, List.take_succ_cons, List.take_zero, tokensFrom_blank _ ' ' _ (by decide)]
    exact congrArg (Except.map _) numeral
  have first : tokensFrom 0 ('$' :: 'a' :: ' ' :: '.' :: ' ' :: Decimal.natDigits n) =
      .error ⟨.tooLarge (toString n), 5⟩ := by
    rw [tokensFrom_token 0 '$' _ (' ' :: '.' :: ' ' :: Decimal.natDigits n) (.variableName "a") (by decide) rfl]
    have passed : ('$' :: 'a' :: ' ' :: '.' :: ' ' :: Decimal.natDigits n).length -
        (' ' :: '.' :: ' ' :: Decimal.natDigits n).length = 2 := by
      simp only [List.length_cons]
      omega
    rw [passed, List.take_succ_cons, List.take_succ_cons, List.take_zero, tokensFrom_blank _ ' ' _ (by decide)]
    exact congrArg (Except.map _) dot
  rw [Expr.parse, cursor, tokenize, first]
  rfl

theorem numeral_too_large :
    (Expr.member (.var "a") "9223372036854775808").Written (fun _ => True) ∧
    (Expr.member (.var "a") "9223372036854775808").print = "$a . 9223372036854775808".toList ∧
    Expr.parse "$a . 9223372036854775808".toList = .error ⟨.tooLarge "9223372036854775808", 5⟩ := by
  refine ⟨⟨⟨by decide, 'a', rfl, by decide⟩, Or.inr ⟨9223372036854775808, trivial, by decide⟩⟩, by decide, ?_⟩
  exact parse_large_field 9223372036854775808 (by decide)

end Stencil
