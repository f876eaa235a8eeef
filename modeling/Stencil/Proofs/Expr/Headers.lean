import Stencil.Proofs.Expr.Each
import Stencil.Proofs.Expr.Reread

set_option autoImplicit false

namespace Stencil

namespace Assignment

def tokens : Assignment → List Token
  | .set name value => .variableName name :: .symbol .assign :: value.tokens
  | .add name value => .variableName name :: .symbol .plusAssign :: value.tokens
  | .sub name value => .variableName name :: .symbol .minusAssign :: value.tokens
  | .increment name => [.variableName name, .symbol .increment]
  | .decrement name => [.variableName name, .symbol .decrement]

def listTokens : List Assignment → List Token
  | [] => []
  | [statement] => statement.tokens
  | statement :: rest => statement.tokens ++ .symbol .comma :: listTokens rest

def name : Assignment → String
  | .set name _ | .add name _ | .sub name _ | .increment name | .decrement name => name

def peak : Assignment → Nat
  | .set _ value | .add _ value | .sub _ value => value.peak + 1
  | _ => 0

def greatestPeak : List Assignment → Nat
  | [] => 0
  | statement :: rest => max statement.peak (greatestPeak rest)

end Assignment

namespace EachHeader

def nameTokens (header : EachHeader) : List Token :=
  match header.key with
  | none => [.variableName header.value]
  | some key => [.variableName key, .symbol .fatArrow, .variableName header.value]

def tokens (header : EachHeader) : List Token := header.source.tokens ++ .word "as" :: header.nameTokens

end EachHeader

namespace ForHeader

def testTokens (header : ForHeader) : List Token := (header.condition.map Expr.tokens).getD []

def testPeak (header : ForHeader) : Nat := (header.condition.map fun e => e.peak + 1).getD 0

def tokens (header : ForHeader) : List Token :=
  Assignment.listTokens header.init ++
    .symbol .semicolon :: (header.testTokens ++ .symbol .semicolon :: Assignment.listTokens header.step)

def peak (header : ForHeader) : Nat :=
  max (Assignment.greatestPeak header.init) (max header.testPeak (Assignment.greatestPeak header.step))

end ForHeader

structure EachHeader.Written (part : Expr → Prop) (header : EachHeader) : Prop where
  parts : header.Each part
  key : ∀ key ∈ header.key, IsName key
  value : IsName header.value

structure ForHeader.Written (part : Expr → Prop) (header : ForHeader) : Prop where
  parts : header.Each part
  init : ∀ statement ∈ header.init, IsName statement.name
  step : ∀ statement ∈ header.step, IsName statement.name

variable {c : Cursor} {depth : Nat} {tail : List Token}

theorem Cursor.yields_expectEnd (shows : c.Shows [] depth) : Yields c.expectEnd 0 fun _ => True := by
  have ended : c.rest.isEmpty = true := by rw [List.map_eq_nil_iff.mp shows.listed, List.isEmpty_nil]
  rw [expectEnd, if_pos ended]
  exact Yields.of_ok _ trivial

theorem Cursor.yields_variableName (name : String) (shows : c.Shows (.variableName name :: tail) depth) :
    Yields c.variableName 0 (Reached name tail depth) := by
  obtain ⟨found, next, within, first, same, shown⟩ := next_shown shows
  simp only [variableName, first, same]
  exact Yields.of_ok _ ⟨rfl, shown⟩

theorem Cursor.eatKeyword_shown (keyword : String) (same : Text.lowerAscii keyword = keyword)
    (shows : c.Shows (.word keyword :: tail) depth) :
    ∃ next within, c.eatKeyword keyword = some ⟨next, within⟩ ∧ next.Shows tail depth := by
  obtain ⟨found, next, within, first, named, shown⟩ := next_shown shows
  refine ⟨next, within, ?_, shown⟩
  simp only [eatKeyword, pass, first, named, isKeyword, same, beq_self_eq_true, if_true, Option.map_some]

theorem yields_moreArguments (list : List Expr) (written : Expr.AllWritten (· ≤ greatestInteger) list) (c : Cursor)
    (depth : Nat) (shows : c.Shows (Expr.moreTokens list) depth) :
    Yields (moreArguments c) (depth + Expr.greatestPeak list) (Reached list [] depth) := by
  induction list generalizing c with
  | nil =>
      rw [moreArguments, Cursor.eat_other shows (by simp [Expr.moreTokens])]
      exact yields_reached shows
  | cons e rest ih =>
      obtain ⟨afterComma, _, eaten, shown⟩ := Cursor.eat_shown shows
      have behind : Stops 0 (Expr.moreTokens rest) := by
        cases rest with
        | nil => simp [Stops, Expr.moreTokens]
        | cons => exact stops_unbound rfl
      have first := (rereads e written.1).reads_whole behind afterComma depth shown
      rw [moreArguments, eaten]
      refine (first.bind (depth + Expr.greatestPeak rest) ?_).needing _ (by rw [Expr.greatestPeak]; omega)
      rintro ⟨_, afterItem, _⟩ ⟨rfl, reached⟩
      refine ((ih written.2 afterItem reached).bind 0 ?_).needing _ (by omega)
      rintro ⟨_, next, _⟩ ⟨rfl, last⟩
      exact Yields.of_ok _ ⟨rfl, last⟩

namespace Assignment

theorem yields_withValue {e : Expr} (assign : Expr → Assignment) (after : c.Later) (inner : Rereads e)
    (stops : Stops 0 tail) (shows : after.val.Shows (e.tokens ++ tail) depth) :
    Yields (behind.withValue after assign) (depth + (e.peak + 1)) (Reached (assign e) tail depth) := by
  rw [behind.withValue]
  refine ((inner.reads_whole stops _ depth shows).bind 0 ?_).needing _ (by omega)
  rintro ⟨_, next, _⟩ ⟨rfl, reached⟩
  exact Yields.of_ok _ ⟨rfl, reached⟩

theorem yields_behind (statement : Assignment) (written : statement.Each (Expr.Written (· ≤ greatestInteger)))
    (stops : Stops 0 tail) (shows : c.Shows (statement.tokens.tail ++ tail) depth) :
    Yields (behind statement.name c) (depth + statement.peak) (Reached statement tail depth) := by
  cases statement with
  | set name value | add name value | sub name value =>
      obtain ⟨found, next, within, first, same, shown⟩ := Cursor.next_shown shows
      rw [behind, first]
      simp only [same]
      exact yields_withValue _ ⟨next, within⟩ (rereads value written) stops shown
  | increment name | decrement name =>
      obtain ⟨found, next, within, first, same, shown⟩ := Cursor.next_shown shows
      rw [behind, first]
      simp only [same]
      exact yields_reached shown

theorem tokens_eq (statement : Assignment) :
    statement.tokens = .variableName statement.name :: statement.tokens.tail := by
  cases statement <;> rfl

theorem listTokens_cons (statement : Assignment) (rest : List Assignment) :
    ∃ behind, listTokens (statement :: rest) = .variableName statement.name :: behind := by
  cases rest with
  | nil => exact ⟨_, tokens_eq statement⟩
  | cons second rest =>
      refine ⟨statement.tokens.tail ++ .symbol .comma :: listTokens (second :: rest), ?_⟩
      rw [listTokens, tokens_eq, List.cons_append, List.tail_cons]
      simp

theorem parses_assignment (statement : Assignment) (written : statement.Each (Expr.Written (· ≤ greatestInteger)))
    (stops : Stops 0 tail) : Parses Assignment.parse statement.peak statement.tokens statement tail := by
  intro c depth shows
  rw [tokens_eq] at shows
  have plain : ∀ s : Symbol, c.eat s = none := fun s => Cursor.eat_other shows fun token first => by
    obtain rfl := Option.some.inj first
    simp
  rw [Assignment.parse, plain, plain]
  refine ((Cursor.yields_variableName _ shows).bind (depth + statement.peak) ?_).needing _ (by omega)
  rintro ⟨_, after, _⟩ ⟨rfl, reached⟩
  refine ((yields_behind statement written stops reached).bind 0 ?_).needing _ (by omega)
  rintro ⟨_, next, _⟩ ⟨same, last⟩
  exact Yields.of_ok _ ⟨same, last⟩

end Assignment

theorem parses_assignments (list : List Assignment)
    (written : ∀ statement ∈ list, statement.Each (Expr.Written (· ≤ greatestInteger))) (some : list ≠ [])
    (stops : Stops 0 tail) (ends : ∀ token ∈ tail.head?, token ≠ .symbol .comma) :
    Parses assignments (Assignment.greatestPeak list) (Assignment.listTokens list) list tail := by
  induction list with
  | nil => exact absurd rfl some
  | cons statement rest ih =>
      rw [List.forall_mem_cons] at written
      intro c depth shows
      rw [assignments]
      cases rest with
      | nil =>
          have first := Assignment.parses_assignment statement written.1 stops c depth shows
          refine (first.bind 0 ?_).needing _ (by simp only [Assignment.greatestPeak]; omega)
          rintro ⟨_, after, _⟩ ⟨rfl, reached⟩
          simp only [Cursor.eat_other reached ends]
          exact Yields.of_ok _ ⟨rfl, reached⟩
      | cons second rest =>
          rw [Assignment.listTokens, List.append_assoc] at shows
          · have first := Assignment.parses_assignment statement written.1 (stops_unbound rfl) c depth shows
            refine (first.bind (depth + Assignment.greatestPeak (second :: rest)) ?_).needing _
              (by simp only [Assignment.greatestPeak]; omega)
            rintro ⟨_, after, _⟩ ⟨rfl, reached⟩
            obtain ⟨afterComma, _, eaten, shown⟩ := Cursor.eat_shown reached
            simp only [eaten]
            refine ((ih written.2 (by simp) afterComma depth shown).bind 0 ?_).needing _ (by omega)
            rintro ⟨_, next, _⟩ ⟨rfl, reached⟩
            exact Yields.of_ok _ ⟨rfl, reached⟩
          · simp

theorem yields_initial (list : List Assignment)
    (written : ∀ statement ∈ list, statement.Each (Expr.Written (· ≤ greatestInteger)))
    (shows : c.Shows (Assignment.listTokens list ++ .symbol .semicolon :: tail) depth) :
    Yields (initial c) (depth + Assignment.greatestPeak list) fun result =>
      result.1 = list ∧ result.2.Shows (.symbol .semicolon :: tail) depth := by
  rw [initial]
  cases list with
  | nil =>
      obtain ⟨next, _, eaten, _⟩ := Cursor.eat_shown shows
      rw [eaten, Option.isSome_some, if_pos rfl]
      exact (Yields.of_ok _ ⟨rfl, shows⟩).needing _ (by have := shows.within; simp only [Assignment.greatestPeak]; omega)
  | cons statement rest =>
      have read := parses_assignments _ written (by simp) (stops_unbound rfl) (by simp) c depth shows
      obtain ⟨behind, starts⟩ := Assignment.listTokens_cons statement rest
      have more : c.eat .semicolon = none := Cursor.eat_other shows fun token first => by
        rw [starts] at first
        obtain rfl := Option.some.inj first
        simp
      rw [more, Option.isSome_none, if_neg (by decide)]
      refine (read.bind 0 ?_).needing _ (by omega)
      rintro ⟨_, next, _⟩ ⟨rfl, reached⟩
      exact Yields.of_ok _ ⟨rfl, reached⟩

theorem yields_loopTest (test : Option Expr) (written : ∀ e ∈ test, e.Written (· ≤ greatestInteger))
    (shows : c.Shows ((test.map Expr.tokens).getD [] ++ .symbol .semicolon :: tail) depth) :
    Yields (loopTest c) (depth + (test.map fun e => e.peak + 1).getD 0) fun result =>
      result.1 = test ∧ result.2.Shows (.symbol .semicolon :: tail) depth := by
  rw [loopTest]
  cases test with
  | none =>
      obtain ⟨next, _, eaten, _⟩ := Cursor.eat_shown shows
      rw [eaten, Option.isSome_some, if_pos rfl]
      exact (Yields.of_ok _ ⟨rfl, shows⟩).needing _ (by have := shows.within; simp only [Option.map_none, Option.getD_none]; omega)
  | some e =>
      have inner := rereads e (written e rfl)
      have more : c.eat .semicolon = none := Cursor.eat_other shows (first_of_starts inner.starts _ rfl)
      rw [more, Option.isSome_none, if_neg (by decide)]
      refine ((inner.reads_whole (stops_unbound rfl) c depth shows).bind 0 ?_).needing _ (by simp only [Option.map_some, Option.getD_some]; omega)
      rintro ⟨_, next, _⟩ ⟨rfl, reached⟩
      exact Yields.of_ok _ ⟨rfl, reached⟩

theorem yields_final (list : List Assignment)
    (written : ∀ statement ∈ list, statement.Each (Expr.Written (· ≤ greatestInteger)))
    (shows : c.Shows (Assignment.listTokens list) depth) :
    Yields (final c) (depth + Assignment.greatestPeak list) fun result => result.1 = list ∧ result.2.Shows [] depth := by
  rw [final]
  cases list with
  | nil =>
      have ended : c.rest.isEmpty = true := by rw [List.map_eq_nil_iff.mp shows.listed, List.isEmpty_nil]
      rw [if_pos ended]
      exact (Yields.of_ok _ ⟨rfl, shows⟩).needing _ (by have := shows.within; simp only [Assignment.greatestPeak]; omega)
  | cons statement rest =>
      obtain ⟨behind, starts⟩ := Assignment.listTokens_cons statement rest
      have left : ¬ c.rest.isEmpty = true := by
        intro ended
        have listed := shows.listed
        rw [List.isEmpty_iff.mp ended, starts] at listed
        cases listed
      have none : Stops 0 [] := by simp [Stops]
      rw [← List.append_nil (Assignment.listTokens _)] at shows
      rw [if_neg left]
      have read := parses_assignments _ written (by simp) none (by simp) c depth shows
      refine (read.bind 0 ?_).needing _ (by omega)
      rintro ⟨_, next, _⟩ ⟨rfl, reached⟩
      exact Yields.of_ok _ ⟨rfl, reached⟩

end Stencil
