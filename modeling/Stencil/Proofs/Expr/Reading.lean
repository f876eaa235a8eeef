import Stencil.Expr.Header
import Stencil.Proofs.Expr.Grammar

set_option autoImplicit false

namespace Stencil

structure Cursor.Shows (c : Cursor) (tokens : List Token) (depth : Nat) : Prop where
  listed : c.rest.map Located.token = tokens
  level : c.depth = depth
  within : depth ≤ greatestNesting

-- A result that satisfies `good`, if no more than the allowed levels are needed.
structure Yields {α : Type} (result : Except ParseError α) (needed : Nat) (good : α → Prop) : Prop where
  done : needed ≤ greatestNesting → ∃ a, result = .ok a ∧ good a
  deep : greatestNesting < needed → ∃ offset, result = .error ⟨.tooDeep, offset⟩

namespace Yields

variable {α β : Type} {result : Except ParseError α} {needed : Nat} {good : α → Prop}

theorem of_ok (a : α) (holds : good a) : Yields (.ok a) 0 good :=
  ⟨fun _ => ⟨a, rfl, holds⟩, fun beyond => absurd beyond (Nat.not_lt_zero _)⟩

theorem bind {best : β → Prop} {more : α → Except ParseError β} (first : Yields result needed good) (further : Nat)
    (second : ∀ a, good a → Yields (more a) further best) : Yields (result >>= more) (max needed further) best := by
  by_cases enough : needed ≤ greatestNesting
  · obtain ⟨a, rfl, holds⟩ := first.done enough
    have rest := second a holds
    exact ⟨fun within => rest.done (by omega), fun beyond => rest.deep (by omega)⟩
  · obtain ⟨offset, rfl⟩ := first.deep (by omega)
    exact ⟨fun within => by omega, fun _ => ⟨offset, rfl⟩⟩

theorem needing (given : Yields result needed good) (other : Nat)
    (same : needed ≤ greatestNesting ↔ other ≤ greatestNesting) : Yields result other good :=
  ⟨fun within => given.done (same.mpr within), fun beyond => given.deep (by omega)⟩

end Yields

namespace Cursor

variable {c : Cursor} {token : Token} {tokens : List Token} {depth : Nat}

theorem next_shown (shows : c.Shows (token :: tokens) depth) :
    ∃ found next within, c.next? = some (found, ⟨next, within⟩) ∧ found.token = token ∧ next.Shows tokens depth := by
  obtain ⟨rest, last, finish, _⟩ := c
  obtain ⟨listed, rfl, within⟩ := shows
  cases rest with
  | nil => cases listed
  | cons found rest =>
      obtain ⟨rfl, rfl⟩ := List.cons.inj listed
      exact ⟨found, _, _, rfl, rfl, rfl, rfl, within⟩

theorem pass_shown {α : Type} (test : Token → Option α) (a : α) (shows : c.Shows (token :: tokens) depth)
    (known : test token = some a) :
    ∃ next within, c.pass test = some (a, ⟨next, within⟩) ∧ next.Shows tokens depth := by
  obtain ⟨found, next, within, first, rfl, shown⟩ := next_shown shows
  exact ⟨next, within, by simp only [pass, first, known, Option.map_some], shown⟩

theorem pass_other {α : Type} (test : Token → Option α) (shows : c.Shows tokens depth)
    (other : ∀ token ∈ tokens.head?, test token = none) : c.pass test = none := by
  cases tokens with
  | nil =>
      obtain ⟨rest, last, finish, _⟩ := c
      obtain rfl := List.map_eq_nil_iff.mp shows.listed
      rfl
  | cons token tokens =>
      obtain ⟨found, next, within, first, rfl, _⟩ := next_shown shows
      simp only [pass, first, other found.token rfl, Option.map_none]

theorem eat_shown {s : Symbol} (shows : c.Shows (.symbol s :: tokens) depth) :
    ∃ next within, c.eat s = some ⟨next, within⟩ ∧ next.Shows tokens depth := by
  obtain ⟨found, next, within, first, same, shown⟩ := next_shown shows
  exact ⟨next, within, by simp only [eat, pass, first, same, if_true, Option.map_some], shown⟩

theorem eat_other {s : Symbol} (shows : c.Shows tokens depth) (other : ∀ token ∈ tokens.head?, token ≠ .symbol s) :
    c.eat s = none := by
  rw [eat, pass_other _ shows, Option.map_none]
  intro token first
  have differs := other token first
  cases token with
  | symbol found => simp only [ne_eq, Token.symbol.injEq] at differs; simp only [differs, if_false]
  | _ => rfl

theorem yields_expect {s : Symbol} {what : Expectation} (shows : c.Shows (.symbol s :: tokens) depth) :
    Yields (c.expect s what) 0 fun next => next.val.Shows tokens depth := by
  obtain ⟨next, within, eaten, shown⟩ := eat_shown shows
  rw [expect, eaten]
  exact Yields.of_ok _ shown

theorem yields_descend (shows : c.Shows tokens depth) :
    Yields c.descend (depth + 1) fun inner => inner.val.Shows tokens (depth + 1) := by
  obtain ⟨listed, rfl, _⟩ := shows
  rw [descend]
  by_cases beyond : greatestNesting < c.depth + 1
  · rw [if_pos beyond]
    exact ⟨fun within => by omega, fun _ => ⟨_, rfl⟩⟩
  · rw [if_neg beyond]
    exact (Yields.of_ok _ ⟨listed, rfl, by omega⟩).needing _ (by omega)

theorem shows_ascend {levels : Nat} (shows : c.Shows tokens (depth + levels)) : (c.ascend levels).Shows tokens depth := by
  obtain ⟨listed, same, within⟩ := shows
  have back : c.depth - levels = depth := by omega
  exact ⟨listed, back, by omega⟩

end Cursor

def Reached {α : Type} {P : Cursor → Prop} (a : α) (tail : List Token) (depth : Nat)
    (result : α × { next : Cursor // P next }) : Prop :=
  result.1 = a ∧ result.2.val.Shows tail depth

theorem yields_reached {α : Type} {P : Cursor → Prop} {a : α} {next : Cursor} {within : P next} {tail : List Token}
    {depth : Nat} (shown : next.Shows tail depth) :
    Yields (.ok (a, (⟨next, within⟩ : { next : Cursor // P next }))) depth (Reached a tail depth) :=
  (Yields.of_ok _ ⟨rfl, shown⟩).needing _ (by have := shown.within; omega)

-- The parser reads `a` from the tokens in front of `tail`, with so many more levels open on the way.
def Parses {α : Type} (read : (c : Cursor) → Parsed α c) (peak : Nat) (tokens : List Token) (a : α)
    (tail : List Token) : Prop :=
  ∀ (c : Cursor) (depth : Nat), c.Shows (tokens ++ tail) depth → Yields (read c) (depth + peak) (Reached a tail depth)

-- The parser reads an operand, and leaves the operators behind it to `more`, which starts with so many levels open.
def Leads (read : (c : Cursor) → Parsed Expr c)
    (more : Nat → Expr → (c : Cursor) → Except ParseError (Expr × c.NotEarlier)) (peak links : Nat)
    (tokens : List Token) (e : Expr) (tail : List Token) : Prop :=
  ∀ (c : Cursor) (depth : Nat), c.Shows (tokens ++ tail) depth →
    ∀ (needed : Nat) (result : Expr) (after : List Token),
      (∀ next : Cursor, next.Shows tail (depth + links) →
        Yields (more links e next) needed (Reached result after depth)) →
      Yields (read c) (max (depth + peak) needed) (Reached result after depth)

variable {tokens others further tail : List Token} {e operand last : Expr} {items : List Expr} {peak second third count : Nat}

theorem parses_expression (inner : Parses ternary peak tokens e tail) : Parses expression (peak + 1) tokens e tail := by
  intro c depth shows
  have within := shows.within
  rw [expression]
  refine ((Cursor.yields_descend shows).bind (depth + 1 + peak) ?_).needing _ (by omega)
  rintro ⟨below, _⟩ shown
  refine ((inner below _ shown).bind 0 ?_).needing _ (by omega)
  rintro ⟨_, next, _⟩ ⟨rfl, reached⟩
  exact Yields.of_ok _ ⟨rfl, Cursor.shows_ascend reached⟩

theorem parses_test (inner : Parses coalesce peak tokens e tail)
    (stops : ∀ token ∈ tail.head?, token ≠ .symbol .question) : Parses ternary peak tokens e tail := by
  intro c depth shows
  rw [ternary]
  refine ((inner c depth shows).bind 0 ?_).needing _ (by omega)
  rintro ⟨_, next, _⟩ ⟨rfl, reached⟩
  simp only [Cursor.eat_other reached stops]
  exact Yields.of_ok _ ⟨rfl, reached⟩

theorem parses_elvis
    (test : Parses coalesce peak tokens e (.symbol .question :: .symbol .colon :: (others ++ tail)))
    (otherwise : Parses expression second others operand tail) :
    Parses ternary (max peak second) (tokens ++ .symbol .question :: .symbol .colon :: others) (.elvis e operand) tail := by
  intro c depth shows
  rw [List.append_assoc] at shows
  rw [ternary]
  refine ((test c depth shows).bind (depth + second) ?_).needing _ (by omega)
  rintro ⟨_, afterTest, _⟩ ⟨rfl, reached⟩
  obtain ⟨branches, _, asked, shown⟩ := Cursor.eat_shown reached
  obtain ⟨afterColon, _, parted, shown⟩ := Cursor.eat_shown shown
  simp only [asked, parted]
  refine ((otherwise afterColon depth shown).bind 0 ?_).needing _ (by omega)
  rintro ⟨_, next, _⟩ ⟨rfl, reached⟩
  exact Yields.of_ok _ ⟨rfl, reached⟩

theorem parses_choice
    (test : Parses coalesce peak tokens e (.symbol .question :: (others ++ .symbol .colon :: (further ++ tail))))
    (positive : Parses expression second others operand (.symbol .colon :: (further ++ tail)))
    (negative : Parses expression third further last tail)
    (begins : ∀ token ∈ (others ++ .symbol .colon :: (further ++ tail)).head?, token ≠ .symbol .colon) :
    Parses ternary (max peak (max second third))
      (tokens ++ .symbol .question :: (others ++ .symbol .colon :: further)) (.choice e operand last) tail := by
  intro c depth shows
  rw [List.append_assoc, List.cons_append, List.append_assoc, List.cons_append] at shows
  rw [ternary]
  refine ((test c depth shows).bind (max (depth + second) (depth + third)) ?_).needing _ (by omega)
  rintro ⟨_, afterTest, _⟩ ⟨rfl, reached⟩
  obtain ⟨branches, _, asked, shown⟩ := Cursor.eat_shown reached
  simp only [asked, Cursor.eat_other shown begins]
  refine ((positive branches depth shown).bind (depth + third) ?_).needing _ (by omega)
  rintro ⟨_, afterPositive, _⟩ ⟨rfl, reached⟩
  refine ((Cursor.yields_expect reached).bind (depth + third) ?_).needing _ (by omega)
  rintro ⟨afterColon, _⟩ shown
  refine ((negative afterColon depth shown).bind 0 ?_).needing _ (by omega)
  rintro ⟨_, next, _⟩ ⟨rfl, reached⟩
  exact Yields.of_ok _ ⟨rfl, reached⟩

theorem parses_present (inner : Parses (chain Level.all) peak tokens e tail)
    (stops : ∀ token ∈ tail.head?, token ≠ .symbol .coalesce) : Parses coalesce peak tokens e tail := by
  intro c depth shows
  rw [coalesce]
  refine ((inner c depth shows).bind 0 ?_).needing _ (by omega)
  rintro ⟨_, next, _⟩ ⟨rfl, reached⟩
  simp only [Cursor.eat_other reached stops]
  exact Yields.of_ok _ ⟨rfl, reached⟩

theorem parses_coalesce (left : Parses (chain Level.all) peak tokens e (.symbol .coalesce :: (others ++ tail)))
    (right : Parses coalesce second others operand tail) :
    Parses coalesce (max peak (second + 1)) (tokens ++ .symbol .coalesce :: others) (.coalesce e operand) tail := by
  intro c depth shows
  rw [List.append_assoc] at shows
  rw [coalesce]
  refine ((left c depth shows).bind (depth + 1 + second) ?_).needing _ (by omega)
  rintro ⟨_, afterLeft, _⟩ ⟨rfl, reached⟩
  obtain ⟨afterMark, _, marked, shown⟩ := Cursor.eat_shown reached
  simp only [marked]
  refine ((Cursor.yields_descend shown).bind (depth + 1 + second) ?_).needing _ (by omega)
  rintro ⟨inner, _⟩ shown
  refine ((right inner _ shown).bind 0 ?_).needing _ (by omega)
  rintro ⟨_, next, _⟩ ⟨rfl, reached⟩
  exact Yields.of_ok _ ⟨rfl, Cursor.shows_ascend reached⟩

theorem chain_nil : chain [] = unary := by
  funext c
  rw [chain]

theorem leads_level (level : Level) (tighter : List Level) (first : Parses (chain tighter) peak tokens e tail) :
    Leads (chain (level :: tighter)) (links level tighter) peak 0 tokens e tail := by
  intro c depth shows needed result after more
  rw [chain]
  refine ((first c depth shows).bind needed ?_).needing _ (by omega)
  rintro ⟨_, afterFirst, _⟩ ⟨rfl, reached⟩
  refine ((more afterFirst reached).bind 0 ?_).needing _ (by omega)
  rintro ⟨_, next, _⟩ ⟨rfl, reached⟩
  exact Yields.of_ok _ ⟨rfl, reached⟩

theorem leads_link (level : Level) (tighter : List Level) (op : BinaryOp) (token : Token)
    (known : level.ofToken? token = some op)
    (left : Leads (chain (level :: tighter)) (links level tighter) peak count tokens e (token :: (others ++ tail)))
    (right : Parses (chain tighter) second others operand tail) :
    Leads (chain (level :: tighter)) (links level tighter) (max peak (count + 1 + second)) (count + 1)
      (tokens ++ token :: others) (.binary op e operand) tail := by
  intro c depth shows needed result after more
  rw [List.append_assoc] at shows
  refine (left c depth shows (max (depth + count + 1 + second) needed) result after ?_).needing _ (by omega)
  intro next shown
  obtain ⟨afterOp, _, passed, shown⟩ := Cursor.pass_shown _ op shown known
  rw [links, passed]
  refine ((Cursor.yields_descend shown).bind (max (depth + count + 1 + second) needed) ?_).needing _ (by omega)
  rintro ⟨inner, _⟩ shown
  refine ((right inner _ shown).bind needed ?_).needing _ (by omega)
  rintro ⟨_, afterRight, _⟩ ⟨rfl, reached⟩
  refine ((more afterRight reached).bind 0 ?_).needing _ (by omega)
  rintro ⟨_, last, _⟩ ⟨rfl, reached⟩
  exact Yields.of_ok _ ⟨rfl, reached⟩

theorem parses_links (level : Level) (tighter : List Level)
    (leads : Leads (chain (level :: tighter)) (links level tighter) peak count tokens e tail)
    (stops : ∀ token ∈ tail.head?, level.ofToken? token = none) :
    Parses (chain (level :: tighter)) peak tokens e tail := by
  intro c depth shows
  refine (leads c depth shows 0 e tail ?_).needing _ (by omega)
  intro next shown
  rw [links, Cursor.pass_other _ shown stops]
  exact Yields.of_ok _ ⟨rfl, Cursor.shows_ascend shown⟩

theorem parses_plain (inner : Parses access peak tokens e tail)
    (begins : ∀ token ∈ (tokens ++ tail).head?, unaryOp? token = none) : Parses unary peak tokens e tail := by
  intro c depth shows
  rw [unary, Cursor.pass_other _ shows begins]
  exact inner c depth shows

theorem parses_unary (op : UnaryOp) (token : Token) (known : unaryOp? token = some op)
    (inner : Parses unary peak tokens e tail) : Parses unary (peak + 1) (token :: tokens) (.unary op e) tail := by
  intro c depth shows
  obtain ⟨afterOp, _, passed, shown⟩ := Cursor.pass_shown _ op shows known
  have within := shown.within
  rw [unary, passed]
  refine ((Cursor.yields_descend shown).bind (depth + 1 + peak) ?_).needing _ (by omega)
  rintro ⟨below, _⟩ shown
  refine ((inner below _ shown).bind 0 ?_).needing _ (by omega)
  rintro ⟨_, next, _⟩ ⟨rfl, reached⟩
  exact Yields.of_ok _ ⟨rfl, Cursor.shows_ascend reached⟩

theorem leads_primary (first : Parses primary peak tokens e tail) : Leads access selections peak 0 tokens e tail := by
  intro c depth shows needed result after more
  rw [access]
  refine ((first c depth shows).bind needed ?_).needing _ (by omega)
  rintro ⟨_, afterFirst, _⟩ ⟨rfl, reached⟩
  refine ((more afterFirst reached).bind 0 ?_).needing _ (by omega)
  rintro ⟨_, next, _⟩ ⟨rfl, reached⟩
  exact Yields.of_ok _ ⟨rfl, reached⟩

theorem Cursor.yields_fieldName {c : Cursor} {depth : Nat} (token : Token) (field : String)
    (known : fieldOf? token = some field) (shows : c.Shows (token :: tail) depth) :
    Yields c.fieldName 0 (Reached field tail depth) := by
  obtain ⟨found, next, within, first, same, shown⟩ := next_shown shows
  simp only [fieldName, first, same]
  cases token with
  | word | int =>
      obtain rfl := Option.some.inj known
      exact Yields.of_ok _ ⟨rfl, shown⟩
  | _ => cases known

theorem leads_selection (mark name : Token) (field : String) (marks : isSelection mark = some ())
    (known : Cursor.fieldOf? name = some field)
    (target : Leads access selections peak count tokens e (mark :: name :: tail)) :
    Leads access selections (max peak (count + 1)) (count + 1) (tokens ++ [mark, name]) (.member e field) tail := by
  intro c depth shows needed result after more
  rw [List.append_assoc] at shows
  refine (target c depth shows (max (depth + count + 1) needed) result after ?_).needing _ (by omega)
  intro next shown
  obtain ⟨afterMark, _, passed, shown⟩ := Cursor.pass_shown isSelection () shown marks
  rw [selections, passed]
  refine ((Cursor.yields_descend shown).bind needed ?_).needing _ (by omega)
  rintro ⟨inner, _⟩ shown
  refine ((Cursor.yields_fieldName name field known shown).bind needed ?_).needing _ (by omega)
  rintro ⟨_, afterField, _⟩ ⟨rfl, reached⟩
  refine ((more afterField reached).bind 0 ?_).needing _ (by omega)
  rintro ⟨_, last, _⟩ ⟨rfl, reached⟩
  exact Yields.of_ok _ ⟨rfl, reached⟩

theorem leads_index
    (target : Leads access selections peak count tokens e (.symbol .openBracket :: (others ++ .symbol .closeBracket :: tail)))
    (key : Parses expression second others operand (.symbol .closeBracket :: tail)) :
    Leads access selections (max peak (count + 1 + second)) (count + 1)
      (tokens ++ .symbol .openBracket :: (others ++ [.symbol .closeBracket])) (.index e operand) tail := by
  intro c depth shows needed result after more
  rw [List.append_assoc, List.cons_append, List.append_assoc] at shows
  refine (target c depth shows (max (depth + count + 1 + second) needed) result after ?_).needing _ (by omega)
  intro next shown
  have other : next.pass isSelection = none := Cursor.pass_other _ shown fun token first => by
    obtain rfl := Option.some.inj first
    rfl
  obtain ⟨afterMark, _, eaten, shown⟩ := Cursor.eat_shown shown
  rw [selections, other]
  simp only [eaten]
  refine ((Cursor.yields_descend shown).bind (max (depth + count + 1 + second) needed) ?_).needing _ (by omega)
  rintro ⟨inner, _⟩ shown
  refine ((key inner _ shown).bind needed ?_).needing _ (by omega)
  rintro ⟨_, afterKey, _⟩ ⟨rfl, reached⟩
  refine ((Cursor.yields_expect reached).bind needed ?_).needing _ (by omega)
  rintro ⟨afterBracket, _⟩ shown
  refine ((more afterBracket shown).bind 0 ?_).needing _ (by omega)
  rintro ⟨_, last, _⟩ ⟨rfl, reached⟩
  exact Yields.of_ok _ ⟨rfl, reached⟩

theorem parses_selections (leads : Leads access selections peak count tokens e tail)
    (stops : ∀ token ∈ tail.head?, isSelection token = none ∧ token ≠ .symbol .openBracket) :
    Parses access peak tokens e tail := by
  intro c depth shows
  refine (leads c depth shows 0 e tail ?_).needing _ (by omega)
  intro next shown
  have unselected := Cursor.pass_other isSelection shown fun token first => (stops token first).1
  have unopened := Cursor.eat_other shown fun token first => (stops token first).2
  rw [selections, unselected]
  simp only [unopened]
  exact Yields.of_ok _ ⟨rfl, Cursor.shows_ascend shown⟩

theorem parses_integer (n : Nat) : Parses primary 0 [.int n] (.literal (Value.ofNat n)) tail := by
  intro c depth shows
  obtain ⟨found, next, within, first, same, shown⟩ := Cursor.next_shown shows
  rw [primary, first]
  simp only [same]
  exact yields_reached shown

theorem parses_double (x : Float) (n : Number) (finite : Number.ofFloat? x = some n) :
    Parses primary 0 [.float x] (.literal (.number n)) tail := by
  intro c depth shows
  obtain ⟨found, next, within, first, same, shown⟩ := Cursor.next_shown shows
  rw [primary, first]
  simp only [same, finite]
  exact yields_reached shown

theorem parses_text (content : String) : Parses primary 0 [.text content] (.literal (.string content)) tail := by
  intro c depth shows
  obtain ⟨found, next, within, first, same, shown⟩ := Cursor.next_shown shows
  rw [primary, first]
  simp only [same]
  exact yields_reached shown

theorem parses_variable (name : String) : Parses primary 0 [.variableName name] (.var name) tail := by
  intro c depth shows
  obtain ⟨found, next, within, first, same, shown⟩ := Cursor.next_shown shows
  rw [primary, first]
  simp only [same]
  exact yields_reached shown

theorem parses_constant (name : String) (made : ∀ offset, constant name offset = .ok e)
    (stops : ∀ token ∈ tail.head?, token ≠ .symbol .openParen) : Parses primary 0 [.word name] e tail := by
  intro c depth shows
  obtain ⟨found, next, within, first, same, shown⟩ := Cursor.next_shown shows
  rw [primary, first]
  simp only [same, Cursor.eat_other shown stops, made]
  exact yields_reached shown

theorem parses_group (inner : Parses expression peak tokens e (.symbol .closeParen :: tail)) :
    Parses primary peak (.symbol .openParen :: (tokens ++ [.symbol .closeParen])) e tail := by
  intro c depth shows
  rw [List.cons_append, List.append_assoc] at shows
  obtain ⟨found, after, within, first, same, shown⟩ := Cursor.next_shown shows
  rw [primary, first]
  simp only [same]
  refine ((inner after depth shown).bind 0 ?_).needing _ (by omega)
  rintro ⟨_, afterInner, _⟩ ⟨rfl, reached⟩
  refine ((Cursor.yields_expect reached).bind 0 ?_).needing _ (by omega)
  rintro ⟨next, _⟩ shown
  exact Yields.of_ok _ ⟨rfl, shown⟩

theorem parses_array (inner : Parses (Stencil.items .closeBracket .commaOrBracket) peak tokens items tail) :
    Parses primary peak (.symbol .openBracket :: tokens) (.array items) tail := by
  intro c depth shows
  obtain ⟨found, after, within, first, same, shown⟩ := Cursor.next_shown shows
  rw [primary, first]
  simp only [same]
  refine ((inner after depth shown).bind 0 ?_).needing _ (by omega)
  rintro ⟨_, next, _⟩ ⟨rfl, reached⟩
  exact Yields.of_ok _ ⟨rfl, reached⟩

theorem parses_call (name : String) (made : ∀ offset, callOf name offset items = .ok e)
    (inner : Parses (Stencil.items .closeParen .commaOrParen) peak tokens items tail) :
    Parses primary peak (.word name :: .symbol .openParen :: tokens) e tail := by
  intro c depth shows
  obtain ⟨found, after, within, first, same, shown⟩ := Cursor.next_shown shows
  obtain ⟨afterMark, _, opened, shown⟩ := Cursor.eat_shown shown
  rw [primary, first]
  simp only [same, opened]
  refine ((inner afterMark depth shown).bind 0 ?_).needing _ (by omega)
  rintro ⟨_, next, _⟩ ⟨rfl, reached⟩
  simp only [made]
  exact Yields.of_ok _ ⟨rfl, reached⟩

theorem parses_noItems (close : Symbol) (what : Expectation) :
    Parses (Stencil.items close what) 0 [.symbol close] [] tail := by
  intro c depth shows
  obtain ⟨next, _, eaten, shown⟩ := Cursor.eat_shown shows
  rw [Stencil.items, eaten]
  exact yields_reached shown

theorem parses_items (close : Symbol) (what : Expectation) (first : Parses expression peak tokens e (others ++ tail))
    (rest : Parses (moreItems close what) second others items tail)
    (begins : ∀ token ∈ (tokens ++ (others ++ tail)).head?, token ≠ .symbol close) :
    Parses (Stencil.items close what) (max peak second) (tokens ++ others) (e :: items) tail := by
  intro c depth shows
  rw [List.append_assoc] at shows
  rw [Stencil.items, Cursor.eat_other shows begins]
  refine ((first c depth shows).bind (depth + second) ?_).needing _ (by omega)
  rintro ⟨_, afterFirst, _⟩ ⟨rfl, reached⟩
  refine ((rest afterFirst depth reached).bind 0 ?_).needing _ (by omega)
  rintro ⟨_, next, _⟩ ⟨rfl, reached⟩
  exact Yields.of_ok _ ⟨rfl, reached⟩

theorem parses_noMoreItems (close : Symbol) (what : Expectation) :
    Parses (moreItems close what) 0 [.symbol close] [] tail := by
  intro c depth shows
  obtain ⟨next, _, eaten, shown⟩ := Cursor.eat_shown shows
  rw [moreItems, eaten]
  exact yields_reached shown

theorem parses_moreItems (close : Symbol) (what : Expectation) (differs : close ≠ .comma)
    (item : Parses expression peak tokens e (others ++ tail))
    (rest : Parses (moreItems close what) second others items tail) :
    Parses (moreItems close what) (max peak second) (.symbol .comma :: (tokens ++ others)) (e :: items) tail := by
  intro c depth shows
  rw [List.cons_append, List.append_assoc] at shows
  have unclosed : c.eat close = none := Cursor.eat_other shows fun token first => by
    obtain rfl := Option.some.inj first
    exact fun same => differs (Token.symbol.inj same).symm
  rw [moreItems, unclosed]
  refine ((Cursor.yields_expect shows).bind (max (depth + peak) (depth + second)) ?_).needing _ (by omega)
  rintro ⟨afterComma, _⟩ shown
  refine ((item afterComma depth shown).bind (depth + second) ?_).needing _ (by omega)
  rintro ⟨_, afterItem, _⟩ ⟨rfl, reached⟩
  refine ((rest afterItem depth reached).bind 0 ?_).needing _ (by omega)
  rintro ⟨_, next, _⟩ ⟨rfl, reached⟩
  exact Yields.of_ok _ ⟨rfl, reached⟩

end Stencil
