import Stencil.Expr.Header

set_option autoImplicit false

namespace Stencil

theorem bind_eq_ok {ε α β : Type} (first : Except ε α) (next : α → Except ε β) (b : β) :
    (first >>= next) = .ok b ↔ ∃ a, first = .ok a ∧ next a = .ok b := by
  cases first with
  | error e => simp [bind, Except.bind]
  | ok a => simp [bind, Except.bind]

theorem bind_eq_error {ε α β : Type} (first : Except ε α) (next : α → Except ε β) (e : ε) :
    (first >>= next) = .error e ↔ first = .error e ∨ ∃ a, first = .ok a ∧ next a = .error e := by
  cases first with
  | error e => simp [bind, Except.bind]
  | ok a => simp [bind, Except.bind]

theorem map_eq_error {ε α β : Type} (result : Except ε α) (change : α → β) (e : ε) :
    result.map change = .error e ↔ result = .error e := by
  cases result <;> simp [Except.map]

theorem mapError_eq_ok {ε ε' α : Type} (result : Except ε α) (change : ε → ε') (a : α) :
    result.mapError change = .ok a ↔ result = .ok a := by
  cases result with
  | error e => constructor <;> intro found <;> cases found
  | ok b => exact ⟨fun found => congrArg _ (Except.ok.inj found), fun found => congrArg _ (Except.ok.inj found)⟩

theorem parse_iff_whole (text : List Char) (e : Expr) : Expr.parse text = .ok e ↔
    ∃ (c : Cursor) (next : c.Later), cursor text = .ok c ∧ expression c = .ok (e, next) ∧ next.val.expectEnd = .ok () := by
  rw [Expr.parse, bind_eq_ok]
  constructor
  · rintro ⟨c, read, parsed⟩
    rw [Expr.single, bind_eq_ok] at parsed
    obtain ⟨⟨found, next⟩, inner, parsed⟩ := parsed
    obtain ⟨_, ended, parsed⟩ := (bind_eq_ok _ _ _).mp parsed
    obtain rfl := Except.ok.inj parsed
    exact ⟨c, next, read, inner, ended⟩
  · rintro ⟨c, next, read, inner, ended⟩
    refine ⟨c, read, ?_⟩
    rw [Expr.single, bind_eq_ok]
    exact ⟨_, inner, (bind_eq_ok _ _ _).mpr ⟨_, ended, rfl⟩⟩

theorem ok_of_toOption {ε α : Type} (answer : Except ε α) (a : α) (given : answer.toOption = some a) :
    answer = .ok a := by
  cases answer with
  | error e => cases given
  | ok b => exact congrArg _ (Option.some.inj given)

namespace Cursor

def Passes (c : Cursor) (token : Token) (next : Cursor) : Prop :=
  ∃ offset rest, c.rest = ⟨token, offset⟩ :: rest ∧ next = ⟨rest, offset, c.finish, c.depth⟩

def deeper (c : Cursor) : Cursor := { c with depth := c.depth + 1 }

theorem passes_of_next (c : Cursor) (found : Located) (next : c.Later) (step : c.next? = some (found, next)) :
    c.Passes found.token next.val := by
  obtain ⟨rest, last, finish, depth⟩ := c
  cases rest with
  | nil => simp [next?] at step
  | cons token rest =>
      simp only [next?, Option.some.injEq, Prod.mk.injEq] at step
      obtain ⟨rfl, rfl⟩ := step
      exact ⟨_, _, rfl, rfl⟩

theorem passes_of_pass {α : Type} (c : Cursor) (test : Token → Option α) (a : α) (next : c.Later)
    (step : c.pass test = some (a, next)) : ∃ token, c.Passes token next.val ∧ test token = some a := by
  rw [pass] at step
  split at step
  · rename_i found after here
    simp only [Option.map_eq_some_iff, Prod.mk.injEq] at step
    obtain ⟨_, holds, rfl, rfl⟩ := step
    exact ⟨found.token, passes_of_next c found after here, holds⟩
  · simp at step

theorem passes_of_eat (c : Cursor) (symbol : Symbol) (next : c.Later) (step : c.eat symbol = some next) :
    c.Passes (.symbol symbol) next.val := by
  rw [eat, Option.map_eq_some_iff] at step
  obtain ⟨⟨_, after⟩, here, rfl⟩ := step
  obtain ⟨token, passes, holds⟩ := passes_of_pass c _ _ after here
  split at holds
  · split at holds
    · rename_i same
      exact same ▸ passes
    · simp at holds
  · simp at holds

theorem passes_of_expect (c : Cursor) (symbol : Symbol) (what : Expectation) (next : c.Later)
    (step : c.expect symbol what = .ok next) : c.Passes (.symbol symbol) next.val := by
  rw [expect] at step
  split at step
  · rename_i after here
    obtain rfl := Except.ok.inj step
    exact passes_of_eat c symbol after here
  · simp at step

theorem deeper_of_descend (c : Cursor) (inner : c.Here) (step : c.descend = .ok inner) :
    c.depth < greatestNesting ∧ inner.val = c.deeper := by
  rw [descend] at step
  split at step
  · simp at step
  · rename_i shallow
    obtain rfl := Except.ok.inj step
    exact ⟨by omega, rfl⟩

def fieldOf? : Token → Option String
  | .word name => some name
  | .int n => some (toString n)
  | _ => none

theorem passes_of_fieldName (c : Cursor) (field : String) (next : c.Later)
    (step : c.fieldName = .ok (field, next)) : ∃ token, c.Passes token next.val ∧ fieldOf? token = some field := by
  rw [fieldName] at step
  split at step
  · simp at step
  · rename_i found after here
    have passes := passes_of_next c found after here
    split at step
    · rename_i name same
      simp only [Except.ok.injEq, Prod.mk.injEq] at step
      obtain ⟨rfl, rfl⟩ := step
      exact ⟨found.token, passes, by rw [same, fieldOf?]⟩
    · rename_i n same
      simp only [Except.ok.injEq, Prod.mk.injEq] at step
      obtain ⟨rfl, rfl⟩ := step
      exact ⟨found.token, passes, by rw [same, fieldOf?]⟩
    · simp at step

end Cursor

inductive Phrase where
  | expression
  | ternary
  | coalesce
  | chain (levels : List Level)
  | links (level : Level) (tighter : List Level) (count : Nat) (left : Expr)
  | unary
  | access
  | selections (count : Nat) (target : Expr)
  | primary
  | items (close : Symbol)
  | moreItems (close : Symbol)

inductive Derives : Phrase → Cursor → List Expr → Cursor → Prop where
  | expression {c next : Cursor} {e : Expr} (room : c.depth < greatestNesting)
      (inner : Derives .ternary c.deeper [e] next) : Derives .expression c [e] (next.ascend 1)
  | test {c next : Cursor} {e : Expr} (test : Derives .coalesce c [e] next) : Derives .ternary c [e] next
  | elvis {c afterTest afterMark afterColon next : Cursor} {test otherwise : Expr}
      (first : Derives .coalesce c [test] afterTest)
      (mark : afterTest.Passes (.symbol .question) afterMark)
      (colon : afterMark.Passes (.symbol .colon) afterColon)
      (second : Derives .expression afterColon [otherwise] next) :
      Derives .ternary c [.elvis test otherwise] next
  | choice {c afterTest afterMark afterPositive afterColon next : Cursor} {test positive negative : Expr}
      (first : Derives .coalesce c [test] afterTest)
      (mark : afterTest.Passes (.symbol .question) afterMark)
      (second : Derives .expression afterMark [positive] afterPositive)
      (colon : afterPositive.Passes (.symbol .colon) afterColon)
      (third : Derives .expression afterColon [negative] next) :
      Derives .ternary c [.choice test positive negative] next
  | present {c next : Cursor} {e : Expr} (inner : Derives (.chain Level.all) c [e] next) :
      Derives .coalesce c [e] next
  | coalesce {c afterLeft afterMark next : Cursor} {left right : Expr}
      (first : Derives (.chain Level.all) c [left] afterLeft)
      (mark : afterLeft.Passes (.symbol .coalesce) afterMark) (room : afterMark.depth < greatestNesting)
      (second : Derives .coalesce afterMark.deeper [right] next) :
      Derives .coalesce c [.coalesce left right] (next.ascend 1)
  | operand {c next : Cursor} {e : Expr} (inner : Derives .unary c [e] next) :
      Derives (.chain []) c [e] next
  | level {c afterFirst next : Cursor} {level : Level} {tighter : List Level} {first e : Expr}
      (start : Derives (.chain tighter) c [first] afterFirst)
      (more : Derives (.links level tighter 0 first) afterFirst [e] next) :
      Derives (.chain (level :: tighter)) c [e] next
  | unlinked {c : Cursor} {level : Level} {tighter : List Level} {count : Nat} {left : Expr} :
      Derives (.links level tighter count left) c [left] (c.ascend count)
  | link {c afterOp afterRight next : Cursor} {level : Level} {tighter : List Level} {count : Nat}
      {token : Token} {op : BinaryOp} {left right e : Expr} (mark : c.Passes token afterOp)
      (known : level.ofToken? token = some op) (room : afterOp.depth < greatestNesting)
      (operand : Derives (.chain tighter) afterOp.deeper [right] afterRight)
      (more : Derives (.links level tighter (count + 1) (.binary op left right)) afterRight [e] next) :
      Derives (.links level tighter count left) c [e] next
  | plain {c next : Cursor} {e : Expr} (inner : Derives .access c [e] next) : Derives .unary c [e] next
  | unary {c afterOp next : Cursor} {token : Token} {op : UnaryOp} {operand : Expr}
      (mark : c.Passes token afterOp) (known : unaryOp? token = some op)
      (room : afterOp.depth < greatestNesting) (inner : Derives .unary afterOp.deeper [operand] next) :
      Derives .unary c [.unary op operand] (next.ascend 1)
  | access {c afterTarget next : Cursor} {target e : Expr} (start : Derives .primary c [target] afterTarget)
      (more : Derives (.selections 0 target) afterTarget [e] next) : Derives .access c [e] next
  | unselected {c : Cursor} {count : Nat} {target : Expr} :
      Derives (.selections count target) c [target] (c.ascend count)
  | member {c afterMark afterField next : Cursor} {count : Nat} {token name : Token} {field : String}
      {target e : Expr} (mark : c.Passes token afterMark) (known : isSelection token = some ())
      (room : afterMark.depth < greatestNesting) (named : afterMark.deeper.Passes name afterField)
      (same : Cursor.fieldOf? name = some field)
      (more : Derives (.selections (count + 1) (.member target field)) afterField [e] next) :
      Derives (.selections count target) c [e] next
  | index {c afterMark afterKey afterBracket next : Cursor} {count : Nat} {target key e : Expr}
      (mark : c.Passes (.symbol .openBracket) afterMark) (room : afterMark.depth < greatestNesting)
      (inner : Derives .expression afterMark.deeper [key] afterKey)
      (closed : afterKey.Passes (.symbol .closeBracket) afterBracket)
      (more : Derives (.selections (count + 1) (.index target key)) afterBracket [e] next) :
      Derives (.selections count target) c [e] next
  | integer {c next : Cursor} {n : Nat} (mark : c.Passes (.int n) next) :
      Derives .primary c [.literal (Value.ofNat n)] next
  | double {c next : Cursor} {x : Float} {n : Number} (mark : c.Passes (.float x) next)
      (finite : Number.ofFloat? x = some n) : Derives .primary c [.literal (.number n)] next
  | text {c next : Cursor} {s : String} (mark : c.Passes (.text s) next) :
      Derives .primary c [.literal (.string s)] next
  | var {c next : Cursor} {name : String} (mark : c.Passes (.variableName name) next) :
      Derives .primary c [.var name] next
  | group {c afterMark afterInner next : Cursor} {e : Expr}
      (mark : c.Passes (.symbol .openParen) afterMark) (inner : Derives .expression afterMark [e] afterInner)
      (closed : afterInner.Passes (.symbol .closeParen) next) : Derives .primary c [e] next
  | array {c afterMark next : Cursor} {members : List Expr}
      (mark : c.Passes (.symbol .openBracket) afterMark)
      (inner : Derives (.items .closeBracket) afterMark members next) :
      Derives .primary c [.array members] next
  | call {c afterName afterMark next : Cursor} {name : String} {offset : Nat} {args : List Expr} {e : Expr}
      (named : c.Passes (.word name) afterName) (mark : afterName.Passes (.symbol .openParen) afterMark)
      (inner : Derives (.items .closeParen) afterMark args next) (made : callOf name offset args = .ok e) :
      Derives .primary c [e] next
  | constant {c next : Cursor} {name : String} {offset : Nat} {e : Expr}
      (named : c.Passes (.word name) next) (made : constant name offset = .ok e) : Derives .primary c [e] next
  | noItems {c next : Cursor} {close : Symbol} (closed : c.Passes (.symbol close) next) :
      Derives (.items close) c [] next
  | items {c afterFirst next : Cursor} {close : Symbol} {first : Expr} {rest : List Expr}
      (start : Derives .expression c [first] afterFirst)
      (more : Derives (.moreItems close) afterFirst rest next) : Derives (.items close) c (first :: rest) next
  | noMoreItems {c next : Cursor} {close : Symbol} (closed : c.Passes (.symbol close) next) :
      Derives (.moreItems close) c [] next
  | moreItems {c afterComma afterItem next : Cursor} {close : Symbol} {item : Expr} {rest : List Expr}
      (comma : c.Passes (.symbol .comma) afterComma) (start : Derives .expression afterComma [item] afterItem)
      (more : Derives (.moreItems close) afterItem rest next) :
      Derives (.moreItems close) c (item :: rest) next

mutual
theorem derives_expression (c : Cursor) (e : Expr) (next : c.Later) (parsed : expression c = .ok (e, next)) :
    Derives .expression c [e] next.val := by
  rw [expression] at parsed
  obtain ⟨⟨inner, here⟩, down, parsed⟩ := (bind_eq_ok _ _ _).mp parsed
  obtain ⟨⟨found, after⟩, first, parsed⟩ := (bind_eq_ok _ _ _).mp parsed
  obtain ⟨rfl, rfl⟩ := Prod.mk.inj (Except.ok.inj parsed)
  obtain ⟨room, rfl⟩ := c.deeper_of_descend _ down
  exact .expression room (derives_ternary _ found after first)
termination_by 16 * c.left + 13
decreasing_by omega

theorem derives_ternary (c : Cursor) (e : Expr) (next : c.Later) (parsed : ternary c = .ok (e, next)) :
    Derives .ternary c [e] next.val := by
  rw [ternary] at parsed
  obtain ⟨⟨test, afterTest, _⟩, first, parsed⟩ := (bind_eq_ok _ _ _).mp parsed
  have tested := derives_coalesce c test _ first
  dsimp only at parsed
  split at parsed
  · obtain ⟨rfl, rfl⟩ := Prod.mk.inj (Except.ok.inj parsed)
    exact .test tested
  · rename_i branches _ mark
    have mark := afterTest.passes_of_eat _ _ mark
    split at parsed
    · rename_i afterColon _ colon
      have colon := branches.passes_of_eat _ _ colon
      obtain ⟨⟨otherwise, last, _⟩, second, parsed⟩ := (bind_eq_ok _ _ _).mp parsed
      obtain ⟨rfl, rfl⟩ := Prod.mk.inj (Except.ok.inj parsed)
      exact .elvis tested mark colon (derives_expression afterColon otherwise _ second)
    · obtain ⟨⟨positive, afterPositive, _⟩, second, parsed⟩ := (bind_eq_ok _ _ _).mp parsed
      dsimp only at parsed
      obtain ⟨⟨afterColon, _⟩, colon, parsed⟩ := (bind_eq_ok _ _ _).mp parsed
      obtain ⟨⟨negative, last, _⟩, third, parsed⟩ := (bind_eq_ok _ _ _).mp parsed
      obtain ⟨rfl, rfl⟩ := Prod.mk.inj (Except.ok.inj parsed)
      have colon := afterPositive.passes_of_expect _ _ _ colon
      exact .choice tested mark (derives_expression branches positive _ second) colon
        (derives_expression afterColon negative _ third)
termination_by 16 * c.left + 12
decreasing_by all_goals omega

theorem derives_coalesce (c : Cursor) (e : Expr) (next : c.Later) (parsed : coalesce c = .ok (e, next)) :
    Derives .coalesce c [e] next.val := by
  rw [coalesce] at parsed
  obtain ⟨⟨left, afterLeft, _⟩, first, parsed⟩ := (bind_eq_ok _ _ _).mp parsed
  have start := derives_chain Level.all c left _ first
  dsimp only at parsed
  split at parsed
  · obtain ⟨rfl, rfl⟩ := Prod.mk.inj (Except.ok.inj parsed)
    exact .present start
  · rename_i afterMark _ mark
    have mark := afterLeft.passes_of_eat _ _ mark
    obtain ⟨⟨inner, _⟩, down, parsed⟩ := (bind_eq_ok _ _ _).mp parsed
    obtain ⟨⟨right, last, _⟩, second, parsed⟩ := (bind_eq_ok _ _ _).mp parsed
    obtain ⟨rfl, rfl⟩ := Prod.mk.inj (Except.ok.inj parsed)
    obtain ⟨room, rfl⟩ := afterMark.deeper_of_descend _ down
    exact .coalesce start mark room (derives_coalesce _ right _ second)
termination_by 16 * c.left + 11
decreasing_by
  · simp [Level.all]
  · omega

theorem derives_chain (levels : List Level) (c : Cursor) (e : Expr) (next : c.Later)
    (parsed : chain levels c = .ok (e, next)) : Derives (.chain levels) c [e] next.val := by
  match levels, parsed with
  | [], parsed =>
      rw [chain] at parsed
      exact .operand (derives_unary c e next parsed)
  | level :: tighter, parsed =>
      rw [chain] at parsed
      obtain ⟨⟨first, afterFirst, _⟩, start, parsed⟩ := (bind_eq_ok _ _ _).mp parsed
      obtain ⟨⟨last, after, _⟩, more, parsed⟩ := (bind_eq_ok _ _ _).mp parsed
      obtain ⟨rfl, rfl⟩ := Prod.mk.inj (Except.ok.inj parsed)
      exact .level (derives_chain tighter c first _ start)
        (derives_links level tighter 0 first afterFirst last _ more)
termination_by 16 * c.left + 3 + levels.length
decreasing_by all_goals simp only [List.length_cons, List.length_nil]; omega

theorem derives_links (level : Level) (tighter : List Level) (count : Nat) (left : Expr) (c : Cursor)
    (e : Expr) (next : c.NotEarlier) (parsed : links level tighter count left c = .ok (e, next)) :
    Derives (.links level tighter count left) c [e] next.val := by
  rw [links] at parsed
  split at parsed
  · obtain ⟨rfl, rfl⟩ := Prod.mk.inj (Except.ok.inj parsed)
    exact .unlinked
  · rename_i op afterOp _ mark
    obtain ⟨token, mark, known⟩ := c.passes_of_pass _ _ _ mark
    obtain ⟨⟨inner, _⟩, down, parsed⟩ := (bind_eq_ok _ _ _).mp parsed
    obtain ⟨⟨right, afterRight, _⟩, operand, parsed⟩ := (bind_eq_ok _ _ _).mp parsed
    obtain ⟨⟨last, after, _⟩, more, parsed⟩ := (bind_eq_ok _ _ _).mp parsed
    obtain ⟨rfl, rfl⟩ := Prod.mk.inj (Except.ok.inj parsed)
    obtain ⟨room, rfl⟩ := afterOp.deeper_of_descend _ down
    exact .link mark known room (derives_chain tighter _ right _ operand)
      (derives_links level tighter (count + 1) _ afterRight last _ more)
termination_by 16 * c.left + 3 + tighter.length
decreasing_by all_goals omega

theorem derives_unary (c : Cursor) (e : Expr) (next : c.Later) (parsed : unary c = .ok (e, next)) :
    Derives .unary c [e] next.val := by
  rw [unary] at parsed
  split at parsed
  · exact .plain (derives_access c e next parsed)
  · rename_i op afterOp _ mark
    obtain ⟨token, mark, known⟩ := c.passes_of_pass _ _ _ mark
    obtain ⟨⟨inner, _⟩, down, parsed⟩ := (bind_eq_ok _ _ _).mp parsed
    obtain ⟨⟨operand, last, _⟩, first, parsed⟩ := (bind_eq_ok _ _ _).mp parsed
    obtain ⟨rfl, rfl⟩ := Prod.mk.inj (Except.ok.inj parsed)
    obtain ⟨room, rfl⟩ := afterOp.deeper_of_descend _ down
    exact .unary mark known room (derives_unary _ operand _ first)
termination_by 16 * c.left + 2
decreasing_by all_goals omega

theorem derives_access (c : Cursor) (e : Expr) (next : c.Later) (parsed : access c = .ok (e, next)) :
    Derives .access c [e] next.val := by
  rw [access] at parsed
  obtain ⟨⟨target, afterTarget, _⟩, start, parsed⟩ := (bind_eq_ok _ _ _).mp parsed
  obtain ⟨⟨last, after, _⟩, more, parsed⟩ := (bind_eq_ok _ _ _).mp parsed
  obtain ⟨rfl, rfl⟩ := Prod.mk.inj (Except.ok.inj parsed)
  exact .access (derives_primary c target _ start) (derives_selections 0 target afterTarget last _ more)
termination_by 16 * c.left + 1
decreasing_by all_goals omega

theorem derives_selections (count : Nat) (target : Expr) (c : Cursor) (e : Expr) (next : c.NotEarlier)
    (parsed : selections count target c = .ok (e, next)) :
    Derives (.selections count target) c [e] next.val := by
  rw [selections] at parsed
  split at parsed
  · rename_i afterMark _ mark
    obtain ⟨token, mark, known⟩ := c.passes_of_pass _ _ _ mark
    obtain ⟨⟨inner, _⟩, down, parsed⟩ := (bind_eq_ok _ _ _).mp parsed
    obtain ⟨⟨field, afterField, _⟩, named, parsed⟩ := (bind_eq_ok _ _ _).mp parsed
    obtain ⟨⟨last, after, _⟩, more, parsed⟩ := (bind_eq_ok _ _ _).mp parsed
    obtain ⟨rfl, rfl⟩ := Prod.mk.inj (Except.ok.inj parsed)
    obtain ⟨room, rfl⟩ := afterMark.deeper_of_descend _ down
    obtain ⟨name, named, same⟩ := Cursor.passes_of_fieldName _ _ _ named
    exact .member mark known room named same
      (derives_selections (count + 1) (.member target field) afterField last _ more)
  · split at parsed
    · rename_i afterMark _ mark
      have mark := c.passes_of_eat _ _ mark
      obtain ⟨⟨inner, _⟩, down, parsed⟩ := (bind_eq_ok _ _ _).mp parsed
      obtain ⟨⟨key, afterKey, _⟩, first, parsed⟩ := (bind_eq_ok _ _ _).mp parsed
      obtain ⟨⟨afterBracket, _⟩, closed, parsed⟩ := (bind_eq_ok _ _ _).mp parsed
      obtain ⟨⟨last, after, _⟩, more, parsed⟩ := (bind_eq_ok _ _ _).mp parsed
      obtain ⟨rfl, rfl⟩ := Prod.mk.inj (Except.ok.inj parsed)
      obtain ⟨room, rfl⟩ := afterMark.deeper_of_descend _ down
      exact .index mark room (derives_expression _ key _ first) (afterKey.passes_of_expect _ _ _ closed)
        (derives_selections (count + 1) (.index target key) afterBracket last _ more)
    · obtain ⟨rfl, rfl⟩ := Prod.mk.inj (Except.ok.inj parsed)
      exact .unselected
termination_by 16 * c.left
decreasing_by all_goals omega

theorem derives_primary (c : Cursor) (e : Expr) (next : c.Later) (parsed : primary c = .ok (e, next)) :
    Derives .primary c [e] next.val := by
  rw [primary] at parsed
  split at parsed
  · simp at parsed
  · rename_i found after _ mark
    have mark := c.passes_of_next _ _ mark
    dsimp only at mark parsed
    split at parsed
    · rename_i n same
      rw [same] at mark
      obtain ⟨rfl, rfl⟩ := Prod.mk.inj (Except.ok.inj parsed)
      exact .integer mark
    · rename_i x same
      rw [same] at mark
      split at parsed
      · rename_i n finite
        obtain ⟨rfl, rfl⟩ := Prod.mk.inj (Except.ok.inj parsed)
        exact .double mark finite
      · simp at parsed
    · rename_i s same
      rw [same] at mark
      obtain ⟨rfl, rfl⟩ := Prod.mk.inj (Except.ok.inj parsed)
      exact .text mark
    · rename_i name same
      rw [same] at mark
      obtain ⟨rfl, rfl⟩ := Prod.mk.inj (Except.ok.inj parsed)
      exact .var mark
    · rename_i same
      rw [same] at mark
      obtain ⟨⟨inner, afterInner, _⟩, first, parsed⟩ := (bind_eq_ok _ _ _).mp parsed
      obtain ⟨⟨last, _⟩, closed, parsed⟩ := (bind_eq_ok _ _ _).mp parsed
      obtain ⟨rfl, rfl⟩ := Prod.mk.inj (Except.ok.inj parsed)
      exact .group mark (derives_expression after inner _ first) (afterInner.passes_of_expect _ _ _ closed)
    · rename_i same
      rw [same] at mark
      obtain ⟨⟨members, last, _⟩, first, parsed⟩ := (bind_eq_ok _ _ _).mp parsed
      obtain ⟨rfl, rfl⟩ := Prod.mk.inj (Except.ok.inj parsed)
      exact .array mark (derives_items .closeBracket .commaOrBracket after members _ first)
    · rename_i name same
      rw [same] at mark
      split at parsed
      · rename_i inner _ opened
        have opened := after.passes_of_eat _ _ opened
        obtain ⟨⟨args, last, _⟩, first, parsed⟩ := (bind_eq_ok _ _ _).mp parsed
        obtain ⟨called, made, parsed⟩ := (bind_eq_ok _ _ _).mp parsed
        obtain ⟨rfl, rfl⟩ := Prod.mk.inj (Except.ok.inj parsed)
        exact .call mark opened (derives_items .closeParen .commaOrParen inner args _ first) made
      · obtain ⟨value, made, parsed⟩ := (bind_eq_ok _ _ _).mp parsed
        obtain ⟨rfl, rfl⟩ := Prod.mk.inj (Except.ok.inj parsed)
        exact .constant mark made
    · simp at parsed
termination_by 16 * c.left
decreasing_by all_goals omega

theorem derives_items (close : Symbol) (what : Expectation) (c : Cursor) (list : List Expr) (next : c.Later)
    (parsed : items close what c = .ok (list, next)) : Derives (.items close) c list next.val := by
  rw [items] at parsed
  split at parsed
  · rename_i last closed
    obtain ⟨rfl, rfl⟩ := Prod.mk.inj (Except.ok.inj parsed)
    exact .noItems (c.passes_of_eat _ _ closed)
  · obtain ⟨⟨first, afterFirst, _⟩, start, parsed⟩ := (bind_eq_ok _ _ _).mp parsed
    obtain ⟨⟨rest, last, _⟩, more, parsed⟩ := (bind_eq_ok _ _ _).mp parsed
    obtain ⟨rfl, rfl⟩ := Prod.mk.inj (Except.ok.inj parsed)
    exact .items (derives_expression c first _ start) (derives_moreItems close what afterFirst rest _ more)
termination_by 16 * c.left + 14
decreasing_by all_goals omega

theorem derives_moreItems (close : Symbol) (what : Expectation) (c : Cursor) (list : List Expr)
    (next : c.Later) (parsed : moreItems close what c = .ok (list, next)) :
    Derives (.moreItems close) c list next.val := by
  rw [moreItems] at parsed
  split at parsed
  · rename_i last closed
    obtain ⟨rfl, rfl⟩ := Prod.mk.inj (Except.ok.inj parsed)
    exact .noMoreItems (c.passes_of_eat _ _ closed)
  · obtain ⟨⟨afterComma, _⟩, comma, parsed⟩ := (bind_eq_ok _ _ _).mp parsed
    obtain ⟨⟨item, afterItem, _⟩, start, parsed⟩ := (bind_eq_ok _ _ _).mp parsed
    obtain ⟨⟨rest, last, _⟩, more, parsed⟩ := (bind_eq_ok _ _ _).mp parsed
    obtain ⟨rfl, rfl⟩ := Prod.mk.inj (Except.ok.inj parsed)
    exact .moreItems (c.passes_of_expect _ _ _ comma) (derives_expression afterComma item _ start)
      (derives_moreItems close what afterItem rest _ more)
termination_by 16 * c.left
decreasing_by all_goals omega
end

end Stencil
