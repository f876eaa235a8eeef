import Stencil.Proofs.Expr.Bookkeeping

set_option autoImplicit false

namespace Stencil

def Cursor.before (tokens : List Located) (finish position depth : Nat) : Cursor :=
  ⟨tokens.drop position, lastOf finish (tokens.take position), finish, depth⟩

def Level.andTighter (level : Level) : List Level := Level.all.dropWhile (· != level)

namespace Counted

inductive Part where
  | expression | ternary | coalesce | operators (level : Level) | unary | access | primary

namespace Part

def parse : Part → (c : Cursor) → Parsed Expr c
  | expression => Stencil.expression
  | ternary => Stencil.ternary
  | coalesce => Stencil.coalesce
  | operators level => Stencil.chain level.andTighter
  | unary => Stencil.unary
  | access => Stencil.access
  | primary => Stencil.primary

def steps (entries : List Entry) : Part → Nat → Run Expr
  | expression => Counted.expression entries
  | ternary => Counted.ternary entries
  | coalesce => Counted.coalesce entries
  | operators level => Counted.chain entries level.andTighter
  | unary => Counted.unary entries
  | access => Counted.access entries
  | primary => Counted.primary entries

def run (entries : List Entry) (part : Part) : Run Expr := part.steps entries (16 * entries.length)

end Part

-- How a part ends that began before this token and at this depth: as the parser does, which it is compared with.
inductive Ends (tokens : List Located) (finish position depth : Nat) :
    Except ParseError (Expr × Cursor) → EStateM.Result Halt Counters Expr → Prop
  | read (e : Expr) (s : Counters) (restored : s.depth = depth) (consumed : position < s.position)
      (inside : s.position < (entriesOf tokens finish).length) (peak : s.peak ≤ greatestNesting) :
      Ends tokens finish position depth (.ok (e, .before tokens finish s.position depth)) (.ok e s)
  | refused (error : ParseError) (s : Counters) (inside : s.position < (entriesOf tokens finish).length)
      (peak : s.peak ≤ greatestNesting + 1) :
      Ends tokens finish position depth (.error error) (.error (.refused error) s)

inductive MemberAt (close : Symbol) (c : Cursor) : Cursor → Prop
  | first (more : c.eat close = none) : MemberAt close c c
  | behind {member after next : Cursor} {e : Expr} {onward : after.left < member.left} {later : next.left < after.left}
      (earlier : MemberAt close c member) (read : Stencil.expression member = .ok (e, ⟨after, onward⟩))
      (more : after.eat close = none) (mark : after.eat .comma = some ⟨next, later⟩) : MemberAt close c next

-- A list is what is read at its members, or is refused at one of them, or a comma is missing.
def ReadAtMembers (close : Symbol) (what : Expectation) (c : Cursor) : Except ParseError (List Expr) → Prop
  | .ok members => ∀ e ∈ members, ∃ place next, MemberAt close c place ∧ Stencil.expression place = .ok (e, next)
  | .error error =>
      (∃ place, MemberAt close c place ∧ Stencil.expression place = .error error) ∨ error.fault = .expected what

variable {tokens : List Located} {finish top : Nat}

theorem length_entriesOf (tokens : List Located) (finish : Nat) :
    (entriesOf tokens finish).length = tokens.length + 1 := by
  rw [entriesOf, List.length_append, List.length_map, List.length_singleton]

theorem shows_before (position depth : Nat) (inside : position ≤ tokens.length) (capped : depth ≤ greatestNesting) :
    Shows tokens finish depth ⟨position, depth, depth⟩ (.before tokens finish position depth) := by
  refine ⟨⟨⟨⟨tokens.take position, (List.take_append_drop position tokens).symm, rfl⟩, rfl⟩, ?_⟩, rfl, capped, ?_⟩
  · change position + (tokens.drop position).length = tokens.length
    rw [List.length_drop]
    omega
  · exact Nat.le_max_left depth greatestNesting

theorem before_of_shows {s : Counters} {c : Cursor} (shows : Shows tokens finish top s c) :
    c = .before tokens finish s.position c.depth := by
  obtain ⟨⟨⟨⟨passed, whole, last⟩, ended⟩, position⟩, -, -, -⟩ := shows
  have here : s.position = passed.length := by
    rw [whole, List.length_append, Cursor.left] at position
    omega
  rw [Cursor.before, whole, here, List.drop_left, List.take_left, ← last, ← ended]

theorem matches_part (part : Part) {c : Cursor} {s : Counters} (shows : Shows tokens finish top s c) :
    Matches tokens top (Reads tokens finish top c.depth) (part.parse c) (part.run (entriesOf tokens finish) s) := by
  have position := shows.position
  have enough : 16 * c.left + 13 < 16 * (entriesOf tokens finish).length := by
    rw [length_entriesOf]
    omega
  cases part with
  | expression => exact matches_expression _ c s shows enough
  | ternary => exact matches_ternary _ c s shows (by omega)
  | coalesce => exact matches_coalesce _ c s shows (by omega)
  | operators level =>
      have few : level.andTighter.length ≤ 6 := by cases level <;> decide
      exact matches_chain _ _ c s shows (by omega)
  | unary => exact matches_unary _ c s shows (by omega)
  | access => exact matches_access _ c s shows (by omega)
  | primary => exact matches_primary _ c s shows (by omega)

theorem ends_part (part : Part) {position depth : Nat} (inside : position < (entriesOf tokens finish).length)
    (capped : depth ≤ greatestNesting) :
    Ends tokens finish position depth
      ((part.parse (.before tokens finish position depth)).map fun found => (found.1, found.2.val))
      (part.run (entriesOf tokens finish) ⟨position, depth, depth⟩) := by
  rw [length_entriesOf] at inside
  have start : Shows tokens finish depth ⟨position, depth, depth⟩ (.before tokens finish position depth) :=
    shows_before position depth (Nat.le_of_lt_succ inside) capped
  have ended := matches_part part start
  generalize part.run (entriesOf tokens finish) ⟨position, depth, depth⟩ = ran at ended
  cases parsed : part.parse (.before tokens finish position depth) with
  | ok found =>
      obtain ⟨e, ⟨next, later⟩⟩ := found
      rw [parsed] at ended
      cases ran with
      | error => exact ended.elim
      | ok a s =>
          obtain ⟨same, shows, level⟩ := ended
          obtain rfl : a = e := same
          replace level : next.depth = depth := level
          have before : position + _ = tokens.length := start.position
          have after : s.position + next.left = tokens.length := shows.position
          have peak := shows.peak
          have place : next = .before tokens finish s.position depth := level ▸ before_of_shows shows
          rw [max_eq_right capped] at peak
          change Ends tokens finish position depth (.ok (a, next)) (.ok a s)
          rw [place]
          refine .read a s (shows.depth.trans level) ?_ ?_ peak
          · omega
          · rw [length_entriesOf]
            omega
  | error error =>
      rw [parsed] at ended
      cases ran with
      | ok => exact ended.elim
      | error halt s =>
          cases halt with
          | refused error' =>
              obtain ⟨rfl, position, peak⟩ := ended
              refine .refused error' s ?_ ?_
              · rw [length_entriesOf]
                omega
              · omega
          | outOfRange => exact ended.elim
          | underflow => exact ended.elim
          | unfinished => exact ended.elim

theorem members_at_depth {close : Symbol} {position depth : Nat} {place : Cursor}
    (inside : position < (entriesOf tokens finish).length) (capped : depth ≤ greatestNesting)
    (member : MemberAt close (.before tokens finish position depth) place) :
    ∃ s, Shows tokens finish depth s place ∧ place.depth = depth := by
  induction member with
  | first =>
      rw [length_entriesOf] at inside
      exact ⟨_, shows_before position depth (Nat.le_of_lt_succ inside) capped, rfl⟩
  | @behind member after next e onward later earlier read more mark ih =>
      obtain ⟨s, shows, level⟩ := ih
      have ended := matches_part .expression shows
      change Matches _ _ _ (Stencil.expression member) _ at ended
      rw [read] at ended
      cases ran : Part.expression.run (entriesOf tokens finish) s with
      | error => 
          rw [ran] at ended
          exact ended.elim
      | ok a s₁ =>
          rw [ran] at ended
          obtain ⟨-, shows₁, level₁⟩ := ended
          obtain ⟨s₂, -, shows₂, level₂⟩ := eat_some shows₁ _ mark
          exact ⟨s₂, shows₂, level₂.trans (level₁.trans level)⟩

theorem expect_error {c : Cursor} {symbol : Symbol} {what : Expectation} {error : ParseError}
    (failed : c.expect symbol what = .error error) : error.fault = .expected what := by
  rw [Cursor.expect] at failed
  split at failed
  · cases failed
  · obtain rfl := Except.error.inj failed
    rfl

theorem eat_of_expect {c : Cursor} {symbol : Symbol} {what : Expectation} {next : c.Later}
    (step : c.expect symbol what = .ok next) : c.eat symbol = some next := by
  rw [Cursor.expect] at step
  split at step
  · rename_i mark
    rw [mark, Except.ok.inj step]
  · cases step

section Members

variable {close : Symbol} {what : Expectation} {c : Cursor}

theorem ReadAtMembers.cons {place : Cursor} {P : Cursor → Prop} (here : MemberAt close c place)
    {more : Expr × place.Later → Except ParseError (List Expr × { next : Cursor // P next })}
    (behind : ∀ item after, Stencil.expression place = .ok (item, after) →
      ReadAtMembers close what c ((Stencil.moreItems close what after.val).map Prod.fst))
    (same : ∀ item after, (more (item, after)).map Prod.fst =
      (Stencil.moreItems close what after.val).map fun found => item :: found.1) :
    ReadAtMembers close what c ((Stencil.expression place >>= more).map Prod.fst) := by
  cases read : Stencil.expression place with
  | error error => exact .inl ⟨place, here, read⟩
  | ok found =>
      obtain ⟨item, after⟩ := found
      have rest := behind item after read
      change ReadAtMembers close what c ((more (item, after)).map Prod.fst)
      rw [same]
      cases others : Stencil.moreItems close what after.val with
      | error error =>
          rw [others] at rest
          exact rest
      | ok found =>
          rw [others] at rest
          intro e member
          rcases List.mem_cons.mp member with rfl | member
          · exact ⟨place, after, here, read⟩
          · exact rest e member

theorem moreItems_read {member after : Cursor} {e : Expr} {onward : after.left < member.left}
    (earlier : MemberAt close c member) (read : Stencil.expression member = .ok (e, ⟨after, onward⟩)) :
    ReadAtMembers close what c ((Stencil.moreItems close what after).map Prod.fst) := by
  rw [Stencil.moreItems]
  split
  · exact fun _ none => absurd none List.not_mem_nil
  · rename_i more
    cases comma : after.expect .comma what with
    | error error => exact .inr (expect_error comma)
    | ok found =>
        obtain ⟨place, later⟩ := found
        have here : MemberAt close c place := .behind earlier read more (eat_of_expect comma)
        refine ReadAtMembers.cons here (fun item next read => ?_) fun item next => ?_
        · have shorter := next.property
          exact moreItems_read here read
        · obtain ⟨next, _⟩ := next
          dsimp only
          cases Stencil.moreItems close what next <;> rfl
termination_by after.left
decreasing_by omega

theorem items_read : ReadAtMembers close what c ((Stencil.items close what c).map Prod.fst) := by
  rw [Stencil.items]
  split
  · exact fun _ none => absurd none List.not_mem_nil
  · rename_i more
    refine ReadAtMembers.cons (.first more) (fun item next read => ?_) fun item next => ?_
    · exact moreItems_read (.first more) read
    · obtain ⟨next, _⟩ := next
      dsimp only
      cases Stencil.moreItems close what next <;> rfl

end Members

/-- Every part of the parser that gives an expression leaves the depth as it found it, has passed a token and stands
among the tokens. It goes down one level too many at most, and then it is refused: it never closes more levels than are
open and never reads where no token is. So every member of a list is read at the depth of the list, whatever stands
before it. -/
theorem depth_restored (tokens : List Located) (finish position depth : Nat)
    (inside : position < (entriesOf tokens finish).length) (capped : depth ≤ greatestNesting) :
    (∀ part : Part, Ends tokens finish position depth
      ((part.parse (.before tokens finish position depth)).map fun found => (found.1, found.2.val))
      (part.run (entriesOf tokens finish) ⟨position, depth, depth⟩)) ∧
    ∀ (close : Symbol) (what : Expectation),
      ReadAtMembers close what (.before tokens finish position depth)
        ((Stencil.items close what (.before tokens finish position depth)).map Prod.fst) ∧
      ∀ place, MemberAt close (.before tokens finish position depth) place →
        ∃ later, later < (entriesOf tokens finish).length ∧ place = .before tokens finish later depth := by
  refine ⟨fun part => ends_part part inside capped, fun close what => ⟨items_read, fun place member => ?_⟩⟩
  obtain ⟨s, shows, level⟩ := members_at_depth inside capped member
  have position := shows.position
  refine ⟨s.position, ?_, level ▸ before_of_shows shows⟩
  rw [length_entriesOf]
  omega

def increment : List Located := [⟨.variableName "a", 0⟩, ⟨.symbol .plus, 3⟩, ⟨.int 1, 5⟩]

theorem depth_restored_increment :
    0 < (entriesOf increment 6).length ∧ 126 ≤ greatestNesting ∧
    Ends increment 6 0 126 ((Part.expression.parse (.before increment 6 0 126)).map fun found => (found.1, found.2.val))
      (Part.expression.run (entriesOf increment 6) ⟨0, 126, 126⟩) ∧
    ∃ e, Part.expression.run (entriesOf increment 6) ⟨0, 126, 126⟩ = .ok e ⟨3, 126, 128⟩ :=
  ⟨by decide, by decide, (depth_restored increment 6 0 126 (by decide) (by decide)).1 .expression, _, rfl⟩

end Counted

end Stencil
