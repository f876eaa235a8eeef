import Stencil.Proofs.Expr.Counted
import Stencil.Proofs.Expr.Pointing

set_option autoImplicit false

namespace Stencil.Counted

def entriesOf (tokens : List Located) (finish : Nat) : List Entry :=
  tokens.map (fun found => ⟨some found.token, found.offset⟩) ++ [⟨none, finish⟩]

variable {tokens : List Located} {finish top : Nat}

structure Stands (tokens : List Located) (finish : Nat) (s : Counters) (c : Cursor) : Prop where
  among : c.Among tokens finish
  position : s.position + c.left = tokens.length

structure Shows (tokens : List Located) (finish top : Nat) (s : Counters) (c : Cursor) : Prop
    extends Stands tokens finish s c where
  depth : s.depth = c.depth
  capped : c.depth ≤ greatestNesting
  peak : s.peak ≤ max top greatestNesting

-- What holds of the counters when an error stops the parser: the last level may have been one too many.
structure Tame (tokens : List Located) (top : Nat) (s : Counters) : Prop where
  position : s.position ≤ tokens.length
  peak : s.peak ≤ max top (greatestNesting + 1)

-- Both give what `good` relates, or refuse with the same error. Nothing else stops the counting parser.
def Matches {α β : Type} (tokens : List Located) (top : Nat) (good : β → α → Counters → Prop) :
    Except ParseError β → EStateM.Result Halt Counters α → Prop
  | .ok b, .ok a s => good b a s
  | .error error, .error (.refused error') s => error' = error ∧ Tame tokens top s
  | _, _ => False

def Reads {α : Type} {P : Cursor → Prop} (tokens : List Located) (finish top depth : Nat)
    (result : α × { next : Cursor // P next }) (a : α) (s : Counters) : Prop :=
  a = result.1 ∧ Shows tokens finish top s result.2.val ∧ result.2.val.depth = depth

def Moves {P : Cursor → Prop} (tokens : List Located) (finish top depth : Nat) (next : { next : Cursor // P next })
    (_ : Unit) (s : Counters) : Prop :=
  Shows tokens finish top s next.val ∧ next.val.depth = depth

theorem bind_ran {α β : Type} {run : Run α} {s s' : Counters} {a : α} (next : α → Run β) (ran : run s = .ok a s') :
    (run >>= next) s = next a s' := by
  simp only [bind, EStateM.bind, ran]

theorem Matches.bind {α β γ δ : Type} {good : β → α → Counters → Prop} {best : δ → γ → Counters → Prop}
    {first : Except ParseError β} {run : Run α} {s : Counters} {more : β → Except ParseError δ} {next : α → Run γ}
    (opening : Matches tokens top good first (run s))
    (rest : ∀ b a s', good b a s' → Matches tokens top best (more b) (next a s')) :
    Matches tokens top best (first >>= more) ((run >>= next) s) := by
  cases ran : run s with
  | ok a s' =>
      rw [bind_ran next ran]
      rw [ran] at opening
      cases first with
      | ok b => exact rest b a s' opening
      | error => exact opening.elim
  | error halt s' =>
      have stopped : (run >>= next) s = .error halt s' := by simp only [Bind.bind, EStateM.bind, ran]
      rw [stopped]
      rw [ran] at opening
      cases first with
      | ok b => exact opening.elim
      | error => cases halt <;> exact opening

section Binds

variable {α γ δ : Type} {P : Cursor → Prop} {best : δ → γ → Counters → Prop} {s : Counters} {depth : Nat}

theorem Matches.here {first : Except ParseError { next : Cursor // P next }} {run : Run Unit}
    {more : { next : Cursor // P next } → Except ParseError δ} {rest : Unit → Run γ}
    (opening : Matches tokens top (Moves tokens finish top depth) first (run s))
    (further : ∀ next within s', Shows tokens finish top s' next → next.depth = depth →
      Matches tokens top best (more ⟨next, within⟩) (rest () s')) :
    Matches tokens top best (first >>= more) ((run >>= rest) s) :=
  opening.bind fun ⟨next, within⟩ _ s' ⟨shows, level⟩ => further next within s' shows level

theorem Matches.onward {first : Except ParseError (α × { next : Cursor // P next })} {run : Run α}
    {more : α × { next : Cursor // P next } → Except ParseError δ} {rest : α → Run γ}
    (opening : Matches tokens top (Reads tokens finish top depth) first (run s))
    (further : ∀ a next within s', Shows tokens finish top s' next → next.depth = depth →
      Matches tokens top best (more (a, ⟨next, within⟩)) (rest a s')) :
    Matches tokens top best (first >>= more) ((run >>= rest) s) := by
  refine opening.bind fun (a, ⟨next, within⟩) b s' ⟨same, shows, level⟩ => ?_
  obtain rfl := same
  exact further b next within s' shows level

theorem Matches.ending {Q : Cursor → Prop} {first : Except ParseError (α × { next : Cursor // P next })}
    {more : α × { next : Cursor // P next } → Except ParseError (α × { next : Cursor // Q next })}
    {ran : EStateM.Result Halt Counters α} (opening : Matches tokens top (Reads tokens finish top depth) first ran)
    (same : ∀ found, ∃ last, more found = .ok last ∧ last.1 = found.1 ∧ last.2.val = found.2.val) :
    Matches tokens top (Reads tokens finish top depth) (first >>= more) ran := by
  cases first with
  | error error =>
      change Matches _ _ _ (.error error) ran
      cases ran with
      | ok => exact opening
      | error halt s => cases halt <;> exact opening
  | ok found =>
      obtain ⟨last, ended, value, place⟩ := same found
      change Matches _ _ _ (more found) ran
      rw [ended]
      cases ran with
      | error => exact opening.elim
      | ok a s =>
          obtain ⟨read, shows, level⟩ := opening
          exact ⟨read.trans value.symm, place ▸ shows, place ▸ level⟩

end Binds

section Steps

variable {s : Counters} {c : Cursor}

theorem entry_stands (stands : Stands tokens finish s c) :
    entry (entriesOf tokens finish) s = .ok ⟨c.peek, c.offset⟩ s := by
  obtain ⟨⟨⟨passed, whole, _⟩, ended⟩, position⟩ := stands
  obtain ⟨rest, last, finish', depth⟩ := c
  obtain rfl : finish' = finish := ended
  have here : s.position = (passed.map fun found : Located => (⟨some found.token, found.offset⟩ : Entry)).length := by
    rw [whole, List.length_append, Cursor.left] at position
    rw [List.length_map]
    omega
  have found : (entriesOf tokens finish')[s.position]? = some ⟨Cursor.peek ⟨rest, last, finish', depth⟩,
      Cursor.offset ⟨rest, last, finish', depth⟩⟩ := by
    rw [entriesOf, whole, List.map_append, List.append_assoc, here, List.getElem?_append_right (Nat.le_refl _),
      Nat.sub_self]
    cases rest <;> rfl
  rw [entry, found]

theorem tame_of_shows (shows : Shows tokens finish top s c) : Tame tokens top s := by
  have position := shows.position
  have peak := shows.peak
  exact ⟨by omega, by omega⟩

theorem fail_stands {α : Type} (stands : Stands tokens finish s c) (fault : ParseFault) :
    (fail (entriesOf tokens finish) fault : Run α) s = .error (.refused (c.fail fault)) s := by
  rw [fail, bind_ran _ (entry_stands stands)]
  rfl

theorem advance_end (shows : Shows tokens finish top s c) (step : c.next? = none) :
    advance (entriesOf tokens finish) s = .ok ⟨none, c.offset⟩ s := by
  have none : c.peek = none := by
    obtain ⟨rest, last, finish, depth⟩ := c
    cases rest with
    | nil => rfl
    | cons => cases step
  rw [advance, bind_ran _ (entry_stands shows.toStands), none]
  rfl

theorem offset_next {found : Located} {next : c.Later} (step : c.next? = some (found, next)) :
    c.offset = found.offset := by
  obtain ⟨rest, last, finish, depth⟩ := c
  cases rest with
  | nil => cases step
  | cons token rest =>
      obtain ⟨rfl, -⟩ := Prod.mk.inj (Option.some.inj step)
      rfl

theorem advance_token (shows : Shows tokens finish top s c) {found : Located} {next : Cursor}
    {later : next.left < c.left} (step : c.next? = some (found, ⟨next, later⟩)) :
    ∃ s', advance (entriesOf tokens finish) s = .ok ⟨some found.token, found.offset⟩ s' ∧
      Shows tokens finish top s' next ∧ next.depth = c.depth := by
  have onward := (Cursor.among_next shows.among step).1
  obtain ⟨stands, depth, capped, peak⟩ := shows
  obtain ⟨rest, last, finish, depth⟩ := c
  cases rest with
  | nil => cases step
  | cons token rest =>
      obtain ⟨rfl, same⟩ := Prod.mk.inj (Option.some.inj step)
      obtain rfl := Subtype.mk.inj same
      refine ⟨{ s with position := s.position + 1 }, ?_, ⟨⟨onward, ?_⟩, depth, capped, peak⟩, rfl⟩
      · rw [advance, bind_ran _ (entry_stands stands)]
        rfl
      · have position := stands.position
        simp only [Cursor.left, List.length_cons] at position ⊢
        omega

section Tests

variable {α : Type} (test : Token → Option α)

theorem bind_peek : c.peek.bind test = (c.pass test).map Prod.fst := by
  obtain ⟨rest, last, finish, depth⟩ := c
  cases rest with
  | nil => rfl
  | cons token rest =>
      change test token.token = ((test token.token).map _).map _
      cases test token.token <;> rfl

theorem pass_none (shows : Shows tokens finish top s c) (step : c.pass test = none) :
    pass (entriesOf tokens finish) test s = .ok none s := by
  have found : c.peek.bind test = none := by rw [bind_peek, step]; rfl
  rw [pass, bind_ran _ (entry_stands shows.toStands)]
  simp only [found]
  rfl

theorem pass_some (shows : Shows tokens finish top s c) {a : α} {next : Cursor} {later : next.left < c.left}
    (step : c.pass test = some (a, ⟨next, later⟩)) :
    ∃ s', pass (entriesOf tokens finish) test s = .ok (some a) s' ∧
      Shows tokens finish top s' next ∧ next.depth = c.depth := by
  have found : c.peek.bind test = some a := by rw [bind_peek, step]; rfl
  rw [Cursor.pass] at step
  split at step
  · rename_i token after first
    obtain ⟨_, _, same⟩ := Option.map_eq_some_iff.mp step
    obtain ⟨rfl, rfl⟩ := Prod.mk.inj same
    obtain ⟨s', advanced, shows', level⟩ := advance_token shows first
    refine ⟨s', ?_, shows', level⟩
    rw [pass, bind_ran _ (entry_stands shows.toStands)]
    simp only [found]
    rw [bind_ran _ advanced]
    rfl
  · cases step

end Tests

section Symbols

theorem eat_eq_pass (symbol : Symbol) : c.eat symbol = (c.pass (isSymbol symbol)).map Prod.snd := rfl

variable (shows : Shows tokens finish top s c) (symbol : Symbol)

include shows

theorem eat_none (step : c.eat symbol = none) : eat (entriesOf tokens finish) symbol s = .ok false s := by
  rw [eat_eq_pass, Option.map_eq_none_iff] at step
  rw [eat, bind_ran _ (pass_none _ shows step)]
  rfl

theorem eat_some {next : Cursor} {later : next.left < c.left} (step : c.eat symbol = some ⟨next, later⟩) :
    ∃ s', eat (entriesOf tokens finish) symbol s = .ok true s' ∧ Shows tokens finish top s' next ∧
      next.depth = c.depth := by
  rw [eat_eq_pass] at step
  obtain ⟨⟨_, _⟩, passed, rfl⟩ := Option.map_eq_some_iff.mp step
  obtain ⟨s', ran, shows', level⟩ := pass_some _ shows passed
  refine ⟨s', ?_, shows', level⟩
  rw [eat, bind_ran _ ran]
  rfl

variable {γ δ : Type} {best : δ → γ → Counters → Prop} {result : Except ParseError δ} {yes no : Run γ}

theorem Matches.uneaten (step : c.eat symbol = none) (further : Matches tokens top best result (no s)) :
    Matches tokens top best result
      ((eat (entriesOf tokens finish) symbol >>= fun eaten => if eaten then yes else no) s) := by
  rw [bind_ran _ (eat_none shows symbol step), if_neg Bool.false_ne_true]
  exact further

theorem Matches.eaten {next : Cursor} {later : next.left < c.left} (step : c.eat symbol = some ⟨next, later⟩)
    (further : ∀ s', Shows tokens finish top s' next → next.depth = c.depth → Matches tokens top best result (yes s')) :
    Matches tokens top best result
      ((eat (entriesOf tokens finish) symbol >>= fun eaten => if eaten then yes else no) s) := by
  obtain ⟨s', ran, shows', level⟩ := eat_some shows symbol step
  rw [bind_ran _ ran, if_pos rfl]
  exact further s' shows' level

theorem expect_matches (what : Expectation) :
    Matches tokens top (Moves tokens finish top c.depth)
      (c.expect symbol what) (expect (entriesOf tokens finish) symbol what s) := by
  rw [Cursor.expect, expect]
  split
  · rename_i found mark
    obtain ⟨next, later⟩ := found
    exact Matches.eaten shows symbol mark fun s' shows' level => ⟨shows', level⟩
  · rename_i mark
    refine Matches.uneaten shows symbol mark ?_
    rw [fail_stands shows.toStands]
    exact ⟨rfl, tame_of_shows shows⟩

theorem descend_matches :
    Matches tokens top (Moves tokens finish top (c.depth + 1)) c.descend (descend (entriesOf tokens finish) s) := by
  obtain ⟨stands, depth, capped, peak⟩ := shows
  have ran : descend (entriesOf tokens finish) s
      = (if greatestNesting < s.depth + 1 then fail (entriesOf tokens finish) .tooDeep else pure ()) s.deeper := rfl
  have below : Stands tokens finish s.deeper c := ⟨stands.among, stands.position⟩
  have position := below.position
  rw [ran, Cursor.descend, depth]
  by_cases beyond : greatestNesting < c.depth + 1
  · rw [if_pos beyond, if_pos beyond, fail_stands below]
    exact ⟨rfl, by omega, by simp only [Counters.deeper]; omega⟩
  · rw [if_neg beyond, if_neg beyond]
    refine ⟨⟨⟨⟨stands.among.listed, stands.among.ended⟩, position⟩, ?_, Nat.not_lt.mp beyond, ?_⟩, rfl⟩
    · simp only [Counters.deeper, depth]
    · simp only [Counters.deeper]
      omega

theorem ascend_shows (levels : Nat) (opened : levels ≤ c.depth) :
    ∃ s', ascend levels s = .ok () s' ∧ Shows tokens finish top s' (c.ascend levels) := by
  obtain ⟨stands, depth, capped, peak⟩ := shows
  refine ⟨{ s with depth := s.depth - levels }, by rw [ascend, if_neg (by omega)], ⟨⟨?_, stands.position⟩, ?_, ?_, peak⟩⟩
  · exact Cursor.among_ascend levels stands.among
  · simp only [Cursor.ascend, depth]
  · exact Nat.le_trans (Nat.sub_le _ _) capped

theorem fieldName_matches :
    Matches tokens top (Reads tokens finish top c.depth) c.fieldName (fieldName (entriesOf tokens finish) s) := by
  rw [Cursor.fieldName, fieldName]
  cases step : c.next? with
  | none =>
      rw [bind_ran _ (advance_end shows step)]
      dsimp only
      rw [fail_stands shows.toStands]
      exact ⟨rfl, tame_of_shows shows⟩
  | some first =>
      obtain ⟨⟨token, offset⟩, ⟨next, later⟩⟩ := first
      obtain ⟨s', ran, good⟩ := advance_token shows step
      rw [bind_ran _ ran]
      cases token with
      | word name => exact ⟨rfl, good⟩
      | int n => exact ⟨rfl, good⟩
      | _ =>
          dsimp only
          rw [fail_stands good.1.toStands]
          exact ⟨rfl, tame_of_shows good.1⟩

end Symbols

end Steps

theorem lift_matches {α : Type} {s : Counters} {c : Cursor} {depth : Nat} {P : Cursor → Prop}
    (shows : Shows tokens finish top s c) (level : c.depth = depth) (within : P c) (result : Except ParseError α) :
    Matches tokens top (Reads tokens finish top depth)
      (result >>= fun a => .ok (a, (⟨c, within⟩ : { next : Cursor // P next }))) (lift result s) := by
  cases result with
  | ok a => exact ⟨rfl, shows, level⟩
  | error error => exact ⟨rfl, tame_of_shows shows⟩

theorem closes {α : Type} {s : Counters} {next : Cursor} {depth levels : Nat} {P : Cursor → Prop} (a : α)
    (shows : Shows tokens finish top s next) (level : next.depth = depth + levels) (within : P (next.ascend levels)) :
    Matches tokens top (Reads tokens finish top depth)
      (.ok (a, (⟨next.ascend levels, within⟩ : { next : Cursor // P next })))
      ((ascend levels >>= fun _ => pure a) s) := by
  obtain ⟨s', ran, closed⟩ := ascend_shows shows levels (by omega)
  rw [bind_ran _ ran]
  exact ⟨rfl, closed, by simp only [Cursor.ascend]; omega⟩

mutual
theorem matches_expression (fuel : Nat) (c : Cursor) (s : Counters) (shows : Shows tokens finish top s c)
    (enough : 16 * c.left + 13 < fuel) :
    Matches tokens top (Reads tokens finish top c.depth) (Stencil.expression c)
      (expression (entriesOf tokens finish) fuel s) := by
  match fuel with
  | fuel + 1 =>
      rw [expression, Stencil.expression]
      refine (descend_matches shows).here fun inner _ s₁ shows₁ deeper => ?_
      refine (matches_ternary fuel inner s₁ shows₁ (by omega)).onward fun e next _ s₂ shows₂ level => ?_
      exact closes e shows₂ (by omega) _
termination_by fuel

theorem matches_ternary (fuel : Nat) (c : Cursor) (s : Counters) (shows : Shows tokens finish top s c)
    (enough : 16 * c.left + 12 < fuel) :
    Matches tokens top (Reads tokens finish top c.depth) (Stencil.ternary c)
      (ternary (entriesOf tokens finish) fuel s) := by
  match fuel with
  | fuel + 1 =>
      rw [ternary, Stencil.ternary]
      refine (matches_coalesce fuel c s shows (by omega)).onward fun test afterTest _ s₁ shows₁ level => ?_
      dsimp only
      split
      · rename_i mark
        refine Matches.uneaten shows₁ _ mark ?_
        exact ⟨rfl, shows₁, level⟩
      · rename_i branches _ mark
        refine Matches.eaten shows₁ _ mark fun s₂ shows₂ level₂ => ?_
        split
        · rename_i afterColon _ colon
          refine Matches.eaten shows₂ _ colon fun s₃ shows₃ level₃ => ?_
          refine (matches_expression fuel afterColon s₃ shows₃ (by omega)).onward fun e next _ s₄ shows₄ level₄ => ?_
          exact ⟨rfl, shows₄, by dsimp only; omega⟩
        · rename_i colon
          refine Matches.uneaten shows₂ _ colon ?_
          refine (matches_expression fuel branches s₂ shows₂ (by omega)).onward fun e afterThen _ s₃ shows₃ level₃ => ?_
          refine (expect_matches shows₃ _ _).here fun afterColon _ s₄ shows₄ level₄ => ?_
          refine (matches_expression fuel afterColon s₄ shows₄ (by omega)).onward fun e next _ s₅ shows₅ level₅ => ?_
          exact ⟨rfl, shows₅, by dsimp only; omega⟩
termination_by fuel

theorem matches_coalesce (fuel : Nat) (c : Cursor) (s : Counters) (shows : Shows tokens finish top s c)
    (enough : 16 * c.left + 11 < fuel) :
    Matches tokens top (Reads tokens finish top c.depth) (Stencil.coalesce c)
      (coalesce (entriesOf tokens finish) fuel s) := by
  match fuel with
  | fuel + 1 =>
      rw [coalesce, Stencil.coalesce]
      have loosest : Level.all.length = 6 := rfl
      have operators := matches_chain Level.all fuel c s shows (by omega)
      refine operators.onward fun left afterLeft _ s₁ shows₁ level => ?_
      dsimp only
      split
      · rename_i mark
        refine Matches.uneaten shows₁ _ mark ?_
        exact ⟨rfl, shows₁, level⟩
      · rename_i afterMark _ mark
        refine Matches.eaten shows₁ _ mark fun s₂ shows₂ level₂ => ?_
        refine (descend_matches shows₂).here fun inner _ s₃ shows₃ deeper => ?_
        refine (matches_coalesce fuel inner s₃ shows₃ (by omega)).onward fun right next _ s₄ shows₄ level₄ => ?_
        exact closes _ shows₄ (by omega) _
termination_by fuel

theorem matches_chain (levels : List Level) (fuel : Nat) (c : Cursor) (s : Counters)
    (shows : Shows tokens finish top s c) (enough : 16 * c.left + 3 + levels.length < fuel) :
    Matches tokens top (Reads tokens finish top c.depth) (Stencil.chain levels c)
      (chain (entriesOf tokens finish) levels fuel s) := by
  match fuel, levels with
  | fuel + 1, [] =>
      rw [chain, Stencil.chain]
      exact matches_unary fuel c s shows (by simp only [List.length_nil] at enough; omega)
  | fuel + 1, level :: tighter =>
      rw [List.length_cons] at enough
      rw [chain, Stencil.chain]
      refine (matches_chain tighter fuel c s shows (by omega)).onward fun first afterFirst _ s₁ shows₁ same => ?_
      have more := matches_links level tighter 0 first fuel afterFirst s₁ c.depth shows₁ same (by omega)
      exact more.ending fun _ => ⟨_, rfl, rfl, rfl⟩
termination_by fuel

theorem matches_links (level : Level) (tighter : List Level) (count : Nat) (left : Expr) (fuel : Nat) (c : Cursor)
    (s : Counters) (depth : Nat) (shows : Shows tokens finish top s c) (opened : c.depth = depth + count)
    (enough : 16 * c.left + 3 + tighter.length < fuel) :
    Matches tokens top (Reads tokens finish top depth) (Stencil.links level tighter count left c)
      (links (entriesOf tokens finish) level tighter count left fuel s) := by
  match fuel with
  | fuel + 1 =>
      rw [links, Stencil.links]
      split
      · rename_i mark
        rw [bind_ran _ (pass_none _ shows mark)]
        exact closes left shows opened _
      · rename_i op afterOp _ mark
        obtain ⟨s₁, passed, shows₁, level₁⟩ := pass_some _ shows mark
        rw [bind_ran _ passed]
        refine (descend_matches shows₁).here fun inner _ s₂ shows₂ deeper => ?_
        refine (matches_chain tighter fuel inner s₂ shows₂ (by omega)).onward
          fun right afterRight _ s₃ shows₃ level₃ => ?_
        have more := matches_links level tighter (count + 1) (.binary op left right) fuel afterRight s₃ depth shows₃
          (by omega) (by omega)
        exact more.ending fun _ => ⟨_, rfl, rfl, rfl⟩
termination_by fuel

theorem matches_unary (fuel : Nat) (c : Cursor) (s : Counters) (shows : Shows tokens finish top s c)
    (enough : 16 * c.left + 2 < fuel) :
    Matches tokens top (Reads tokens finish top c.depth) (Stencil.unary c)
      (unary (entriesOf tokens finish) fuel s) := by
  match fuel with
  | fuel + 1 =>
      rw [unary, Stencil.unary]
      split
      · rename_i mark
        rw [bind_ran _ (pass_none _ shows mark)]
        exact matches_access fuel c s shows (by omega)
      · rename_i op afterOp _ mark
        obtain ⟨s₁, passed, shows₁, level₁⟩ := pass_some _ shows mark
        rw [bind_ran _ passed]
        refine (descend_matches shows₁).here fun inner _ s₂ shows₂ deeper => ?_
        refine (matches_unary fuel inner s₂ shows₂ (by omega)).onward fun operand next _ s₃ shows₃ level₃ => ?_
        exact closes _ shows₃ (by omega) _
termination_by fuel

theorem matches_access (fuel : Nat) (c : Cursor) (s : Counters) (shows : Shows tokens finish top s c)
    (enough : 16 * c.left + 1 < fuel) :
    Matches tokens top (Reads tokens finish top c.depth) (Stencil.access c)
      (access (entriesOf tokens finish) fuel s) := by
  match fuel with
  | fuel + 1 =>
      rw [access, Stencil.access]
      refine (matches_primary fuel c s shows (by omega)).onward fun target afterTarget _ s₁ shows₁ level => ?_
      have more := matches_selections 0 target fuel afterTarget s₁ c.depth shows₁ level (by omega)
      exact more.ending fun _ => ⟨_, rfl, rfl, rfl⟩
termination_by fuel

theorem matches_selections (count : Nat) (target : Expr) (fuel : Nat) (c : Cursor) (s : Counters) (depth : Nat)
    (shows : Shows tokens finish top s c) (opened : c.depth = depth + count) (enough : 16 * c.left < fuel) :
    Matches tokens top (Reads tokens finish top depth) (Stencil.selections count target c)
      (selections (entriesOf tokens finish) count target fuel s) := by
  match fuel with
  | fuel + 1 =>
      rw [selections, Stencil.selections]
      split
      · rename_i afterMark _ mark
        obtain ⟨s₁, passed, shows₁, level₁⟩ := pass_some _ shows mark
        rw [bind_ran _ passed]
        refine (descend_matches shows₁).here fun inner _ s₂ shows₂ deeper => ?_
        refine (fieldName_matches shows₂).onward fun field afterField _ s₃ shows₃ level₃ => ?_
        have more := matches_selections (count + 1) (.member target field) fuel afterField s₃ depth shows₃
          (by omega) (by omega)
        exact more.ending fun _ => ⟨_, rfl, rfl, rfl⟩
      · rename_i unmarked
        rw [bind_ran _ (pass_none _ shows unmarked)]
        dsimp only
        split
        · rename_i afterMark _ mark
          refine Matches.eaten shows _ mark fun s₁ shows₁ level₁ => ?_
          refine (descend_matches shows₁).here fun inner _ s₂ shows₂ deeper => ?_
          refine (matches_expression fuel inner s₂ shows₂ (by omega)).onward fun key afterKey _ s₃ shows₃ level₃ => ?_
          refine (expect_matches shows₃ _ _).here fun afterBracket _ s₄ shows₄ level₄ => ?_
          have more := matches_selections (count + 1) (.index target key) fuel afterBracket s₄ depth shows₄
            (by omega) (by omega)
          exact more.ending fun _ => ⟨_, rfl, rfl, rfl⟩
        · rename_i mark
          refine Matches.uneaten shows _ mark ?_
          exact closes target shows opened _
termination_by fuel

theorem matches_primary (fuel : Nat) (c : Cursor) (s : Counters) (shows : Shows tokens finish top s c)
    (enough : 16 * c.left < fuel) :
    Matches tokens top (Reads tokens finish top c.depth) (Stencil.primary c)
      (primary (entriesOf tokens finish) fuel s) := by
  match fuel with
  | fuel + 1 =>
      rw [primary, Stencil.primary, bind_ran _ (entry_stands shows.toStands)]
      split
      · rename_i step
        rw [bind_ran _ (advance_end shows step)]
        exact ⟨rfl, tame_of_shows shows⟩
      · rename_i found after _ step
        obtain ⟨token, offset⟩ := found
        obtain ⟨s₁, ran, shows₁, level₁⟩ := advance_token shows step
        have here : c.offset = offset := offset_next step
        rw [bind_ran _ ran, here]
        have refused (fault : ParseFault) :
            Matches tokens top (Reads tokens finish top c.depth) (.error ⟨fault, offset⟩ : Parsed Expr c)
              ((throw (.refused ⟨fault, offset⟩) : Run Expr) s₁) := ⟨rfl, tame_of_shows shows₁⟩
        cases token with
        | int n => exact ⟨rfl, shows₁, level₁⟩
        | float x =>
            dsimp only
            cases Number.ofFloat? x with
            | some n => exact ⟨rfl, shows₁, level₁⟩
            | none => exact refused _
        | text t => exact ⟨rfl, shows₁, level₁⟩
        | variableName name => exact ⟨rfl, shows₁, level₁⟩
        | word name =>
            dsimp only
            split
            · rename_i inner _ mark
              refine Matches.eaten shows₁ _ mark fun s₂ shows₂ level₂ => ?_
              refine (matches_items .closeParen .commaOrParen fuel inner s₂ shows₂ (by omega)).onward
                fun args next _ s₃ shows₃ level₃ => ?_
              exact lift_matches shows₃ (level₃.trans (level₂.trans level₁)) _ _
            · rename_i mark
              refine Matches.uneaten shows₁ _ mark ?_
              exact lift_matches shows₁ level₁ _ _
        | symbol symbol =>
            cases symbol with
            | openParen =>
                refine (matches_expression fuel after s₁ shows₁ (by omega)).onward
                  fun e afterInner _ s₂ shows₂ level₂ => ?_
                refine (expect_matches shows₂ _ _).here fun next _ s₃ shows₃ level₃ => ?_
                exact ⟨rfl, shows₃, level₃.trans (level₂.trans level₁)⟩
            | openBracket =>
                refine (matches_items .closeBracket .commaOrBracket fuel after s₁ shows₁ (by omega)).onward
                  fun members next _ s₂ shows₂ level₂ => ?_
                exact ⟨rfl, shows₂, level₂.trans level₁⟩
            | _ => exact refused _
termination_by fuel

theorem matches_items (close : Symbol) (what : Expectation) (fuel : Nat) (c : Cursor) (s : Counters)
    (shows : Shows tokens finish top s c) (enough : 16 * c.left + 14 < fuel) :
    Matches tokens top (Reads tokens finish top c.depth) (Stencil.items close what c)
      (items (entriesOf tokens finish) close what fuel s) := by
  match fuel with
  | fuel + 1 =>
      rw [items, Stencil.items]
      split
      · rename_i found mark
        obtain ⟨next, later⟩ := found
        refine Matches.eaten shows _ mark fun s₁ shows₁ level₁ => ?_
        exact ⟨rfl, shows₁, level₁⟩
      · rename_i mark
        refine Matches.uneaten shows _ mark ?_
        refine (matches_expression fuel c s shows (by omega)).onward fun first afterFirst _ s₁ shows₁ level₁ => ?_
        refine (matches_moreItems close what fuel afterFirst s₁ shows₁ (by omega)).onward
          fun rest next _ s₂ shows₂ level₂ => ?_
        exact ⟨rfl, shows₂, level₂.trans level₁⟩
termination_by fuel

theorem matches_moreItems (close : Symbol) (what : Expectation) (fuel : Nat) (c : Cursor) (s : Counters)
    (shows : Shows tokens finish top s c) (enough : 16 * c.left < fuel) :
    Matches tokens top (Reads tokens finish top c.depth) (Stencil.moreItems close what c)
      (moreItems (entriesOf tokens finish) close what fuel s) := by
  match fuel with
  | fuel + 1 =>
      rw [moreItems, Stencil.moreItems]
      split
      · rename_i found mark
        obtain ⟨next, later⟩ := found
        refine Matches.eaten shows _ mark fun s₁ shows₁ level₁ => ?_
        exact ⟨rfl, shows₁, level₁⟩
      · rename_i mark
        refine Matches.uneaten shows _ mark ?_
        refine (expect_matches shows _ _).here fun afterComma _ s₁ shows₁ level₁ => ?_
        refine (matches_expression fuel afterComma s₁ shows₁ (by omega)).onward
          fun item afterItem _ s₂ shows₂ level₂ => ?_
        refine (matches_moreItems close what fuel afterItem s₂ shows₂ (by omega)).onward
          fun rest next _ s₃ shows₃ level₃ => ?_
        exact ⟨rfl, shows₃, level₃.trans (level₂.trans level₁)⟩
termination_by fuel
end

end Stencil.Counted
