import Stencil.Expr.Header
import Stencil.Proofs.Expr.Grammar
import Stencil.Proofs.Expr.Placed

set_option autoImplicit false

namespace Stencil

def ParseFault.found? : ParseFault → Option (Option Token)
  | .unexpected found | .expectedVariable found | .expectedAssignment _ found | .expectedField found => some found
  | _ => none

def ParseFault.Points (tokens : List Located) (finish offset : Nat) : ParseFault → Prop
  | .unexpected (some found) | .expectedVariable (some found) | .expectedAssignment _ (some found) =>
      ⟨found, offset⟩ ∈ tokens
  | .unexpected none | .expectedField none => offset = finish
  | .expectedVariable none | .expectedAssignment _ none => offset = lastOf finish tokens
  | .expectedField (some found) =>
      ∃ passed start rest, tokens = passed ++ ⟨found, start⟩ :: rest ∧ offset = startOf finish rest
  | _ => True

structure Cursor.Among (tokens : List Located) (finish : Nat) (c : Cursor) : Prop where
  listed : ∃ passed, tokens = passed ++ c.rest ∧ c.last = lastOf finish passed
  ended : c.finish = finish

-- What is read satisfies `good`, and an error points where it should.
def Sound {α : Type} (tokens : List Located) (finish : Nat) (good : α → Prop) : Except ParseError α → Prop
  | .ok a => good a
  | .error error => error.fault.Points tokens finish error.offset

def Onward {α : Type} {P : Cursor → Prop} (tokens : List Located) (finish : Nat)
    (result : α × { next : Cursor // P next }) : Prop :=
  result.2.val.Among tokens finish

variable {tokens : List Located} {finish : Nat} {c : Cursor}

namespace Sound

theorem bind {α β : Type} {result : Except ParseError α} {good : α → Prop} {best : β → Prop}
    {more : α → Except ParseError β} (first : Sound tokens finish good result)
    (second : ∀ a, good a → Sound tokens finish best (more a)) : Sound tokens finish best (result >>= more) := by
  cases result with
  | error => exact first
  | ok a => exact second a first

theorem here {β : Type} {P : Cursor → Prop} {result : Except ParseError { next : Cursor // P next }} {best : β → Prop}
    {more : { next : Cursor // P next } → Except ParseError β}
    (first : Sound tokens finish (fun next => next.val.Among tokens finish) result)
    (second : ∀ next within, next.Among tokens finish → Sound tokens finish best (more ⟨next, within⟩)) :
    Sound tokens finish best (result >>= more) :=
  first.bind fun next among => second next.val next.property among

theorem onward {α β : Type} {P : Cursor → Prop} {result : Except ParseError (α × { next : Cursor // P next })}
    {best : β → Prop} {more : α × { next : Cursor // P next } → Except ParseError β}
    (first : Sound tokens finish (Onward tokens finish) result)
    (second : ∀ a next within, next.Among tokens finish → Sound tokens finish best (more (a, ⟨next, within⟩))) :
    Sound tokens finish best (result >>= more) :=
  first.bind fun (a, next) among => second a next.val next.property among

end Sound

namespace Cursor

theorem among_passes {token : Token} {next : Cursor} (among : c.Among tokens finish) (passes : c.Passes token next) :
    next.Among tokens finish := by
  obtain ⟨offset, rest, listed, rfl⟩ := passes
  obtain ⟨⟨passed, whole, _⟩, ended⟩ := among
  refine ⟨⟨passed ++ [⟨token, offset⟩], ?_, ?_⟩, ended⟩
  · rw [whole, listed, List.append_assoc, List.singleton_append]
  · rw [lastOf, List.getLast?_concat]
    rfl

theorem among_start (tokens : List Located) (finish : Nat) : (start tokens finish).Among tokens finish :=
  ⟨⟨[], rfl, rfl⟩, rfl⟩

theorem among_ascend (levels : Nat) (among : c.Among tokens finish) : (c.ascend levels).Among tokens finish :=
  ⟨among.listed, among.ended⟩

theorem among_pass {α : Type} {test : Token → Option α} {a : α} {next : Cursor} {within : next.left < c.left}
    (among : c.Among tokens finish) (step : c.pass test = some (a, ⟨next, within⟩)) : next.Among tokens finish := by
  obtain ⟨token, passes, _⟩ := c.passes_of_pass _ _ _ step
  exact among_passes among passes

theorem among_eat {symbol : Symbol} {next : Cursor} {within : next.left < c.left} (among : c.Among tokens finish)
    (step : c.eat symbol = some ⟨next, within⟩) : next.Among tokens finish :=
  among_passes among (c.passes_of_eat _ _ step)

theorem among_next {found : Located} {next : c.Later} (among : c.Among tokens finish)
    (step : c.next? = some (found, next)) :
    next.val.Among tokens finish ∧ ∃ passed, tokens = passed ++ found :: next.val.rest := by
  refine ⟨among_passes among (c.passes_of_next _ _ step), ?_⟩
  obtain ⟨passed, whole, _⟩ := among.listed
  obtain ⟨rest, last, finish, depth⟩ := c
  cases rest with
  | nil => cases step
  | cons token rest =>
      obtain ⟨rfl, rfl⟩ := Prod.mk.inj (Option.some.inj step)
      exact ⟨passed, whole⟩

theorem found_of_next {found : Located} {next : c.Later} (among : c.Among tokens finish)
    (step : c.next? = some (found, next)) : found ∈ tokens := by
  obtain ⟨_, passed, whole⟩ := among_next among step
  rw [whole]
  exact List.mem_append_right passed List.mem_cons_self

theorem offset_of_end (among : c.Among tokens finish) (step : c.next? = none) : c.offset = finish := by
  obtain ⟨rest, last, finish, depth⟩ := c
  cases rest with
  | nil => exact among.ended
  | cons => cases step

theorem last_of_end (among : c.Among tokens finish) (step : c.next? = none) : c.last = lastOf finish tokens := by
  obtain ⟨passed, whole, last⟩ := among.listed
  obtain ⟨rest, _, _, depth⟩ := c
  cases rest with
  | nil =>
      rw [whole, List.append_nil]
      exact last
  | cons => cases step

theorem sound_descend (among : c.Among tokens finish) :
    Sound tokens finish (fun inner => inner.val.Among tokens finish) c.descend := by
  rw [descend]
  split
  · trivial
  · exact ⟨among.listed, among.ended⟩

theorem sound_expect (symbol : Symbol) (what : Expectation) (among : c.Among tokens finish) :
    Sound tokens finish (fun next => next.val.Among tokens finish) (c.expect symbol what) := by
  rw [expect]
  split
  · rename_i next step
    exact among_eat among step
  · trivial

theorem sound_expectEnd (among : c.Among tokens finish) : Sound tokens finish (fun _ => True) c.expectEnd := by
  obtain ⟨⟨passed, whole, _⟩, ended⟩ := among
  obtain ⟨rest, last, _, depth⟩ := c
  cases rest with
  | nil => trivial
  | cons found rest =>
      rw [whole]
      exact List.mem_append_right passed List.mem_cons_self

theorem sound_variableName (among : c.Among tokens finish) : Sound tokens finish (Onward tokens finish) c.variableName := by
  rw [variableName]
  split
  · rename_i step
    exact last_of_end among step
  · rename_i found next step
    split
    · exact (among_next among step).1
    · exact found_of_next among step

theorem sound_fieldName (among : c.Among tokens finish) : Sound tokens finish (Onward tokens finish) c.fieldName := by
  rw [fieldName]
  split
  · rename_i step
    exact offset_of_end among step
  · rename_i found next step
    obtain ⟨onward, passed, whole⟩ := among_next among step
    split
    · exact onward
    · exact onward
    · refine ⟨passed, found.offset, next.val.rest, whole, ?_⟩
      rw [startOf, ← onward.ended]
      rfl

end Cursor

theorem sound_constant (name : String) (offset : Nat) : Sound tokens finish (fun _ => True) (constant name offset) := by
  simp only [constant]
  repeat' split
  all_goals trivial

theorem sound_callOf (name : String) (offset : Nat) (args : List Expr) :
    Sound tokens finish (fun _ => True) (callOf name offset args) := by
  simp only [callOf]
  repeat' split
  all_goals trivial

mutual
theorem sound_expression (c : Cursor) (among : c.Among tokens finish) :
    Sound tokens finish (Onward tokens finish) (expression c) := by
  rw [expression]
  refine (Cursor.sound_descend among).here fun inner _ here => ?_
  exact (sound_ternary inner here).onward fun _ _ _ reached => Cursor.among_ascend 1 reached
termination_by 16 * c.left + 13
decreasing_by omega

theorem sound_ternary (c : Cursor) (among : c.Among tokens finish) :
    Sound tokens finish (Onward tokens finish) (ternary c) := by
  rw [ternary]
  refine (sound_coalesce c among).onward fun _ afterTest _ reached => ?_
  dsimp only
  split
  · exact reached
  · rename_i branches _ mark
    have branch := Cursor.among_eat reached mark
    split
    · rename_i afterColon _ colon
      exact (sound_expression afterColon (Cursor.among_eat branch colon)).onward fun _ _ _ reached => reached
    · refine (sound_expression branches branch).onward fun _ afterPositive _ reached => ?_
      refine (Cursor.sound_expect _ _ reached).here fun afterColon _ here => ?_
      exact (sound_expression afterColon here).onward fun _ _ _ reached => reached
termination_by 16 * c.left + 12
decreasing_by all_goals omega

theorem sound_coalesce (c : Cursor) (among : c.Among tokens finish) :
    Sound tokens finish (Onward tokens finish) (coalesce c) := by
  rw [coalesce]
  refine (sound_chain Level.all c among).onward fun _ afterLeft _ reached => ?_
  dsimp only
  split
  · exact reached
  · rename_i afterMark _ mark
    refine (Cursor.sound_descend (Cursor.among_eat reached mark)).here fun inner _ here => ?_
    exact (sound_coalesce inner here).onward fun _ _ _ reached => Cursor.among_ascend 1 reached
termination_by 16 * c.left + 11
decreasing_by
  · simp [Level.all]
  · omega

theorem sound_chain (levels : List Level) (c : Cursor) (among : c.Among tokens finish) :
    Sound tokens finish (Onward tokens finish) (chain levels c) := by
  match levels with
  | [] =>
      rw [chain]
      exact sound_unary c among
  | level :: tighter =>
      rw [chain]
      refine (sound_chain tighter c among).onward fun first afterFirst _ reached => ?_
      exact (sound_links level tighter 0 first afterFirst reached).onward fun _ _ _ reached => reached
termination_by 16 * c.left + 3 + levels.length
decreasing_by all_goals simp only [List.length_cons, List.length_nil]; omega

theorem sound_links (level : Level) (tighter : List Level) (count : Nat) (left : Expr) (c : Cursor)
    (among : c.Among tokens finish) :
    Sound tokens finish (Onward tokens finish) (links level tighter count left c) := by
  rw [links]
  split
  · exact Cursor.among_ascend count among
  · rename_i op afterOp _ mark
    refine (Cursor.sound_descend (Cursor.among_pass among mark)).here fun inner _ here => ?_
    refine (sound_chain tighter inner here).onward fun right afterRight _ reached => ?_
    have more := sound_links level tighter (count + 1) (.binary op left right) afterRight reached
    exact more.onward fun _ _ _ reached => reached
termination_by 16 * c.left + 3 + tighter.length
decreasing_by all_goals omega

theorem sound_unary (c : Cursor) (among : c.Among tokens finish) :
    Sound tokens finish (Onward tokens finish) (unary c) := by
  rw [unary]
  split
  · exact sound_access c among
  · rename_i op afterOp _ mark
    refine (Cursor.sound_descend (Cursor.among_pass among mark)).here fun inner _ here => ?_
    exact (sound_unary inner here).onward fun _ _ _ reached => Cursor.among_ascend 1 reached
termination_by 16 * c.left + 2
decreasing_by all_goals omega

theorem sound_access (c : Cursor) (among : c.Among tokens finish) :
    Sound tokens finish (Onward tokens finish) (access c) := by
  rw [access]
  refine (sound_primary c among).onward fun target afterTarget _ reached => ?_
  exact (sound_selections 0 target afterTarget reached).onward fun _ _ _ reached => reached
termination_by 16 * c.left + 1
decreasing_by all_goals omega

theorem sound_selections (count : Nat) (target : Expr) (c : Cursor) (among : c.Among tokens finish) :
    Sound tokens finish (Onward tokens finish) (selections count target c) := by
  rw [selections]
  split
  · rename_i afterMark _ mark
    refine (Cursor.sound_descend (Cursor.among_pass among mark)).here fun inner _ here => ?_
    refine (Cursor.sound_fieldName here).onward fun field afterField _ reached => ?_
    exact (sound_selections (count + 1) (.member target field) afterField reached).onward fun _ _ _ reached => reached
  · split
    · rename_i afterMark _ mark
      refine (Cursor.sound_descend (Cursor.among_eat among mark)).here fun inner _ here => ?_
      refine (sound_expression inner here).onward fun key afterKey _ reached => ?_
      refine (Cursor.sound_expect _ _ reached).here fun afterBracket _ here => ?_
      exact (sound_selections (count + 1) (.index target key) afterBracket here).onward fun _ _ _ reached => reached
    · exact Cursor.among_ascend count among
termination_by 16 * c.left
decreasing_by all_goals omega

theorem sound_primary (c : Cursor) (among : c.Among tokens finish) :
    Sound tokens finish (Onward tokens finish) (primary c) := by
  rw [primary]
  split
  · rename_i step
    exact Cursor.offset_of_end among step
  · rename_i found after _ step
    have onward := (Cursor.among_next among step).1
    dsimp only
    split
    · exact onward
    · split
      · exact onward
      · trivial
    · exact onward
    · exact onward
    · refine (sound_expression after onward).onward fun _ afterInner _ reached => ?_
      exact (Cursor.sound_expect _ _ reached).here fun _ _ here => here
    · exact (sound_items .closeBracket .commaOrBracket after onward).onward fun _ _ _ reached => reached
    · split
      · rename_i inner _ opened
        have listed := sound_items .closeParen .commaOrParen inner (Cursor.among_eat onward opened)
        refine listed.onward fun args next _ reached => ?_
        exact (sound_callOf _ _ args).bind fun _ _ => reached
      · exact (sound_constant _ _).bind fun _ _ => onward
    · exact Cursor.found_of_next among step
termination_by 16 * c.left
decreasing_by all_goals omega

theorem sound_items (close : Symbol) (what : Expectation) (c : Cursor) (among : c.Among tokens finish) :
    Sound tokens finish (Onward tokens finish) (items close what c) := by
  rw [items]
  split
  · rename_i next closed
    exact Cursor.among_eat among closed
  · refine (sound_expression c among).onward fun first afterFirst _ reached => ?_
    exact (sound_moreItems close what afterFirst reached).onward fun _ _ _ reached => reached
termination_by 16 * c.left + 14
decreasing_by all_goals omega

theorem sound_moreItems (close : Symbol) (what : Expectation) (c : Cursor) (among : c.Among tokens finish) :
    Sound tokens finish (Onward tokens finish) (moreItems close what c) := by
  rw [moreItems]
  split
  · rename_i next closed
    exact Cursor.among_eat among closed
  · refine (Cursor.sound_expect _ _ among).here fun afterComma _ here => ?_
    refine (sound_expression afterComma here).onward fun item afterItem _ reached => ?_
    exact (sound_moreItems close what afterItem reached).onward fun _ _ _ reached => reached
termination_by 16 * c.left
decreasing_by all_goals omega
end

theorem sound_moreArguments (c : Cursor) (among : c.Among tokens finish) :
    Sound tokens finish (Onward tokens finish) (moreArguments c) := by
  rw [moreArguments]
  split
  · exact among
  · rename_i comma mark
    have shorter := comma.property
    refine (sound_expression comma.val (Cursor.among_eat among mark)).onward fun _ item within reached => ?_
    exact (sound_moreArguments item reached).onward fun _ _ _ reached => reached
termination_by c.left
decreasing_by omega

theorem sound_withValue {c : Cursor} (after : c.Later) (assign : Expr → Assignment)
    (among : after.val.Among tokens finish) :
    Sound tokens finish (Onward tokens finish) (Assignment.behind.withValue after assign) := by
  rw [Assignment.behind.withValue]
  exact (sound_expression after.val among).onward fun _ _ _ reached => reached

theorem sound_behind (name : String) (c : Cursor) (among : c.Among tokens finish) :
    Sound tokens finish (Onward tokens finish) (Assignment.behind name c) := by
  rw [Assignment.behind]
  split
  · rename_i step
    exact Cursor.last_of_end among step
  · rename_i found after step
    have onward := (Cursor.among_next among step).1
    split
    · exact sound_withValue after (.set name) onward
    · exact sound_withValue after (.add name) onward
    · exact sound_withValue after (.sub name) onward
    · exact onward
    · exact onward
    · exact Cursor.found_of_next among step

theorem sound_assignment (c : Cursor) (among : c.Among tokens finish) :
    Sound tokens finish (Onward tokens finish) (Assignment.parse c) := by
  rw [Assignment.parse]
  split
  · rename_i after mark
    exact (Cursor.sound_variableName (Cursor.among_eat among mark)).onward fun _ _ _ reached => reached
  · split
    · rename_i after mark
      exact (Cursor.sound_variableName (Cursor.among_eat among mark)).onward fun _ _ _ reached => reached
    · refine (Cursor.sound_variableName among).onward fun name after _ reached => ?_
      exact (sound_behind name after reached).onward fun _ _ _ reached => reached

theorem sound_assignments (c : Cursor) (among : c.Among tokens finish) :
    Sound tokens finish (Onward tokens finish) (assignments c) := by
  rw [assignments]
  refine (sound_assignment c among).onward fun first after within reached => ?_
  dsimp only
  split
  · exact reached
  · rename_i comma mark
    have shorter : comma.val.left < after.left := comma.property
    exact (sound_assignments comma.val (Cursor.among_eat reached mark)).onward fun _ _ _ reached => reached
termination_by c.left
decreasing_by omega

section Headers

def Reach {α : Type} (tokens : List Located) (finish : Nat) (result : α × Cursor) : Prop := result.2.Among tokens finish

theorem sound_initial (c : Cursor) (among : c.Among tokens finish) :
    Sound tokens finish (Reach tokens finish) (initial c) := by
  rw [initial]
  split
  · exact among
  · exact (sound_assignments c among).onward fun _ _ _ reached => reached

theorem sound_loopTest (c : Cursor) (among : c.Among tokens finish) :
    Sound tokens finish (Reach tokens finish) (loopTest c) := by
  rw [loopTest]
  split
  · exact among
  · exact (sound_expression c among).onward fun _ _ _ reached => reached

theorem sound_final (c : Cursor) (among : c.Among tokens finish) :
    Sound tokens finish (Reach tokens finish) (final c) := by
  rw [final]
  split
  · exact among
  · exact (sound_assignments c among).onward fun _ _ _ reached => reached

end Headers

theorem unnamed_of_numberToken (text : List Char) (fault : ParseFault) (failed : numberToken text = .error fault) :
    fault.found? = none := by
  have integer (digits after : List Char) (failed : numberToken.integer digits after = .error fault) :
      fault.found? = none := by
    rw [numberToken.integer] at failed
    split at failed
    · obtain rfl := Except.error.inj failed
      rfl
    · cases failed
  rw [numberToken] at failed
  split at failed
  · split at failed
    · cases failed
    · exact integer _ _ failed
  · exact integer _ _ failed

theorem unnamed_of_firstToken (c : Char) (rest : List Char) (fault : ParseFault)
    (failed : firstToken c rest = .error fault) : fault.found? = none := by
  rw [firstToken] at failed
  split at failed
  · dsimp only at failed
    split at failed
    · obtain rfl := Except.error.inj failed
      rfl
    · split at failed
      · obtain rfl := Except.error.inj failed
        rfl
      · cases failed
  · split at failed
    · split at failed
      · cases failed
      · obtain rfl := Except.error.inj failed
        rfl
    · split at failed
      · exact unnamed_of_numberToken _ fault failed
      · split at failed
        · cases failed
        · split at failed
          · cases failed
          · obtain rfl := Except.error.inj failed
            rfl

theorem unnamed_of_tokensFrom (offset : Nat) (text : List Char) (error : ParseError)
    (failed : tokensFrom offset text = .error error) : error.fault.found? = none := by
  match text with
  | [] =>
      rw [tokensFrom] at failed
      cases failed
  | c :: rest =>
      by_cases blank : Text.isAsciiBlank c
      · rw [tokensFrom_blank offset c rest blank] at failed
        exact unnamed_of_tokensFrom _ rest error failed
      · cases first : firstToken c rest with
        | error fault =>
            rw [tokensFrom_fault offset c rest fault blank first] at failed
            obtain rfl := Except.error.inj failed
            exact unnamed_of_firstToken c rest fault first
        | ok found =>
            obtain ⟨token, after⟩ := found
            rw [tokensFrom_token offset c rest after token blank first, map_eq_error] at failed
            have shorter := length_of_firstToken first
            exact unnamed_of_tokensFrom _ after error failed
termination_by text.length
decreasing_by
  · simp
  · exact shorter

structure Pointed (text : List Char) (error : ParseError) (tokens : List Located) : Prop where
  lexed : tokenize text = .ok tokens
  placed : Placed text tokens
  points : error.fault.Points tokens (Text.byteSize text) error.offset
  late : ∀ found, error.fault = .expectedField (some found) →
    ∃ start, ⟨found, start⟩ ∈ tokens ∧ start < error.offset
  early : (error.fault = .expectedVariable none ∨ ∃ name, error.fault = .expectedAssignment name none) →
    tokens ≠ [] → error.offset < Text.byteSize text

section Texts

variable {text : List Char} {error : ParseError}

theorem pointed_of_points {tokens : List Located} (lexed : tokenize text = .ok tokens)
    (points : error.fault.Points tokens (Text.byteSize text) error.offset) : Pointed text error tokens := by
  have placed := placed_tokenize text tokens lexed
  refine ⟨lexed, placed, points, fun found same => ?_, fun same some => ?_⟩
  · rw [same] at points
    obtain ⟨passed, start, rest, whole, next⟩ := points
    refine ⟨start, ?_, next ▸ placed.ordered passed _ rest whole⟩
    rw [whole]
    exact List.mem_append_right passed List.mem_cons_self
  · have last : error.offset = lastOf (Text.byteSize text) tokens := by
      rcases same with same | ⟨name, same⟩
      all_goals
        rw [same] at points
        exact points
    rw [last]
    exact lastOf_lt placed some

theorem pointed_of_sound {α : Type} {read : Cursor → Except ParseError α}
    (sound : ∀ tokens finish c, c.Among tokens finish → Sound tokens finish (fun _ => True) (read c))
    (named : error.fault.found? ≠ none) (failed : cursor text >>= read = .error error) :
    ∃ tokens, Pointed text error tokens := by
  cases lexed : tokenize text with
  | error unread =>
      rw [cursor, lexed] at failed
      obtain rfl := Except.error.inj failed
      exact absurd (unnamed_of_tokensFrom 0 text _ lexed) named
  | ok tokens =>
      rw [cursor, lexed] at failed
      have points := sound tokens (Text.byteSize text) _ (Cursor.among_start tokens (Text.byteSize text))
      change read (.start tokens (Text.byteSize text)) = .error error at failed
      rw [failed] at points
      exact ⟨tokens, pointed_of_points lexed points⟩

variable (named : error.fault.found? ≠ none)

include named

theorem pointed_parse (failed : Expr.parse text = .error error) : ∃ tokens, Pointed text error tokens := by
  refine pointed_of_sound (fun tokens finish c among => ?_) named failed
  refine (sound_expression c among).onward fun e next _ reached => ?_
  exact (Cursor.sound_expectEnd reached).bind fun _ _ => trivial

theorem pointed_parseAll (failed : Expr.parseAll text = .error error) : ∃ tokens, Pointed text error tokens := by
  refine pointed_of_sound (fun tokens finish c among => ?_) named failed
  rw [Expr.several]
  split
  · trivial
  · refine (sound_expression c among).onward fun e afterFirst _ reached => ?_
    refine (sound_moreArguments afterFirst reached).onward fun _ last _ reached => ?_
    exact (Cursor.sound_expectEnd reached).bind fun _ _ => trivial

theorem pointed_eachHeader (failed : EachHeader.parse text = .error error) : ∃ tokens, Pointed text error tokens := by
  refine pointed_of_sound (fun tokens finish c among => ?_) named failed
  refine (sound_expression c among).onward fun source afterSource _ reached => ?_
  dsimp only
  split
  · trivial
  · rename_i names _ keyword
    obtain ⟨⟨_, _⟩, passed, rfl⟩ := Option.map_eq_some_iff.mp keyword
    refine (Cursor.sound_variableName (Cursor.among_pass reached passed)).onward fun first afterFirst _ reached => ?_
    dsimp only
    split
    · exact (Cursor.sound_expectEnd reached).bind fun _ _ => trivial
    · rename_i afterArrow _ arrow
      refine (Cursor.sound_variableName (Cursor.among_eat reached arrow)).onward fun second last _ reached => ?_
      exact (Cursor.sound_expectEnd reached).bind fun _ _ => trivial

theorem pointed_forHeader (failed : ForHeader.parse text = .error error) : ∃ tokens, Pointed text error tokens := by
  refine pointed_of_sound (fun tokens finish c among => ?_) named failed
  refine (sound_initial c among).bind fun (_, afterInit) reached => ?_
  refine (Cursor.sound_expect _ _ reached).here fun second _ here => ?_
  refine (sound_loopTest second here).bind fun (_, afterTest) reached => ?_
  refine (Cursor.sound_expect _ _ reached).here fun third _ here => ?_
  refine (sound_final third here).bind fun (_, last) reached => ?_
  exact (Cursor.sound_expectEnd reached).bind fun _ _ => trivial

end Texts

/-- An error that names the token it found is at this token, with two exceptions: what is found in the place of a field has
been passed when it is reported, so that the error is at the next token, and where a variable or an assignment is missing at
the end of the text, the error is at the last token and not at the end. -/
theorem errors_pointed (text : List Char) (error : ParseError) (named : error.fault.found? ≠ none)
    (failed : Expr.parse text = .error error ∨ Expr.parseAll text = .error error ∨
      EachHeader.parse text = .error error ∨ ForHeader.parse text = .error error) :
    ∃ tokens, Pointed text error tokens := by
  rcases failed with failed | failed | failed | failed
  · exact pointed_parse named failed
  · exact pointed_parseAll named failed
  · exact pointed_eachHeader named failed
  · exact pointed_forHeader named failed

def refusal? {α : Type} : Except ParseError α → Option ParseError
  | .ok _ => none
  | .error error => some error

theorem error_of_refusal {α : Type} (result : Except ParseError α) (error : ParseError)
    (refused : refusal? result = some error) : result = .error error := by
  cases result with
  | ok a => cases refused
  | error e => exact congrArg Except.error (Option.some.inj refused)

def told {α : Type} (result : Except ParseError α) : Option (String × Nat) :=
  (refusal? result).map fun error => (error.message, error.offset)

theorem errors_pointed_second :
    ∃ error tokens, Expr.parse "$a $b".toList = .error error ∧ error.fault.found? ≠ none ∧ error.offset = 3 ∧
      Pointed "$a $b".toList error tokens := by
  have shown : (refusal? (Expr.parse "$a $b".toList)).any fun error =>
      error.fault.found?.isSome && error.offset == 3 := by decide +kernel
  obtain ⟨error, refused, holds⟩ := (Option.any_eq_true _ _).mp shown
  rw [Bool.and_eq_true, beq_iff_eq, Option.isSome_iff_ne_none] at holds
  have failed := error_of_refusal _ error refused
  obtain ⟨tokens, pointed⟩ := errors_pointed "$a $b".toList error holds.1 (.inl failed)
  exact ⟨error, tokens, failed, holds.1, holds.2, pointed⟩

/-- The parenthesis is the fourth character, and the text of the loop has five. -/
theorem named_elsewhere :
    told (Expr.parse "$a.)".toList) = some ("expected a field name, found token RParen (at column 5)", 4) ∧
    (tokenize "$a.)".toList).toOption.map (List.map Located.offset) = some [0, 2, 3] ∧
    told (EachHeader.parse "$x as".toList) = some ("expected a variable, found end of expression (at column 4)", 3) ∧
    Text.byteSize "$x as".toList = 5 := by
  decide +kernel

end Stencil
