import Stencil.Template.Argument
import Stencil.Template.Piece
import Stencil.Text.Word

set_option autoImplicit false

namespace Stencil.Template

def named? (text : List Char) : Option (Directive × List Char) :=
  (Directive.ofName? (String.ofList (text.takeWhile Text.isWord))).map fun d =>
    (d, text.dropWhile Text.isWord)

-- The text before the first directive, the directive, and the text behind its name; `afterWord`
-- says whether a word character precedes the text.
def nextDirective? (afterWord : Bool) : List Char → Option (List Char × Directive × List Char)
  | [] => none
  | c :: rest =>
      match if c = '@' && !afterWord then named? rest else none with
      | some (d, after) => some ([], d, after)
      | none =>
          (nextDirective? (Text.isWord c) rest).map fun (before, d, after) => (c :: before, d, after)

def isGap (c : Char) : Bool := c = ' ' || c = '\t'

-- The arguments at the start of a text, and the text behind them. Blanks before the arguments
-- belong to the directive; without arguments they are text.
def arguments? (text : List Char) : Option (Option (List Char) × List Char) :=
  match text.dropWhile isGap with
  | '(' :: rest => (group? ('(' :: rest)).map fun (group, after) => (some group, after)
  | _ => some (none, text)

theorem length_of_named? {text after : List Char} {d : Directive}
    (found : named? text = some (d, after)) : after.length ≤ text.length := by
  unfold named? at found
  simp only [Option.map_eq_some_iff, Prod.mk.injEq] at found
  obtain ⟨_, _, _, rfl⟩ := found
  exact (List.dropWhile_sublist _).length_le

theorem length_of_nextDirective? {afterWord : Bool} {text before after : List Char} {d : Directive}
    (found : nextDirective? afterWord text = some (before, d, after)) :
    after.length < text.length := by
  induction text generalizing afterWord before with
  | nil => simp [nextDirective?] at found
  | cons c rest ih =>
      simp only [nextDirective?] at found
      split at found
      · rename_i here
        split at here
        · simp only [Option.some.injEq, Prod.mk.injEq] at found
          obtain ⟨_, rfl, rfl⟩ := found
          have := length_of_named? here
          simp only [List.length_cons]; omega
        · simp at here
      · simp only [Option.map_eq_some_iff, Prod.mk.injEq] at found
        obtain ⟨⟨early, e, tail⟩, inside, _, rfl, rfl⟩ := found
        have shorter : tail.length < rest.length := ih inside
        simp only [List.length_cons]; omega

theorem length_of_arguments? {text after : List Char} {args : Option (List Char)}
    (found : arguments? text = some (args, after)) : after.length ≤ text.length := by
  unfold arguments? at found
  split at found
  · rename_i rest shape
    simp only [Option.map_eq_some_iff, Prod.mk.injEq] at found
    obtain ⟨⟨group, tail⟩, inside, _, rfl⟩ := found
    have := length_of_group? inside
    have := (List.dropWhile_sublist isGap (l := text)).length_le
    rw [shape] at this
    exact Nat.le_trans (length_of_group? inside) this
  · simp_all

structure Unclosed where
  directive : Directive
  line : Nat

def divideDirectives (afterWord : Bool) (line : Nat) (text : List Char) :
    Except Unclosed (List Piece) :=
  match _found : nextDirective? afterWord text with
  | none => .ok (textPiece text line)
  | some (before, d, afterName) =>
      let start := line + Text.breaks before
      match _closed : arguments? afterName with
      | none => .error ⟨d, start⟩
      | some (args, after) =>
          let next := start + Text.breaks (args.getD [])
          (divideDirectives args.isNone next after).map fun pieces =>
            textPiece before line ++ .directive d args start :: pieces
termination_by text.length
decreasing_by
  have := length_of_nextDirective? _found
  have := length_of_arguments? _closed
  omega

def directives : List Piece → Except Unclosed (List Piece)
  | [] => .ok []
  | .text content line :: rest => do
      let pieces ← divideDirectives false line content
      return pieces ++ (← directives rest)
  | piece :: rest => do return piece :: (← directives rest)

end Stencil.Template
