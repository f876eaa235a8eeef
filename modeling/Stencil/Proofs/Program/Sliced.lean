import Stencil.Proofs.Program.Spots
import Stencil.Proofs.Template.SlicedDirectives
import Stencil.Proofs.Template.SlicedEchoes

set_option autoImplicit false

namespace Stencil

open Template

namespace Sliced

variable {ε δ α β : Type}

def Halt.map (tell : ε → δ) : Halt ε → Halt δ
  | .refused error => .refused (tell error)
  | .misplaced => .misplaced
  | .underflow => .underflow
  | .unfinished => .unfinished

def told (tell : ε → δ) (run : Run ε α) : Run δ α := run.mapError (Halt.map tell)

def eachText (divide : Nat → List Char → Run Fault (List Piece)) : List Piece → Run Fault (List Piece)
  | [] => return []
  | .text content line :: rest => do
      let pieces ← divide line content
      return pieces ++ (← eachText divide rest)
  | piece :: rest => do return piece :: (← eachText divide rest)

def pieces (format : EchoFormat) (text : List Char) : Run Fault (List Piece) := do
  let withComments ← eachText comments [.text text 1]
  let withDirectives ← eachText directives withComments
  let withEscaped ← eachText (echoes .escaped fun inside => return EchoKind.escaped.expression inside) withDirectives
  let withRaw ← eachText (echoes .raw fun inside => return EchoKind.raw.expression inside) withEscaped
  return joinTexts (← eachText (echoes (.regular format) (regular format)) withRaw)

section Marks

variable (d : Directive) (inside : List Char)

def oneArgument : Run FaultKind Expr := do
  match ← told (.expression (.directive d)) (parseAll inside) with
  | [e] => return e
  | args => refuse (.malformed (.wrongCount d 1 args.length))

def oneOrTwoArguments : Run FaultKind (Expr × Option Expr) := do
  match ← told (.expression (.directive d)) (parseAll inside) with
  | [e] => return (e, none)
  | [first, second] => return (first, some second)
  | _ => refuse (.malformed (.notOneOrTwo d))

def loopHead (kind : LoopKind) : Run FaultKind LoopHead :=
  told (.expression (.directive d)) <|
    match kind with
    | .counted => (forHeader inside).map .counted
    | .each => (eachHeader inside).map .each
    | .whilst => (parse inside).map .whilst

def roleMark (d : Directive) (inside : List Char) : Run FaultKind Mark :=
  match d.role with
  | .openConditional kind => do return .openConditional kind (← told (.expression (.directive d)) (parse inside))
  | .nextBranch => do return .nextBranch (← told (.expression (.directive d)) (parse inside))
  | .lastBranch => return .lastBranch
  | .closeConditional => return .closeConditional (if d = .closeUnless then .negated else .affirmed)
  | .openLoop kind => do return .openLoop (← loopHead d inside kind)
  | .closeLoop kind => return .closeLoop kind
  | .extend => do return .leaf (.extend (← oneArgument d inside))
  | .insert => do return .leaf (.insert (← oneArgument d inside))
  | .yield => do
      let (block, default) ← oneOrTwoArguments d inside
      return .leaf (.yield block default)
  | .openSection => do
      let (block, inline) ← oneOrTwoArguments d inside
      return .leaf (.openSection block inline)
  | .closeSection mode => return .leaf (.closeSection mode)

end Marks

def markOf : Piece → Run Fault Mark
  | .text content _ => return .leaf (.text (String.ofList content))
  | .comment content _ => return .leaf (.comment (String.ofList content))
  | .echo source expression line =>
      told (fun error => ⟨.expression (.echo source) error, line⟩) do return .leaf (.echo (← parse expression))
  | .directive d args line => told (fun kind => ⟨kind, line⟩) do roleMark d (← lift (insideOf d args))

def addAll : List Piece → Assembly → Run Fault Assembly
  | [], state => return state
  | piece :: rest, state => do
      let mark ← markOf piece
      let next ← lift ((state.take mark piece.line).mapError fun kind => ⟨kind, piece.line⟩)
      addAll rest next

def compile (format : EchoFormat) (template : String) (text : List Char) : Run Fault Program := do
  let state ← addAll (← pieces format text) Assembly.empty
  return ⟨currentFormat, template, ← lift state.finish⟩

theorem told_lift (tell : ε → δ) (result : Except ε α) : told tell (lift result) = lift (result.mapError tell) := by
  cases result <;> rfl

section Marks

variable (d : Directive) (inside : List Char)

theorem told_parse : told (.expression (.directive d)) (parse inside) = lift (inPlace (.directive d) (Expr.parse inside)) := by
  rw [parse_eq, told_lift]
  rfl

theorem told_parseAll :
    told (.expression (.directive d)) (parseAll inside) = lift (inPlace (.directive d) (Expr.parseAll inside)) := by
  rw [parseAll_eq, told_lift]
  rfl

theorem oneArgument_eq : oneArgument d inside = lift (Stencil.oneArgument d inside) := by
  rw [oneArgument, Stencil.oneArgument, told_parseAll, lift_bind]
  refine congrArg _ (funext fun args => ?_)
  cases args with
  | nil => rfl
  | cons first others => cases others <;> rfl

theorem oneOrTwoArguments_eq : oneOrTwoArguments d inside = lift (Stencil.oneOrTwoArguments d inside) := by
  rw [oneOrTwoArguments, Stencil.oneOrTwoArguments, told_parseAll, lift_bind]
  refine congrArg _ (funext fun args => ?_)
  cases args with
  | nil => rfl
  | cons first others =>
      cases others with
      | nil => rfl
      | cons second more => cases more <;> rfl

theorem loopHead_eq (kind : LoopKind) : loopHead d inside kind = lift (Stencil.loopHead d kind inside) := by
  cases kind with
  | counted =>
      simp only [loopHead, Stencil.loopHead, forHeader_eq]
      cases ForHeader.parse inside <;> rfl
  | each =>
      simp only [loopHead, Stencil.loopHead, eachHeader_eq]
      cases EachHeader.parse inside <;> rfl
  | whilst =>
      simp only [loopHead, Stencil.loopHead, parse_eq]
      cases Expr.parse inside <;> rfl

theorem mark_eq (args : Option (List Char)) : (do roleMark d (← lift (insideOf d args))) = lift (d.mark args) := by
  rw [Directive.mark, lift_bind]
  refine congrArg _ (funext fun inside => ?_)
  cases role : d.role <;>
    simp only [roleMark, role, told_parse, oneArgument_eq, oneOrTwoArguments_eq, loopHead_eq, lift_bind] <;> rfl

end Marks

theorem markOf_eq (piece : Piece) : markOf piece = lift piece.mark := by
  cases piece with
  | text | comment => rfl
  | echo source expression line =>
      rw [markOf, Piece.mark, parse_eq]
      cases Expr.parse expression <;> rfl
  | directive d args line => rw [markOf, Piece.mark, mark_eq, told_lift]

theorem addAll_eq (pieces : List Piece) (state : Assembly) : addAll pieces state = lift (state.addAll pieces) := by
  induction pieces generalizing state with
  | nil => rfl
  | cons piece rest ih =>
      rw [addAll, markOf_eq, Assembly.addAll]
      cases valid : piece.mark with
      | error fault =>
          rw [Assembly.add_invalid piece fault state valid]
          rfl
      | ok mark =>
          rw [Assembly.add_eq piece mark state valid, lift_ok, ok_bind]
          cases taken : state.take mark piece.line with
          | error kind => rfl
          | ok next => exact ih next

section Passes

variable {sliced : Nat → List Char → Run Fault (List Piece)}

theorem eachText_eq {divide : Nat → List Char → List Piece} (same : ∀ line text, sliced line text = .ok (divide line text))
    (pieces : List Piece) : eachText sliced pieces = .ok (divideTexts divide pieces) := by
  induction pieces with
  | nil => rfl
  | cons piece rest ih =>
      cases piece with
      | text content line =>
          rw [eachText, same, ok_bind, ih]
          rfl
      | comment | directive | echo =>
          rw [eachText, ih]
          · rfl
          · intro _ _ other
            cases other

theorem eachText_directives (pieces : List Piece) :
    eachText directives pieces = lift ((Template.directives pieces).mapError unclosed) := by
  induction pieces with
  | nil => rfl
  | cons piece rest ih =>
      cases piece with
      | text content line =>
          rw [eachText, Template.directives, directives_eq, ih]
          cases divideDirectives false line content with
          | error _ => rfl
          | ok _ => cases Template.directives rest <;> rfl
      | comment | directive | echo =>
          rw [eachText, Template.directives, ih]
          · cases Template.directives rest <;> rfl
          · intro _ _ other
            cases other
          · intro _ _ other
            cases other

end Passes

theorem pieces_eq (format : EchoFormat) (text : List Char) : pieces format text = lift (Template.pieces format text) := by
  have braces : IsMark ['\x7b', '\x7b'] ∧ IsMark ['\x7d', '\x7d'] := by decide
  have escaped := @echoes_eq Fault .escaped (by decide) (by decide)
    (fun inside => return EchoKind.escaped.expression inside) fun _ => rfl
  have raw := @echoes_eq Fault .raw (by decide) (by decide)
    (fun inside => return EchoKind.raw.expression inside) fun _ => rfl
  have shown := @echoes_eq Fault (.regular format) braces.1 braces.2 (regular format) (regular_eq format)
  rw [pieces, eachText_eq comments_eq, ok_bind, eachText_directives, Template.pieces, Template.comments]
  cases Template.directives (divideTexts divideComments [.text text 1]) with
  | error found => rfl
  | ok divided =>
      rw [Except.mapError, lift_ok, ok_bind, eachText_eq escaped, ok_bind, eachText_eq raw, ok_bind, eachText_eq shown]
      rfl

theorem compile_eq (format : EchoFormat) (template : String) (text : List Char) :
    compile format template text = lift (Program.compile format template (String.ofList text)) := by
  rw [compile, pieces_eq, Program.compile, String.toList_ofList, lift_bind]
  refine congrArg _ (funext fun divided => ?_)
  rw [addAll_eq, Program.assemble, lift_bind]
  refine congrArg _ (funext fun state => ?_)
  rw [lift_bind]
  rfl

structure Undivided (text : List Char) : Prop where
  closing {start close : Nat} : (Text.bytes text)[start]? = some '('.toUInt8 → closingFrom? text start = some close →
    Text.Boundary text start ∧ Text.Boundary text close ∧ Text.Boundary text (close + 1)
  uses {search start stop : Nat} : use? text search = .ok (some (start, stop)) →
    Text.Boundary text start ∧ Text.Boundary text (start + 1) ∧ Text.Boundary text stop
  arguments {d : Directive} {line place stop : Nat} {args : Option (List Char)} :
    argumentsAt text d line place = .ok (args, stop) →
      Text.Boundary text place ∧ Text.Boundary text (skip isGap text place) ∧ Text.Boundary text stop
  enclosed {opener closer : List Char} {search : Nat} {places : Enclosed} : IsMark opener → IsMark closer →
    (enclosed? opener closer text search : Run Fault _) = .ok (some places) →
      Text.Boundary text places.start ∧ Text.Boundary text places.body ∧ Text.Boundary text places.close ∧
        Text.Boundary text places.stop
  hidden {front : List Char} {cursor start : Nat} : (slice text cursor start : Run Fault _) = .ok front →
    front.getLast? = some '@' → 0 < start ∧ Text.Boundary text (start - 1)
  or {leftStop rightStart : Nat} : orByte? none 0 (Text.bytes text) = some (leftStop, rightStart) →
    Text.Boundary text leftStop ∧ Text.Boundary text rightStart
  strings {quote : Char} {start stop : Nat} {content : List Char} : quote = '\'' ∨ quote = '"' →
    (Text.bytes text)[start]? = some quote.toUInt8 → stringAt text start quote.toUInt8 = .ok (content, stop) →
      Text.Boundary text stop
  token {place next : Nat} {b : UInt8} {token : Token} : Text.Boundary text place → (Text.bytes text)[place]? = some b →
    tokenAt text place b = .ok (token, next) → Text.Boundary text next
  tokens {tokens : List Located} : tokenize text = .ok tokens → ∀ found ∈ tokens, Text.Boundary text found.offset
  finish : Text.Boundary text (Text.byteSize text)

theorem undivided (text : List Char) : Undivided text where
  closing := boundaries_of_closing
  uses := boundaries_of_use
  arguments := boundaries_of_arguments
  enclosed := boundaries_of_enclosed
  hidden := boundary_of_hidden
  or := boundaries_of_orByte
  strings := boundary_of_stringAt
  token := boundary_of_tokenAt
  tokens := boundary_of_tokenize
  finish := Text.boundary_end text

theorem refused_of_compile {format : EchoFormat} {template : String} {text : List Char} {halt : Halt Fault}
    (stops : compile format template text = .error halt) :
    ∃ fault, Program.compile format template (String.ofList text) = .error fault ∧ halt = .refused fault := by
  rw [compile_eq] at stops
  cases compiled : Program.compile format template (String.ofList text) with
  | ok program =>
      rw [compiled] at stops
      cases stops
  | error fault =>
      rw [compiled] at stops
      exact ⟨fault, rfl, (Except.error.inj stops).symm⟩

/-- Wherever a text is cut while it is compiled, a character starts there or the text ends, so that compiling from the
bytes stops for nothing but an error of the template and gives the program of its characters. -/
theorem never_cut_inside_character (text : List Char) :
    Undivided text ∧ ∀ (format : EchoFormat) (template : String),
      compile format template text = lift (Program.compile format template (String.ofList text)) ∧
      ∀ halt, compile format template text = .error halt → ∃ fault, halt = .refused fault := by
  refine ⟨undivided text, fun format template => ⟨compile_eq format template text, fun halt stops => ?_⟩⟩
  obtain ⟨fault, _, same⟩ := refused_of_compile stops
  exact ⟨fault, same⟩

end Sliced

end Stencil
