import Stencil.Decimal.Read
import Stencil.Expr.Token
import Stencil.Text.Blank
import Stencil.Text.Scan

set_option autoImplicit false

namespace Stencil

def isNameChar (c : Char) : Bool := c.isAlphanum || c = '_'

def escaped? (quote c : Char) : Option Char :=
  if c = 'n' then some '\n'
  else if c = 't' then some '\t'
  else if c = 'r' then some '\r'
  else if c = '\\' || c = quote then some c
  else none

def quotedText? (quote : Char) : List Char → Option (List Char × List Char)
  | [] => none
  | ['\\'] => none
  | '\\' :: c :: rest =>
      (quotedText? quote rest).map fun (content, after) =>
        match escaped? quote c with
        | some plain => (plain :: content, after)
        | none => ('\\' :: c :: content, after)
  | c :: rest =>
      if c = quote then some ([], rest)
      else (quotedText? quote rest).map fun (content, after) => (c :: content, after)

theorem length_of_quotedText? {quote : Char} {text content after : List Char}
    (found : quotedText? quote text = some (content, after)) : after.length < text.length := by
  fun_induction quotedText? quote text generalizing content with
  | case1 => simp at found
  | case2 => simp at found
  | case3 c rest ih =>
      simp only [Option.map_eq_some_iff] at found
      obtain ⟨⟨inner, tail⟩, here, same⟩ := found
      have : tail = after := by
        split at same <;> simp_all
      subst this
      have shorter : tail.length < rest.length := ih here
      simp only [List.length_cons]; omega
  | case4 => simp_all
  | case5 c rest _ _ _ ih =>
      simp only [Option.map_eq_some_iff, Prod.mk.injEq] at found
      obtain ⟨⟨inner, tail⟩, here, _, rfl⟩ := found
      have shorter : tail.length < rest.length := ih here
      simp only [List.length_cons]; omega

def greatestInteger : Nat := 0x7FFFFFFFFFFFFFFF

-- A number starts with a digit. A point belongs to it only with a digit on its other side.
def numberToken (text : List Char) : Except ParseFault (Token × List Char) :=
  let whole := text.takeWhile Decimal.isDigit
  match text.dropWhile Decimal.isDigit with
  | '.' :: d :: rest =>
      if Decimal.isDigit d then
        let fraction := (d :: rest).takeWhile Decimal.isDigit
        .ok (.float (Decimal.nearest (Decimal.natOfDigits (whole ++ fraction)) (-(fraction.length : Int))),
          (d :: rest).dropWhile Decimal.isDigit)
      else integer whole ('.' :: d :: rest)
  | after => integer whole after
where
  integer (digits after : List Char) : Except ParseFault (Token × List Char) :=
    let n := Decimal.natOfDigits digits
    if greatestInteger < n then .error (.tooLarge (String.ofList digits)) else .ok (.int n, after)

def symbol? (text : List Char) : Option (Symbol × List Char) :=
  Symbol.all.findSome? fun s => (Text.behind? s.spelling text).map fun after => (s, after)

def firstToken (c : Char) (rest : List Char) : Except ParseFault (Token × List Char) :=
  if c = '$' then
    let name := rest.takeWhile isNameChar
    match name with
    | [] => .error .noVariableName
    | d :: _ =>
        if Decimal.isDigit d then .error .digitFirst
        else .ok (.variableName (String.ofList name), rest.dropWhile isNameChar)
  else if c = '\'' || c = '"' then
    match quotedText? c rest with
    | some (content, after) => .ok (.text (String.ofList content), after)
    | none => .error .unterminated
  else if Decimal.isDigit c then numberToken (c :: rest)
  else if isNameChar c then
    .ok (.word (String.ofList ((c :: rest).takeWhile isNameChar)), (c :: rest).dropWhile isNameChar)
  else
    match symbol? (c :: rest) with
    | some (s, after) => .ok (.symbol s, after)
    | none => .error (.unexpectedCharacter c)

theorem length_dropWhile_cons {p : Char → Bool} {c : Char} (rest : List Char) (holds : p c = true) :
    ((c :: rest).dropWhile p).length < (c :: rest).length := by
  simp only [List.dropWhile_cons, holds, if_true, List.length_cons]
  have := (List.dropWhile_sublist p (l := rest)).length_le
  omega

theorem length_of_integer {digits after left : List Char} {token : Token}
    (found : numberToken.integer digits after = .ok (token, left)) : left = after := by
  unfold numberToken.integer at found
  simp only at found
  split at found
  · simp at found
  · simp_all

theorem length_of_numberToken {c : Char} {rest after : List Char} {token : Token}
    (digit : Decimal.isDigit c = true) (found : numberToken (c :: rest) = .ok (token, after)) :
    after.length < (c :: rest).length := by
  have shorter := length_dropWhile_cons rest digit
  unfold numberToken at found
  simp only at found
  split at found
  · rename_i d tail shape
    rw [shape] at shorter
    split at found
    · simp only [Except.ok.injEq, Prod.mk.injEq] at found
      obtain ⟨_, rfl⟩ := found
      have := (List.dropWhile_sublist Decimal.isDigit (l := d :: tail)).length_le
      simp only [List.length_cons] at *
      omega
    · rw [length_of_integer found]
      exact shorter
  · rw [length_of_integer found]
    exact shorter

theorem length_of_symbol? {text after : List Char} {s : Symbol}
    (found : symbol? text = some (s, after)) : after.length < text.length := by
  unfold symbol? at found
  obtain ⟨s', _, here⟩ := List.exists_of_findSome?_eq_some found
  simp only [Option.map_eq_some_iff, Prod.mk.injEq] at here
  obtain ⟨tail, split, rfl, rfl⟩ := here
  have := Text.behind_eq_some.mp split
  have positive : 0 < s'.spelling.length := by cases s' <;> decide
  rw [this, List.length_append]
  omega

theorem length_of_firstToken {c : Char} {rest after : List Char} {token : Token}
    (found : firstToken c rest = .ok (token, after)) : after.length < (c :: rest).length := by
  unfold firstToken at found
  split at found
  · simp only at found
    split at found
    · simp at found
    · split at found
      · simp at found
      · simp only [Except.ok.injEq, Prod.mk.injEq] at found
        obtain ⟨_, rfl⟩ := found
        have := (List.dropWhile_sublist isNameChar (l := rest)).length_le
        simp only [List.length_cons]; omega
  · split at found
    · split at found
      · rename_i content tail here
        simp only [Except.ok.injEq, Prod.mk.injEq] at found
        obtain ⟨_, rfl⟩ := found
        have := length_of_quotedText? here
        simp only [List.length_cons]; omega
      · simp at found
    · split at found
      · rename_i digit
        exact length_of_numberToken digit found
      · split at found
        · rename_i name
          simp only [Except.ok.injEq, Prod.mk.injEq] at found
          obtain ⟨_, rfl⟩ := found
          exact length_dropWhile_cons rest name
        · split at found
          · rename_i s tail here
            simp only [Except.ok.injEq, Prod.mk.injEq] at found
            obtain ⟨_, rfl⟩ := found
            exact length_of_symbol? here
          · simp at found

def tokensFrom (offset : Nat) (text : List Char) : Except ParseError (List Located) :=
  match text with
  | [] => .ok []
  | c :: rest =>
      if Text.isAsciiBlank c then tokensFrom (offset + 1) rest
      else
        match _found : firstToken c rest with
        | .error fault => .error ⟨fault, offset⟩
        | .ok (token, after) =>
            let passed := (c :: rest).take ((c :: rest).length - after.length)
            (tokensFrom (offset + Text.byteSize passed) after).map (⟨token, offset⟩ :: ·)
termination_by text.length
decreasing_by
  · simp
  · exact length_of_firstToken _found

def tokenize (text : List Char) : Except ParseError (List Located) := tokensFrom 0 text

end Stencil
