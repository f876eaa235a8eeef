import Stencil.Text.Scan

set_option autoImplicit false

namespace Stencil.Template

-- The rest of a group in which `depth` parentheses are open, and the text behind it. In quotes a
-- backslash hides the character that follows.
def groupRest? (quote : Option Char) (depth : Nat) : List Char → Option (List Char × List Char)
  | [] => none
  | c :: rest =>
      match quote with
      | some q =>
          if c = '\\' then
            match rest with
            | [] => none
            | d :: rest => Text.prepend c (Text.prepend d (groupRest? (some q) depth rest))
          else if c = q then Text.prepend c (groupRest? none depth rest)
          else Text.prepend c (groupRest? (some q) depth rest)
      | none =>
          if c = '\'' || c = '"' then Text.prepend c (groupRest? (some c) depth rest)
          else if c = '(' then Text.prepend c (groupRest? none (depth + 1) rest)
          else if c = ')' then
            if depth ≤ 1 then some ([c], rest)
            else Text.prepend c (groupRest? none (depth - 1) rest)
          else Text.prepend c (groupRest? none depth rest)

def group? (text : List Char) : Option (List Char × List Char) := groupRest? none 0 text

def closingParen? (text : List Char) : Option Nat :=
  let before := text.takeWhile (· != '(')
  (group? (text.dropWhile (· != '('))).map fun (group, _) =>
    Text.byteSize before + Text.byteSize group - 1

theorem eq_append_of_groupRest? {quote : Option Char} {depth : Nat} {text group after : List Char}
    (found : groupRest? quote depth text = some (group, after)) : text = group ++ after := by
  fun_induction groupRest? quote depth text generalizing group <;> grind [Text.prepend_eq_some]

theorem length_of_group? {text group after : List Char} (found : group? text = some (group, after)) :
    after.length ≤ text.length := by
  rw [eq_append_of_groupRest? found, List.length_append]
  omega

end Stencil.Template
