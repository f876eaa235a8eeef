import Stencil.Text.Blank
import Stencil.Text.Scan

set_option autoImplicit false

namespace Stencil.Template

-- What stands before and after the first `or` between blanks outside quotes. The blank before it
-- belongs to neither part.
def divideAtOr (quote : Option Char) : List Char → Option (List Char × List Char)
  | [] => none
  | c :: rest =>
      match quote with
      | some q =>
          if c = '\\' then
            match rest with
            | [] => none
            | d :: rest => Text.prepend c (Text.prepend d (divideAtOr (some q) rest))
          else if c = q then Text.prepend c (divideAtOr none rest)
          else Text.prepend c (divideAtOr (some q) rest)
      | none =>
          if c = '\'' || c = '"' then Text.prepend c (divideAtOr (some c) rest)
          else
            match if Text.isAsciiBlank c then behindOr? rest else none with
            | some after => some ([], after)
            | none => Text.prepend c (divideAtOr none rest)
where
  behindOr? : List Char → Option (List Char)
    | 'o' :: 'r' :: d :: rest => if Text.isAsciiBlank d then some (d :: rest) else none
    | _ => none

def expandFallback (text : List Char) : List Char :=
  match text with
  | '$' :: _ =>
      match divideAtOr none text with
      | some (before, after) =>
          let left := Text.trimEnd before
          "isset(".toList ++ left ++ ") ? ".toList ++ left ++ " : ".toList ++ Text.trimStart after
      | none => text
  | _ => text

end Stencil.Template
