import Stencil.Proofs.Expr.Grammar
import Stencil.Proofs.Expr.Sliced
import Stencil.Proofs.Template.Cut
import Stencil.Proofs.Template.Division

set_option autoImplicit false

namespace Stencil

open Template

namespace Sliced

variable {ε : Type}

structure Enclosed where
  start : Nat
  body : Nat
  close : Nat
  stop : Nat

def placesOf (passed before opener inside closer : List Char) : Enclosed :=
  let start := Text.byteSize passed + Text.byteSize before
  let body := start + Text.byteSize opener
  let close := body + Text.byteSize inside
  ⟨start, body, close, close + Text.byteSize closer⟩

def enclosed? (opener closer text : List Char) (search : Nat) : Run ε (Option Enclosed) := do
  let rest ← sliceFrom text search
  match Text.find? opener rest with
  | none => return none
  | some passed =>
      let start := search + passed
      let body := start + Text.byteSize opener
      let inside ← sliceFrom text body
      return (Text.find? closer inside).map fun size => ⟨start, body, body + size, body + size + Text.byteSize closer⟩

def piecesAt (opener closer : List Char) (found : Nat → Enclosed → Run ε (List Piece)) (text : List Char) (line : Nat) :
    Nat → Nat → Run ε (List Piece)
  | 0, _ => .error .unfinished
  | rounds + 1, cursor => do
      match ← enclosed? opener closer text cursor with
      | none =>
          let rest ← sliceFrom text cursor
          return textPiece rest (← lineAt text line cursor)
      | some places =>
          let pieces ← found cursor places
          return pieces ++ (← piecesAt opener closer found text line rounds places.stop)

def commentAt (text : List Char) (line cursor : Nat) (places : Enclosed) : Run ε (List Piece) := do
  let front ← slice text cursor places.start
  let first ← lineAt text line cursor
  let content ← slice text places.body places.close
  return textPiece front first ++ [.comment content (← lineAt text line places.start)]

def comments (line : Nat) (text : List Char) : Run ε (List Piece) :=
  piecesAt commentOpener commentCloser (commentAt text line) text line (text.length + 1) 0

def orByte? (quote : Option UInt8) (place : Nat) : List UInt8 → Option (Nat × Nat)
  | [] => none
  | b :: rest =>
      match quote with
      | some q =>
          if b = '\\'.toUInt8 then
            match rest with
            | [] => none
            | _ :: rest => orByte? (some q) (place + 2) rest
          else if b = q then orByte? none (place + 1) rest
          else orByte? (some q) (place + 1) rest
      | none =>
          if b = '\''.toUInt8 || b = '"'.toUInt8 then orByte? (some b) (place + 1) rest
          else if Text.asciiTest Text.isAsciiBlank b && startsOr rest then some (place, place + 3)
          else orByte? none (place + 1) rest
where
  startsOr (rest : List UInt8) : Bool :=
    (Text.bytes ['o', 'r']).isPrefixOf rest && rest[2]?.any (Text.asciiTest Text.isAsciiBlank)

def fallback (text : List Char) : Run ε (List Char) :=
  match text with
  | '$' :: _ =>
      match orByte? none 0 (Text.bytes text) with
      | some (leftStop, rightStart) => do
          let before ← slice text 0 leftStop
          let after ← sliceFrom text rightStart
          let left := Text.trimEnd before
          return "isset(".toList ++ left ++ ") ? ".toList ++ left ++ " : ".toList ++ Text.trimStart after
      | none => return text
  | _ => return text

-- Of a hidden echo the byte in front of it is dropped.
def echoAt (kind : EchoKind) (write : List Char → Run ε (List Char)) (text : List Char) (line cursor : Nat)
    (places : Enclosed) : Run ε (List Piece) := do
  let inside ← slice text places.body places.close
  let front ← slice text cursor places.start
  if kind.hidden && front.getLast? = some '@' then
    let shown ← slice text cursor (← back places.start)
    let first ← lineAt text line cursor
    let source ← slice text places.start places.stop
    return textPiece shown first ++ textPiece source (← lineAt text line places.start)
  else
    let expression ← write inside
    let first ← lineAt text line cursor
    let source ← slice text places.start places.stop
    return textPiece front first ++ [.echo source expression (← lineAt text line places.start)]

def echoes (kind : EchoKind) (write : List Char → Run ε (List Char)) (line : Nat) (text : List Char) : Run ε (List Piece) :=
  piecesAt kind.opener kind.closer (echoAt kind write text line) text line (text.length + 1) 0

def regular (format : EchoFormat) (inside : List Char) : Run ε (List Char) := do
  return format.apply (← fallback (Text.trim inside))

structure IsMark (mark : List Char) : Prop where
  nonempty : mark ≠ []
  ascii : mark.all Text.isAscii = true
  unbroken : Text.breaks mark = 0

instance (mark : List Char) : Decidable (IsMark mark) :=
  decidable_of_iff (mark ≠ [] ∧ mark.all Text.isAscii = true ∧ Text.breaks mark = 0)
    ⟨fun ⟨nonempty, ascii, unbroken⟩ => ⟨nonempty, ascii, unbroken⟩,
      fun isMark => ⟨isMark.nonempty, isMark.ascii, isMark.unbroken⟩⟩

section Enclosing

variable {opener closer : List Char} (opens : IsMark opener) (closes : IsMark closer)

include opens closes

theorem enclosed_append (passed rest : List Char) :
    (enclosed? opener closer (passed ++ rest) (Text.byteSize passed) : Run ε _)
      = .ok ((cutBetween opener closer rest).map fun (before, inside, _) => placesOf passed before opener inside closer) := by
  rw [enclosed?, sliceFrom_append, ok_bind, Text.find_eq opens.ascii opens.nonempty, cutBetween]
  cases first : Text.cut opener rest with
  | none => rfl
  | some parts =>
      obtain ⟨before, inside⟩ := parts
      have whole : passed ++ rest = (passed ++ before ++ opener) ++ inside := by
        rw [Text.eq_append_of_cut opener rest before inside first]
        simp only [List.append_assoc]
      have place : Text.byteSize passed + Text.byteSize before + Text.byteSize opener
          = Text.byteSize (passed ++ before ++ opener) := by rw [Text.byteSize_append, Text.byteSize_append]
      simp only [Option.map_some, whole]
      rw [place, sliceFrom_append, ok_bind, ← place, Text.find_eq closes.ascii closes.nonempty]
      cases Text.cut closer inside <;> rfl

section Loop

variable (divide : Nat → List Char → List Piece) (made : List Char → List Char → Nat → List Piece)
  {found : Nat → Enclosed → Run ε (List Piece)} {text : List Char} {line : Nat}
  (absent : ∀ line text, cutBetween opener closer text = none → divide line text = textPiece text line)
  (present : ∀ line text before inside after, cutBetween opener closer text = some (before, inside, after) →
    divide line text = made before inside line ++ divide (line + Text.breaks before + Text.breaks inside) after)
  (makes : ∀ passed before inside after, text = passed ++ (before ++ (opener ++ inside ++ closer) ++ after) →
    found (Text.byteSize passed) (placesOf passed before opener inside closer)
      = .ok (made before inside (line + Text.breaks passed)))

include absent present makes

theorem piecesAt_append (rounds : Nat) (passed rest : List Char) (whole : text = passed ++ rest)
    (enough : rest.length < rounds) :
    piecesAt opener closer found text line rounds (Text.byteSize passed)
      = .ok (divide (line + Text.breaks passed) rest) := by
  induction rounds generalizing passed rest with
  | zero => exact absurd enough (Nat.not_lt_zero _)
  | succ rounds ih =>
      rw [piecesAt, whole, enclosed_append opens closes, ok_bind]
      cases cut : cutBetween opener closer rest with
      | none =>
          rw [absent _ rest cut]
          simp only [Option.map_none]
          rw [sliceFrom_append, ok_bind, lineAt_append]
          rfl
      | some parts =>
          obtain ⟨before, inside, after⟩ := parts
          obtain rfl := eq_append_of_cutBetween opener closer rest before inside after cut
          have fewer : after.length < rounds := by
            have some := List.length_pos_iff.mpr opens.nonempty
            simp only [List.length_append] at enough
            omega
          have behind := ih (passed ++ (before ++ (opener ++ inside ++ closer))) after
            (by rw [whole]; simp only [List.append_assoc]) fewer
          have place : (placesOf passed before opener inside closer).stop
              = Text.byteSize (passed ++ (before ++ (opener ++ inside ++ closer))) := by
            simp only [placesOf, Text.byteSize_append, Nat.add_assoc]
          have level : line + Text.breaks (passed ++ (before ++ (opener ++ inside ++ closer)))
              = line + Text.breaks passed + Text.breaks before + Text.breaks inside := by
            rw [breaks_append, breaks_append, breaks_enclosed opener closer opens.unbroken closes.unbroken]
            omega
          rw [level] at behind
          rw [present _ _ before inside after cut]
          simp only [Option.map_some]
          rw [makes passed before inside after whole, ok_bind, ← whole, place, behind]
          rfl

end Loop

end Enclosing

section Parts

variable {text passed before opener inside closer after : List Char} {line : Nat}
  (whole : text = passed ++ (before ++ (opener ++ inside ++ closer) ++ after))

include whole

theorem slice_front : (slice text (Text.byteSize passed) (placesOf passed before opener inside closer).start : Run ε _)
    = .ok before :=
  slice_of_cut passed (opener ++ inside ++ closer ++ after) (by rw [whole, List.append_assoc]) rfl rfl

theorem slice_inside : (slice text (placesOf passed before opener inside closer).body
    (placesOf passed before opener inside closer).close : Run ε _) = .ok inside :=
  slice_of_cut (passed ++ before ++ opener) (closer ++ after)
    (by rw [whole]; simp only [List.append_assoc]) (by rw [Text.byteSize_append, Text.byteSize_append]; rfl) rfl

theorem slice_source : (slice text (placesOf passed before opener inside closer).start
    (placesOf passed before opener inside closer).stop : Run ε _) = .ok (opener ++ inside ++ closer) :=
  slice_of_cut (passed ++ before) after (by rw [whole]; simp only [List.append_assoc])
    (by rw [Text.byteSize_append]; rfl)
    (by rw [Text.byteSize_append, Text.byteSize_append]; simp only [placesOf, Nat.add_assoc])

theorem lineAt_cursor : (lineAt text line (Text.byteSize passed) : Run ε _) = .ok (line + Text.breaks passed) :=
  lineAt_of_cut _ _ whole rfl line

theorem lineAt_start : (lineAt text line (placesOf passed before opener inside closer).start : Run ε _)
    = .ok (line + Text.breaks passed + Text.breaks before) := by
  rw [Nat.add_assoc, ← breaks_append]
  exact lineAt_of_cut _ (opener ++ inside ++ closer ++ after) (by rw [whole]; simp only [List.append_assoc])
    (Text.byteSize_append passed before) line

-- The text before an echo ends in one byte that is an `@`.
theorem slice_shown (hides : before.getLast? = some '@') :
    ∃ place, (back (placesOf passed before opener inside closer).start : Run ε _) = .ok place ∧
      (slice text (Text.byteSize passed) place : Run ε _) = .ok before.dropLast := by
  have parts : before = before.dropLast ++ ['@'] := (List.dropLast_append_getLast? '@' hides).symm
  have size : (placesOf passed before opener inside closer).start
      = Text.byteSize passed + Text.byteSize before.dropLast + 1 := by
    rw [parts, List.dropLast_concat, placesOf, Text.byteSize_append, ← Nat.add_assoc]
    rfl
  refine ⟨_, by rw [size]; rfl, ?_⟩
  refine slice_of_cut passed ('@' :: (opener ++ inside ++ closer ++ after)) ?_ rfl rfl
  rw [whole]
  nth_rewrite 1 [parts]
  simp only [List.append_assoc, List.cons_append, List.nil_append]

end Parts

theorem boundaries_of_enclosed {opener closer text : List Char} {search : Nat} {places : Enclosed} (opens : IsMark opener)
    (closes : IsMark closer) (found : (enclosed? opener closer text search : Run ε _) = .ok (some places)) :
    Text.Boundary text places.start ∧ Text.Boundary text places.body ∧ Text.Boundary text places.close ∧
      Text.Boundary text places.stop := by
  obtain ⟨rest, cut, _⟩ := (bind_eq_ok _ _ _).mp found
  obtain ⟨passed, rfl, rfl⟩ := cut_of_sliceFrom cut
  rw [enclosed_append opens closes] at found
  obtain ⟨⟨before, inside, after⟩, between, rfl⟩ := Option.map_eq_some_iff.mp (Except.ok.inj found)
  have whole := congrArg (passed ++ ·) (eq_append_of_cutBetween opener closer rest before inside after between)
  have source : (slice (passed ++ rest) _ _ : Run ε _) = .ok (opener ++ inside ++ closer) := slice_source whole
  have body : (slice (passed ++ rest) _ _ : Run ε _) = .ok inside := slice_inside whole
  obtain ⟨starts, stops⟩ := boundaries_of_slice source
  obtain ⟨opened, closed⟩ := boundaries_of_slice body
  exact ⟨starts, opened, closed, stops⟩

theorem boundary_of_hidden {text front : List Char} {cursor start : Nat}
    (cut : (slice text cursor start : Run ε _) = .ok front) (hides : front.getLast? = some '@') :
    0 < start ∧ Text.Boundary text (start - 1) := by
  obtain ⟨before, after, rfl, rfl, rfl⟩ := isSlice_of_slice cut
  rw [← List.dropLast_append_getLast? '@' hides, Text.byteSize_append, ← Nat.add_assoc, ← Text.byteSize_append]
  refine ⟨Nat.succ_pos _, Text.boundary_of_cut _ ('@' :: after) ?_ rfl⟩
  simp only [List.append_assoc, List.cons_append, List.nil_append]

theorem comments_eq (line : Nat) (text : List Char) : (comments line text : Run ε _) = .ok (divideComments line text) := by
  have opens : IsMark commentOpener := by decide
  have closes : IsMark commentCloser := by decide
  refine piecesAt_append opens closes divideComments
    (fun before inside line => textPiece before line ++ [.comment inside (line + Text.breaks before)])
    ?_ ?_ ?_ _ [] text rfl (Nat.lt_succ_self _)
  · intro line text absent
    rw [divideComments]
    split
    · rfl
    · rename_i found
      rw [absent] at found
      cases found
  · intro line text before inside after present
    rw [divideComments]
    split
    · rename_i found
      rw [present] at found
      cases found
    · rename_i found
      rw [present] at found
      cases found
      simp only [List.append_assoc, List.singleton_append]
  · intro passed before inside after whole
    rw [commentAt, slice_front whole, ok_bind, lineAt_cursor whole, ok_bind, slice_inside whole, ok_bind, lineAt_start whole]
    rfl

theorem echoAt_append (kind : EchoKind) (write : List Char → Run ε (List Char))
    (writes : ∀ inside, write inside = .ok (kind.expression inside)) {text : List Char} (line : Nat)
    (passed before inside after : List Char)
    (whole : text = passed ++ (before ++ (kind.opener ++ inside ++ kind.closer) ++ after)) :
    echoAt kind write text line (Text.byteSize passed) (placesOf passed before kind.opener inside kind.closer)
      = .ok (kind.pieces before inside (line + Text.breaks passed)) := by
  rw [echoAt, slice_inside whole, ok_bind, slice_front whole, ok_bind, EchoKind.pieces]
  by_cases hides : (kind.hidden && before.getLast? = some '@') = true
  · obtain ⟨place, behind, shown⟩ : ∃ place, (back _ : Run ε _) = .ok place ∧ _ :=
      slice_shown whole (of_decide_eq_true (Bool.and_eq_true_iff.mp hides).2)
    rw [if_pos hides, if_pos hides, behind, ok_bind, shown, ok_bind, lineAt_cursor whole, ok_bind, slice_source whole,
      ok_bind, lineAt_start whole]
    rfl
  · rw [if_neg hides, if_neg hides, writes, ok_bind, lineAt_cursor whole, ok_bind, slice_source whole, ok_bind,
      lineAt_start whole]
    rfl

theorem echoes_eq (kind : EchoKind) (opens : IsMark kind.opener) (closes : IsMark kind.closer)
    (write : List Char → Run ε (List Char)) (writes : ∀ inside, write inside = .ok (kind.expression inside)) (line : Nat)
    (text : List Char) : echoes kind write line text = .ok (divideEchoes kind line text) := by
  refine piecesAt_append opens closes (divideEchoes kind) kind.pieces ?_ ?_
    (echoAt_append kind write writes line) _ [] text rfl (Nat.lt_succ_self _)
  · intro line text absent
    rw [divideEchoes]
    split
    · rfl
    · rename_i found
      rw [absent] at found
      cases found
  · intro line text before inside after present
    rw [divideEchoes]
    split
    · rename_i found
      rw [present] at found
      cases found
    · rename_i found
      rw [present] at found
      cases found
      rfl

section Search

theorem ascii_of_none : ∀ q ∈ (none : Option Char), Text.isAscii q = true :=
  fun q known => absurd known (Option.not_mem_none q)

theorem orByte_high (quote : Option Char) (ascii : ∀ q ∈ quote, Text.isAscii q = true) (place : Nat)
    (others rest : List UInt8) (high : ∀ b ∈ others, 128 ≤ b) :
    orByte? (quote.map Char.toUInt8) place (others ++ rest)
      = orByte? (quote.map Char.toUInt8) (place + others.length) rest := by
  induction others generalizing place with
  | nil => rfl
  | cons b others ih =>
      obtain ⟨first, behind⟩ := List.forall_mem_cons.mp high
      have differs (d : Char) (narrow : Text.isAscii d = true) : b ≠ d.toUInt8 := Text.ne_of_high first narrow
      rw [List.length_cons, Nat.add_comm others.length, ← Nat.add_assoc, ← ih (place + 1) behind, List.cons_append]
      cases quote with
      | none =>
          simp only [Option.map_none, orByte?, differs _ (rfl : Text.isAscii '\'' = true),
            differs _ (rfl : Text.isAscii '"' = true), Text.asciiTest_high first, decide_false, Bool.or_self,
            Bool.false_and, Bool.false_eq_true, if_false]
      | some q =>
          rw [Option.map_some, orByte?.eq_def]
          simp only [differs _ (rfl : Text.isAscii '\\' = true), differs q (ascii q rfl), if_false]

section Steps

variable {quote : Char} (ascii : Text.isAscii quote = true) (place : Nat)

include ascii

theorem orByte_inside {c : Char} (plain : c ≠ '\\') (rest : List Char) :
    orByte? (some quote.toUInt8) place (Text.bytes (c :: rest))
      = orByte? ((if c = quote then none else some quote).map Char.toUInt8) (place + c.utf8Size) (Text.bytes rest) := by
  obtain ⟨others, encoded, size, high⟩ := Text.bytes_first c rest
  have known : ∀ q ∈ (if c = quote then none else some quote), Text.isAscii q = true := by
    split
    · exact ascii_of_none
    · simpa using ascii
  rw [encoded, orByte?.eq_def, ← size, ← Nat.add_assoc, ← orByte_high _ known (place + 1) others (Text.bytes rest) high]
  simp only [Text.firstByte_eq c (rfl : Text.isAscii '\\' = true), Text.firstByte_eq c ascii, if_neg plain]
  split <;> rfl

theorem orByte_escaped (d : Char) (rest : List Char) :
    orByte? (some quote.toUInt8) place (Text.bytes ('\\' :: d :: rest))
      = orByte? (some quote.toUInt8) (place + 1 + d.utf8Size) (Text.bytes rest) := by
  obtain ⟨others, encoded, size, high⟩ := Text.bytes_first d rest
  have passes := orByte_high (some quote) (by simpa using ascii) (place + 2) others (Text.bytes rest) high
  rw [Text.bytes_cons, Text.encode_ascii (rfl : Text.isAscii '\\' = true), encoded, List.singleton_append, orByte?,
    if_pos rfl, ← size, ← Nat.add_assoc]
  exact passes

end Steps

theorem startsOr_bytes (rest : List Char) : orByte?.startsOr (Text.bytes rest) = (divideAtOr.behindOr? rest).isSome := by
  rw [orByte?.startsOr, Text.prefix_bytes (by decide)]
  cases found : Text.behind? ['o', 'r'] rest with
  | none =>
      cases other : divideAtOr.behindOr? rest with
      | none => rfl
      | some after =>
          obtain ⟨_, _, _, rfl, rfl⟩ := (behindOr_eq_some rest after).mp other
          cases found
  | some after =>
      obtain rfl := Text.behind_eq_some.mp found
      cases after with
      | nil => rfl
      | cons d more =>
          have third : (Text.bytes (['o', 'r'] ++ d :: more))[2]? = some (Text.firstByte d) := Text.byte_at ['o', 'r'] d more
          rw [third, Option.any_some, Text.asciiTest_first ascii_of_blank]
          by_cases blank : Text.isAsciiBlank d = true <;> simp [divideAtOr.behindOr?, blank]

def placesAround (place : Nat) (parts : Option (List Char × List Char)) : Option (Nat × Nat) :=
  parts.map fun (before, _) => (place + Text.byteSize before, place + Text.byteSize before + 3)

theorem placesAround_prepend (place : Nat) (c : Char) (parts : Option (List Char × List Char)) :
    placesAround place (Text.prepend c parts) = placesAround (place + c.utf8Size) parts := by
  cases parts with
  | none => rfl
  | some parts => simp only [placesAround, Text.prepend, Option.map_some, Text.byteSize, Nat.add_assoc]

theorem orByte_quoted {c : Char} (quoted : (c = '\'' || c = '"') = true) (place : Nat) (rest : List Char) :
    orByte? none place (Text.bytes (c :: rest)) = orByte? (some c.toUInt8) (place + c.utf8Size) (Text.bytes rest) := by
  have marks : c = '\'' ∨ c = '"' := by simpa using quoted
  rcases marks with rfl | rfl <;> rfl

theorem orByte_bare {c : Char} (unquoted : ¬ (c = '\'' || c = '"') = true) (place : Nat) (rest : List Char) :
    orByte? none place (Text.bytes (c :: rest)) =
      if Text.isAsciiBlank c && (divideAtOr.behindOr? rest).isSome then some (place, place + 3)
      else orByte? none (place + c.utf8Size) (Text.bytes rest) := by
  obtain ⟨others, encoded, size, high⟩ := Text.bytes_first c rest
  have passes : orByte? none (place + 1) (others ++ Text.bytes rest)
      = orByte? none (place + 1 + others.length) (Text.bytes rest) := orByte_high none ascii_of_none _ others _ high
  have tested : (Text.asciiTest Text.isAsciiBlank (Text.firstByte c) && orByte?.startsOr (others ++ Text.bytes rest))
      = (Text.isAsciiBlank c && (divideAtOr.behindOr? rest).isSome) := by
    rw [Text.asciiTest_first ascii_of_blank]
    by_cases blank : Text.isAsciiBlank c = true
    · have single : c.utf8Size + 0 = 1 := byteSize_of_blank c blank
      obtain rfl : others = [] := List.length_eq_zero_iff.mp (by omega)
      rw [List.nil_append, startsOr_bytes]
    · rw [Bool.eq_false_iff.mpr blank, Bool.false_and, Bool.false_and]
  rw [encoded, orByte?.eq_def, ← size, ← Nat.add_assoc, ← passes]
  simp only [Text.firstByte_eq c (rfl : Text.isAscii '\'' = true), Text.firstByte_eq c (rfl : Text.isAscii '"' = true),
    if_neg unquoted, tested]

-- By induction on the search among the characters.
theorem orByte_bytes (quote : Option Char) (ascii : ∀ q ∈ quote, Text.isAscii q = true) (place : Nat) (text : List Char) :
    orByte? (quote.map Char.toUInt8) place (Text.bytes text) = placesAround place (divideAtOr quote text) := by
  fun_induction divideAtOr quote text generalizing place with
  | case1 => rfl
  | case2 => rfl
  | case3 q d rest ih =>
      rw [Option.map_some, orByte_escaped (ascii q rfl), placesAround_prepend, placesAround_prepend]
      exact ih ascii _
  | case4 rest q plain ih =>
      rw [Option.map_some, orByte_inside (ascii q rfl) place plain, if_pos rfl, placesAround_prepend]
      exact ih ascii_of_none _
  | case5 c rest q plain other ih =>
      rw [Option.map_some, orByte_inside (ascii q rfl) place plain, if_neg other, placesAround_prepend]
      exact ih ascii _
  | case6 c rest quoted ih =>
      have narrow : Text.isAscii c = true := ascii_of_quote (by simpa using quoted)
      rw [Option.map_none, orByte_quoted quoted, placesAround_prepend]
      exact ih (by simpa using narrow) _
  | case7 c rest unquoted after found =>
      by_cases blank : Text.isAsciiBlank c = true
      · rw [if_pos blank] at found
        rw [Option.map_none, orByte_bare unquoted, blank, found, Bool.true_and, Option.isSome_some, if_pos rfl]
        rfl
      · rw [if_neg blank] at found
        cases found
  | case8 c rest unquoted absent ih =>
      have tested : (Text.isAsciiBlank c && (divideAtOr.behindOr? rest).isSome) = false := by
        by_cases blank : Text.isAsciiBlank c = true
        · rw [if_pos blank] at absent
          rw [absent, Option.isSome_none, Bool.and_false]
        · rw [Bool.eq_false_iff.mpr blank, Bool.false_and]
      rw [Option.map_none, orByte_bare unquoted, tested, if_neg Bool.false_ne_true, placesAround_prepend]
      exact ih ascii_of_none _

end Search

theorem divided_at_or {quote : Option Char} {text before after : List Char}
    (found : divideAtOr quote text = some (before, after)) :
    ∃ blank, Text.isAsciiBlank blank = true ∧ text = before ++ ([blank, 'o', 'r'] ++ after) := by
  fun_induction divideAtOr quote text generalizing before with
  | case1 => cases found
  | case2 => cases found
  | case3 q d rest ih =>
      obtain ⟨outer, inside, rfl⟩ := Text.prepend_eq_some.mp found
      obtain ⟨inner, within, rfl⟩ := Text.prepend_eq_some.mp inside
      obtain ⟨blank, skipped, rfl⟩ := ih within
      exact ⟨blank, skipped, rfl⟩
  | case4 _ _ _ ih | case5 _ _ _ _ _ ih | case6 _ _ _ ih | case8 _ _ _ _ ih =>
      obtain ⟨inner, inside, rfl⟩ := Text.prepend_eq_some.mp found
      obtain ⟨blank, skipped, rfl⟩ := ih inside
      exact ⟨blank, skipped, rfl⟩
  | case7 c rest unquoted left here =>
      obtain ⟨rfl, rfl⟩ := Prod.mk.inj (Option.some.inj found)
      by_cases blank : Text.isAsciiBlank c = true
      · rw [if_pos blank] at here
        obtain ⟨_, _, _, rfl, rfl⟩ := (behindOr_eq_some rest left).mp here
        exact ⟨c, blank, rfl⟩
      · rw [if_neg blank] at here
        cases here

theorem parts_of_orByte {text : List Char} {leftStop rightStart : Nat}
    (found : orByte? none 0 (Text.bytes text) = some (leftStop, rightStart)) :
    ∃ before between after, divideAtOr none text = some (before, after) ∧ text = before ++ (between ++ after) ∧
      Text.byteSize before = leftStop ∧ Text.byteSize (before ++ between) = rightStart := by
  have whole : orByte? none 0 (Text.bytes text) = placesAround 0 (divideAtOr none text) := orByte_bytes none ascii_of_none 0 text
  rw [whole] at found
  obtain ⟨⟨before, after⟩, divided, same⟩ := Option.map_eq_some_iff.mp found
  obtain ⟨rfl, rfl⟩ := Prod.mk.inj same
  obtain ⟨blank, skipped, cut⟩ := divided_at_or divided
  have single : Text.byteSize [blank] = 1 := byteSize_of_blank blank skipped
  have size : Text.byteSize [blank, 'o', 'r'] = 3 := by
    rw [← List.singleton_append, Text.byteSize_append, single]
    rfl
  exact ⟨before, [blank, 'o', 'r'], after, divided, cut, (Nat.zero_add _).symm, by rw [Text.byteSize_append, size, Nat.zero_add]⟩

theorem boundaries_of_orByte {text : List Char} {leftStop rightStart : Nat}
    (found : orByte? none 0 (Text.bytes text) = some (leftStop, rightStart)) :
    Text.Boundary text leftStop ∧ Text.Boundary text rightStart := by
  obtain ⟨before, between, after, _, rfl, rfl, rfl⟩ := parts_of_orByte found
  refine ⟨Text.boundary_append _ _, ?_⟩
  rw [← List.append_assoc]
  exact Text.boundary_append _ _

example : orByte? none 0 (Text.bytes "$a['\\é'] or 'ü'".toList) = some (9, 12) := by decide +kernel

theorem fallback_eq (text : List Char) : (fallback text : Run ε _) = .ok (expandFallback text) := by
  by_cases dollar : ∃ rest, text = '$' :: rest
  · obtain ⟨rest, rfl⟩ := dollar
    rw [fallback, expandFallback]
    cases found : orByte? none 0 (Text.bytes ('$' :: rest)) with
    | none =>
        have absent : divideAtOr none ('$' :: rest) = none := by
          have whole : orByte? none 0 (Text.bytes ('$' :: rest)) = placesAround 0 (divideAtOr none ('$' :: rest)) :=
            orByte_bytes none ascii_of_none 0 _
          exact Option.map_eq_none_iff.mp (whole.symm.trans found)
        rw [absent]
        rfl
    | some places =>
        obtain ⟨leftStop, rightStart⟩ := places
        obtain ⟨before, between, after, divided, cut, first, second⟩ := parts_of_orByte found
        have left : (slice ('$' :: rest) 0 leftStop : Run ε _) = .ok before :=
          slice_of_cut [] _ cut rfl (by rw [Nat.zero_add, first])
        have right : (sliceFrom ('$' :: rest) rightStart : Run ε _) = .ok after := by
          rw [cut, ← List.append_assoc, ← second]
          exact sliceFrom_append _ after
        simp only [divided]
        rw [left, ok_bind, right]
        rfl
  · have other : ∀ rest, text = '$' :: rest → False := fun rest same => dollar ⟨rest, same⟩
    rw [fallback, expandFallback]
    · rfl
    · exact other
    · exact other

theorem regular_eq (format : EchoFormat) (inside : List Char) :
    (regular format inside : Run ε _) = .ok ((EchoKind.regular format).expression inside) := by
  rw [regular, fallback_eq]
  rfl

end Sliced

end Stencil
