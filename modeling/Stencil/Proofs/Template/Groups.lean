import Stencil.Proofs.Expr.Enclosed
import Stencil.Proofs.Expr.Passes
import Stencil.Proofs.Template.Cut

set_option autoImplicit false

namespace Stencil

namespace Text

def prependAll (passed : List Char) (parts : Option (List Char × List Char)) : Option (List Char × List Char) :=
  parts.map fun (before, after) => (passed ++ before, after)

theorem prependAll_nil (parts : Option (List Char × List Char)) : prependAll [] parts = parts := by
  cases parts <;> rfl

theorem prepend_prependAll (c : Char) (passed : List Char) (parts : Option (List Char × List Char)) :
    prepend c (prependAll passed parts) = prependAll (c :: passed) parts := by
  cases parts <;> rfl

theorem prependAll_prependAll (passed others : List Char) (parts : Option (List Char × List Char)) :
    prependAll passed (prependAll others parts) = prependAll (passed ++ others) parts := by
  cases parts with
  | none => rfl
  | some parts => exact congrArg (fun before => some (before, parts.2)) (List.append_assoc ..).symm

end Text

open Text (prependAll)

namespace Template

section Passing

variable {quote : Char} {depth : Nat} {c : Char} {passed : List Char}

theorem groupRest_inside (rest : List Char) (plain : c ≠ '\\') :
    groupRest? (some quote) depth (c :: rest)
      = Text.prepend c (groupRest? (if c = quote then none else some quote) depth rest) := by
  rw [groupRest?.eq_def]
  simp only [if_neg plain]
  split <;> rfl

theorem groupRest_quoted (quoted : Token.Quoted quote passed) (depth : Nat) (tail : List Char) :
    groupRest? (some quote) depth (passed ++ tail) = prependAll passed (groupRest? none depth tail) := by
  induction quoted with
  | closed plain =>
      rw [List.singleton_append, groupRest_inside tail plain, if_pos rfl, ← Text.prepend_prependAll, Text.prependAll_nil]
  | escaped c _ ih =>
      simp only [List.cons_append, groupRest?, if_true, ih, Text.prepend_prependAll]
  | plain plain other _ ih =>
      rw [List.cons_append, groupRest_inside _ plain, if_neg other, ih, Text.prepend_prependAll]

theorem groupRest_unclosed (quote : Char) (depth : Nat) (text : List Char) (unclosed : quotedText? quote text = none) :
    groupRest? (some quote) depth text = none := by
  fun_induction quotedText? quote text with
  | case1 => rw [groupRest?]
  | case2 => simp only [groupRest?, if_true]
  | case3 c rest ih =>
      simp only [groupRest?, if_true, ih (Option.map_eq_none_iff.mp unclosed), Text.prepend, Option.map_none]
  | case4 => cases unclosed
  | case5 c rest lone escape other ih =>
      rw [groupRest_inside rest (Token.plain_of_cases lone escape), if_neg other,
        ih (Option.map_eq_none_iff.mp unclosed)]
      rfl

def Bare (c : Char) : Prop := c ≠ '\'' ∧ c ≠ '"' ∧ c ≠ '(' ∧ c ≠ ')'

instance : DecidablePred Bare := fun _ => inferInstanceAs (Decidable (_ ∧ _ ∧ _ ∧ _))

theorem groupRest_bare (bare : ∀ c ∈ passed, Bare c) (depth : Nat) (tail : List Char) :
    groupRest? none depth (passed ++ tail) = prependAll passed (groupRest? none depth tail) := by
  induction passed with
  | nil => exact (Text.prependAll_nil _).symm
  | cons c rest ih =>
      obtain ⟨single, double, opens, closes⟩ := bare c List.mem_cons_self
      rw [List.cons_append, groupRest?.eq_def]
      simp only [single, double, opens, closes, decide_false, Bool.or_self, Bool.false_eq_true, if_false]
      rw [ih fun d inside => bare d (List.mem_cons_of_mem c inside), Text.prepend_prependAll]

theorem bare_of_nameChar (c : Char) (named : isNameChar c = true) : Bare c := by
  obtain ⟨_, _, single, double⟩ := Token.nameChar_plain c named
  refine ⟨single, double, ?_, ?_⟩
  · rintro rfl
    cases named
  · rintro rfl
    cases named

theorem bare_of_spelling (s : Symbol) (opens : s ≠ .openParen) (closes : s ≠ .closeParen) : ∀ c ∈ s.spelling, Bare c := by
  have all : (s.spelling.all fun c => decide (Bare c)) = true := by
    cases s with
    | openParen => exact absurd rfl opens
    | closeParen => exact absurd rfl closes
    | _ => decide
  simpa using all

theorem bare_of_blank (c : Char) (blank : Text.isAsciiBlank c) : Bare c := by
  simp only [Text.isAsciiBlank, Bool.or_eq_true, decide_eq_true_eq] at blank
  rcases blank with (((rfl | rfl) | rfl) | rfl) | rfl <;> decide

-- How the search goes over a token. It counts a parenthesis, and passes over all others.
inductive Steps : Char → List Char → Token → Prop where
  | opens : Steps '(' [] (.symbol .openParen)
  | closes : Steps ')' [] (.symbol .closeParen)
  | other {c : Char} {passed : List Char} {token : Token} (level : token.nesting = 0)
      (passes : ∀ depth tail,
        groupRest? none depth (c :: passed ++ tail) = prependAll (c :: passed) (groupRest? none depth tail)) :
      Steps c passed token

theorem nesting_of_ne (token : Token) (opens : token ≠ .symbol .openParen) (closes : token ≠ .symbol .closeParen) :
    token.nesting = 0 := by
  cases token with
  | symbol s =>
      cases s with
      | openParen => exact absurd rfl opens
      | closeParen => exact absurd rfl closes
      | _ => rfl
  | _ => rfl

theorem steps_of_firstToken (rest left : List Char) (token : Token) (first : firstToken c rest = .ok (token, left)) :
    ∃ passed, rest = passed ++ left ∧ Steps c passed token := by
  by_cases opens : token = .symbol .openParen
  · subst opens
    obtain ⟨rfl, rfl⟩ := List.cons.inj (Token.spelling_of_firstToken c rest left _ first)
    exact ⟨[], rfl, .opens⟩
  by_cases closes : token = .symbol .closeParen
  · subst closes
    obtain ⟨rfl, rfl⟩ := List.cons.inj (Token.spelling_of_firstToken c rest left _ first)
    exact ⟨[], rfl, .closes⟩
  have level := nesting_of_ne token opens closes
  by_cases quote : c = '\'' || c = '"'
  · obtain ⟨passed, rfl, quoted⟩ := Token.quoted_of_firstToken c rest left token quote first
    refine ⟨passed, rfl, .other level fun depth tail => ?_⟩
    rw [List.cons_append, groupRest?, if_pos quote, groupRest_quoted quoted, Text.prepend_prependAll]
  · have spelled (s : Symbol) (same : token = .symbol s) : ∀ d ∈ s.spelling, Bare d :=
      bare_of_spelling s (fun is => opens (is ▸ same)) fun is => closes (is ▸ same)
    obtain ⟨passed, rfl, bare⟩ :=
      Token.kind_of_firstToken bare_of_nameChar (by decide) (by decide) c rest left token quote spelled first
    exact ⟨passed, rfl, .other level (groupRest_bare bare)⟩

end Passing

def closing? (depth : Nat) : List Located → Option (Located × List Located)
  | [] => none
  | token :: rest =>
      if token.token.nesting = 1 then closing? (depth + 1) rest
      else if token.token.nesting = -1 then if depth ≤ 1 then some (token, rest) else closing? (depth - 1) rest
      else closing? depth rest

section Levels

variable {token : Located} (depth : Nat) (rest : List Located)

theorem closing_opens (level : token.token.nesting = 1) : closing? depth (token :: rest) = closing? (depth + 1) rest := by
  rw [closing?, if_pos level]

theorem closing_closes (level : token.token.nesting = -1) :
    closing? depth (token :: rest) = if depth ≤ 1 then some (token, rest) else closing? (depth - 1) rest := by
  rw [closing?, level, if_neg (by decide), if_pos rfl]

theorem closing_other (level : token.token.nesting = 0) : closing? depth (token :: rest) = closing? depth rest := by
  rw [closing?, level, if_neg (by decide), if_neg (by decide)]

theorem closing_cons (token : Located) (positive : 0 < depth) :
    (depth + token.token.nesting = 0 ∧ closing? depth (token :: rest) = some (token, rest)) ∨
      ∃ next : Nat, 0 < next ∧ (next : Int) = depth + token.token.nesting ∧
        closing? depth (token :: rest) = closing? next rest := by
  by_cases opens : token.token = .symbol .openParen
  · have level : token.token.nesting = 1 := by rw [opens, Token.nesting]
    exact .inr ⟨depth + 1, by omega, by omega, closing_opens depth rest level⟩
  by_cases closes : token.token = .symbol .closeParen
  · have level : token.token.nesting = -1 := by rw [closes, Token.nesting]
    rw [closing_closes depth rest level]
    by_cases last : depth ≤ 1
    · exact .inl ⟨by omega, if_pos last⟩
    · exact .inr ⟨depth - 1, by omega, by omega, if_neg last⟩
  · have level := nesting_of_ne token.token opens closes
    exact .inr ⟨depth, positive, by omega, closing_other depth rest level⟩

end Levels

theorem open_before_closing (depth : Nat) (located : List Located) (last : Located) (positive : 0 < depth)
    (found : closing? depth located = some (last, [])) :
    ∃ early, located = early ++ [last] ∧ depth + nesting located = 0 ∧
      ∀ part, part <+: early → 0 < depth + nesting part := by
  induction located generalizing depth with
  | nil => cases found
  | cons token rest ih =>
      rcases closing_cons depth rest token positive with ⟨zero, closed⟩ | ⟨next, further, level, passed⟩
      · obtain ⟨rfl, rfl⟩ := Prod.mk.inj (Option.some.inj (closed.symm.trans found))
        refine ⟨[], rfl, by rw [nesting, nesting]; omega, fun part within => ?_⟩
        rw [List.prefix_nil.mp within, nesting]
        omega
      · obtain ⟨early, rfl, total, above⟩ := ih next further (passed.symm.trans found)
        refine ⟨token :: early, rfl, by rw [nesting]; omega, fun part within => ?_⟩
        rcases List.prefix_cons_iff.mp within with rfl | ⟨others, rfl, behind⟩
        · rw [nesting]
          omega
        · have positive := above others behind
          rw [nesting]
          omega

theorem closing_of_returns (depth : Nat) (located : List Located) (positive : 0 < depth)
    (total : depth + nesting located = 0)
    (first : ∀ part, part <+: located → depth + nesting part = 0 → part = located) :
    ∃ early last, located = early ++ [last] ∧ closing? depth located = some (last, []) := by
  induction located generalizing depth with
  | nil =>
      rw [nesting] at total
      omega
  | cons token rest ih =>
      rcases closing_cons depth rest token positive with ⟨zero, closed⟩ | ⟨next, further, level, passed⟩
      · have ended : [token] = token :: rest := by
          refine first [token] (List.prefix_append [token] rest) ?_
          rw [nesting, nesting]
          omega
        obtain rfl := (List.cons.inj ended).2
        exact ⟨[], token, rfl, closed⟩
      · obtain ⟨early, last, rfl, closes⟩ := ih next further (by rw [nesting] at total; omega) fun part within zero => by
          have whole := first (token :: part) ((List.prefix_cons_inj token).mpr within) (by rw [nesting]; omega)
          exact (List.cons.inj whole).2
        exact ⟨token :: early, last, rfl, passed.trans closes⟩

inductive Scans (depth offset : Nat) (text after : List Char) : Option (Located × List Located) → Prop where
  | closed {group rest : List Char} {last : Located} {behind : List Located} (whole : text = group ++ rest)
      (found : groupRest? none depth (text ++ after) = some (group, rest ++ after))
      (place : last.offset + 1 = offset + Text.byteSize group) (closes : last.token = .symbol .closeParen)
      (read : tokensFrom (last.offset + 1) rest = .ok behind) : Scans depth offset text after (some (last, behind))
  | unclosed (left : Nat) (found : groupRest? none depth (text ++ after) = prependAll text (groupRest? none left after)) :
      Scans depth offset text after none

section Scanning

variable {depth offset : Nat} {after : List Char}

theorem scans_behind (passed left : List Char) (inner : Nat)
    (step : groupRest? none depth (passed ++ (left ++ after)) = prependAll passed (groupRest? none inner (left ++ after)))
    (outcome : Option (Located × List Located)) (scans : Scans inner (offset + Text.byteSize passed) left after outcome) :
    Scans depth offset (passed ++ left) after outcome := by
  cases scans with
  | @closed group rest last behind whole found place closes read =>
      have together : passed ++ left = (passed ++ group) ++ rest := by rw [whole, List.append_assoc]
      refine .closed together ?_ ?_ closes read
      · rw [List.append_assoc, step, found]
        rfl
      · rw [place, Text.byteSize_append, Nat.add_assoc]
  | unclosed d found => exact .unclosed d (by rw [List.append_assoc, step, found, Text.prependAll_prependAll])

theorem scans_token {c : Char} {passed left : List Char} {token : Token} {behind : List Located}
    (steps : Steps c passed token) (later : tokensFrom (offset + Text.byteSize (c :: passed)) left = .ok behind)
    (again : ∀ inner, Scans inner (offset + Text.byteSize (c :: passed)) left after (closing? inner behind)) :
    Scans depth offset (c :: (passed ++ left)) after (closing? depth (⟨token, offset⟩ :: behind)) := by
  cases steps with
  | opens =>
      refine scans_behind ['('] left (depth + 1) ?_ _ (again (depth + 1))
      rw [List.singleton_append, groupRest?, if_neg (by decide), if_pos rfl, ← Text.prepend_prependAll,
        Text.prependAll_nil]
  | closes =>
      have here (tail : List Char) : groupRest? none depth (')' :: tail)
          = if depth ≤ 1 then some ([')'], tail) else Text.prepend ')' (groupRest? none (depth - 1) tail) := by
        rw [groupRest?, if_neg (by decide), if_neg (by decide), if_pos rfl]
      rw [closing_closes depth behind rfl]
      by_cases last : depth ≤ 1
      · rw [if_pos last]
        have whole : ')' :: ([] ++ left) = [')'] ++ left := rfl
        refine .closed whole ?_ rfl rfl later
        rw [whole, List.append_assoc, List.singleton_append, here, if_pos last]
      · rw [if_neg last]
        refine scans_behind [')'] left (depth - 1) ?_ _ (again (depth - 1))
        rw [List.singleton_append, here, if_neg last, ← Text.prepend_prependAll, Text.prependAll_nil]
  | other level passes =>
      rw [closing_other depth behind level]
      exact scans_behind (c :: passed) left depth (passes depth _) _ (again depth)

-- By induction on how the tokens are read.
theorem scans_tokens (depth offset : Nat) (text after : List Char) (located : List Located)
    (read : tokensFrom offset text = .ok located) : Scans depth offset text after (closing? depth located) := by
  have tokenized := tokenized_of_tokensFrom offset text located read
  clear read
  induction tokenized generalizing depth with
  | ended => exact .unclosed depth (Text.prependAll_nil _).symm
  | @blank offset c rest located skipped _ ih =>
      exact scans_behind [c] rest depth (groupRest_bare (by simpa using bare_of_blank c skipped) depth _) _ (ih depth)
  | @token offset c passed left token located _ first behind ih =>
      obtain ⟨passed', whole, steps⟩ := steps_of_firstToken (passed ++ left) left token first
      obtain rfl := List.append_cancel_right whole
      exact scans_token steps (tokensFrom_of_tokenized _ _ _ behind) ih

end Scanning

theorem tokenize_group (rest : List Char) (located : List Located) (read : tokenize ('(' :: rest) = .ok located) :
    ∃ behind, located = ⟨.symbol .openParen, 0⟩ :: behind := by
  obtain ⟨behind, _, same⟩ := tokensFrom_passed '(' [] rest (.symbol .openParen) located (by decide) rfl read
  exact ⟨behind, same⟩

theorem blanks_of_tokensFrom (offset : Nat) (text : List Char) (read : tokensFrom offset text = .ok []) :
    ∀ c ∈ text, Text.isAsciiBlank c := by
  have tokenized := tokenized_of_tokensFrom offset text [] read
  generalize none : [] = located at tokenized
  clear read
  induction tokenized with
  | ended => exact fun c inside => absurd inside List.not_mem_nil
  | blank skipped _ ih => exact List.forall_mem_cons.mpr ⟨skipped, ih none⟩
  | token => cases none

structure Returns (located : List Located) : Prop where
  nonempty : located ≠ []
  total : nesting located = 0
  first : ∀ part, part <+: located → part ≠ [] → nesting part = 0 → part = located

theorem closes_last (rest group after : List Char) (located : List Located)
    (found : group? ('(' :: rest) = some (group, after)) (read : tokenize group = .ok located) :
    ∃ early, located = early ++ [⟨.symbol .closeParen, Text.byteSize group - 1⟩] ∧ nesting located = 0 ∧
      ∀ part, part <+: early → part ≠ [] → 0 < nesting part := by
  have whole : groupRest? none 0 group = some (group, []) := group_of_groupRest none 0 _ group after found
  have scans := scans_tokens 0 0 group [] located read
  cases group with
  | nil =>
      rw [groupRest?] at whole
      cases whole
  | cons c inner =>
      obtain ⟨rfl, _⟩ := List.cons.inj (eq_append_of_groupRest? found)
      obtain ⟨behind, rfl⟩ := tokenize_group inner located read
      rw [closing_opens 0 behind rfl] at scans
      generalize outcome : closing? (0 + 1) behind = result at scans
      cases scans with
      | unclosed left failed =>
          rw [List.append_nil, whole, groupRest?] at failed
          cases failed
      | @closed passed left last others same search place closes later =>
          rw [List.append_nil, whole] at search
          obtain ⟨rfl, none⟩ := Prod.mk.inj (Option.some.inj search)
          obtain rfl := (List.append_eq_nil_iff.mp none.symm).1
          rw [tokensFrom] at later
          obtain rfl := Except.ok.inj later
          obtain ⟨early, rfl, total, above⟩ := open_before_closing 1 behind last (by decide) outcome
          have here : last = ⟨.symbol .closeParen, Text.byteSize ('(' :: inner) - 1⟩ := by
            obtain ⟨token, offset⟩ := last
            obtain rfl : token = _ := closes
            exact congrArg _ (by dsimp only at place; omega)
          refine ⟨⟨.symbol .openParen, 0⟩ :: early, by rw [← here]; rfl, ?_, fun part within some => ?_⟩
          · rw [nesting, Token.nesting]
            omega
          · rcases List.prefix_cons_iff.mp within with rfl | ⟨inside, rfl, behind⟩
            · exact absurd rfl some
            · have positive := above inside behind
              rw [nesting, Token.nesting]
              omega

-- Tokens that return with the last one are those of a group. Only blanks may follow it in their text.
theorem group_of_returns (rest slice after : List Char) (located : List Located) (cut : '(' :: rest = slice ++ after)
    (read : tokenize slice = .ok located) (returns : Returns located) :
    ∃ group blanks last, slice = group ++ blanks ∧ (∀ c ∈ blanks, Text.isAsciiBlank c) ∧
      located.getLast? = some last ∧ last.offset + 1 = Text.byteSize group ∧
      group? ('(' :: rest) = some (group, blanks ++ after) := by
  have scans := scans_tokens 0 0 slice after located read
  cases slice with
  | nil =>
      rw [tokenize, tokensFrom] at read
      exact absurd (Except.ok.inj read).symm returns.nonempty
  | cons c inner =>
      obtain ⟨rfl, _⟩ := List.cons.inj cut
      obtain ⟨behind, rfl⟩ := tokenize_group inner located read
      have total := returns.total
      rw [nesting, Token.nesting] at total
      obtain ⟨early, last, rfl, closes⟩ := closing_of_returns 1 behind (by decide) total fun part within zero => by
        have some : (⟨.symbol .openParen, 0⟩ : Located) :: part ≠ [] := List.cons_ne_nil _ _
        have prefixed := (List.prefix_cons_inj (⟨.symbol .openParen, 0⟩ : Located)).mpr within
        exact (List.cons.inj (returns.first _ prefixed some (by rw [nesting, Token.nesting]; exact zero))).2
      rw [closing_opens 0 _ rfl, closes] at scans
      cases scans with
      | @closed group blanks _ _ same search place _ later =>
          refine ⟨group, blanks, last, same, blanks_of_tokensFrom _ blanks later, ?_, by omega, ?_⟩
          · rw [← List.cons_append, List.getLast?_concat]
          · rw [group?, cut, search]

end Template

end Stencil
