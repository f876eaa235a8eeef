import Mathlib.Data.List.Chain
import Mathlib.Data.List.Induction
import Stencil.Proofs.Expr.Wrapped

set_option autoImplicit false

namespace Stencil

inductive PathField where
  | name (text : String) (valid : IsName text)
  | number (n : Nat) (fits : n ≤ greatestInteger)

namespace PathField

def text : PathField → String
  | .name text _ => text
  | .number n _ => toString n

def token : PathField → Token
  | .name text _ => .word text
  | .number n _ => .int n

def isNumber : PathField → Bool
  | .name _ _ => false
  | .number _ _ => true

def Apart (first second : PathField) : Prop := ¬ (first.isNumber ∧ second.isNumber)

def joined (m n : Nat) : Float :=
  Decimal.nearest (Decimal.natOfDigits (Decimal.natDigits m ++ Decimal.natDigits n)) (-((Decimal.natDigits n).length : Int))

def dotted (fields : List PathField) : List Char := fields.flatMap fun field => '.' :: field.text.toList

def dottedTokens (fields : List PathField) : List Token := fields.flatMap fun field => [.symbol .dot, field.token]

def path (name : String) (fields : List PathField) : List Char := '$' :: (name.toList ++ dotted fields)

def chain (name : String) (fields : List PathField) : Expr :=
  fields.foldl (fun target field => .member target field.text) (.var name)

-- Whether a point between digits is a dot or belongs to a number is settled before any path is seen, so that two numbers
-- side by side are one number with a fraction.
def readTokens : List PathField → List Token
  | [] => []
  | .number m _ :: .number n _ :: rest => .symbol .dot :: .float (joined m n) :: readTokens rest
  | field :: rest => .symbol .dot :: field.token :: readTokens rest

theorem fieldOf_token (field : PathField) : Cursor.fieldOf? field.token = some field.text := by
  cases field <;> rfl

theorem valid_text (field : PathField) : IsName field.text ∨ ∃ n, n ≤ greatestInteger ∧ field.text = toString n := by
  cases field with
  | name text valid => exact .inl valid
  | number n fits => exact .inr ⟨n, fits, rfl⟩

theorem fieldToken_text (field : PathField) : fieldToken field.text = field.token := by
  cases field with
  | name text valid => exact fieldToken_name text valid
  | number n _ => exact fieldToken_numeral n

section Text

variable (rest : List PathField)

theorem dotted_cons (field : PathField) : dotted (field :: rest) = '.' :: (field.text.toList ++ dotted rest) := by
  rw [dotted, List.flatMap_cons]
  rfl

theorem dotted_stops (test : Char → Bool) (point : test '.' = false) : ∀ c ∈ (dotted rest).head?, test c = false := by
  cases rest with
  | nil => simp [dotted]
  | cons field rest =>
      rw [dotted_cons]
      rintro c ⟨⟩
      exact point

theorem dottedTokens_cons (field : PathField) :
    dottedTokens (field :: rest) = .symbol .dot :: field.token :: dottedTokens rest := by
  rw [dottedTokens, List.flatMap_cons]
  rfl

theorem dotted_pointless (names : ∀ field ∈ rest.head?, field.isNumber = false) (d : Char) (after : List Char)
    (same : dotted rest = '.' :: d :: after) : Decimal.isDigit d = false := by
  cases rest with
  | nil => cases same
  | cons field rest =>
      cases field with
      | number => cases names _ rfl
      | name text valid =>
          obtain ⟨c, others, whole, _, letter, _⟩ := Token.name_start text valid
          rw [dotted_cons, PathField.text, whole] at same
          obtain rfl := (List.cons.inj (List.cons.inj same).2).1
          exact letter

theorem firstToken_field (field : PathField) (free : field.isNumber → ∀ next ∈ rest.head?, next.isNumber = false) :
    ∃ c others, field.text.toList = c :: others ∧ Text.isAsciiBlank c = false ∧
      firstToken c (others ++ dotted rest) = .ok (field.token, dotted rest) := by
  cases field with
  | name text valid => exact Token.firstToken_word text valid _ (dotted_stops rest _ (by decide))
  | number n fits =>
      obtain ⟨c, others, whole, blank, read⟩ := Token.firstToken_numeral n (dotted rest)
      have digits : (toString n).toList = Decimal.natDigits n := String.toList_ofList
      refine ⟨c, others, digits.trans whole, blank, ?_⟩
      rw [read, Token.numberToken_digits n _ (dotted_stops rest _ (by decide)) (dotted_pointless rest (free rfl)),
        Token.integer_natDigits, if_neg (Nat.not_lt.mpr fits), token]

theorem numberToken_joined (m n : Nat) :
    numberToken (Decimal.natDigits m ++ '.' :: (Decimal.natDigits n ++ dotted rest)) =
      .ok (.float (joined m n), dotted rest) := by
  have stops := dotted_stops rest Decimal.isDigit (by decide)
  have digits (k : Nat) : (Decimal.natDigits k).all Decimal.isDigit := List.all_eq_true.mpr (Decimal.natDigits_digits k).2
  obtain ⟨whole, left⟩ := Token.takeWhile_stops Decimal.isDigit (Decimal.natDigits m)
    ('.' :: (Decimal.natDigits n ++ dotted rest)) (digits m) (by rintro c ⟨⟩; decide)
  obtain ⟨fraction, behind⟩ := Token.takeWhile_stops Decimal.isDigit (Decimal.natDigits n) (dotted rest) (digits n) stops
  obtain ⟨some, all⟩ := Decimal.natDigits_digits n
  rw [numberToken, whole, left]
  cases spelled : Decimal.natDigits n with
  | nil => exact absurd spelled some
  | cons d others =>
      have digit := all d (spelled ▸ List.mem_cons_self)
      rw [spelled, List.cons_append] at fraction behind
      simp only [List.cons_append, digit, if_true, fraction, behind, joined, spelled]

theorem firstToken_joined (m n : Nat) :
    ∃ c others, Decimal.natDigits m = c :: others ∧ Text.isAsciiBlank c = false ∧
      firstToken c (others ++ '.' :: (Decimal.natDigits n ++ dotted rest)) = .ok (.float (joined m n), dotted rest) := by
  obtain ⟨c, others, whole, blank, read⟩ := Token.firstToken_numeral m ('.' :: (Decimal.natDigits n ++ dotted rest))
  exact ⟨c, others, whole, blank, read.trans (numberToken_joined rest m n)⟩

end Text

theorem lexes_dot {text : List Char} {tokens : List Token} (behind : Lexes text tokens) :
    Lexes ('.' :: text) (.symbol .dot :: tokens) :=
  .token (by decide) rfl behind

-- By the recursion of `readTokens`: two fields at a time where both are numbers, else one.
theorem lexes_dotted (fields : List PathField) : Lexes (dotted fields) (readTokens fields) := by
  fun_induction readTokens fields with
  | case1 => exact .ended
  | case2 m _ n _ rest ih =>
      have digits (k : Nat) : (toString k).toList = Decimal.natDigits k := String.toList_ofList
      obtain ⟨c, others, whole, blank, read⟩ := firstToken_joined rest m n
      rw [dotted_cons, dotted_cons, text, text, digits, digits, whole]
      exact lexes_dot (.token (by simp [blank]) read ih)
  | case3 field rest single ih =>
      have free : field.isNumber → ∀ next ∈ rest.head?, next.isNumber = false := by
        rintro number next first
        cases rest with
        | nil => cases first
        | cons second rest =>
            obtain rfl := Option.some.inj first
            cases second with
            | name => rfl
            | number n fits =>
                cases field with
                | name => cases number
                | number m fits' => exact (single m fits' n fits rest rfl rfl).elim
      obtain ⟨c, others, whole, blank, read⟩ := firstToken_field rest field free
      rw [dotted_cons, whole]
      exact lexes_dot (.token (by simp [blank]) read ih)

theorem lexes_path (name : String) (named : IsName name) (fields : List PathField) :
    Lexes (path name fields) (.variableName name :: readTokens fields) :=
  .token (by decide) (Token.firstToken_variable name named _ (dotted_stops fields _ (by decide))) (lexes_dotted fields)

theorem readTokens_apart (fields : List PathField) (apart : fields.IsChain Apart) :
    readTokens fields = dottedTokens fields := by
  fun_induction readTokens fields with
  | case1 => rfl
  | case2 => exact absurd ⟨rfl, rfl⟩ (List.isChain_cons_cons.mp apart).1
  | case3 field rest _ ih =>
      rw [ih apart.tail, dottedTokens_cons]

theorem readTokens_joined (before after : List PathField) (m n : Nat) (fits : m ≤ greatestInteger)
    (fits' : n ≤ greatestInteger) (apart : (before ++ [number m fits]).IsChain Apart) :
    readTokens (before ++ .number m fits :: .number n fits' :: after) =
      dottedTokens before ++ .symbol .dot :: .float (joined m n) :: readTokens after := by
  induction before with
  | nil => rfl
  | cons field rest ih =>
      have single : ∀ k a l b others, field = .number k a →
          rest ++ .number m fits :: .number n fits' :: after = .number l b :: others → False := by
        rintro k a l b others rfl same
        cases rest with
        | nil => exact (List.isChain_cons_cons.mp apart).1 ⟨rfl, rfl⟩
        | cons second rest =>
            obtain rfl := (List.cons.inj same).1
            exact (List.isChain_cons_cons.mp apart).1 ⟨rfl, rfl⟩
      rw [List.cons_append, readTokens, ih apart.tail, dottedTokens_cons]
      · rfl
      · exact single

theorem exists_joined (fields : List PathField) (touching : ¬ fields.IsChain Apart) :
    ∃ before after m n fits fits', fields = before ++ number m fits :: number n fits' :: after ∧
      (before ++ [number m fits]).IsChain Apart := by
  induction fields with
  | nil => exact absurd .nil touching
  | cons field rest ih =>
      cases rest with
      | nil => exact absurd (.singleton field) touching
      | cons second rest =>
          by_cases apart : Apart field second
          · have later : ¬ (second :: rest).IsChain Apart :=
              fun inner => touching (List.isChain_cons_cons.mpr ⟨apart, inner⟩)
            obtain ⟨before, after, m, n, fits, fits', same, first⟩ := ih later
            refine ⟨field :: before, after, m, n, fits, fits', by rw [same]; rfl, ?_⟩
            cases before with
            | nil | cons =>
                obtain rfl := (List.cons.inj same).1
                exact List.isChain_cons_cons.mpr ⟨apart, first⟩
          · rw [Apart, not_not] at apart
            cases field with
            | name => cases apart.1
            | number m fits =>
                cases second with
                | name => cases apart.2
                | number n fits' => exact ⟨[], rest, m, n, fits, fits', rfl, .singleton _⟩

section Chain

variable (name : String) (fields : List PathField)

theorem chain_concat (field : PathField) :
    chain name (fields ++ [field]) = .member (chain name fields) field.text := by
  rw [chain, List.foldl_append]
  rfl

theorem written_chain (named : IsName name) : (chain name fields).Written (· ≤ greatestInteger) := by
  induction fields using List.reverseRecOn with
  | nil => exact named
  | append_singleton fields field ih =>
      rw [chain_concat]
      exact ⟨ih, field.valid_text⟩

theorem rank_chain : 9 ≤ (chain name fields).rank := by
  induction fields using List.reverseRecOn with
  | nil => exact Nat.le_succ 9
  | append_singleton fields field _ =>
      rw [chain_concat]
      exact Nat.le_refl 9

theorem tokens_chain : (chain name fields).tokens = .variableName name :: dottedTokens fields := by
  induction fields using List.reverseRecOn with
  | nil => rfl
  | append_singleton fields field ih =>
      have tight : ¬ (chain name fields).rank < 9 := Nat.not_lt.mpr (rank_chain name fields)
      rw [chain_concat, Expr.tokens, Expr.enclosed, if_neg tight, ih, fieldToken_text, dottedTokens, dottedTokens,
        List.flatMap_append]
      rfl

theorem levels_chain : (chain name fields).peak = fields.length ∧
    Expr.linksAt 9 (chain name fields).rank (chain name fields).links = fields.length := by
  induction fields using List.reverseRecOn with
  | nil => exact ⟨rfl, rfl⟩
  | append_singleton fields field ih =>
      obtain ⟨peak, links⟩ := ih
      have tight : ¬ (chain name fields).rank < 9 := Nat.not_lt.mpr (rank_chain name fields)
      rw [chain_concat, Expr.peak, Expr.raised, if_neg tight, peak, links, List.length_append, List.length_singleton]
      refine ⟨by omega, ?_⟩
      rw [Expr.links, links]
      rfl

theorem wholly_chain (named : IsName name) :
    Wholly (fields.length + 1) (chain name fields).tokens (chain name fields) := by
  have reread := rereads (chain name fields) (written_chain name fields named)
  refine ⟨starts_mono (Nat.zero_le _) reread.starts, fun tail stops => ?_⟩
  rw [← (levels_chain name fields).1]
  exact reread.reads_whole stops

end Chain

end PathField

def Stuck {α : Type} (result : Except ParseError α) (fault : ParseFault) : Prop :=
  ∃ offset, result = .error ⟨fault, offset⟩

section Stuck

variable {α β : Type} {fault : ParseFault}

theorem stuck_first {result : Except ParseError α} (more : α → Except ParseError β) (stuck : Stuck result fault) :
    Stuck (result >>= more) fault := by
  obtain ⟨offset, rfl⟩ := stuck
  exact ⟨offset, rfl⟩

theorem stuck_second {result : Except ParseError α} {needed : Nat} {good : α → Prop} {more : α → Except ParseError β}
    (first : Yields result needed good) (enough : needed ≤ greatestNesting)
    (second : ∀ a, good a → Stuck (more a) fault) : Stuck (result >>= more) fault := by
  obtain ⟨a, rfl, holds⟩ := first.done enough
  exact second a holds

variable {c : Cursor} {depth : Nat} {tail : List Token}

theorem Cursor.stuck_fieldName (token : Token) (other : Cursor.fieldOf? token = none)
    (shows : c.Shows (token :: tail) depth) : Stuck c.fieldName (.expectedField (some token)) := by
  obtain ⟨found, next, within, first, same, _⟩ := next_shown shows
  simp only [fieldName, first, same]
  cases token with
  | word | int => cases other
  | _ => exact ⟨_, rfl⟩

-- By induction on the fields that are read before the one that is none.
theorem stuck_selections (fields : List PathField) (token : Token) (other : Cursor.fieldOf? token = none) (count : Nat)
    (target : Expr) (c : Cursor) (depth : Nat)
    (shows : c.Shows (PathField.dottedTokens fields ++ .symbol .dot :: token :: tail) depth)
    (room : depth + fields.length < greatestNesting) :
    Stuck (selections count target c) (.expectedField (some token)) := by
  induction fields generalizing count target c depth with
  | nil =>
      obtain ⟨afterMark, _, passed, shown⟩ := Cursor.pass_shown isSelection () shows rfl
      rw [selections, passed]
      refine stuck_second (Cursor.yields_descend shown) room fun inner shown => ?_
      exact stuck_first _ (Cursor.stuck_fieldName token other shown)
  | cons field rest ih =>
      rw [List.length_cons] at room
      obtain ⟨afterMark, _, passed, shown⟩ := Cursor.pass_shown isSelection () shows rfl
      rw [selections, passed]
      refine stuck_second (Cursor.yields_descend shown) (by omega) ?_
      rintro ⟨inner, _⟩ shown
      refine stuck_second (Cursor.yields_fieldName field.token field.text field.fieldOf_token shown) (Nat.zero_le _) ?_
      rintro ⟨_, afterField, _⟩ ⟨rfl, reached⟩
      exact stuck_first _ (ih (count + 1) _ afterField (depth + 1) reached (by omega))

theorem stuck_chain (levels : List Level) (stuck : Stuck (unary c) fault) : Stuck (chain levels c) fault := by
  induction levels with
  | nil =>
      rw [chain_nil]
      exact stuck
  | cons level tighter ih =>
      rw [chain]
      exact stuck_first _ ih

theorem stuck_expression (shallow : c.depth < greatestNesting) (stuck : Stuck (unary c.deeper) fault) :
    Stuck (expression c) fault := by
  have room : ¬ greatestNesting < c.depth + 1 := by omega
  rw [expression, Cursor.descend, if_neg room]
  change Stuck (ternary c.deeper >>= _) fault
  refine stuck_first _ ?_
  rw [ternary]
  refine stuck_first _ ?_
  rw [coalesce]
  exact stuck_first _ (stuck_chain Level.all stuck)

theorem stuck_path (name : String) (fields : List PathField) (short : fields.length + 1 < greatestNesting) (token : Token)
    (other : Cursor.fieldOf? token = none) (text : List Char)
    (lexes : Lexes text (.variableName name :: (PathField.dottedTokens fields ++ .symbol .dot :: token :: tail))) :
    Stuck (Expr.parse text) (.expectedField (some token)) := by
  obtain ⟨c, read, shows⟩ := cursor_of_lexes text _ lexes
  have inside : c.deeper.Shows (.variableName name :: (PathField.dottedTokens fields ++ .symbol .dot :: token :: tail)) 1 :=
    ⟨shows.listed, congrArg (· + 1) shows.level, by decide⟩
  rw [Expr.parse, read]
  change Stuck (expression c >>= _) _
  refine stuck_first _ (stuck_expression (by rw [shows.level]; decide) ?_)
  rw [unary, Cursor.pass_other unaryOp? inside fun token first => by obtain rfl := Option.some.inj first; rfl]
  change Stuck (access c.deeper) _
  rw [access]
  have target : Parses primary 0 [.variableName name] (.var name)
      (PathField.dottedTokens fields ++ .symbol .dot :: token :: tail) := parses_variable name
  refine stuck_second (target c.deeper 1 inside) (by decide) ?_
  rintro ⟨_, afterTarget, _⟩ ⟨rfl, reached⟩
  exact stuck_first _ (stuck_selections fields token other 0 _ afterTarget 1 reached (by omega))

end Stuck

namespace PathField

theorem stuck_joined (name : String) (named : IsName name) (before after : List PathField) (m n : Nat)
    (fits : m ≤ greatestInteger) (fits' : n ≤ greatestInteger) (apart : (before ++ [number m fits]).IsChain Apart)
    (short : before.length + 1 < greatestNesting) :
    Stuck (Expr.parse (path name (before ++ number m fits :: number n fits' :: after)))
      (.expectedField (some (.float (joined m n)))) := by
  have lexes := lexes_path name named (before ++ number m fits :: number n fits' :: after)
  rw [readTokens_joined before after m n fits fits' apart] at lexes
  exact stuck_path name before short (.float (joined m n)) rfl _ lexes

theorem parse_path (name : String) (named : IsName name) (fields : List PathField)
    (short : fields.length < greatestNesting) (apart : fields.IsChain Apart) :
    Expr.parse (path name fields) = .ok (chain name fields) := by
  have lexes := lexes_path name named fields
  rw [readTokens_apart fields apart, ← tokens_chain] at lexes
  exact (parse_of_wholly lexes (wholly_chain name fields named)).1.mpr short

/-- A path is read as the chain of its fields exactly if no two numbers stand side by side in it. Else the first two that
do are one number with a fraction, and what is reported is that this is no name of a field. -/
theorem path_read (name : String) (named : IsName name) (fields : List PathField)
    (short : fields.length < greatestNesting) :
    (Expr.parse (path name fields) = .ok (chain name fields) ↔ fields.IsChain Apart) ∧
    ∀ before after m n fits fits', fields = before ++ number m fits :: number n fits' :: after →
      (before ++ [number m fits]).IsChain Apart →
      ∃ offset, Expr.parse (path name fields) = .error ⟨.expectedField (some (.float (joined m n))), offset⟩ := by
  have touching : ∀ before after m n fits fits', fields = before ++ number m fits :: number n fits' :: after →
      (before ++ [number m fits]).IsChain Apart →
      Stuck (Expr.parse (path name fields)) (.expectedField (some (.float (joined m n)))) := by
    rintro before after m n fits fits' rfl first
    rw [List.length_append, List.length_cons, List.length_cons] at short
    exact stuck_joined name named before after m n fits fits' first (by omega)
  refine ⟨⟨fun parsed => ?_, parse_path name named fields short⟩, touching⟩
  by_contra side
  obtain ⟨before, after, m, n, fits, fits', same, first⟩ := exists_joined fields side
  obtain ⟨offset, failed⟩ := touching before after m n fits fits' same first
  cases parsed.symm.trans failed

theorem path_read_rows :
    Expr.parse "$rows.0.name".toList = .ok (.member (.member (.var "rows") "0") "name") ∧
    ∃ offset, Expr.parse "$rows.0.1".toList = .error ⟨.expectedField (some (.float (joined 0 1))), offset⟩ := by
  have rows : IsName "rows" := ⟨by decide, 'r', rfl, by decide⟩
  have spelled : path "rows" [number 0 (Nat.zero_le _), .name "name" ⟨by decide, 'n', rfl, by decide⟩] =
      "$rows.0.name".toList := by decide
  refine ⟨?_, ?_⟩
  · rw [← spelled]
    refine (path_read "rows" rows _ (by decide)).1.mpr (List.isChain_cons_cons.mpr ⟨?_, .singleton _⟩)
    exact fun both => Bool.noConfusion both.2
  have touching : path "rows" [number 0 (Nat.zero_le _), number 1 (by decide)] = "$rows.0.1".toList := by decide
  rw [← touching]
  exact (path_read "rows" rows [number 0 (Nat.zero_le _), number 1 (by decide)] (by decide)).2 [] [] 0 1 _ _ rfl
    (.singleton _)

/-- Rows of rows cannot be reached by dots alone. -/
theorem numbers_joined :
    path "rows" [number 0 (Nat.zero_le _), number 1 (by decide)] = "$rows.0.1".toList ∧
    chain "rows" [number 0 (Nat.zero_le _), number 1 (by decide)] = .member (.member (.var "rows") "0") "1" ∧
    ∀ e, Expr.parse "$rows.0.1".toList ≠ .ok e := by
  refine ⟨by decide, rfl, fun e parsed => ?_⟩
  have rows : IsName "rows" := ⟨by decide, 'r', rfl, by decide⟩
  obtain ⟨offset, failed⟩ :=
    stuck_joined "rows" rows [] [] 0 1 (Nat.zero_le _) (by decide) (.singleton _) (by decide)
  cases parsed.symm.trans failed

end PathField

end Stencil
