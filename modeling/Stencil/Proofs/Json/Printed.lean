import Stencil.Json.Printer
import Stencil.Json.Reader
import Stencil.Json.Record
import Stencil.Proofs.Json.Numeral

set_option autoImplicit false

namespace Stencil.Json

def pieceOf (c : Char) : Piece :=
  if c = '"' ∨ c = '\\' ∨ c = '\x08' ∨ c = '\x0c' ∨ c = '\n' ∨ c = '\r' ∨ c = '\t' then .char c
  else if c.toNat < 0x20 then .unit c.toNat
  else .char c

theorem hexValue_hexDigit : ∀ n : Nat, n < 16 → Text.hexValue? (Text.hexDigit n) = some n := by
  decide

theorem quoted_escapeChar (c : Char) (rest : List Char) :
    quoted? (escapeChar c ++ rest)
      = (quoted? rest).map fun (pieces, after) => (pieceOf c :: pieces, after) := by
  unfold escapeChar
  by_cases quote : c = '"'
  · subst quote
    simp [quoted?, unescapeChar?, pieceOf]
  by_cases backslash : c = '\\'
  · subst backslash
    simp [quoted?, unescapeChar?, pieceOf]
  by_cases backspace : c = '\x08'
  · subst backspace
    simp [quoted?, unescapeChar?, pieceOf]
  by_cases feed : c = '\x0c'
  · subst feed
    simp [quoted?, unescapeChar?, pieceOf]
  by_cases line : c = '\n'
  · subst line
    simp [quoted?, unescapeChar?, pieceOf]
  by_cases carriage : c = '\r'
  · subst carriage
    simp [quoted?, unescapeChar?, pieceOf]
  by_cases tab : c = '\t'
  · subst tab
    simp [quoted?, unescapeChar?, pieceOf]
  by_cases control : c.toNat < 0x20
  · have high := hexValue_hexDigit (c.toNat / 16) (by omega)
    have low := hexValue_hexDigit (c.toNat % 16) (by omega)
    have value : ((0 * 16 + 0) * 16 + c.toNat / 16) * 16 + c.toNat % 16 = c.toNat := by omega
    have zero : Text.hexValue? '0' = some 0 := by decide
    simp only [quote, backslash, backspace, feed, line, carriage, tab, control, if_false, if_true,
      List.cons_append, List.nil_append, quoted?, unit?, zero, high, low, value, pieceOf, or_self]
  · simp only [quote, backslash, backspace, feed, line, carriage, tab, control, if_false,
      List.cons_append, List.nil_append, pieceOf, or_self]
    rw [quoted?.eq_def]
    split
    · rename_i same
      exact absurd same (List.cons_ne_nil _ _)
    · rename_i same
      exact absurd (List.cons.inj same).1 quote
    · rename_i same
      exact absurd (List.cons.inj same).1 backslash
    · rename_i same
      exact absurd (List.cons.inj same).1 backslash
    · rename_i same
      obtain ⟨rfl, rfl⟩ := List.cons.inj same
      rw [if_neg control]

theorem quoted_escaped (text rest : List Char) :
    quoted? (text.flatMap escapeChar ++ '"' :: rest) = some (text.map pieceOf, rest) := by
  induction text with
  | nil => rfl
  | cons c text ih =>
      rw [List.flatMap_cons, List.append_assoc, quoted_escapeChar, ih]
      rfl

-- Only control characters are written as units, and none of them is half of a pair.
theorem pieceOf_cases (c : Char) : pieceOf c = .char c ∨ (pieceOf c = .unit c.toNat ∧ c.toNat < 0x20) := by
  unfold pieceOf
  split
  · exact Or.inl rfl
  · split
    · rename_i control
      exact Or.inr ⟨rfl, control⟩
    · exact Or.inl rfl

theorem joinPieces_map (text : List Char) : joinPieces? (text.map pieceOf) = some text := by
  induction text with
  | nil => rfl
  | cons c text ih =>
      rw [List.map_cons]
      rcases pieceOf_cases c with plain | ⟨unit, control⟩
      · rw [plain, joinPieces?, ih]
        rfl
      · have high : isHighUnit c.toNat = false := by
          simp only [isHighUnit, Bool.and_eq_false_iff, decide_eq_false_iff_not]
          omega
        have low : isLowUnit c.toNat = false := by
          simp only [isLowUnit, Bool.and_eq_false_iff, decide_eq_false_iff_not]
          omega
        rw [unit]
        cases text with
        | nil => simp [joinPieces?, high, low, Char.ofNat_toNat]
        | cons d text =>
            rw [List.map_cons] at ih ⊢
            rcases pieceOf_cases d with plain' | ⟨unit', control'⟩
            · rw [plain'] at ih ⊢
              simp [joinPieces?, high, low, Char.ofNat_toNat] at ih ⊢
              exact ih
            · rw [unit'] at ih ⊢
              have low' : isLowUnit d.toNat = false := by
                simp only [isLowUnit, Bool.and_eq_false_iff, decide_eq_false_iff_not]
                omega
              simp only [joinPieces?, high, low, low', Bool.false_and, Bool.or_self,
                Bool.false_eq_true, if_false, ih, Option.map_some, Char.ofNat_toNat]

def rereadNumber (n : Number) : Tree := (n.reread?.map Tree.number).getD .unreadable

mutual
def Tree.tokens : Tree → List Token
  | .null => [.scalar .null]
  | .bool b => [.scalar (.bool b)]
  | .number n => [.scalar (rereadNumber n)]
  | .string s => [.text (some s)]
  | .array items => .mark '[' :: tokensOfItems items ++ [.mark ']']
  | .object members => .mark '\x7b' :: tokensOfMembers members ++ [.mark '\x7d']
  | .unreadable => []

def tokensOfItems : List Tree → List Token
  | [] => []
  | [item] => item.tokens
  | item :: rest => item.tokens ++ .mark ',' :: tokensOfItems rest

def tokensOfMembers : List (String × Tree) → List Token
  | [] => []
  | [(name, member)] => .text (some name) :: .mark ':' :: member.tokens
  | (name, member) :: rest =>
      .text (some name) :: .mark ':' :: member.tokens ++ .mark ',' :: tokensOfMembers rest
end

theorem tokens_of_token (c : Char) (text after : List Char) (token : Token)
    (solid : isSpace c = false) (first : token? (c :: text) = some (token, after)) :
    tokens? (c :: text) = (tokens? after).map (token :: ·) := by
  rw [tokens?, if_neg (by simp [solid])]
  split
  · rename_i none
    rw [first] at none
    simp at none
  · rename_i found
    rw [first] at found
    simp only [Option.some.injEq, Prod.mk.injEq] at found
    obtain ⟨rfl, rfl⟩ := found
    rfl

theorem tokens_mark (c : Char) (rest : List Char) (mark : isMark c = true) :
    tokens? (c :: rest) = (tokens? rest).map (.mark c :: ·) := by
  have cases : c = '[' ∨ c = ']' ∨ c = '\x7b' ∨ c = '\x7d' ∨ c = ',' ∨ c = ':' := by
    simpa [isMark, or_assoc] using mark
  rcases cases with rfl | rfl | rfl | rfl | rfl | rfl <;>
    exact tokens_of_token _ rest rest _ (by decide) rfl

theorem tokens_quote (s : String) (rest : List Char) :
    tokens? (quote s ++ rest) = (tokens? rest).map (.text (some s) :: ·) := by
  have read := quoted_escaped s.toList rest
  have first : token? ('"' :: (s.toList.flatMap escapeChar ++ '"' :: rest))
      = some (.text (some s), rest) := by
    simp only [token?, read, Option.map_some, joinPieces_map, String.ofList_toList]
  simpa [quote] using tokens_of_token '"' _ rest _ (by decide) first

theorem token_of_digit (c : Char) (text : List Char) (start : Decimal.isDigit c = true ∨ c = '-') :
    token? (c :: text) = (numeral? (c :: text)).map fun (numeral, after) =>
      (.scalar (((Number.ofNumeral? numeral).map Tree.number).getD .unreadable), after) := by
  have other : c ≠ '"' ∧ c ≠ 'n' ∧ c ≠ 't' ∧ c ≠ 'f' ∧ isMark c = false := by
    rcases start with digit | rfl
    · refine ⟨?_, ?_, ?_, ?_, ?_⟩
      · rintro rfl; exact absurd digit (by decide)
      · rintro rfl; exact absurd digit (by decide)
      · rintro rfl; exact absurd digit (by decide)
      · rintro rfl; exact absurd digit (by decide)
      · cases mark : isMark c with
        | false => rfl
        | true =>
            have cases : c = '[' ∨ c = ']' ∨ c = '\x7b' ∨ c = '\x7d' ∨ c = ',' ∨ c = ':' := by
              simpa [isMark, or_assoc] using mark
            rcases cases with rfl | rfl | rfl | rfl | rfl | rfl <;> exact absurd digit (by decide)
    · decide
  obtain ⟨quote, n, t, f, mark⟩ := other
  unfold token?
  split
  · rename_i same
    exact absurd (List.cons.inj same).1 quote
  · rename_i same
    exact absurd (List.cons.inj same).1 n
  · rename_i same
    exact absurd (List.cons.inj same).1 t
  · rename_i same
    exact absurd (List.cons.inj same).1 f
  · rename_i same
    obtain ⟨rfl, rfl⟩ := List.cons.inj same
    rw [if_neg (by simp [mark])]
  · rename_i same
    exact absurd same (List.cons_ne_nil _ _)

theorem spelling_start (numeral : Decimal.Numeral) (valid : numeral.Valid) :
    ∃ c text, numeral.spelling = c :: text ∧ (Decimal.isDigit c = true ∨ c = '-') := by
  obtain ⟨negative, whole, fraction, exponent⟩ := numeral
  cases negative with
  | true => exact ⟨'-', _, rfl, Or.inr rfl⟩
  | false =>
      cases whole with
      | nil => exact absurd rfl valid.whole.1.1
      | cons d more => exact ⟨d, _, rfl, Or.inl (valid.whole.1.2 d (List.mem_cons_self ..))⟩

theorem tokens_number (n : Number) (rest : List Char) (ends : EndsNumeral rest) :
    tokens? (n.text ++ rest) = (tokens? rest).map (.scalar (rereadNumber n) :: ·) := by
  obtain ⟨numeral, valid, spelled⟩ := n.text_spelling
  obtain ⟨numeral', reread, read⟩ := n.numeral_text
  obtain ⟨c, text, shape, start⟩ := spelling_start numeral valid
  have first := read rest ends
  rw [spelled, shape, List.cons_append] at first ⊢
  apply tokens_of_token
  · rcases start with digit | rfl
    · cases space : isSpace c with
      | false => rfl
      | true =>
          have cases : c = ' ' ∨ c = '\n' ∨ c = '\t' ∨ c = '\r' := by
            simpa [isSpace, or_assoc] using space
          rcases cases with rfl | rfl | rfl | rfl <;> exact absurd digit (by decide)
    · decide
  · rw [token_of_digit c _ start, first]
    simp [rereadNumber, reread]

theorem ends_mark (c : Char) (rest : List Char) (mark : isMark c = true) : EndsNumeral (c :: rest) := by
  have cases : c = '[' ∨ c = ']' ∨ c = '\x7b' ∨ c = '\x7d' ∨ c = ',' ∨ c = ':' := by
    simpa [isMark, or_assoc] using mark
  rcases cases with rfl | rfl | rfl | rfl | rfl | rfl <;> exact ⟨by decide, by decide, by decide, by decide⟩

mutual
theorem tokens_compact (tree : Tree) (rest : List Char) (readable : tree.isReadable = true)
    (ends : EndsNumeral rest) :
    tokens? (tree.compact ++ rest) = (tokens? rest).map (tree.tokens ++ ·) := by
  cases tree with
  | null => exact tokens_of_token 'n' _ rest _ (by decide) rfl
  | bool b => cases b <;> exact tokens_of_token _ _ rest _ (by decide) rfl
  | number n => exact tokens_number n rest ends
  | string s => exact tokens_quote s rest
  | array items =>
      rw [Tree.isReadable] at readable
      have inner := tokens_compactItems items (']' :: rest) readable (ends_mark _ _ (by decide))
      simp only [Tree.compact, Tree.tokens, List.cons_append, List.append_assoc, List.nil_append]
      rw [tokens_mark _ _ (by decide), inner, tokens_mark _ _ (by decide)]
      simp [Option.map_map, Function.comp_def]
  | object members =>
      rw [Tree.isReadable] at readable
      have inner := tokens_compactMembers members ('\x7d' :: rest) readable (ends_mark _ _ (by decide))
      simp only [Tree.compact, Tree.tokens, List.cons_append, List.append_assoc, List.nil_append]
      rw [tokens_mark _ _ (by decide), inner, tokens_mark _ _ (by decide)]
      simp [Option.map_map, Function.comp_def]
  | unreadable => simp [Tree.isReadable] at readable

theorem tokens_compactItems (items : List Tree) (rest : List Char) (readable : allReadable items = true)
    (ends : EndsNumeral rest) :
    tokens? (compactItems items ++ rest) = (tokens? rest).map (tokensOfItems items ++ ·) := by
  match items with
  | [] => simp [compactItems, tokensOfItems]
  | [item] =>
      simp only [allReadable, Bool.and_true] at readable
      exact tokens_compact item rest readable ends
  | item :: second :: more =>
      rw [allReadable, Bool.and_eq_true] at readable
      have first := tokens_compact item (',' :: (compactItems (second :: more) ++ rest)) readable.1
        (ends_mark _ _ (by decide))
      have others := tokens_compactItems (second :: more) rest readable.2 ends
      rw [tokens_mark _ _ (by decide), others] at first
      simp only [compactItems, tokensOfItems, List.append_assoc, List.cons_append] at first ⊢
      rw [first]
      simp [Option.map_map, Function.comp_def]

theorem tokens_compactMembers (members : List (String × Tree)) (rest : List Char)
    (readable : allReadableMembers members = true) (ends : EndsNumeral rest) :
    tokens? (compactMembers members ++ rest) = (tokens? rest).map (tokensOfMembers members ++ ·) := by
  match members with
  | [] => simp [compactMembers, tokensOfMembers]
  | [(name, member)] =>
      simp only [allReadableMembers, Bool.and_true] at readable
      have value := tokens_compact member rest readable ends
      simp only [compactMembers, tokensOfMembers, List.append_assoc, List.cons_append]
      rw [tokens_quote, tokens_mark _ _ (by decide), value]
      simp [Option.map_map, Function.comp_def]
  | (name, member) :: second :: more =>
      rw [allReadableMembers, Bool.and_eq_true] at readable
      have value := tokens_compact member (',' :: (compactMembers (second :: more) ++ rest)) readable.1
        (ends_mark _ _ (by decide))
      have others := tokens_compactMembers (second :: more) rest readable.2 ends
      rw [tokens_mark _ _ (by decide), others] at value
      simp only [compactMembers, tokensOfMembers, List.append_assoc, List.cons_append] at value ⊢
      rw [tokens_quote, tokens_mark _ _ (by decide), value]
      simp [Option.map_map, Function.comp_def]
end

mutual
def Tree.reread : Tree → Tree
  | .number n => rereadNumber n
  | .array items => .array (rereadItems items)
  | .object members => .object (rereadMembers members)
  | other => other

def rereadItems : List Tree → List Tree
  | [] => []
  | item :: rest => item.reread :: rereadItems rest

def rereadMembers : List (String × Tree) → List (String × Tree)
  | [] => []
  | (name, member) :: rest => (name, member.reread) :: rereadMembers rest
end

def readMembers (members : List (String × Tree)) : List (Option String × Tree) :=
  members.reverse.map fun (name, member) => (some name, member)

theorem named_map (members : List (String × Tree)) :
    named? (members.map fun (name, member) => (some name, member)) = some members := by
  induction members with
  | nil => rfl
  | cons member rest ih =>
      obtain ⟨name, member⟩ := member
      simp only [List.map_cons, named?, ih, Option.map_some]

theorem closeObject_readMembers (members : List (String × Tree)) :
    closeObject (readMembers members) = .object members := by
  rw [closeObject, readMembers, ← List.map_reverse, List.reverse_reverse, named_map]
  rfl

theorem readMembers_append (members : List (String × Tree)) (name : String) (member : Tree) :
    (some name, member) :: readMembers members = readMembers (members ++ [(name, member)]) := by
  simp [readMembers]

theorem run_step (state next : State) (token : Token) (rest : List Token)
    (step : state.step token = some next) : state.run (token :: rest) = next.run rest := by
  rw [State.run, step]

-- The containers that are open do not matter to what is read inside them.
mutual
theorem run_tokens (tree : Tree) (stack : List Open) (first : Bool) (rest : List Token)
    (readable : tree.isReadable = true) :
    State.run ⟨stack, .value first⟩ (tree.tokens ++ rest) = State.run ⟨stack, .more tree.reread⟩ rest := by
  cases tree with
  | null => rfl
  | bool b => rfl
  | number n => rfl
  | string s => rfl
  | array items =>
      rw [Tree.isReadable] at readable
      cases items with
      | nil => rfl
      | cons item items =>
          have inner := run_items (item :: items) [] stack true rest readable (List.cons_ne_nil _ _)
          simp only [Tree.tokens, List.cons_append, List.append_assoc, List.nil_append]
          rw [run_step _ ⟨.array [] :: stack, .value true⟩ _ _ rfl]
          simpa [Tree.reread, rereadItems] using inner
  | object members =>
      rw [Tree.isReadable] at readable
      cases members with
      | nil => rfl
      | cons member members =>
          have inner := run_members (member :: members) [] stack true rest readable
            (List.cons_ne_nil _ _)
          simp only [Tree.tokens, List.cons_append, List.append_assoc, List.nil_append]
          rw [run_step _ ⟨stack, .name [] true⟩ _ _ rfl]
          simpa [Tree.reread, readMembers] using inner
  | unreadable => simp [Tree.isReadable] at readable

theorem run_items (items before : List Tree) (stack : List Open) (first : Bool)
    (rest : List Token) (readable : allReadable items = true) (some : items ≠ []) :
    State.run ⟨.array before.reverse :: stack, .value first⟩
        (tokensOfItems items ++ .mark ']' :: rest)
      = State.run ⟨stack, .more (.array (before ++ rereadItems items))⟩ rest := by
  match items with
  | [] => exact absurd rfl some
  | [item] =>
      simp only [allReadable, Bool.and_true] at readable
      rw [tokensOfItems, run_tokens item _ first _ readable]
      rw [run_step _ ⟨stack, .more (.array (item.reread :: before.reverse).reverse)⟩ _ _ rfl]
      simp [rereadItems]
  | item :: second :: more =>
      rw [allReadable, Bool.and_eq_true] at readable
      have others := run_items (second :: more) (before ++ [item.reread]) stack false rest readable.2
        (List.cons_ne_nil _ _)
      simp only [tokensOfItems, List.append_assoc, List.cons_append]
      rw [run_tokens item _ first _ readable.1]
      rw [run_step _ ⟨.array (item.reread :: before.reverse) :: stack, .value false⟩ _ _ rfl]
      simpa [rereadItems] using others

theorem run_members (members before : List (String × Tree)) (stack : List Open) (first : Bool)
    (rest : List Token) (readable : allReadableMembers members = true) (some : members ≠ []) :
    State.run ⟨stack, .name (readMembers before) first⟩
        (tokensOfMembers members ++ .mark '\x7d' :: rest)
      = State.run ⟨stack, .more (.object (before ++ rereadMembers members))⟩ rest := by
  match members with
  | [] => exact absurd rfl some
  | [(name, member)] =>
      simp only [allReadableMembers, Bool.and_true] at readable
      simp only [tokensOfMembers, List.cons_append]
      rw [run_step _ ⟨stack, .colon (readMembers before) (.some name)⟩ _ _ rfl]
      rw [run_step _ ⟨.object (readMembers before) (.some name) :: stack, .value false⟩ _ _ rfl]
      rw [run_tokens member _ false _ readable]
      rw [run_step _ ⟨stack, .more (closeObject ((.some name, member.reread) :: readMembers before))⟩ _ _ rfl]
      rw [readMembers_append, closeObject_readMembers]
      rfl
  | (name, member) :: second :: more =>
      rw [allReadableMembers, Bool.and_eq_true] at readable
      have others := run_members (second :: more) (before ++ [(name, member.reread)]) stack false
        rest readable.2 (List.cons_ne_nil _ _)
      simp only [tokensOfMembers, List.cons_append, List.append_assoc]
      rw [run_step _ ⟨stack, .colon (readMembers before) (.some name)⟩ _ _ rfl]
      rw [run_step _ ⟨.object (readMembers before) (.some name) :: stack, .value false⟩ _ _ rfl]
      rw [run_tokens member _ false _ readable.1]
      rw [run_step _ ⟨stack, .name ((.some name, member.reread) :: readMembers before) false⟩ _ _ rfl]
      rw [readMembers_append]
      simpa [rereadMembers] using others
end

theorem Tree.ofText_text (tree : Tree) (readable : tree.isReadable = true) :
    Tree.ofText? tree.text = some tree.reread := by
  have tokens := tokens_compact tree [] readable trivial
  have run := run_tokens tree [] false [] readable
  simp only [List.append_nil] at tokens run
  rw [Tree.ofText?, Tree.text, String.toList_ofList, tokens]
  simp only [tokens?, Option.map_some, List.append_nil, Option.bind_eq_bind, Option.bind_some,
    Tree.ofTokens?, run, State.run]

end Stencil.Json
