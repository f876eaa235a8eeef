import Stencil.Proofs.Expr.Precedence
import Stencil.Proofs.Expr.Spelling

set_option autoImplicit false

namespace Stencil

namespace Expr

theorem starts_token (value : Value) : value.token.begins ∧ unaryOp? value.token = none := by
  cases value with
  | bool b => cases b <;> exact ⟨rfl, by decide⟩
  | number n => cases n <;> exact ⟨rfl, rfl⟩
  | string => exact ⟨rfl, rfl⟩
  | null | list | object => exact ⟨rfl, (by decide : unaryOp? (.word "null") = none)⟩

theorem unaryOp_call (function : String) (free : Text.lowerAscii function ∉ reservedCalls) :
    unaryOp? (.word function) = none := by
  have differs : Text.lowerAscii function ≠ "not" := by
    intro same
    rw [same] at free
    exact free (by decide)
  simp only [unaryOp?, Cursor.isKeyword, beq_iff_eq, differs, if_false]

theorem starts (e : Expr) (numeral : Nat → Prop) (written : e.Written numeral) : Starts e.rank e.tokens := by
  cases e with
  | literal value => exact ⟨_, _, rfl, (starts_token value).1, fun _ => (starts_token value).2⟩
  | array items => exact ⟨_, _, rfl, rfl, fun _ => rfl⟩
  | var name => exact ⟨_, _, rfl, rfl, fun _ => by simp [unaryOp?, Cursor.isKeyword]⟩
  | member target field => exact starts_append (starts_enclosed 9 (starts target numeral written.1)) _
  | index target key => exact starts_append (starts_enclosed 9 (starts target numeral written.1)) _
  | unary op operand =>
      refine ⟨_, _, rfl, ?_, fun beyond => absurd beyond (Nat.lt_irrefl 8)⟩
      cases op <;> rfl
  | binary op left right => exact starts_append (starts_enclosed _ (starts left numeral written.1)) _
  | coalesce left right =>
      exact starts_append (starts_mono (Nat.le_succ 1) (starts_enclosed 2 (starts left numeral written.1))) _
  | choice test positive negative =>
      exact starts_append (starts_mono (Nat.zero_le 1) (starts_enclosed 1 (starts test numeral written.1))) _
  | elvis test otherwise =>
      exact starts_append (starts_mono (Nat.zero_le 1) (starts_enclosed 1 (starts test numeral written.1))) _
  | call function args => exact ⟨_, _, rfl, rfl, fun _ => unaryOp_call function written.2.1⟩
  | isset target => exact ⟨_, _, rfl, rfl, fun _ => by decide⟩
  | empty target => exact ⟨_, _, rfl, rfl, fun _ => by decide⟩

end Expr

theorem token_ofNat (n : Nat) (fits : n ≤ greatestInteger) : (Value.ofNat n).token = .int n := by
  have below : n < Decimal.wordLimit := Nat.lt_of_le_of_lt fits (by decide)
  have same : ((n % Decimal.wordLimit : Nat) : Int).toNat = n := by rw [Int.toNat_natCast, Nat.mod_eq_of_lt below]
  exact congrArg Token.int same

theorem parses_literal (value : Value) (written : value.Written) (tail : List Token) (stops : Stops 10 tail) :
    Parses primary 0 [value.token] (.literal value) tail := by
  have uncalled : ∀ token ∈ tail.head?, token ≠ .symbol .openParen := by
    rintro token first rfl
    exact absurd (stops _ first 10 rfl) (Nat.lt_irrefl _)
  obtain rfl | ⟨b, rfl⟩ | ⟨n, fits, rfl⟩ | ⟨s, rfl⟩ := written
  · exact parses_constant "null" (fun _ => rfl) uncalled
  · cases b with
    | false => exact parses_constant "false" (fun _ => rfl) uncalled
    | true => exact parses_constant "true" (fun _ => rfl) uncalled
  · rw [token_ofNat n fits]
    exact parses_integer n
  · exact parses_text s

theorem fieldOf_fieldToken (field : String) (valid : IsName field ∨ ∃ n, n ≤ greatestInteger ∧ field = toString n) :
    Cursor.fieldOf? (fieldToken field) = some field := by
  rcases valid with valid | ⟨n, _, rfl⟩
  · rw [fieldToken_name field valid]
    rfl
  · rw [fieldToken_numeral]
    rfl

theorem callOf_free (function : String) (free : Text.lowerAscii function ∉ reservedCalls) (offset : Nat)
    (args : List Expr) : callOf function offset args = .ok (.call function args) := by
  have isset : Text.lowerAscii function ≠ "isset" := fun same => free (by rw [same]; decide)
  have empty : Text.lowerAscii function ≠ "empty" := fun same => free (by rw [same]; decide)
  simp [callOf, isset, empty]

structure Closes (close : Symbol) : Prop where
  unbound : close.binds = none
  ends : (Token.symbol close).begins = false
  differs : close ≠ .comma

theorem stops_more (rest : List Expr) (close : Symbol) (closes : Closes close) (tail : List Token) :
    Stops 0 (Expr.moreTokens rest ++ [.symbol close] ++ tail) := by
  cases rest with
  | nil => exact stops_unbound closes.unbound
  | cons => exact stops_unbound rfl

theorem reads_argument {e : Expr} (inner : Rereads e) (tail : List Token) :
    Parses (items .closeParen .commaOrParen) (e.peak + 1) (e.tokens ++ [.symbol .closeParen]) [e] tail := by
  have behind : Stops 0 ([.symbol .closeParen] ++ tail) := stops_unbound rfl
  exact parses_items .closeParen .commaOrParen (inner.reads_whole behind) (parses_noMoreItems _ _)
    (first_of_starts inner.starts _ rfl)

mutual
theorem rereads (e : Expr) (written : e.Written (· ≤ greatestInteger)) : Rereads e := by
  have starts := e.starts _ written
  cases e with
  | literal value =>
      exact .of_reads starts (by simp [Expr.rank]) fun tail stops => parses_literal value written tail stops
  | var name => exact .of_reads starts (by simp [Expr.rank]) fun tail _ => parses_variable name
  | array items =>
      refine .of_reads starts (by simp [Expr.rank]) fun tail _ => ?_
      exact parses_array (reads_list items written _ _ ⟨rfl, rfl, by decide⟩ tail)
  | call function args =>
      refine .of_reads starts (by simp [Expr.rank]) fun tail _ => ?_
      exact parses_call function (fun offset => callOf_free function written.2.1 offset args)
        (reads_list args written.2.2 _ _ ⟨rfl, rfl, by decide⟩ tail)
  | isset target =>
      refine .of_reads starts (by simp [Expr.rank]) fun tail _ => ?_
      exact parses_call "isset" (fun _ => rfl) (reads_argument (rereads target written) tail)
  | empty target =>
      refine .of_reads starts (by simp [Expr.rank]) fun tail _ => ?_
      exact parses_call "empty" (fun _ => rfl) (reads_argument (rereads target written) tail)
  | member target field =>
      refine .of_leads .selection starts rfl fun tail _ => ?_
      have marked : Stops 10 (.symbol .dot :: fieldToken field :: tail) := stops_cons 9 rfl (by decide)
      have inner := (rereads target written.1).leads_operand .selection marked
      exact leads_selection (.symbol .dot) (fieldToken field) field rfl (fieldOf_fieldToken field written.2) inner
  | index target key =>
      refine .of_leads .selection starts rfl fun tail _ => ?_
      have marked : Stops 10 (.symbol .openBracket :: (key.tokens ++ .symbol .closeBracket :: tail)) :=
        stops_cons 9 rfl (by decide)
      have inner := (rereads target written.1).leads_operand .selection marked
      exact leads_index inner ((rereads key written.2).reads_whole (stops_unbound rfl))
  | unary op operand =>
      refine .of_reads starts (by simp [Expr.rank]) fun tail stops => ?_
      have inner := (rereads operand written).reads_operand (Nat.le_of_ble_eq_true rfl) stops
      have known : unaryOp? (.symbol op.symbol) = some op := by cases op <;> rfl
      have read : readAt 8 = unary := chain_nil
      rw [Expr.rank, read] at inner ⊢
      exact parses_unary op _ known inner
  | binary op left right =>
      refine .of_leads (.binary op.level) starts rfl fun tail stops => ?_
      have marked : Stops (op.level.rank + 1) (.symbol op.symbol ::
          (Expr.enclosed (op.level.rank + 1) right.rank right.tokens ++ tail)) :=
        stops_cons _ (binds_symbol op) (Nat.lt_succ_self _)
      have first := (rereads left written.1).leads_operand (.binary op.level) marked
      have second := (rereads right written.2).reads_operand (Tower.binary op.level).rank_lt stops
      exact Tower.leads_binary op first second
  | coalesce left right =>
      refine .of_reads starts (by simp [Expr.rank]) fun tail stops => ?_
      have marked : Stops 2 (.symbol .coalesce :: (Expr.enclosed 1 right.rank right.tokens ++ tail)) :=
        stops_cons 1 rfl (by decide)
      have first := (rereads left written.1).reads_operand (by decide) marked
      have second := (rereads right written.2).reads_operand (Nat.le_of_ble_eq_true rfl) stops
      exact parses_coalesce first second
  | choice test positive negative =>
      refine .of_reads starts (by simp [Expr.rank]) fun tail stops => ?_
      have marked : Stops 1 (.symbol .question :: (positive.tokens ++ .symbol .colon :: (negative.tokens ++ tail))) :=
        stops_cons 0 rfl (by decide)
      have first := (rereads test written.1).reads_operand (by decide) marked
      have second := rereads positive written.2.1
      have third := (rereads negative written.2.2).reads_whole stops
      exact parses_choice first (second.reads_whole (stops_unbound rfl)) third (first_of_starts second.starts _ rfl)
  | elvis test otherwise =>
      refine .of_reads starts (by simp [Expr.rank]) fun tail stops => ?_
      have marked : Stops 1 (.symbol .question :: .symbol .colon :: (otherwise.tokens ++ tail)) :=
        stops_cons 0 rfl (by decide)
      have first := (rereads test written.1).reads_operand (by decide) marked
      exact parses_elvis first ((rereads otherwise written.2).reads_whole stops)

theorem reads_list (list : List Expr) (written : Expr.AllWritten (· ≤ greatestInteger) list) (close : Symbol)
    (what : Expectation) (closes : Closes close) (tail : List Token) :
    Parses (items close what) (Expr.greatestPeak list) (Expr.listTokens list ++ [.symbol close]) list tail := by
  cases list with
  | nil => exact parses_noItems close what
  | cons e rest =>
      have inner := rereads e written.1
      have behind := reads_more rest written.2 close what closes tail
      rw [Expr.listTokens, List.append_assoc]
      exact parses_items close what (inner.reads_whole (stops_more rest close closes tail)) behind
        (first_of_starts inner.starts _ closes.ends)

theorem reads_more (list : List Expr) (written : Expr.AllWritten (· ≤ greatestInteger) list) (close : Symbol)
    (what : Expectation) (closes : Closes close) (tail : List Token) :
    Parses (moreItems close what) (Expr.greatestPeak list) (Expr.moreTokens list ++ [.symbol close]) list tail := by
  cases list with
  | nil => exact parses_noMoreItems close what
  | cons e rest =>
      have inner := rereads e written.1
      have behind := reads_more rest written.2 close what closes tail
      rw [Expr.moreTokens, List.cons_append, List.append_assoc]
      exact parses_moreItems close what closes.differs (inner.reads_whole (stops_more rest close closes tail)) behind
end

end Stencil
