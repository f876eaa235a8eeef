import Stencil.Proofs.Expr.Peak
import Stencil.Proofs.Expr.Reading

set_option autoImplicit false

namespace Stencil

def Symbol.binds : Symbol → Option Nat
  | .openParen => some 10
  | .dot | .arrow | .openBracket => some 9
  | .star | .slash | .percent => some 7
  | .plus | .minus => some 6
  | .less | .atMost | .greater | .atLeast => some 5
  | .equal | .notEqual | .identical | .notIdentical => some 4
  | .both => some 3
  | .either => some 2
  | .coalesce => some 1
  | .question => some 0
  | _ => none

namespace Token

def binds : Token → Option Nat
  | .symbol s => s.binds
  | .word name =>
      if Text.lowerAscii name = "or" then some 2
      else if Text.lowerAscii name = "and" then some 3
      else none
  | _ => none

def begins : Token → Bool
  | .symbol .openParen | .symbol .openBracket | .symbol .bang | .symbol .minus => true
  | .symbol _ => false
  | _ => true

end Token

-- Whether what stands in front of these tokens ends there when it is read at a place of this rank.
def Stops (place : Nat) (tail : List Token) : Prop :=
  ∀ token ∈ tail.head?, ∀ rank ∈ token.binds, rank < place

variable {place : Nat} {token : Token} {tail : List Token}

theorem stops_mono {further : Nat} (within : place ≤ further) (stops : Stops place tail) : Stops further tail :=
  fun token first rank binds => Nat.lt_of_lt_of_le (stops token first rank binds) within

theorem stops_cons (rank : Nat) (binds : token.binds = some rank) (below : rank < place) : Stops place (token :: tail) := by
  intro _ first found same
  obtain rfl := Option.some.inj first
  obtain rfl := Option.some.inj (binds.symm.trans same)
  exact below

theorem stops_unbound (unbound : token.binds = none) : Stops place (token :: tail) := by
  intro _ first found same
  obtain rfl := Option.some.inj first
  cases unbound.symm.trans same

theorem binds_symbol (op : BinaryOp) : (Token.symbol op.symbol).binds = some op.level.rank := by
  cases op <;> rfl

theorem binds_ofToken (level : Level) (token : Token) (op : BinaryOp) (known : level.ofToken? token = some op) :
    token.binds = some level.rank := by
  cases token with
  | symbol s =>
      cases level with
      | either | both | equality | comparison | sum | product => cases s <;> cases known <;> rfl
  | word name =>
      simp only [Level.ofToken?, Cursor.isKeyword, Bool.and_eq_true, decide_eq_true_eq, beq_iff_eq] at known
      split at known
      · rename_i here
        obtain ⟨rfl, word⟩ := here
        rw [Token.binds, if_pos word, Level.rank]
      · split at known
        · rename_i here
          obtain ⟨rfl, word⟩ := here
          rw [Token.binds, word, if_neg (by decide), if_pos rfl, Level.rank]
        · cases known
  | _ => simp [Level.ofToken?, Cursor.isKeyword] at known

theorem binds_isSelection (token : Token) (known : isSelection token = some ()) : token.binds = some 9 := by
  cases token with
  | symbol s => cases s <;> cases known <;> rfl
  | _ => cases known

def readAt : Nat → (c : Cursor) → Parsed Expr c
  | 0 => ternary
  | 1 => coalesce
  | 9 => access
  | 10 => primary
  | place => chain (Level.all.drop (place - 2))

inductive Tower where
  | binary (level : Level)
  | selection

namespace Tower

def rank : Tower → Nat
  | .binary level => level.rank
  | .selection => 9

def more : Tower → Nat → Expr → (c : Cursor) → Except ParseError (Expr × c.NotEarlier)
  | .binary level => links level (Level.all.drop (level.rank - 1))
  | .selection => selections

theorem rank_injective (tower other : Tower) (same : tower.rank = other.rank) : tower = other := by
  cases tower with
  | binary level =>
      cases other with
      | binary level' => cases level <;> cases level' <;> first | rfl | cases same
      | selection => cases level <;> cases same
  | selection =>
      cases other with
      | binary level => cases level <;> cases same
      | selection => rfl

theorem rank_lt (tower : Tower) : tower.rank < 10 := by
  cases tower with
  | binary level => cases level <;> decide
  | selection => decide

theorem rank_apart (tower : Tower) {rank : Nat} (apart : rank ∈ [0, 1, 8, 10]) : rank ≠ tower.rank := by
  rintro rfl
  cases tower with
  | binary level => cases level <;> simp [Tower.rank, Level.rank] at apart
  | selection => simp [Tower.rank] at apart

variable {peak count : Nat} {tokens : List Token} {e : Expr}

theorem leads_start (tower : Tower) (first : Parses (readAt (tower.rank + 1)) peak tokens e tail) :
    Leads (readAt tower.rank) tower.more peak 0 tokens e tail := by
  cases tower with
  | binary level => cases level <;> exact leads_level _ _ first
  | selection => exact leads_primary first

theorem leads_binary {second : Nat} {others : List Token} {operand : Expr} (op : BinaryOp)
    (left : Leads (readAt op.level.rank) (Tower.binary op.level).more peak count tokens e
      (.symbol op.symbol :: (others ++ tail)))
    (right : Parses (readAt (op.level.rank + 1)) second others operand tail) :
    Leads (readAt op.level.rank) (Tower.binary op.level).more (max peak (count + 1 + second)) (count + 1)
      (tokens ++ .symbol op.symbol :: others) (.binary op e operand) tail := by
  have known := op.ofToken_symbol
  generalize op.level = level at left right known ⊢
  cases level <;> exact leads_link _ _ op _ known left right

theorem parses_end (tower : Tower) (leads : Leads (readAt tower.rank) tower.more peak count tokens e tail)
    (stops : Stops tower.rank tail) : Parses (readAt tower.rank) peak tokens e tail := by
  cases tower with
  | binary level =>
      have unlinked : ∀ token ∈ tail.head?, level.ofToken? token = none := by
        intro token first
        cases found : level.ofToken? token with
        | none => rfl
        | some op => exact absurd (stops token first _ (binds_ofToken level token op found)) (Nat.lt_irrefl _)
      cases level <;> exact parses_links _ _ leads unlinked
  | selection =>
      refine parses_selections leads fun token first => ⟨?_, ?_⟩
      · cases found : isSelection token with
        | none => rfl
        | some => exact absurd (stops token first _ (binds_isSelection token found)) (Nat.lt_irrefl _)
      · rintro rfl
        exact absurd (stops _ first 9 rfl) (Nat.lt_irrefl _)

end Tower

variable {peak : Nat} {tokens : List Token} {e : Expr}

-- What is read at a place can be read where looser operators may stand, up to prefixed operators, which must
-- not be taken for a part of what follows them.
theorem parses_looser (within : place < 10) (stops : Stops place tail)
    (plain : place = 8 → ∀ token ∈ (tokens ++ tail).head?, unaryOp? token = none)
    (tighter : Parses (readAt (place + 1)) peak tokens e tail) : Parses (readAt place) peak tokens e tail := by
  by_cases choice : place = 0
  · subst choice
    refine parses_test tighter fun token first => ?_
    rintro rfl
    exact absurd (stops _ first 0 rfl) (Nat.lt_irrefl _)
  · by_cases fallback : place = 1
    · subst fallback
      refine parses_present tighter fun token first => ?_
      rintro rfl
      exact absurd (stops _ first 1 rfl) (Nat.lt_irrefl _)
    · by_cases prefixed : place = 8
      · subst prefixed
        have inner := parses_plain tighter (plain rfl)
        rw [← chain_nil] at inner
        exact inner
      · have tower : ∃ tower : Tower, tower.rank = place := by
          have listed : place = 2 ∨ place = 3 ∨ place = 4 ∨ place = 5 ∨ place = 6 ∨ place = 7 ∨ place = 9 := by omega
          rcases listed with rfl | rfl | rfl | rfl | rfl | rfl | rfl
          · exact ⟨.binary .either, rfl⟩
          · exact ⟨.binary .both, rfl⟩
          · exact ⟨.binary .equality, rfl⟩
          · exact ⟨.binary .comparison, rfl⟩
          · exact ⟨.binary .sum, rfl⟩
          · exact ⟨.binary .product, rfl⟩
          · exact ⟨.selection, rfl⟩
        obtain ⟨tower, rfl⟩ := tower
        exact tower.parses_end (tower.leads_start tighter) stops

theorem parses_place {start : Nat} (within : place ≤ start) (least : start ≤ 10) (stops : Stops place tail)
    (plain : 8 < start → ∀ token ∈ (tokens ++ tail).head?, unaryOp? token = none)
    (tighter : Parses (readAt start) peak tokens e tail) : Parses (readAt place) peak tokens e tail := by
  induction start with
  | zero => exact Nat.le_zero.mp within ▸ tighter
  | succ start ih =>
      by_cases same : place = start + 1
      · exact same ▸ tighter
      · refine ih (by omega) (by omega) (fun beyond => plain (by omega)) ?_
        exact parses_looser (by omega) (stops_mono (by omega) stops) (fun here => plain (by omega)) tighter

-- The first token of an expression, which is not a prefixed operator where that would be an operator on the whole.
def Starts (rank : Nat) (tokens : List Token) : Prop :=
  ∃ token rest, tokens = token :: rest ∧ token.begins ∧ (8 < rank → unaryOp? token = none)

theorem starts_append {rank : Nat} (starts : Starts rank tokens) (behind : List Token) :
    Starts rank (tokens ++ behind) := by
  obtain ⟨token, rest, rfl, begins, plain⟩ := starts
  exact ⟨token, rest ++ behind, rfl, begins, plain⟩

theorem starts_mono {rank : Nat} (within : place ≤ rank) (starts : Starts rank tokens) : Starts place tokens := by
  obtain ⟨token, rest, same, begins, plain⟩ := starts
  exact ⟨token, rest, same, begins, fun beyond => plain (by omega)⟩

theorem starts_enclosed {rank : Nat} (place : Nat) (starts : Starts rank tokens) :
    Starts place (Expr.enclosed place rank tokens) := by
  rw [Expr.enclosed]
  split
  · exact ⟨_, _, rfl, rfl, fun _ => rfl⟩
  · exact starts_mono (by omega) starts

theorem plain_of_starts {rank : Nat} (starts : Starts rank tokens) (beyond : 8 < rank) :
    ∀ token ∈ (tokens ++ tail).head?, unaryOp? token = none := by
  obtain ⟨token, rest, rfl, _, plain⟩ := starts
  intro _ first
  obtain rfl := Option.some.inj first
  exact plain beyond

theorem first_of_starts {rank : Nat} (starts : Starts rank tokens) (s : Symbol) (ends : (Token.symbol s).begins = false) :
    ∀ token ∈ (tokens ++ tail).head?, token ≠ .symbol s := by
  obtain ⟨token, rest, rfl, begins, _⟩ := starts
  rintro _ first rfl
  obtain rfl := Option.some.inj first
  rw [ends] at begins
  cases begins

-- The expression is read back wherever it may stand without parentheses, as a whole and in front of further
-- operators of its own rank.
structure Rereads (e : Expr) : Prop where
  starts : Starts e.rank e.tokens
  reads : ∀ tail, Stops e.rank tail → Parses (readAt e.rank) e.peak e.tokens e tail
  leads : ∀ tower : Tower, e.rank = tower.rank → ∀ tail, Stops (tower.rank + 1) tail →
    Leads (readAt tower.rank) tower.more e.peak e.links e.tokens e tail

namespace Rereads

theorem of_leads (tower : Tower) (starts : Starts e.rank e.tokens) (same : e.rank = tower.rank)
    (leads : ∀ tail, Stops (tower.rank + 1) tail →
      Leads (readAt tower.rank) tower.more e.peak e.links e.tokens e tail) : Rereads e where
  starts := starts
  reads := fun tail stops => by
    rw [same] at stops ⊢
    exact tower.parses_end (leads tail (stops_mono (Nat.le_succ _) stops)) stops
  leads := fun other equal => by
    obtain rfl := tower.rank_injective other (same.symm.trans equal)
    exact leads

theorem of_reads (starts : Starts e.rank e.tokens) (apart : e.rank ∈ [0, 1, 8, 10])
    (reads : ∀ tail, Stops e.rank tail → Parses (readAt e.rank) e.peak e.tokens e tail) : Rereads e where
  starts := starts
  reads := reads
  leads := fun tower same => absurd same (tower.rank_apart apart)

theorem rank_le (e : Expr) : e.rank ≤ 10 := by
  cases e with
  | binary op => exact Nat.le_of_lt (Tower.binary op.level).rank_lt
  | _ => simp [Expr.rank]

theorem reads_whole (rereads : Rereads e) (stops : Stops 0 tail) :
    Parses expression (e.peak + 1) e.tokens e tail := by
  refine parses_expression ?_
  exact parses_place (Nat.zero_le e.rank) (rank_le e) stops (plain_of_starts rereads.starts)
    (rereads.reads tail (stops_mono (Nat.zero_le _) stops))

theorem reads_operand (rereads : Rereads e) (least : place ≤ 10) (stops : Stops place tail) :
    Parses (readAt place) (Expr.raised place e.rank e.peak) (Expr.enclosed place e.rank e.tokens) e tail := by
  by_cases loose : e.rank < place
  · rw [Expr.raised, if_pos loose, Expr.enclosed, if_pos loose]
    have group : Parses (readAt 10) (e.peak + 1) (.symbol .openParen :: (e.tokens ++ [.symbol .closeParen])) e tail :=
      parses_group (rereads.reads_whole (stops_unbound rfl))
    refine parses_place least (Nat.le_refl 10) stops (fun _ token first => ?_) group
    obtain rfl := Option.some.inj first
    rfl
  · rw [Expr.raised, if_neg loose, Expr.enclosed, if_neg loose]
    exact parses_place (Nat.le_of_not_lt loose) (rank_le e) stops (plain_of_starts rereads.starts)
      (rereads.reads tail (stops_mono (Nat.le_of_not_lt loose) stops))

theorem leads_operand (rereads : Rereads e) (tower : Tower) (stops : Stops (tower.rank + 1) tail) :
    Leads (readAt tower.rank) tower.more (Expr.raised tower.rank e.rank e.peak)
      (Expr.linksAt tower.rank e.rank e.links) (Expr.enclosed tower.rank e.rank e.tokens) e tail := by
  by_cases same : e.rank = tower.rank
  · have tight : ¬ e.rank < tower.rank := by omega
    rw [Expr.raised, if_neg tight, Expr.linksAt, if_pos same, Expr.enclosed, if_neg tight]
    exact rereads.leads tower same tail stops
  · -- apart from its own rank, an operand is enclosed at a place exactly if it is at the next tighter one
    have either : e.rank < tower.rank ↔ e.rank < tower.rank + 1 := by omega
    have operand := rereads.reads_operand (by have := tower.rank_lt; omega) stops
    simp only [Expr.raised, Expr.enclosed, ← either] at operand
    rw [Expr.linksAt, if_neg same]
    exact tower.leads_start operand

end Rereads

end Stencil
