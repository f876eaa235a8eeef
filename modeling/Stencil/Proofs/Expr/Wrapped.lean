import Stencil.Proofs.Expr.Elsewhere
import Stencil.Proofs.Expr.Headers
import Stencil.Proofs.Expr.Lexes

set_option autoImplicit false

namespace Stencil

theorem result_of_parses {α : Type} {read : (c : Cursor) → Parsed α c} {peak depth : Nat} {tokens tail : List Token}
    {a b : α} {c : Cursor} {next : c.Later} (parses : Parses read peak tokens a tail)
    (shows : c.Shows (tokens ++ tail) depth) (parsed : read c = .ok (b, next)) :
    depth + peak ≤ greatestNesting ∧ b = a ∧ next.val.Shows tail depth := by
  have given := parses c depth shows
  rw [parsed] at given
  by_cases within : depth + peak ≤ greatestNesting
  · obtain ⟨_, same, reached⟩ := given.done within
    obtain rfl := Except.ok.inj same
    exact ⟨within, reached⟩
  · obtain ⟨offset, failed⟩ := given.deep (by omega)
    cases failed

section

def Phrase.Begins (phrase : Phrase) (c : Cursor) : Prop :=
  match phrase with
  | .links .. | .selections .. | .items _ | .moreItems _ => True
  | _ => Starts 0 c.tokens

theorem starts_of_passes {c next : Cursor} {token : Token} (passes : c.Passes token next) (begins : token.begins) :
    Starts 0 c.tokens :=
  ⟨token, next.tokens, Cursor.tokens_of_passes passes, begins, fun beyond => by omega⟩

theorem begins_of_derives (phrase : Phrase) (c next : Cursor) (result : List Expr)
    (derived : Derives phrase c result next) : phrase.Begins c := by
  induction derived with
  | expression _ _ ih | test _ ih | present _ ih | operand _ ih | plain _ ih => exact ih
  | elvis _ _ _ _ first _ | choice _ _ _ _ _ first _ _ | coalesce _ _ _ _ first _ => exact first
  | level _ _ start _ | access _ _ start _ => exact start
  | @unary _ _ _ token _ _ mark known _ _ _ =>
      refine starts_of_passes mark ?_
      cases token with
      | symbol s => cases s <;> first | rfl | cases known
      | _ => rfl
  | integer mark | double mark | text mark | var mark | group mark _ _ _ | array mark _ _ | call mark _ _ _ _
  | constant mark _ => exact starts_of_passes mark rfl
  | unlinked | unselected | link | member | index | noItems | items | noMoreItems | moreItems => trivial

end

-- The tokens of an expression: they are read as it wherever nothing continues it, with so many levels open.
structure Wholly (peak : Nat) (tokens : List Token) (e : Expr) : Prop where
  starts : Starts 0 tokens
  reads : ∀ tail, Stops 0 tail → Parses expression peak tokens e tail

theorem wholly_of_expression (c : Cursor) (e : Expr) (next : c.Later) (parsed : expression c = .ok (e, next)) :
    ∃ passed peak, c.tokens = passed ++ next.val.tokens ∧ Wholly peak passed e ∧
      (c.depth ≤ greatestNesting → c.depth + peak ≤ greatestNesting ∧ next.val.depth = c.depth) := by
  obtain ⟨passed, peak, listed, some, reads⟩ := readsOn_expression c e next parsed
  refine ⟨passed, peak, listed, ⟨?_, fun tail stops => reads tail (.inr stops)⟩, fun within => ?_⟩
  · obtain ⟨token, rest, starts, begins, free⟩ := begins_of_derives _ _ _ _ (derives_expression c e next parsed)
    cases passed with
    | nil => exact absurd rfl some
    | cons found passed =>
        rw [listed] at starts
        obtain ⟨rfl, _⟩ := List.cons.inj starts
        exact ⟨found, passed, rfl, begins, free⟩
  · obtain ⟨enough, _, reached⟩ := result_of_parses (reads _ (.inl rfl)) ⟨listed, rfl, within⟩ parsed
    exact ⟨enough, reached.level⟩

inductive Commas : Nat → List Token → List Expr → Prop where
  | ended : Commas 0 [] []
  | item {peak further : Nat} {tokens others : List Token} {e : Expr} {items : List Expr}
      (first : Wholly peak tokens e) (more : Commas further others items) :
      Commas (max peak further) (.symbol .comma :: (tokens ++ others)) (e :: items)

inductive Lists : Nat → List Token → List Expr → Prop where
  | empty : Lists 0 [] []
  | items {peak further : Nat} {tokens others : List Token} {e : Expr} {items : List Expr}
      (first : Wholly peak tokens e) (more : Commas further others items) :
      Lists (max peak further) (tokens ++ others) (e :: items)

section

variable {peak : Nat} {tokens tail : List Token} {list : List Expr}

theorem stops_commas (commas : Commas peak tokens list) (stops : Stops 0 tail) : Stops 0 (tokens ++ tail) := by
  cases commas with
  | ended => exact stops
  | item => exact stops_unbound rfl

theorem stops_ended (commas : Commas peak tokens list) : Stops 0 tokens := by
  rw [← List.append_nil tokens]
  exact stops_commas commas (by simp [Stops])

theorem parses_commas (close : Symbol) (what : Expectation) (closes : Closes close) (commas : Commas peak tokens list) :
    Parses (moreItems close what) peak (tokens ++ [.symbol close]) list tail := by
  induction commas with
  | ended => exact parses_noMoreItems close what
  | item first more ih =>
      rw [List.cons_append, List.append_assoc]
      have stops : Stops 0 ([.symbol close] ++ tail) := stops_unbound closes.unbound
      refine parses_moreItems close what closes.differs (first.reads _ ?_) ih
      rw [List.append_assoc]
      exact stops_commas more stops

theorem parses_lists (close : Symbol) (what : Expectation) (closes : Closes close) (lists : Lists peak tokens list) :
    Parses (items close what) peak (tokens ++ [.symbol close]) list tail := by
  cases lists with
  | empty => exact parses_noItems close what
  | items first more =>
      have stops : Stops 0 ([.symbol close] ++ tail) := stops_unbound closes.unbound
      rw [List.append_assoc]
      refine parses_items close what (first.reads _ ?_) (parses_commas close what closes more)
        (first_of_starts first.starts _ closes.ends)
      rw [List.append_assoc]
      exact stops_commas more stops

theorem commas_of_moreItems (close : Symbol) (what : Expectation) (c : Cursor) (next : c.Later) (list : List Expr)
    (parsed : moreItems close what c = .ok (list, next)) :
    ∃ tokens peak, c.tokens = tokens ++ .symbol close :: next.val.tokens ∧ Commas peak tokens list := by
  rw [moreItems] at parsed
  split at parsed
  · rename_i last closed
    obtain ⟨rfl, rfl⟩ := Prod.mk.inj (Except.ok.inj parsed)
    exact ⟨[], 0, Cursor.tokens_of_passes (c.passes_of_eat _ _ closed), .ended⟩
  · obtain ⟨⟨afterComma, _⟩, comma, parsed⟩ := (bind_eq_ok _ _ _).mp parsed
    obtain ⟨⟨item, afterItem, _⟩, start, parsed⟩ := (bind_eq_ok _ _ _).mp parsed
    obtain ⟨⟨rest, last, _⟩, more, parsed⟩ := (bind_eq_ok _ _ _).mp parsed
    obtain ⟨rfl, rfl⟩ := Prod.mk.inj (Except.ok.inj parsed)
    have comma := Cursor.tokens_of_passes (c.passes_of_expect _ _ _ comma)
    obtain ⟨passed, peak, listed, first, _⟩ := wholly_of_expression afterComma item _ start
    obtain ⟨others, further, behind, commas⟩ := commas_of_moreItems close what afterItem _ rest more
    dsimp only at comma listed
    refine ⟨.symbol .comma :: (passed ++ others), max peak further, ?_, .item first commas⟩
    rw [comma, listed, behind, List.cons_append, List.append_assoc]
termination_by c.left
decreasing_by omega

theorem lists_of_items (close : Symbol) (what : Expectation) (c : Cursor) (next : c.Later) (list : List Expr)
    (parsed : items close what c = .ok (list, next)) :
    ∃ tokens peak, c.tokens = tokens ++ .symbol close :: next.val.tokens ∧ Lists peak tokens list := by
  rw [items] at parsed
  split at parsed
  · rename_i last closed
    obtain ⟨rfl, rfl⟩ := Prod.mk.inj (Except.ok.inj parsed)
    exact ⟨[], 0, Cursor.tokens_of_passes (c.passes_of_eat _ _ closed), .empty⟩
  · obtain ⟨⟨first, afterFirst, _⟩, start, parsed⟩ := (bind_eq_ok _ _ _).mp parsed
    obtain ⟨⟨rest, last, _⟩, more, parsed⟩ := (bind_eq_ok _ _ _).mp parsed
    obtain ⟨rfl, rfl⟩ := Prod.mk.inj (Except.ok.inj parsed)
    obtain ⟨passed, peak, listed, first, _⟩ := wholly_of_expression c first _ start
    obtain ⟨others, further, behind, commas⟩ := commas_of_moreItems close what afterFirst _ rest more
    dsimp only at listed
    refine ⟨passed ++ others, max peak further, ?_, .items first commas⟩
    rw [listed, behind, List.append_assoc]

theorem commas_of_moreArguments (c : Cursor) (last : c.NotEarlier) (list : List Expr)
    (parsed : moreArguments c = .ok (list, last)) (ended : last.val.tokens = []) (within : c.depth ≤ greatestNesting) :
    ∃ peak, peak ≤ greatestNesting ∧ Commas peak c.tokens list := by
  rw [moreArguments] at parsed
  split at parsed
  · obtain ⟨rfl, rfl⟩ := Prod.mk.inj (Except.ok.inj parsed)
    have none : c.tokens = [] := ended
    exact ⟨0, Nat.zero_le _, none ▸ .ended⟩
  · rename_i comma eaten
    obtain ⟨⟨item, afterItem⟩, start, parsed⟩ := (bind_eq_ok _ _ _).mp parsed
    obtain ⟨⟨rest, after⟩, more, parsed⟩ := (bind_eq_ok _ _ _).mp parsed
    obtain ⟨rfl, rfl⟩ := Prod.mk.inj (Except.ok.inj parsed)
    have passes := c.passes_of_eat _ _ eaten
    have level : comma.val.depth = c.depth := by
      obtain ⟨_, _, _, same⟩ := passes
      rw [same]
    obtain ⟨passed, peak, listed, first, depth⟩ := wholly_of_expression comma.val item _ start
    obtain ⟨enough, kept⟩ := depth (by omega)
    have shorter : afterItem.val.left < c.left := (comma.later afterItem).property
    obtain ⟨further, more, commas⟩ := commas_of_moreArguments afterItem.val after rest more ended (by omega)
    refine ⟨max peak further, by omega, ?_⟩
    rw [Cursor.tokens_of_passes passes, listed]
    exact .item first commas
termination_by c.left
decreasing_by exact shorter

theorem yields_commas (commas : Commas peak tokens list) (c : Cursor) (depth : Nat) (shows : c.Shows tokens depth) :
    Yields (moreArguments c) (depth + peak) (Reached list [] depth) := by
  induction commas generalizing c with
  | ended =>
      rw [moreArguments, Cursor.eat_other shows (by simp)]
      exact yields_reached shows
  | @item peak further tokens others e rest first more ih =>
      obtain ⟨afterComma, _, eaten, shown⟩ := Cursor.eat_shown shows
      rw [moreArguments, eaten]
      refine ((first.reads others (stops_ended more) afterComma depth shown).bind (depth + further) ?_).needing _ (by omega)
      rintro ⟨_, afterItem, _⟩ ⟨rfl, reached⟩
      refine ((ih afterItem reached).bind 0 ?_).needing _ (by omega)
      rintro ⟨_, next, _⟩ ⟨rfl, last⟩
      exact Yields.of_ok _ ⟨rfl, last⟩

end

theorem cursor_eq_ok (text : List Char) (c : Cursor) (read : cursor text = .ok c) : Lexes text c.tokens ∧ c.depth = 0 := by
  rw [cursor] at read
  obtain ⟨located, lexed, read⟩ := (bind_eq_ok _ _ _).mp read
  obtain rfl := Except.ok.inj read
  exact ⟨lexes_of_tokensFrom 0 text located lexed, rfl⟩

theorem cursor_of_lexes (text : List Char) (tokens : List Token) (lexes : Lexes text tokens) :
    ∃ c, cursor text = .ok c ∧ c.Shows tokens 0 := by
  obtain ⟨located, read, same⟩ := tokensFrom_of_lexes text tokens lexes 0
  refine ⟨.start located (Text.byteSize text), ?_, same, rfl, Nat.zero_le _⟩
  rw [cursor, tokenize, read]
  rfl

theorem lexes_unique (text : List Char) (tokens others : List Token) (first : Lexes text tokens)
    (second : Lexes text others) : tokens = others := by
  obtain ⟨located, read, rfl⟩ := tokensFrom_of_lexes text tokens first 0
  obtain ⟨located', read', rfl⟩ := tokensFrom_of_lexes text others second 0
  rw [read] at read'
  rw [Except.ok.inj read']

theorem tokens_of_expectEnd (c : Cursor) (ended : c.expectEnd = .ok ()) : c.tokens = [] := by
  rw [Cursor.expectEnd] at ended
  split at ended
  · rename_i none
    rw [Cursor.tokens, List.isEmpty_iff.mp none]
    rfl
  · cases ended

theorem parse_eq_ok (text : List Char) (e : Expr) :
    Expr.parse text = .ok e ↔
      ∃ tokens peak, Lexes text tokens ∧ peak ≤ greatestNesting ∧ Wholly peak tokens e := by
  constructor
  · intro parsed
    obtain ⟨c, next, read, inner, ended⟩ := (parse_iff_whole text e).mp parsed
    obtain ⟨lexes, start⟩ := cursor_eq_ok text c read
    obtain ⟨passed, peak, listed, wholly, depth⟩ := wholly_of_expression c e next inner
    have enough := (depth (by omega)).1
    rw [tokens_of_expectEnd next.val ended, List.append_nil] at listed
    exact ⟨passed, peak, listed ▸ lexes, by omega, wholly⟩
  · rintro ⟨tokens, peak, lexes, enough, wholly⟩
    obtain ⟨c, read, shows⟩ := cursor_of_lexes text tokens lexes
    rw [← List.append_nil tokens] at shows
    obtain ⟨⟨_, next⟩, inner, rfl, reached⟩ :=
      (wholly.reads [] (by simp [Stops]) c 0 shows).done (by omega)
    obtain ⟨_, ended, _⟩ := (Cursor.yields_expectEnd reached).done (Nat.zero_le _)
    exact (parse_iff_whole text _).mpr ⟨c, next, read, inner, ended⟩

theorem parse_of_wholly {peak : Nat} {text : List Char} {tokens : List Token} {e : Expr} (lexes : Lexes text tokens)
    (wholly : Wholly peak tokens e) :
    (Expr.parse text = .ok e ↔ peak ≤ greatestNesting) ∧
      (greatestNesting < peak → ∃ offset, Expr.parse text = .error ⟨.tooDeep, offset⟩) := by
  have deep (beyond : greatestNesting < peak) : ∃ offset, Expr.parse text = .error ⟨.tooDeep, offset⟩ := by
    obtain ⟨c, read, shows⟩ := cursor_of_lexes text tokens lexes
    rw [← List.append_nil tokens] at shows
    obtain ⟨offset, failed⟩ := (wholly.reads [] (by simp [Stops]) c 0 shows).deep (by omega)
    refine ⟨offset, ?_⟩
    rw [Expr.parse, read]
    change expression c >>= _ = _
    rw [failed]
    rfl
  refine ⟨⟨fun parsed => ?_, fun enough => (parse_eq_ok text e).mpr ⟨tokens, peak, lexes, enough, wholly⟩⟩, deep⟩
  refine Nat.le_of_not_lt fun beyond => ?_
  obtain ⟨offset, failed⟩ := deep beyond
  cases parsed.symm.trans failed

theorem parseAll_eq_ok (text : List Char) (list : List Expr) :
    Expr.parseAll text = .ok list ↔
      ∃ tokens peak, Lexes text tokens ∧ peak ≤ greatestNesting ∧ Lists peak tokens list := by
  constructor
  · intro parsed
    rw [Expr.parseAll] at parsed
    obtain ⟨c, read, parsed⟩ := (bind_eq_ok _ _ _).mp parsed
    obtain ⟨lexes, start⟩ := cursor_eq_ok text c read
    rw [Expr.several] at parsed
    split at parsed
    · rename_i none
      obtain rfl := Except.ok.inj parsed
      rw [Cursor.tokens, List.isEmpty_iff.mp none] at lexes
      exact ⟨[], 0, lexes, Nat.zero_le _, .empty⟩
    · obtain ⟨⟨first, afterFirst⟩, inner, parsed⟩ := (bind_eq_ok _ _ _).mp parsed
      obtain ⟨⟨rest, last⟩, more, parsed⟩ := (bind_eq_ok _ _ _).mp parsed
      obtain ⟨_, ended, parsed⟩ := (bind_eq_ok _ _ _).mp parsed
      obtain rfl := Except.ok.inj parsed
      obtain ⟨passed, peak, listed, wholly, depth⟩ := wholly_of_expression c first afterFirst inner
      obtain ⟨enough, kept⟩ := depth (by omega)
      obtain ⟨further, within, commas⟩ :=
        commas_of_moreArguments _ last rest more (tokens_of_expectEnd last.val ended) (by omega)
      exact ⟨_, max peak further, listed ▸ lexes, by omega, .items wholly commas⟩
  · rintro ⟨tokens, peak, lexes, enough, lists⟩
    obtain ⟨c, read, shows⟩ := cursor_of_lexes text tokens lexes
    refine (bind_eq_ok _ _ _).mpr ⟨c, read, ?_⟩
    cases lists with
    | empty =>
        have none : c.rest.isEmpty = true := List.isEmpty_iff.mpr (List.map_eq_nil_iff.mp shows.listed)
        rw [Expr.several, if_pos none]
        rfl
    | @items peak further tokens others e rest first more =>
        have left : ¬ c.rest.isEmpty = true := by
          intro none
          obtain ⟨token, behind, starts, _⟩ := first.starts
          have listed := shows.listed
          rw [List.isEmpty_iff.mp none, starts] at listed
          cases listed
        obtain ⟨⟨_, afterFirst⟩, inner, rfl, reached⟩ := (first.reads others (stops_ended more) c 0 shows).done (by omega)
        obtain ⟨⟨_, last⟩, behind, rfl, finished⟩ := (yields_commas more _ 0 reached).done (by omega)
        obtain ⟨_, ended, _⟩ := (Cursor.yields_expectEnd finished).done (Nat.zero_le _)
        rw [Expr.several, if_neg left]
        refine (bind_eq_ok _ _ _).mpr ⟨_, inner, (bind_eq_ok _ _ _).mpr ⟨_, behind, ?_⟩⟩
        exact (bind_eq_ok _ _ _).mpr ⟨_, ended, rfl⟩

def Expr.Applied : Expr → Prop
  | .binary .. | .member .. | .index .. => True
  | _ => False

theorem applied_of_links (level : Level) (tighter : List Level) (count : Nat) (left : Expr) (c : Cursor) (e : Expr)
    (next : c.NotEarlier) (parsed : links level tighter count left c = .ok (e, next)) :
    (e = left ∧ next.val.tokens = c.tokens) ∨ e.Applied := by
  rw [links] at parsed
  split at parsed
  · obtain ⟨rfl, rfl⟩ := Prod.mk.inj (Except.ok.inj parsed)
    exact .inl ⟨rfl, rfl⟩
  · obtain ⟨⟨inner, _⟩, _, parsed⟩ := (bind_eq_ok _ _ _).mp parsed
    obtain ⟨⟨right, afterRight, _⟩, _, parsed⟩ := (bind_eq_ok _ _ _).mp parsed
    obtain ⟨⟨last, after, _⟩, more, parsed⟩ := (bind_eq_ok _ _ _).mp parsed
    obtain ⟨rfl, rfl⟩ := Prod.mk.inj (Except.ok.inj parsed)
    refine .inr ?_
    rcases applied_of_links level tighter (count + 1) _ afterRight last _ more with ⟨rfl, _⟩ | applied
    · trivial
    · exact applied
termination_by c.left
decreasing_by omega

theorem applied_of_selections (count : Nat) (target : Expr) (c : Cursor) (e : Expr) (next : c.NotEarlier)
    (parsed : selections count target c = .ok (e, next)) :
    (e = target ∧ next.val.tokens = c.tokens) ∨ e.Applied := by
  rw [selections] at parsed
  split at parsed
  · obtain ⟨⟨inner, _⟩, _, parsed⟩ := (bind_eq_ok _ _ _).mp parsed
    obtain ⟨⟨field, afterField, _⟩, _, parsed⟩ := (bind_eq_ok _ _ _).mp parsed
    obtain ⟨⟨last, after, _⟩, more, parsed⟩ := (bind_eq_ok _ _ _).mp parsed
    obtain ⟨rfl, rfl⟩ := Prod.mk.inj (Except.ok.inj parsed)
    refine .inr ?_
    rcases applied_of_selections (count + 1) _ afterField last _ more with ⟨rfl, _⟩ | applied
    · trivial
    · exact applied
  · split at parsed
    · obtain ⟨⟨inner, _⟩, _, parsed⟩ := (bind_eq_ok _ _ _).mp parsed
      obtain ⟨⟨key, afterKey, _⟩, _, parsed⟩ := (bind_eq_ok _ _ _).mp parsed
      obtain ⟨⟨afterBracket, _⟩, _, parsed⟩ := (bind_eq_ok _ _ _).mp parsed
      obtain ⟨⟨last, after, _⟩, more, parsed⟩ := (bind_eq_ok _ _ _).mp parsed
      obtain ⟨rfl, rfl⟩ := Prod.mk.inj (Except.ok.inj parsed)
      refine .inr ?_
      rcases applied_of_selections (count + 1) _ afterBracket last _ more with ⟨rfl, _⟩ | applied
      · trivial
      · exact applied
    · obtain ⟨rfl, rfl⟩ := Prod.mk.inj (Except.ok.inj parsed)
      exact .inl ⟨rfl, rfl⟩
termination_by c.left
decreasing_by all_goals omega

section

variable {function : String} {args : List Expr}

theorem call_of_chain (levels : List Level) (c : Cursor) (next : c.Later)
    (parsed : chain levels c = .ok (.call function args, next)) :
    ∃ after : c.Later, unary c = .ok (.call function args, after) ∧ after.val.tokens = next.val.tokens := by
  induction levels generalizing next with
  | nil => exact ⟨next, chain_nil ▸ parsed, rfl⟩
  | cons level tighter ih =>
      rw [chain] at parsed
      obtain ⟨⟨first, afterFirst, _⟩, start, parsed⟩ := (bind_eq_ok _ _ _).mp parsed
      obtain ⟨⟨last, after, _⟩, more, parsed⟩ := (bind_eq_ok _ _ _).mp parsed
      obtain ⟨rfl, rfl⟩ := Prod.mk.inj (Except.ok.inj parsed)
      rcases applied_of_links level tighter 0 first afterFirst _ _ more with ⟨rfl, same⟩ | applied
      · obtain ⟨reached, inner, before⟩ := ih _ start
        exact ⟨reached, inner, before.trans same.symm⟩
      · exact applied.elim

theorem call_of_coalesce (c : Cursor) (next : c.Later) (parsed : coalesce c = .ok (.call function args, next)) :
    ∃ after : c.Later, unary c = .ok (.call function args, after) ∧ after.val.tokens = next.val.tokens := by
  rw [coalesce] at parsed
  obtain ⟨⟨left, afterLeft, _⟩, first, parsed⟩ := (bind_eq_ok _ _ _).mp parsed
  dsimp only at parsed
  split at parsed
  · obtain ⟨rfl, rfl⟩ := Prod.mk.inj (Except.ok.inj parsed)
    exact call_of_chain Level.all c _ first
  · obtain ⟨⟨inner, _⟩, _, parsed⟩ := (bind_eq_ok _ _ _).mp parsed
    obtain ⟨⟨right, last, _⟩, _, parsed⟩ := (bind_eq_ok _ _ _).mp parsed
    cases parsed

theorem call_of_ternary (c : Cursor) (next : c.Later) (parsed : ternary c = .ok (.call function args, next)) :
    ∃ after : c.Later, unary c = .ok (.call function args, after) ∧ after.val.tokens = next.val.tokens := by
  rw [ternary] at parsed
  obtain ⟨⟨test, afterTest, _⟩, first, parsed⟩ := (bind_eq_ok _ _ _).mp parsed
  dsimp only at parsed
  split at parsed
  · obtain ⟨rfl, rfl⟩ := Prod.mk.inj (Except.ok.inj parsed)
    exact call_of_coalesce c _ first
  · split at parsed
    · obtain ⟨⟨otherwise, last, _⟩, _, parsed⟩ := (bind_eq_ok _ _ _).mp parsed
      cases parsed
    · obtain ⟨⟨positive, afterPositive, _⟩, _, parsed⟩ := (bind_eq_ok _ _ _).mp parsed
      obtain ⟨⟨afterColon, _⟩, _, parsed⟩ := (bind_eq_ok _ _ _).mp parsed
      obtain ⟨⟨negative, last, _⟩, _, parsed⟩ := (bind_eq_ok _ _ _).mp parsed
      cases parsed

theorem call_of_callOf (name : String) (offset : Nat) (given : List Expr)
    (made : callOf name offset given = .ok (.call function args)) : given = args := by
  rcases given with _ | ⟨target, _ | ⟨second, rest⟩⟩
  all_goals
    simp only [callOf] at made
    split at made
  · cases made
  · cases made
    rfl
  · split at made <;> cases made
  · cases made
    rfl
  · cases made
  · cases made
    rfl

theorem call_of_unary (c : Cursor) (next : c.Later) (token : Token) (rest : List Token) (lone : unaryOp? token = none)
    (starts : c.tokens = token :: rest) (parsed : unary c = .ok (.call function args, next)) :
    ∃ after : c.Later, primary c = .ok (.call function args, after) ∧ after.val.tokens = next.val.tokens := by
  rw [unary] at parsed
  split at parsed
  · rw [access] at parsed
    obtain ⟨⟨target, afterTarget, _⟩, start, parsed⟩ := (bind_eq_ok _ _ _).mp parsed
    obtain ⟨⟨e, last, _⟩, more, parsed⟩ := (bind_eq_ok _ _ _).mp parsed
    obtain ⟨rfl, rfl⟩ := Prod.mk.inj (Except.ok.inj parsed)
    rcases applied_of_selections 0 target afterTarget _ _ more with ⟨rfl, same⟩ | applied
    · exact ⟨_, start, same.symm⟩
    · exact applied.elim
  · rename_i op afterOp _ mark
    obtain ⟨_, mark, known⟩ := c.passes_of_pass _ _ _ mark
    rw [Cursor.tokens_of_passes mark] at starts
    obtain ⟨rfl, _⟩ := List.cons.inj starts
    cases lone.symm.trans known

theorem items_of_primary (c : Cursor) (next : c.Later) (name : String) (rest : List Token) (e : Expr)
    (starts : c.tokens = .word name :: .symbol .openParen :: rest) (parsed : primary c = .ok (e, next)) :
    ∃ (inner : Cursor) (given : List Expr) (last : inner.Later) (offset : Nat), inner.tokens = rest ∧
      items .closeParen .commaOrParen inner = .ok (given, last) ∧ last.val.tokens = next.val.tokens ∧
      callOf name offset given = .ok e := by
  rw [primary] at parsed
  split at parsed
  · cases parsed
  · rename_i found after within mark
    have mark := Cursor.tokens_of_passes (c.passes_of_next _ _ mark)
    rw [starts] at mark
    obtain ⟨named, behind⟩ := List.cons.inj mark
    rw [← named] at parsed
    dsimp only at behind parsed
    split at parsed
    · rename_i inner _ opened
      have opened := Cursor.tokens_of_passes (after.passes_of_eat _ _ opened)
      obtain ⟨⟨given, last, _⟩, read, parsed⟩ := (bind_eq_ok _ _ _).mp parsed
      obtain ⟨called, made, parsed⟩ := (bind_eq_ok _ _ _).mp parsed
      obtain ⟨rfl, rfl⟩ := Prod.mk.inj (Except.ok.inj parsed)
      rw [opened] at behind
      exact ⟨inner, given, _, found.offset, (List.cons.inj behind).2.symm, read, rfl, made⟩
    · rename_i uncalled
      exact absurd rfl (Cursor.differs_of_eat _ uncalled _ (by rw [← behind]; rfl))

theorem lists_of_primary (c : Cursor) (next : c.Later) (name : String) (rest : List Token)
    (starts : c.tokens = .word name :: .symbol .openParen :: rest)
    (parsed : primary c = .ok (.call function args, next)) :
    ∃ tokens peak, rest = tokens ++ .symbol .closeParen :: next.val.tokens ∧ Lists peak tokens args := by
  obtain ⟨inner, given, last, offset, rfl, read, ended, made⟩ := items_of_primary c next name rest _ starts parsed
  obtain rfl := call_of_callOf name offset given made
  obtain ⟨tokens, peak, listed, lists⟩ := lists_of_items .closeParen .commaOrParen inner last given read
  exact ⟨tokens, peak, ended ▸ listed, lists⟩

theorem lists_of_expression (c : Cursor) (next : c.Later) (name : String) (rest : List Token)
    (lone : unaryOp? (.word name) = none) (starts : c.tokens = .word name :: .symbol .openParen :: rest)
    (parsed : expression c = .ok (.call function args, next)) :
    ∃ tokens peak, rest = tokens ++ .symbol .closeParen :: next.val.tokens ∧ Lists peak tokens args := by
  rw [expression] at parsed
  obtain ⟨⟨inner, here⟩, down, parsed⟩ := (bind_eq_ok _ _ _).mp parsed
  obtain ⟨⟨found, last⟩, first, parsed⟩ := (bind_eq_ok _ _ _).mp parsed
  obtain ⟨rfl, rfl⟩ := Prod.mk.inj (Except.ok.inj parsed)
  rw [← c.tokens_of_descend _ down] at starts
  obtain ⟨afterUnary, read, same⟩ := call_of_ternary inner last first
  obtain ⟨afterPrimary, read, before⟩ := call_of_unary inner afterUnary _ _ lone starts read
  obtain ⟨tokens, peak, listed, lists⟩ := lists_of_primary inner afterPrimary name rest starts read
  rw [before, same] at listed
  exact ⟨tokens, peak, listed, lists⟩

theorem parses_called {peak : Nat} {tokens : List Token} (free : Text.lowerAscii function ∉ reservedCalls)
    (lists : Lists peak tokens args) (tail : List Token) (stops : Stops 0 tail) :
    Parses expression (peak + 1) (.word function :: .symbol .openParen :: (tokens ++ [.symbol .closeParen]))
      (.call function args) tail := by
  have inner : Parses (items .closeParen .commaOrParen) peak (tokens ++ [.symbol .closeParen]) args tail :=
    parses_lists .closeParen .commaOrParen ⟨rfl, rfl, by decide⟩ lists
  have call := parses_call function (fun offset => callOf_free function free offset args) inner
  refine parses_expression (parses_place (Nat.zero_le 10) (Nat.le_refl 10) stops (fun _ token first => ?_) call)
  obtain rfl := Option.some.inj first
  exact Expr.unaryOp_call function free

end

theorem lexes_escape (rest : List Char) (tokens : List Token) :
    Lexes ('e' :: '(' :: rest) tokens ↔ ∃ behind, tokens = .word "e" :: .symbol .openParen :: behind ∧ Lexes rest behind := by
  have name : firstToken 'e' ('(' :: rest) = .ok (.word "e", '(' :: rest) := rfl
  have mark : firstToken '(' rest = .ok (.symbol .openParen, rest) := rfl
  constructor
  · intro lexes
    cases lexes with
    | blank skipped => exact absurd skipped (by decide)
    | token _ first behind =>
        rw [name] at first
        obtain ⟨rfl, rfl⟩ := Prod.mk.inj (Except.ok.inj first)
        cases behind with
        | blank skipped => exact absurd skipped (by decide)
        | token _ second last =>
            rw [mark] at second
            obtain ⟨rfl, rfl⟩ := Prod.mk.inj (Except.ok.inj second)
            exact ⟨_, rfl, last⟩
  · rintro ⟨behind, rfl, lexes⟩
    exact .token (by decide) name (.token (by decide) mark lexes)

theorem lexes_closed (text : List Char) (tokens : List Token) :
    Lexes (text ++ [')']) tokens ↔ ∃ inside, tokens = inside ++ [.symbol .closeParen] ∧ Lexes text inside := by
  have apart : Token.Apart [')'] := by
    intro c first
    obtain rfl := Option.some.inj first
    rfl
  have mark : firstToken ')' [] = .ok (.symbol .closeParen, []) := rfl
  constructor
  · intro lexes
    obtain ⟨inside, others, rfl, early, late⟩ := lexes_divide apart (by simp) (by simp) lexes
    refine ⟨inside, ?_, early⟩
    cases late with
    | blank skipped => exact absurd skipped (by decide)
    | token _ first behind =>
        rw [mark] at first
        obtain ⟨rfl, rfl⟩ := Prod.mk.inj (Except.ok.inj first)
        cases behind
        rfl
  · rintro ⟨inside, rfl, lexes⟩
    exact lexes_append apart lexes (.token (by decide) mark .ended)

theorem parse_called (body : List Char) (e : Expr) (parsed : Expr.parse ('e' :: '(' :: (body ++ [')'])) = .ok e)
    (args : List Expr) : e = .call "e" args ↔ Expr.parseAll body = .ok args := by
  have lone : unaryOp? (.word "e") = none := by decide
  obtain ⟨whole, peak, lexes, enough, wholly⟩ := (parse_eq_ok _ e).mp parsed
  obtain ⟨c, read, shows⟩ := cursor_of_lexes _ whole lexes
  rw [← List.append_nil whole] at shows
  obtain ⟨⟨_, next⟩, inner, rfl, reached⟩ := (wholly.reads [] (by simp [Stops]) c 0 shows).done (by omega)
  obtain ⟨behind, rfl, behindLexes⟩ := (lexes_escape _ whole).mp lexes
  obtain ⟨inside, rfl, insideLexes⟩ := (lexes_closed body behind).mp behindLexes
  constructor
  · rintro rfl
    have starts : c.tokens = .word "e" :: .symbol .openParen :: (inside ++ [.symbol .closeParen]) := by
      rw [Cursor.tokens, shows.listed, List.append_nil]
    obtain ⟨tokens, peak', listed, lists⟩ := lists_of_expression c next "e" _ lone starts inner
    have ended : next.val.tokens = [] := reached.listed
    rw [ended] at listed
    obtain rfl := List.append_cancel_right listed
    have again := parses_called (by decide : Text.lowerAscii "e" ∉ reservedCalls) lists [] (by simp [Stops])
    have within := (result_of_parses again shows inner).1
    exact (parseAll_eq_ok body args).mpr ⟨inside, peak', insideLexes, by omega, lists⟩
  · intro listed
    obtain ⟨tokens, peak', lexes', _, lists⟩ := (parseAll_eq_ok body args).mp listed
    obtain rfl := lexes_unique body inside tokens insideLexes lexes'
    have again := parses_called (by decide : Text.lowerAscii "e" ∉ reservedCalls) lists [] (by simp [Stops])
    exact (result_of_parses again shows inner).2.1

theorem parse_iff_parseAll (text : List Char) (e : Expr) : Expr.parse text = .ok e ↔ Expr.parseAll text = .ok [e] := by
  rw [parse_eq_ok, parseAll_eq_ok]
  constructor
  · rintro ⟨tokens, peak, lexes, enough, wholly⟩
    have alone := Lists.items wholly .ended
    rw [List.append_nil] at alone
    exact ⟨tokens, max peak 0, lexes, by omega, alone⟩
  · rintro ⟨tokens, peak, lexes, enough, lists⟩
    cases lists with
    | items first more =>
        cases more
        rw [List.append_nil] at lexes
        exact ⟨_, _, lexes, by omega, first⟩

end Stencil
