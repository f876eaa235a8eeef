import Stencil.Proofs.Expr.Literal

set_option autoImplicit false

namespace Stencil

namespace Phrase

-- How many levels the operators passed so far keep, until the phrase ends.
def held : Phrase → Nat
  | .links _ _ count _ => count
  | .selections count _ => count
  | _ => 0

end Phrase

theorem Cursor.depth_of_passes {c next : Cursor} {token : Token} (passes : c.Passes token next) :
    next.depth = c.depth := by
  obtain ⟨_, _, _, rfl⟩ := passes
  rfl

theorem depth_of_derives (phrase : Phrase) (c next : Cursor) (result : List Expr)
    (derived : Derives phrase c result next) (enough : phrase.held ≤ c.depth) :
    next.depth + phrase.held = c.depth := by
  induction derived with
  | test _ ih | present _ ih | operand _ ih | plain _ ih => exact ih enough
  | expression _ _ ih =>
      have inside := ih (Nat.zero_le _)
      simp only [Phrase.held, Cursor.deeper, Cursor.ascend] at inside ⊢
      omega
  | elvis _ mark colon _ first second =>
      have test := first enough
      have otherwise := second (Nat.zero_le _)
      have mark := Cursor.depth_of_passes mark
      have colon := Cursor.depth_of_passes colon
      simp only [Phrase.held] at test otherwise ⊢
      omega
  | choice _ mark _ colon _ first second third =>
      have test := first enough
      have positive := second (Nat.zero_le _)
      have negative := third (Nat.zero_le _)
      have mark := Cursor.depth_of_passes mark
      have colon := Cursor.depth_of_passes colon
      simp only [Phrase.held] at test positive negative ⊢
      omega
  | coalesce _ mark _ _ first second =>
      have left := first enough
      have right := second (Nat.zero_le _)
      have mark := Cursor.depth_of_passes mark
      simp only [Phrase.held, Cursor.deeper, Cursor.ascend] at left right ⊢
      omega
  | level _ _ start more | access _ _ start more =>
      have first := start enough
      have rest := more (Nat.zero_le _)
      simp only [Phrase.held] at first rest ⊢
      omega
  | unlinked | unselected =>
      simp only [Phrase.held, Cursor.ascend] at enough ⊢
      omega
  | link mark _ _ _ _ operand more =>
      have mark := Cursor.depth_of_passes mark
      have right := operand (Nat.zero_le _)
      simp only [Phrase.held, Cursor.deeper] at enough right more ⊢
      have rest := more (by omega)
      omega
  | unary mark _ _ _ ih =>
      have mark := Cursor.depth_of_passes mark
      have operand := ih (Nat.zero_le _)
      simp only [Phrase.held, Cursor.deeper, Cursor.ascend] at operand ⊢
      omega
  | member mark _ _ named _ _ more =>
      have mark := Cursor.depth_of_passes mark
      have named := Cursor.depth_of_passes named
      simp only [Phrase.held, Cursor.deeper] at enough named more ⊢
      have rest := more (by omega)
      omega
  | index mark _ _ closed _ inner more =>
      have mark := Cursor.depth_of_passes mark
      have key := inner (Nat.zero_le _)
      have closed := Cursor.depth_of_passes closed
      simp only [Phrase.held, Cursor.deeper] at enough key more ⊢
      have rest := more (by omega)
      omega
  | integer mark | double mark | text mark | var mark | constant mark _ | noItems mark | noMoreItems mark =>
      exact Cursor.depth_of_passes mark
  | group mark _ closed ih =>
      have mark := Cursor.depth_of_passes mark
      have inner := ih (Nat.zero_le _)
      have closed := Cursor.depth_of_passes closed
      simp only [Phrase.held] at inner ⊢
      omega
  | array mark _ ih =>
      have mark := Cursor.depth_of_passes mark
      have inner := ih (Nat.zero_le _)
      simp only [Phrase.held] at inner ⊢
      omega
  | call named mark _ _ ih =>
      have named := Cursor.depth_of_passes named
      have mark := Cursor.depth_of_passes mark
      have inner := ih (Nat.zero_le _)
      simp only [Phrase.held] at inner ⊢
      omega
  | items _ _ start more =>
      have first := start enough
      have rest := more (Nat.zero_le _)
      simp only [Phrase.held] at first rest ⊢
      omega
  | moreItems comma _ _ start more =>
      have comma := Cursor.depth_of_passes comma
      have first := start (Nat.zero_le _)
      have rest := more (Nat.zero_le _)
      simp only [Phrase.held] at first rest ⊢
      omega

theorem depth_of_part {phrase : Phrase} {c next : Cursor} {result : List Expr}
    (derived : Derives phrase c result next) (free : phrase.held = 0) : next.depth = c.depth := by
  have place := depth_of_derives phrase c next result derived (by omega)
  omega

theorem room_of_expression {c next : Cursor} {e : Expr} (derived : Derives .expression c [e] next) :
    c.depth < greatestNesting := by
  cases derived with
  | expression room _ => exact room

-- A level is taken by every operand that is enclosed or stands behind its operator, and by no operand in front of one.
inductive Builds : Phrase → Nat → List Expr → Prop where
  | expression {room : Nat} {e : Expr} (inner : Builds .ternary room [e]) : Builds .expression (room + 1) [e]
  | test {room : Nat} {e : Expr} (test : Builds .coalesce room [e]) : Builds .ternary room [e]
  | elvis {room : Nat} {test otherwise : Expr} (first : Builds .coalesce room [test])
      (second : Builds .expression room [otherwise]) : Builds .ternary room [.elvis test otherwise]
  | choice {room : Nat} {test positive negative : Expr} (first : Builds .coalesce room [test])
      (second : Builds .expression room [positive]) (third : Builds .expression room [negative]) :
      Builds .ternary room [.choice test positive negative]
  | present {room : Nat} {e : Expr} (inner : Builds (.chain Level.all) room [e]) : Builds .coalesce room [e]
  | coalesce {room : Nat} {left right : Expr} (first : Builds (.chain Level.all) (room + 1) [left])
      (second : Builds .coalesce room [right]) : Builds .coalesce (room + 1) [.coalesce left right]
  | operand {room : Nat} {e : Expr} (inner : Builds .unary room [e]) : Builds (.chain []) room [e]
  | level {room : Nat} {level : Level} {tighter : List Level} {first e : Expr}
      (start : Builds (.chain tighter) room [first]) (more : Builds (.links level tighter 0 first) room [e]) :
      Builds (.chain (level :: tighter)) room [e]
  | unlinked {room : Nat} {level : Level} {tighter : List Level} {count : Nat} {left : Expr} :
      Builds (.links level tighter count left) room [left]
  | link {room : Nat} {level : Level} {tighter : List Level} {count : Nat} {op : BinaryOp} {left right e : Expr}
      (operand : Builds (.chain tighter) room [right])
      (more : Builds (.links level tighter (count + 1) (.binary op left right)) room [e]) :
      Builds (.links level tighter count left) (room + 1) [e]
  | plain {room : Nat} {e : Expr} (inner : Builds .access room [e]) : Builds .unary room [e]
  | unary {room : Nat} {op : UnaryOp} {operand : Expr} (inner : Builds .unary room [operand]) :
      Builds .unary (room + 1) [.unary op operand]
  | access {room : Nat} {target e : Expr} (start : Builds .primary room [target])
      (more : Builds (.selections 0 target) room [e]) : Builds .access room [e]
  | unselected {room count : Nat} {target : Expr} : Builds (.selections count target) room [target]
  | member {room count : Nat} {target e : Expr} {field : String}
      (more : Builds (.selections (count + 1) (.member target field)) room [e]) :
      Builds (.selections count target) (room + 1) [e]
  | index {room count : Nat} {target key e : Expr} (inner : Builds .expression room [key])
      (more : Builds (.selections (count + 1) (.index target key)) room [e]) :
      Builds (.selections count target) (room + 1) [e]
  | literal {room : Nat} {value : Value} : Builds .primary room [.literal value]
  | var {room : Nat} {name : String} : Builds .primary room [.var name]
  | group {room : Nat} {e : Expr} (inner : Builds .expression room [e]) : Builds .primary room [e]
  | array {room : Nat} {close : Symbol} {members : List Expr} (inner : Builds (.items close) room members) :
      Builds .primary room [.array members]
  | call {room : Nat} {close : Symbol} {name : String} {args : List Expr} (inner : Builds (.items close) room args) :
      Builds .primary room [.call name args]
  | isset {room : Nat} {close : Symbol} {target : Expr} (inner : Builds (.items close) room [target]) :
      Builds .primary room [.isset target]
  | empty {room : Nat} {close : Symbol} {target : Expr} (inner : Builds (.items close) room [target]) :
      Builds .primary room [.empty target]
  | noItems {room : Nat} {close : Symbol} : Builds (.items close) room []
  | items {room : Nat} {close : Symbol} {first : Expr} {rest : List Expr} (start : Builds .expression room [first])
      (more : Builds (.moreItems close) room rest) : Builds (.items close) room (first :: rest)
  | noMoreItems {room : Nat} {close : Symbol} : Builds (.moreItems close) room []
  | moreItems {room : Nat} {close : Symbol} {item : Expr} {rest : List Expr} (start : Builds .expression room [item])
      (more : Builds (.moreItems close) room rest) : Builds (.moreItems close) room (item :: rest)

theorem room_pos {room : Nat} {e : Expr} (built : Builds .expression room [e]) : 0 < room := by
  cases built
  exact Nat.succ_pos _

theorem builds_constant (room : Nat) (name : String) (offset : Nat) (e : Expr) (made : constant name offset = .ok e) :
    Builds .primary room [e] := by
  simp only [constant] at made
  split at made
  · obtain rfl := Except.ok.inj made
    exact Builds.literal
  · split at made
    · obtain rfl := Except.ok.inj made
      exact Builds.literal
    · split at made
      · obtain rfl := Except.ok.inj made
        exact Builds.literal
      · cases made

theorem builds_callOf {room : Nat} {close : Symbol} {name : String} {offset : Nat} {args : List Expr} {e : Expr}
    (inner : Builds (.items close) room args) (made : callOf name offset args = .ok e) : Builds .primary room [e] := by
  simp only [callOf] at made
  split at made
  · split at made
    · obtain rfl := Except.ok.inj made
      split
      · exact Builds.isset inner
      · exact Builds.empty inner
    · cases made
  · obtain rfl := Except.ok.inj made
    exact Builds.call inner

theorem builds_of_derives (phrase : Phrase) (c next : Cursor) (result : List Expr)
    (derived : Derives phrase c result next) (enough : phrase.held ≤ c.depth) (room : Nat)
    (left : c.depth + room = greatestNesting) : Builds phrase room result := by
  induction derived generalizing room with
  | expression below _ ih =>
      cases room with
      | zero => omega
      | succ room => exact Builds.expression (ih (Nat.zero_le _) room (by simp only [Cursor.deeper]; omega))
  | test _ ih => exact Builds.test (ih enough room left)
  | present _ ih => exact Builds.present (ih enough room left)
  | operand _ ih => exact Builds.operand (ih enough room left)
  | plain _ ih => exact Builds.plain (ih enough room left)
  | elvis before mark colon _ first second =>
      have place := depth_of_part before rfl
      rw [← Cursor.depth_of_passes mark, ← Cursor.depth_of_passes colon] at place
      exact Builds.elvis (first enough room left) (second (Nat.zero_le _) room (by omega))
  | choice before mark between colon _ first second third =>
      have place := depth_of_part before rfl
      rw [← Cursor.depth_of_passes mark] at place
      have further := depth_of_part between rfl
      rw [← Cursor.depth_of_passes colon] at further
      exact Builds.choice (first enough room left) (second (Nat.zero_le _) room (by omega))
        (third (Nat.zero_le _) room (by omega))
  | coalesce before mark below _ first second =>
      have place := depth_of_part before rfl
      rw [← Cursor.depth_of_passes mark] at place
      have onLeft := first enough room left
      cases room with
      | zero => omega
      | succ room => exact Builds.coalesce onLeft (second (Nat.zero_le _) room (by simp only [Cursor.deeper]; omega))
  | level before _ start more =>
      exact Builds.level (start enough room left) (more (Nat.zero_le _) room (by rw [depth_of_part before rfl]; exact left))
  | access before _ start more =>
      exact Builds.access (start enough room left) (more (Nat.zero_le _) room (by rw [depth_of_part before rfl]; exact left))
  | unlinked => exact Builds.unlinked
  | unselected => exact Builds.unselected
  | @link c afterOp afterRight _ _ tighter count _ _ target operand _ mark _ below between _ first more =>
      have place : afterRight.depth = c.depth + 1 :=
        (depth_of_part between rfl).trans (congrArg (· + 1) (Cursor.depth_of_passes mark))
      have mark := Cursor.depth_of_passes mark
      simp only [Phrase.held] at enough more
      cases room with
      | zero => omega
      | succ room =>
          exact Builds.link (first (Nat.zero_le _) room (by simp only [Cursor.deeper]; omega))
            (more (by omega) room (by omega))
  | unary mark below _ _ ih =>
      have mark := Cursor.depth_of_passes mark
      cases room with
      | zero => omega
      | succ room => exact Builds.unary (ih (Nat.zero_le _) room (by simp only [Cursor.deeper]; omega))
  | @member c _ afterField _ count _ _ _ target _ mark _ below named _ _ more =>
      have place : afterField.depth = c.depth + 1 :=
        (Cursor.depth_of_passes named).trans (congrArg (· + 1) (Cursor.depth_of_passes mark))
      have mark := Cursor.depth_of_passes mark
      simp only [Phrase.held] at enough more
      cases room with
      | zero => omega
      | succ room => exact Builds.member (more (by omega) room (by omega))
  | @index c _ _ afterBracket _ count target _ _ mark below between closed _ inner more =>
      have place : afterBracket.depth = c.depth + 1 :=
        ((Cursor.depth_of_passes closed).trans (depth_of_part between rfl)).trans
          (congrArg (· + 1) (Cursor.depth_of_passes mark))
      have mark := Cursor.depth_of_passes mark
      simp only [Phrase.held] at enough more
      cases room with
      | zero => omega
      | succ room =>
          exact Builds.index (inner (Nat.zero_le _) room (by simp only [Cursor.deeper]; omega))
            (more (by omega) room (by omega))
  | integer | double | text => exact Builds.literal
  | var => exact Builds.var
  | constant _ made => exact builds_constant room _ _ _ made
  | group mark _ _ ih => exact Builds.group (ih (Nat.zero_le _) room (by rw [Cursor.depth_of_passes mark]; exact left))
  | array mark _ ih => exact Builds.array (ih (Nat.zero_le _) room (by rw [Cursor.depth_of_passes mark]; exact left))
  | call named mark _ made ih =>
      have place := (Cursor.depth_of_passes mark).trans (Cursor.depth_of_passes named)
      exact builds_callOf (ih (Nat.zero_le _) room (by rw [place]; exact left)) made
  | noItems => exact Builds.noItems
  | noMoreItems => exact Builds.noMoreItems
  | items before _ start more =>
      exact Builds.items (start enough room left) (more (Nat.zero_le _) room (by rw [depth_of_part before rfl]; exact left))
  | moreItems comma before _ start more =>
      have comma := Cursor.depth_of_passes comma
      exact Builds.moreItems (start (Nat.zero_le _) room (by rw [comma]; exact left))
        (more (Nat.zero_le _) room (by rw [depth_of_part before rfl, comma]; exact left))

theorem builds_expression (c : Cursor) (e : Expr) (next : c.Later) (read : expression c = .ok (e, next)) :
    ∃ room, room ≤ greatestNesting ∧ Builds .expression room [e] := by
  have derived := derives_expression c e next read
  have below := room_of_expression derived
  exact ⟨greatestNesting - c.depth, Nat.sub_le _ _,
    builds_of_derives _ _ _ _ derived (Nat.zero_le _) _ (by omega)⟩

end Stencil
