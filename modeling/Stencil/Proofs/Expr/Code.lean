import Stencil.Expr.Code
import Stencil.Proofs.Expr.Each
import Stencil.Proofs.Json.Data

set_option autoImplicit false

namespace Stencil

open Json (Tree Field Variant)

namespace Expr

mutual
def reread? : Expr → Option Expr
  | .literal value => do return .literal (← value.reread?)
  | .array items => do return .array (← rereads? items)
  | .var name => some (.var name)
  | .member target field => do return .member (← target.reread?) field
  | .index target key => do return .index (← target.reread?) (← key.reread?)
  | .unary op operand => do return .unary op (← operand.reread?)
  | .binary op left right => do return .binary op (← left.reread?) (← right.reread?)
  | .coalesce left right => do return .coalesce (← left.reread?) (← right.reread?)
  | .choice test positive negative =>
      do return .choice (← test.reread?) (← positive.reread?) (← negative.reread?)
  | .elvis test otherwise => do return .elvis (← test.reread?) (← otherwise.reread?)
  | .call function args => do return .call function (← rereads? args)
  | .isset target => do return .isset (← target.reread?)
  | .empty target => do return .empty (← target.reread?)

def rereads? : List Expr → Option (List Expr)
  | [] => some []
  | e :: rest => do return (← e.reread?) :: (← rereads? rest)
end

theorem forms_distinct (form : Form) : forms.Distinct form := by
  cases form <;> decide +kernel

theorem toTree_object (e : Expr) : ∃ members, e.toTree.reread = .object members := by
  cases e <;> exact ⟨_, rfl⟩

theorem unary_named (op : UnaryOp) :
    UnaryOp.all.find? (fun other => other.code == op.code) = some op := by
  cases op <;> decide +kernel

theorem binary_named (op : BinaryOp) :
    BinaryOp.all.find? (fun other => other.code == op.code) = some op := by
  cases op <;> decide +kernel

mutual
theorem ofTree_reread (e : Expr) : ofTree? e.toTree.reread = e.reread? := by
  cases e with
  | literal value =>
      obtain ⟨_, read⟩ := forms.read_write .literal true [.ofValue value] (forms_distinct _) rfl
      rw [toTree, ofTree?, read]
      rfl
  | array items =>
      obtain ⟨_, read⟩ := forms.read_write .array true [.array (toTrees items)] (forms_distinct _) rfl
      rw [toTree, ofTree?, read, reread?, ← ofArray_reread items]
      rfl
  | var name =>
      obtain ⟨_, read⟩ := forms.read_write .var true [.string name] (forms_distinct _) rfl
      rw [toTree, ofTree?, read]
      rfl
  | member target field =>
      obtain ⟨_, read⟩ := forms.read_write .member true [target.toTree, .string field]
        (forms_distinct _) rfl
      rw [toTree, ofTree?, read, reread?, ← ofTree_reread target]
      rfl
  | index target key =>
      obtain ⟨_, read⟩ := forms.read_write .index true [target.toTree, key.toTree]
        (forms_distinct _) rfl
      rw [toTree, ofTree?, read, reread?, ← ofTree_reread target, ← ofTree_reread key]
      rfl
  | unary op operand =>
      obtain ⟨_, read⟩ := forms.read_write .unary true [.string op.code, operand.toTree]
        (forms_distinct _) rfl
      have named := Json.choice_reread UnaryOp.all UnaryOp.code op (unary_named op)
      rw [toTree, ofTree?, read, reread?, ← ofTree_reread operand]
      simp only [Json.rereadItems, List.attachWith, List.pmap, Option.bind_eq_bind, Option.bind_some, named]
  | binary op left right =>
      obtain ⟨_, read⟩ := forms.read_write .binary true [.string op.code, left.toTree, right.toTree]
        (forms_distinct _) rfl
      have named := Json.choice_reread BinaryOp.all BinaryOp.code op (binary_named op)
      rw [toTree, ofTree?, read, reread?, ← ofTree_reread left, ← ofTree_reread right]
      simp only [Json.rereadItems, List.attachWith, List.pmap, Option.bind_eq_bind, Option.bind_some, named]
  | coalesce left right =>
      obtain ⟨_, read⟩ := forms.read_write .coalesce true [left.toTree, right.toTree]
        (forms_distinct _) rfl
      rw [toTree, ofTree?, read, reread?, ← ofTree_reread left, ← ofTree_reread right]
      rfl
  | choice test positive negative =>
      obtain ⟨_, read⟩ := forms.read_write .ternary true
        [test.toTree, positive.toTree, negative.toTree] (forms_distinct _) rfl
      -- The positive side is no null, which stands for its absence.
      obtain ⟨members, object⟩ := positive.toTree_object
      rw [toTree, ofTree?, read, reread?, ← ofTree_reread test, ← ofTree_reread positive,
        ← ofTree_reread negative, object]
      simp only [Json.rereadItems, object]
      rfl
  | elvis test otherwise =>
      obtain ⟨_, read⟩ := forms.read_write .ternary true [test.toTree, .null, otherwise.toTree]
        (forms_distinct _) rfl
      rw [toTree, ofTree?, read, reread?, ← ofTree_reread test, ← ofTree_reread otherwise]
      rfl
  | call function args =>
      obtain ⟨_, read⟩ := forms.read_write .call true [.string function, .array (toTrees args)]
        (forms_distinct _) rfl
      rw [toTree, ofTree?, read, reread?, ← ofArray_reread args]
      rfl
  | isset target =>
      obtain ⟨_, read⟩ := forms.read_write .isset true [target.toTree] (forms_distinct _) rfl
      rw [toTree, ofTree?, read, reread?, ← ofTree_reread target]
      rfl
  | empty target =>
      obtain ⟨_, read⟩ := forms.read_write .empty true [target.toTree] (forms_distinct _) rfl
      rw [toTree, ofTree?, read, reread?, ← ofTree_reread target]
      rfl

theorem ofArray_reread (items : List Expr) :
    ofArray? (Tree.array (toTrees items)).reread = rereads? items := by
  rw [Tree.reread, ofArray?, ofTrees_reread]

theorem ofTrees_reread (items : List Expr) :
    ofTrees? (Json.rereadItems (toTrees items)) = rereads? items := by
  cases items with
  | nil =>
      rw [toTrees, Json.rereadItems, ofTrees?]
      rfl
  | cons e rest =>
      rw [toTrees, Json.rereadItems, ofTrees?, ofTrees_reread rest, ofTree_reread e]
      rfl
end

mutual
theorem isReadable_toTree (e : Expr) : e.toTree.isReadable = true := by
  cases e <;> rw [toTree] <;> apply forms.isReadable_write
  case literal value => simp only [Json.allReadable, Json.isReadable_ofValue, Bool.and_self]
  case array items => simp only [Json.allReadable, Tree.isReadable, isReadable_toTrees items, Bool.and_self]
  case var name => rfl
  case member target field =>
    simp only [Json.allReadable, Tree.isReadable, isReadable_toTree target, Bool.and_self]
  case index target key =>
    simp only [Json.allReadable, isReadable_toTree target, isReadable_toTree key, Bool.and_self]
  case unary op operand =>
    simp only [Json.allReadable, Tree.isReadable, isReadable_toTree operand, Bool.and_self]
  case binary op left right =>
    simp only [Json.allReadable, Tree.isReadable, isReadable_toTree left, isReadable_toTree right,
      Bool.and_self]
  case coalesce left right =>
    simp only [Json.allReadable, isReadable_toTree left, isReadable_toTree right, Bool.and_self]
  case choice test positive negative =>
    simp only [Json.allReadable, isReadable_toTree test, isReadable_toTree positive,
      isReadable_toTree negative, Bool.and_self]
  case elvis test otherwise =>
    simp only [Json.allReadable, Tree.isReadable, isReadable_toTree test, isReadable_toTree otherwise,
      Bool.and_self]
  case call function args =>
    simp only [Json.allReadable, Tree.isReadable, isReadable_toTrees args, Bool.and_self]
  case isset target => simp only [Json.allReadable, isReadable_toTree target, Bool.and_self]
  case empty target => simp only [Json.allReadable, isReadable_toTree target, Bool.and_self]

theorem isReadable_toTrees (items : List Expr) : Json.allReadable (toTrees items) = true := by
  cases items with
  | nil => rfl
  | cons e rest =>
      rw [toTrees, Json.allReadable, isReadable_toTree e, isReadable_toTrees rest]
      rfl
end

mutual
theorem reread_toTree (e : Expr) (reads : e.Each Value.FloatsReadBack) : e.toTree.reread = e.toTree := by
  cases e <;> rw [toTree, forms.reread_write]
  case literal value => simp only [Json.rereadItems, Json.reread_ofValue value reads]
  case array items => simp only [Json.rereadItems, Tree.reread, reread_toTrees items reads]
  case var name => rfl
  case member target field => simp only [Json.rereadItems, Tree.reread, reread_toTree target reads]
  case index target key =>
    simp only [Json.rereadItems, reread_toTree target reads.1, reread_toTree key reads.2]
  case unary op operand => simp only [Json.rereadItems, Tree.reread, reread_toTree operand reads]
  case binary op left right =>
    simp only [Json.rereadItems, Tree.reread, reread_toTree left reads.1, reread_toTree right reads.2]
  case coalesce left right =>
    simp only [Json.rereadItems, reread_toTree left reads.1, reread_toTree right reads.2]
  case choice test positive negative =>
    simp only [Json.rereadItems, reread_toTree test reads.1, reread_toTree positive reads.2.1,
      reread_toTree negative reads.2.2]
  case elvis test otherwise =>
    simp only [Json.rereadItems, Tree.reread, reread_toTree test reads.1,
      reread_toTree otherwise reads.2]
  case call function args => simp only [Json.rereadItems, Tree.reread, reread_toTrees args reads]
  case isset target => simp only [Json.rereadItems, reread_toTree target reads]
  case empty target => simp only [Json.rereadItems, reread_toTree target reads]

theorem reread_toTrees (items : List Expr) (reads : EachOf Value.FloatsReadBack items) :
    Json.rereadItems (toTrees items) = toTrees items := by
  cases items with
  | nil => rfl
  | cons e rest => rw [toTrees, Json.rereadItems, reread_toTree e reads.1, reread_toTrees rest reads.2]
end

mutual
theorem reread_self (e : Expr) (same : e.Each fun value => value.reread? = some value) :
    e.reread? = some e := by
  cases e <;> rw [reread?]
  case literal value =>
    rw [show value.reread? = some value from same]
    rfl
  case array items => rw [rereads_self items same]; rfl
  case member target field => rw [reread_self target same]; rfl
  case index target key => rw [reread_self target same.1, reread_self key same.2]; rfl
  case unary op operand => rw [reread_self operand same]; rfl
  case binary op left right => rw [reread_self left same.1, reread_self right same.2]; rfl
  case coalesce left right => rw [reread_self left same.1, reread_self right same.2]; rfl
  case choice test positive negative =>
    rw [reread_self test same.1, reread_self positive same.2.1, reread_self negative same.2.2]
    rfl
  case elvis test otherwise => rw [reread_self test same.1, reread_self otherwise same.2]; rfl
  case call function args => rw [rereads_self args same]; rfl
  case isset target => rw [reread_self target same]; rfl
  case empty target => rw [reread_self target same]; rfl

theorem rereads_self (items : List Expr) (same : EachOf (fun value => value.reread? = some value) items) :
    rereads? items = some items := by
  cases items with
  | nil => rfl
  | cons e rest => rw [rereads?, reread_self e same.1, rereads_self rest same.2]; rfl
end

mutual
theorem ordered_ofTree (tree : Tree) (e : Expr) (read : ofTree? tree = some e) :
    e.Each Value.Ordered := by
  rw [ofTree?] at read
  simp only [Option.bind_eq_bind, Option.bind_eq_some_iff] at read
  obtain ⟨⟨form, parts⟩, _, read⟩ := read
  split at read
  all_goals simp only [Option.bind_eq_some_iff, Option.pure_def, Option.some.injEq, reduceCtorEq] at read
  · obtain ⟨value, inner, rfl⟩ := read
    exact Json.ordered_toValue _ _ inner
  · obtain ⟨items, inner, rfl⟩ := read
    exact ordered_ofArray _ items inner
  · obtain ⟨name, _, rfl⟩ := read
    trivial
  · obtain ⟨target, inner, field, _, rfl⟩ := read
    exact ordered_ofTree _ target inner
  · obtain ⟨target, first, key, second, rfl⟩ := read
    exact ⟨ordered_ofTree _ target first, ordered_ofTree _ key second⟩
  · obtain ⟨op, _, operand, inner, rfl⟩ := read
    exact ordered_ofTree _ operand inner
  · obtain ⟨op, _, left, first, right, second, rfl⟩ := read
    exact ⟨ordered_ofTree _ left first, ordered_ofTree _ right second⟩
  · obtain ⟨left, first, right, second, rfl⟩ := read
    exact ⟨ordered_ofTree _ left first, ordered_ofTree _ right second⟩
  · obtain ⟨test, first, otherwise, second, rfl⟩ := read
    exact ⟨ordered_ofTree _ test first, ordered_ofTree _ otherwise second⟩
  · obtain ⟨test, first, positive, second, negative, third, rfl⟩ := read
    exact ⟨ordered_ofTree _ test first, ordered_ofTree _ positive second,
      ordered_ofTree _ negative third⟩
  · obtain ⟨function, _, args, inner, rfl⟩ := read
    exact ordered_ofArray _ args inner
  · obtain ⟨target, inner, rfl⟩ := read
    exact ordered_ofTree _ target inner
  · obtain ⟨target, inner, rfl⟩ := read
    exact ordered_ofTree _ target inner
termination_by sizeOf tree

theorem ordered_ofArray (tree : Tree) (items : List Expr) (read : ofArray? tree = some items) :
    EachOf Value.Ordered items := by
  cases tree with
  | array members =>
      rw [ofArray?] at read
      exact ordered_ofTrees members items read
  | _ => simp [ofArray?] at read
termination_by sizeOf tree

theorem ordered_ofTrees (trees : List Tree) (items : List Expr) (read : ofTrees? trees = some items) :
    EachOf Value.Ordered items := by
  cases trees with
  | nil =>
      rw [ofTrees?] at read
      obtain rfl := Option.some.inj read
      trivial
  | cons tree rest =>
      rw [ofTrees?] at read
      simp only [Option.bind_eq_bind, Option.bind_eq_some_iff, Option.pure_def, Option.some.injEq] at read
      obtain ⟨e, first, others, later, rfl⟩ := read
      exact ⟨ordered_ofTree tree e first, ordered_ofTrees rest others later⟩
termination_by sizeOf trees
end

end Expr

theorem mapM_self {α : Type} (f : α → Option α) (items : List α) (same : ∀ item ∈ items, f item = some item) :
    items.mapM f = some items := by
  induction items with
  | nil => rfl
  | cons item rest ih =>
      rw [List.mapM_cons, same item (List.mem_cons_self ..), ih fun other inside =>
        same other (List.mem_cons_of_mem _ inside)]
      rfl

theorem mem_mapM {α β : Type} (f : α → Option β) (items : List α) (results : List β)
    (all : items.mapM f = some results) (result : β) (inside : result ∈ results) :
    ∃ item ∈ items, f item = some result := by
  induction items generalizing results with
  | nil =>
      obtain rfl := Option.some.inj all
      simp at inside
  | cons item rest ih =>
      simp only [List.mapM_cons, Option.bind_eq_bind, Option.bind_eq_some_iff, Option.pure_def,
        Option.some.injEq] at all
      obtain ⟨first, here, others, later, rfl⟩ := all
      rcases List.mem_cons.mp inside with rfl | inside
      · exact ⟨item, List.mem_cons_self .., here⟩
      · obtain ⟨other, among, read⟩ := ih others later inside
        exact ⟨other, List.mem_cons_of_mem _ among, read⟩

theorem list_reread {α : Type} (toTree : α → Tree) (ofTree? : Tree → Option α) (reread? : α → Option α)
    (read : ∀ a, ofTree? (toTree a).reread = reread? a) (items : List α) :
    list? ofTree? (Tree.array (items.map toTree)).reread = items.mapM reread? := by
  rw [Tree.reread, list?, Json.rereadItems_eq_map, List.mapM_map, List.mapM_map]
  exact congrArg (fun f => items.mapM f) (funext read)

theorem optional_expr_reread (e : Option Expr) :
    optional? Expr.ofTree? (optionalTree Expr.toTree e).reread = e.mapM Expr.reread? := by
  cases e with
  | none => rfl
  | some e =>
      obtain ⟨members, object⟩ := e.toTree_object
      rw [optionalTree, Option.mapM_some, ← Expr.ofTree_reread, object]
      rfl

theorem optional_string_reread (s : Option String) :
    optional? Tree.string? (optionalTree Tree.string s).reread = some s := by
  cases s <;> rfl

theorem isReadable_optionalTree {α : Type} (toTree : α → Tree) (readable : ∀ a, (toTree a).isReadable = true)
    (a : Option α) : (optionalTree toTree a).isReadable = true := by
  cases a with
  | none => rfl
  | some a => exact readable a

theorem optional_expr_reread_tree (e : Option Expr) (reads : ∀ part ∈ e, part.Each Value.FloatsReadBack) :
    (optionalTree Expr.toTree e).reread = optionalTree Expr.toTree e := by
  cases e with
  | none => rfl
  | some e => exact e.reread_toTree (reads e rfl)

theorem optional_expr_self (e : Option Expr)
    (same : ∀ part ∈ e, part.Each fun value => value.reread? = some value) :
    e.mapM Expr.reread? = some e := by
  cases e with
  | none => rfl
  | some e => rw [Option.mapM_some, e.reread_self (same e rfl)]; rfl

theorem optional_expr_ordered (tree : Tree) (e : Option Expr)
    (read : optional? Expr.ofTree? tree = some e) : ∀ part ∈ e, part.Each Value.Ordered := by
  intro part inside
  rw [Option.mem_def.mp inside] at read
  cases tree with
  | null => simp [optional?] at read
  | _ =>
      simp only [optional?, Option.map_eq_some_iff, Option.some.injEq] at read
      obtain ⟨e, inner, rfl⟩ := read
      exact Expr.ordered_ofTree _ e inner

namespace Assignment

def reread? : Assignment → Option Assignment
  | .set name value => do return .set name (← value.reread?)
  | .add name value => do return .add name (← value.reread?)
  | .sub name value => do return .sub name (← value.reread?)
  | .increment name => some (.increment name)
  | .decrement name => some (.decrement name)

theorem forms_distinct (form : Form) : forms.Distinct form := by
  cases form <;> decide +kernel

theorem ofTree_reread (statement : Assignment) : ofTree? statement.toTree.reread = statement.reread? := by
  cases statement with
  | set name value =>
      obtain ⟨_, read⟩ := forms.read_write .set true [.string name, value.toTree] (forms_distinct _) rfl
      rw [toTree, ofTree?, read, reread?, ← Expr.ofTree_reread value]
      rfl
  | add name value =>
      obtain ⟨_, read⟩ := forms.read_write .add true [.string name, value.toTree] (forms_distinct _) rfl
      rw [toTree, ofTree?, read, reread?, ← Expr.ofTree_reread value]
      rfl
  | sub name value =>
      obtain ⟨_, read⟩ := forms.read_write .sub true [.string name, value.toTree] (forms_distinct _) rfl
      rw [toTree, ofTree?, read, reread?, ← Expr.ofTree_reread value]
      rfl
  | increment name =>
      obtain ⟨_, read⟩ := forms.read_write .increment true [.string name] (forms_distinct _) rfl
      rw [toTree, ofTree?, read]
      rfl
  | decrement name =>
      obtain ⟨_, read⟩ := forms.read_write .decrement true [.string name] (forms_distinct _) rfl
      rw [toTree, ofTree?, read]
      rfl

theorem isReadable_toTree (statement : Assignment) : statement.toTree.isReadable = true := by
  cases statement <;> rw [toTree] <;> apply forms.isReadable_write
  case set _ value | add _ value | sub _ value =>
    simp only [Json.allReadable, Tree.isReadable, value.isReadable_toTree, Bool.and_self]
  case increment | decrement => rfl

theorem reread_toTree (statement : Assignment) (reads : statement.Each (Expr.Each Value.FloatsReadBack)) :
    statement.toTree.reread = statement.toTree := by
  cases statement <;> rw [toTree, forms.reread_write]
  case set _ value | add _ value | sub _ value =>
    simp only [Json.rereadItems, Tree.reread, value.reread_toTree reads]
  case increment | decrement => rfl

theorem reread_self (statement : Assignment) (same : statement.Each (Expr.Each fun value => value.reread? = some value)) :
    statement.reread? = some statement := by
  cases statement <;> rw [reread?]
  case set _ value | add _ value | sub _ value =>
    rw [value.reread_self same]
    rfl

theorem ordered_ofTree (tree : Tree) (statement : Assignment) (read : ofTree? tree = some statement) :
    statement.Each (Expr.Each Value.Ordered) := by
  rw [ofTree?] at read
  simp only [Option.bind_eq_bind, Option.bind_eq_some_iff] at read
  obtain ⟨⟨form, parts⟩, _, read⟩ := read
  split at read
  all_goals simp only [Option.bind_eq_some_iff, Option.pure_def, Option.some.injEq, reduceCtorEq] at read
  · obtain ⟨name, _, value, inner, rfl⟩ := read
    exact Expr.ordered_ofTree _ value inner
  · obtain ⟨name, _, value, inner, rfl⟩ := read
    exact Expr.ordered_ofTree _ value inner
  · obtain ⟨name, _, value, inner, rfl⟩ := read
    exact Expr.ordered_ofTree _ value inner
  · obtain ⟨name, _, rfl⟩ := read
    trivial
  · obtain ⟨name, _, rfl⟩ := read
    trivial

theorem ordered_list (tree : Tree) (statements : List Assignment)
    (read : list? ofTree? tree = some statements) : ∀ statement ∈ statements, statement.Each (Expr.Each Value.Ordered) := by
  intro statement inside
  cases tree with
  | array trees =>
      obtain ⟨part, _, inner⟩ := mem_mapM ofTree? trees statements read statement inside
      exact ordered_ofTree part statement inner
  | _ => simp [list?] at read

theorem reread_toTrees (statements : List Assignment)
    (reads : ∀ statement ∈ statements, statement.Each (Expr.Each Value.FloatsReadBack)) :
    (Tree.array (statements.map toTree)).reread = .array (statements.map toTree) := by
  rw [Tree.reread, Json.rereadItems_eq_map, List.map_map]
  exact congrArg Tree.array (List.map_congr_left fun statement inside =>
    reread_toTree statement (reads statement inside))

end Assignment

namespace EachHeader

def reread? (header : EachHeader) : Option EachHeader := do
  return ⟨← header.source.reread?, header.key, header.value⟩

theorem ofTree_reread (header : EachHeader) : ofTree? header.toTree.reread = header.reread? := by
  obtain ⟨_, read⟩ := Json.record_reread fields
    [header.source.toTree, optionalTree Tree.string header.key, .string header.value]
    (by decide +kernel) rfl
  have key := optional_string_reread header.key
  rw [toTree, ofTree?, read, reread?, ← Expr.ofTree_reread]
  simp only [Json.rereadItems, List.attachWith, List.pmap, Option.bind_eq_bind, Option.bind_some, key]
  rfl

theorem isReadable_toTree (header : EachHeader) : header.toTree.isReadable = true := by
  apply Json.isReadable_record
  simp only [Json.allReadable, Tree.isReadable, header.source.isReadable_toTree,
    isReadable_optionalTree Tree.string fun _ => rfl, Bool.and_self]

theorem reread_toTree (header : EachHeader) (reads : header.Each (Expr.Each Value.FloatsReadBack)) :
    header.toTree.reread = header.toTree := by
  have key : (optionalTree Tree.string header.key).reread = optionalTree Tree.string header.key := by
    cases header.key <;> rfl
  rw [toTree, Json.reread_record]
  simp only [Json.rereadItems, Tree.reread, header.source.reread_toTree reads, key]

theorem reread_self (header : EachHeader) (same : header.Each (Expr.Each fun value => value.reread? = some value)) :
    header.reread? = some header := by
  rw [reread?, header.source.reread_self same]
  rfl

theorem ordered_ofTree (tree : Tree) (header : EachHeader) (read : ofTree? tree = some header) :
    header.Each (Expr.Each Value.Ordered) := by
  rw [ofTree?] at read
  simp only [Option.bind_eq_bind, Option.bind_eq_some_iff] at read
  obtain ⟨parts, _, read⟩ := read
  split at read
  all_goals simp only [Option.bind_eq_some_iff, Option.pure_def, Option.some.injEq, reduceCtorEq] at read
  obtain ⟨source, inner, key, _, value, _, rfl⟩ := read
  exact Expr.ordered_ofTree _ source inner

end EachHeader

namespace ForHeader

def reread? (header : ForHeader) : Option ForHeader := do
  return ⟨← header.init.mapM Assignment.reread?, ← header.condition.mapM Expr.reread?,
    ← header.step.mapM Assignment.reread?⟩

theorem ofTree_reread (header : ForHeader) : ofTree? header.toTree.reread = header.reread? := by
  obtain ⟨_, read⟩ := Json.record_reread fields
    [.array (header.init.map Assignment.toTree), optionalTree Expr.toTree header.condition,
      .array (header.step.map Assignment.toTree)] (by decide +kernel) rfl
  have statements := list_reread Assignment.toTree Assignment.ofTree? Assignment.reread?
    Assignment.ofTree_reread
  have condition := optional_expr_reread header.condition
  rw [toTree, ofTree?, read, reread?]
  simp only [Json.rereadItems, List.attachWith, List.pmap, Option.bind_eq_bind, Option.bind_some,
    statements, condition]

theorem isReadable_toTree (header : ForHeader) : header.toTree.isReadable = true := by
  have statements (list : List Assignment) : Json.allReadable (list.map Assignment.toTree) = true := by
    apply Json.allReadable_of_forall
    intro tree inside
    obtain ⟨statement, _, rfl⟩ := List.mem_map.mp inside
    exact statement.isReadable_toTree
  apply Json.isReadable_record
  simp only [Json.allReadable, Tree.isReadable, statements,
    isReadable_optionalTree Expr.toTree Expr.isReadable_toTree, Bool.and_self]

theorem reread_toTree (header : ForHeader) (reads : header.Each (Expr.Each Value.FloatsReadBack)) :
    header.toTree.reread = header.toTree := by
  rw [toTree, Json.reread_record]
  simp only [Json.rereadItems, Assignment.reread_toTrees header.init reads.1,
    optional_expr_reread_tree header.condition reads.2.1,
    Assignment.reread_toTrees header.step reads.2.2]

theorem reread_self (header : ForHeader) (same : header.Each (Expr.Each fun value => value.reread? = some value)) :
    header.reread? = some header := by
  rw [reread?,
    mapM_self Assignment.reread? header.init fun statement inside =>
      statement.reread_self (same.1 statement inside),
    optional_expr_self header.condition same.2.1,
    mapM_self Assignment.reread? header.step fun statement inside =>
      statement.reread_self (same.2.2 statement inside)]
  rfl

theorem ordered_ofTree (tree : Tree) (header : ForHeader) (read : ofTree? tree = some header) :
    header.Each (Expr.Each Value.Ordered) := by
  rw [ofTree?] at read
  simp only [Option.bind_eq_bind, Option.bind_eq_some_iff] at read
  obtain ⟨parts, _, read⟩ := read
  split at read
  all_goals simp only [Option.bind_eq_some_iff, Option.pure_def, Option.some.injEq, reduceCtorEq] at read
  obtain ⟨init, first, condition, second, step, third, rfl⟩ := read
  exact ⟨Assignment.ordered_list _ init first, optional_expr_ordered _ condition second,
    Assignment.ordered_list _ step third⟩

end ForHeader

end Stencil
