import Stencil.Render.Session

set_option autoImplicit false

namespace Stencil.Session

inductive Call where
  | begin (name : String)
  | write (text : String)
  | finish (overwrite : Bool)
  | block (name default : String)
  | hasBlock (name : String)

def Call.run (call : Call) (session : Session) : Session :=
  match call with
  | .begin name => session.begin name
  | .write text => session.write text
  | .finish overwrite =>
      match session.finish overwrite with
      | .ok (_, next) => next
      | .error _ => session
  | .block _ _ => session
  | .hasBlock _ => session

abbrev History : Type := List Call

namespace History

def session : History → Session
  | [] => .start
  | call :: past => call.run (session past)

-- The captures that are open, the innermost first. A capture is known by the number of calls before it began.
def opened : History → List (Nat × String)
  | [] => []
  | .begin name :: past => (past.length, name) :: opened past
  | .finish _ :: past => (opened past).tail
  | _ :: past => opened past

def isOpen (name : String) (history : History) : Bool := history.opened.any fun (_, other) => other == name

def innermost (history : History) : Option Nat := history.opened.head?.map Prod.fst

def written (place : Option Nat) : History → String
  | [] => ""
  | .write text :: past => if innermost past = place then written place past ++ text else written place past
  | _ :: past => written place past

structure Closing where
  place : Nat
  name : String
  overwrite : Bool

def closings : History → List Closing
  | [] => []
  | .finish overwrite :: past =>
      match opened past with
      | [] => closings past
      | (place, name) :: _ => closings past ++ [⟨place, name, overwrite⟩]
  | _ :: past => closings past

def closedAs (name : String) (history : History) : List Closing := history.closings.filter (·.name == name)

def sinceOverwrite : List Closing → List Closing
  | [] => []
  | closing :: later => if later.any Closing.overwrite then sinceOverwrite later else closing :: later

def textOf (history : History) (closings : List Closing) : String :=
  String.join (closings.map fun closing => history.written (some closing.place))

def stored (name : String) (history : History) : Option String :=
  if (history.closedAs name).isEmpty then none
  else some (history.textOf (sinceOverwrite (history.closedAs name)))

theorem opened_place (history : History) (place : Nat) (name : String) (inside : (place, name) ∈ history.opened) :
    place < history.length := by
  induction history with
  | nil => cases inside
  | cons call past ih =>
      rw [List.length_cons]
      cases call with
      | begin other =>
          rcases List.mem_cons.mp inside with first | later
          · obtain ⟨rfl, rfl⟩ := Prod.mk.inj first
            omega
          · have earlier := ih later
            omega
      | finish overwrite =>
          have earlier := ih (List.mem_of_mem_tail inside)
          omega
      | write _ | block _ _ | hasBlock _ =>
          have earlier := ih inside
          omega

theorem opened_ordered (history : History) : history.opened.Pairwise fun inner outer => outer.1 < inner.1 := by
  induction history with
  | nil => exact .nil
  | cons call past ih =>
      cases call with
      | begin name => exact .cons (fun outer inside => opened_place past outer.1 outer.2 inside) ih
      | finish overwrite => exact ih.tail
      | write _ | block _ _ | hasBlock _ => exact ih

theorem innermost_lt (history : History) (place : Nat) (inner : history.innermost = some place) :
    place < history.length := by
  rw [innermost, Option.map_eq_some_iff] at inner
  obtain ⟨⟨_, name⟩, first, rfl⟩ := inner
  exact opened_place history _ name (List.mem_of_head? first)

theorem written_future (history : History) (place : Nat) (future : history.length ≤ place) :
    history.written (some place) = "" := by
  induction history with
  | nil => rfl
  | cons call past ih =>
      rw [List.length_cons] at future
      have earlier := ih (by omega)
      cases call with
      | write text =>
          have other : innermost past ≠ some place := fun inner => by
            have before := innermost_lt past place inner
            omega
          rw [written, if_neg other, earlier]
      | begin _ | finish _ | block _ _ | hasBlock _ => exact earlier

theorem closings_apart (history : History) (closing : Closing) (inside : closing ∈ history.closings) :
    closing.place < history.length ∧ ∀ name, (closing.place, name) ∉ history.opened := by
  induction history with
  | nil => cases inside
  | cons call past ih =>
      rw [List.length_cons]
      cases call with
      | begin name =>
          obtain ⟨before, closed⟩ := ih inside
          refine ⟨by omega, fun other found => ?_⟩
          rcases List.mem_cons.mp found with first | later
          · have same := congrArg Prod.fst first
            dsimp only at same
            omega
          · exact closed other later
      | finish overwrite =>
          rw [closings] at inside
          rw [opened]
          have ordered := opened_ordered past
          have placed := opened_place past
          cases open' : opened past with
          | nil =>
              rw [open'] at inside
              obtain ⟨before, closed⟩ := ih inside
              exact ⟨by omega, fun name found => List.not_mem_nil found⟩
          | cons frame outer =>
              obtain ⟨place, name⟩ := frame
              rw [open'] at inside ordered placed
              rcases List.mem_append.mp inside with earlier | last
              · obtain ⟨before, closed⟩ := ih earlier
                refine ⟨by omega, fun other found => closed other ?_⟩
                rw [open']
                exact List.mem_cons_of_mem _ found
              · obtain rfl := List.mem_singleton.mp last
                have before := placed place name List.mem_cons_self
                refine ⟨by dsimp only; omega, fun other found => ?_⟩
                have apart := List.rel_of_pairwise_cons ordered found
                dsimp only at apart
                omega
      | write _ | block _ _ | hasBlock _ =>
          obtain ⟨before, closed⟩ := ih inside
          exact ⟨by omega, closed⟩

theorem written_other (past : History) (text : String) (place : Nat)
    (closed : ∀ name, (place, name) ∉ past.opened) :
    written (some place) (.write text :: past) = past.written (some place) := by
  rw [written, if_neg]
  rw [innermost]
  intro inner
  obtain ⟨⟨_, name⟩, first, rfl⟩ := Option.map_eq_some_iff.mp inner
  exact closed name (List.mem_of_head? first)

theorem mem_sinceOverwrite (closings : List Closing) (closing : Closing) (inside : closing ∈ sinceOverwrite closings) :
    closing ∈ closings := by
  induction closings with
  | nil => exact inside
  | cons first later ih =>
      rw [sinceOverwrite] at inside
      split at inside
      · exact List.mem_cons_of_mem _ (ih inside)
      · exact inside

theorem sinceOverwrite_append (closings : List Closing) (last : Closing) :
    sinceOverwrite (closings ++ [last])
      = if last.overwrite then [last] else sinceOverwrite closings ++ [last] := by
  induction closings with
  | nil => simp [sinceOverwrite]
  | cons first later ih =>
      cases overwrites : last.overwrite with
      | true => simp [sinceOverwrite, ih, overwrites]
      | false =>
          simp only [overwrites, Bool.false_eq_true, if_false] at ih
          simp only [List.cons_append, sinceOverwrite, List.any_append, List.any_cons, List.any_nil, overwrites,
            Bool.or_false, ih, Bool.false_eq_true, if_false]
          split <;> rfl

theorem textOf_append (history : History) (closings : List Closing) (last : Closing) :
    history.textOf (closings ++ [last]) = history.textOf closings ++ history.written (some last.place) := by
  simp [textOf, String.join_append]

theorem textOf_write (past : History) (text : String) (closings : List Closing)
    (closed : ∀ closing ∈ closings, ∀ name, (closing.place, name) ∉ past.opened) :
    textOf (.write text :: past) closings = past.textOf closings := by
  rw [textOf, textOf, List.map_congr_left]
  exact fun closing inside => written_other past text closing.place (closed closing inside)

theorem stored_write (past : History) (text name : String) : stored name (.write text :: past) = past.stored name := by
  have same : closedAs name (.write text :: past) = past.closedAs name := rfl
  rw [stored, stored, same, textOf_write]
  intro closing inside
  have member := mem_sinceOverwrite _ closing inside
  exact (closings_apart past closing (List.mem_filter.mp member).1).2

theorem getD_stored (history : History) (name : String) :
    (history.stored name).getD "" = history.textOf (sinceOverwrite (history.closedAs name)) := by
  rw [stored]
  cases history.closedAs name <;> rfl

theorem isSome_stored (history : History) (name : String) :
    (history.stored name).isSome = true ↔ ∃ closing ∈ history.closings, closing.name = name := by
  rw [stored]
  by_cases none : history.closedAs name = []
  · have others := none
    simp only [closedAs, List.filter_eq_nil_iff, beq_iff_eq] at others
    simpa [none] using others
  · obtain ⟨closing, inside⟩ := List.exists_mem_of_ne_nil _ none
    obtain ⟨member, named⟩ := List.mem_filter.mp inside
    simp only [List.isEmpty_iff, none, if_false, Option.isSome_some, true_iff]
    exact ⟨closing, member, eq_of_beq named⟩

theorem stored_finish (past : History) (overwrite : Bool) (place : Nat) (name query : String)
    (outer : List (Nat × String)) (open' : past.opened = (place, name) :: outer) :
    stored query (.finish overwrite :: past)
      = if query = name then
          some ((if overwrite then "" else (past.stored name).getD "") ++ past.written (some place))
        else past.stored query := by
  have appended : closings (.finish overwrite :: past) = past.closings ++ [⟨place, name, overwrite⟩] := by
    rw [closings, open']
  have texts : ∀ list, textOf (.finish overwrite :: past) list = past.textOf list := fun _ => rfl
  by_cases same : query = name
  · subst same
    have ends : closedAs query (.finish overwrite :: past) = past.closedAs query ++ [⟨place, query, overwrite⟩] := by
      simp [closedAs, appended]
    rw [if_pos rfl, getD_stored, stored, ends, sinceOverwrite_append]
    cases overwrite with
    | true => simp [textOf, written]
    | false => simp [textOf_append, texts]
  · have ends : closedAs query (.finish overwrite :: past) = past.closedAs query := by
      simp [closedAs, appended, Ne.symm same]
    rw [if_neg same, stored, stored, ends]
    rfl

structure Recounts (history : History) (session : Session) : Prop where
  frames : session.frames
    = (opened history).map fun (place, name) => ⟨name, history.written (some place), false⟩
  blocks : ∀ name, session.blocks.get? name = history.stored name
  output : session.output = history.written none

theorem recounts_begin (past : History) (session : Session) (told : past.Recounts session) (name : String) :
    Recounts (.begin name :: past) (session.begin name) := by
  refine ⟨?_, told.blocks, told.output⟩
  have empty := written_future past past.length (Nat.le_refl _)
  simp only [Session.begin, openFrame, opened, List.map_cons, told.frames, written, empty]

theorem recounts_write (past : History) (session : Session) (told : past.Recounts session) (text : String) :
    Recounts (.write text :: past) (session.write text) := by
  obtain ⟨blocks, frames, output, parent, chain, depth, claimed⟩ := session
  obtain ⟨framed, blocked, printed⟩ := told
  dsimp only at framed blocked printed
  have ordered := opened_ordered past
  cases current : opened past with
  | nil =>
      have inner : innermost past = none := by rw [innermost, current]; rfl
      rw [current, List.map_nil] at framed
      subst framed printed
      refine ⟨?_, fun name => (blocked name).trans (stored_write past text name).symm, ?_⟩
      · simp only [Session.write, opened, current, List.map_nil]
      · simp only [Session.write, written, inner, if_true]
  | cons capture outer =>
      obtain ⟨place, name⟩ := capture
      have inner : innermost past = some place := by rw [innermost, current]; rfl
      rw [current] at framed ordered
      subst framed printed
      refine ⟨?_, fun name => (blocked name).trans (stored_write past text name).symm, ?_⟩
      · simp only [Session.write, opened, current, List.map_cons, written, inner, if_true, List.cons.injEq, true_and]
        refine List.map_congr_left fun other inside => ?_
        have apart := List.rel_of_pairwise_cons ordered inside
        have differs : some place ≠ some other.1 := fun equal => by
          have equal := Option.some.inj equal
          dsimp only at apart
          omega
        rw [if_neg differs]
      · simp only [Session.write, List.map_cons, written, inner, reduceCtorEq, if_false]

theorem recounts_finish (past : History) (session : Session) (told : past.Recounts session) (overwrite : Bool) :
    Recounts (.finish overwrite :: past) (Call.run (.finish overwrite) session) := by
  have framed := told.frames
  rw [Call.run, Session.finish]
  cases current : opened past with
  | nil =>
      rw [current, List.map_nil] at framed
      have ends : closings (.finish overwrite :: past) = past.closings := by rw [closings, current]
      rw [framed]
      refine ⟨?_, fun name => ?_, told.output⟩
      · rw [framed, opened, current]
        rfl
      · rw [told.blocks, stored, stored, closedAs, closedAs, ends]
        rfl
  | cons capture outer =>
      obtain ⟨place, name⟩ := capture
      rw [current, List.map_cons] at framed
      rw [framed]
      refine ⟨?_, fun query => ?_, told.output⟩
      · simp only [storeBlock, opened, current, List.tail_cons]
        rfl
      · rw [stored_finish past overwrite place name query outer current]
        simp only [storeBlock, Table.get_set, told.blocks]

theorem recounts_run (past : History) (session : Session) (told : past.Recounts session) (call : Call) :
    Recounts (call :: past) (call.run session) := by
  cases call with
  | begin name => exact recounts_begin past session told name
  | write text => exact recounts_write past session told text
  | finish overwrite => exact recounts_finish past session told overwrite
  | block _ _ | hasBlock _ => exact ⟨told.frames, told.blocks, told.output⟩

theorem recounts_session (history : History) : history.Recounts history.session := by
  induction history with
  | nil => exact ⟨rfl, fun _ => rfl, rfl⟩
  | cons call past ih => exact recounts_run past (session past) ih call

theorem isOpen_recounted (history : History) (session : Session) (told : history.Recounts session) (name : String) :
    session.isOpen name = history.isOpen name := by
  rw [Session.isOpen, told.frames, List.any_map]
  rfl

/-- After any calls on a fresh session, a block is what was captured under its name since the last capture that
overwrites, in the order of the ends, and the default if no capture of that name was closed. A strict session
answers unless a capture of that name is open. An end closes the last capture that is open, and without one it
fails and changes nothing. The output is what was written while none was open. -/
theorem answers_of_history (limits : Limits) (history : History) :
    (∀ name default, history.session.block limits name default
      = if limits.strictBlocks && history.isOpen name then .error (.blockOpen name)
        else .ok ((history.stored name).getD default)) ∧
    (∀ name, history.session.hasBlock name = true ↔ ∃ closing ∈ history.closings, closing.name = name) ∧
    (∀ overwrite, match history.opened with
      | [] => history.session.finish overwrite = .error .unbalancedEnd ∧
          session (.finish overwrite :: history) = history.session
      | (_, name) :: _ => ∃ next, history.session.finish overwrite = .ok (name, next) ∧
          session (.finish overwrite :: history) = next) ∧
    history.session.output = history.written none := by
  have told := recounts_session history
  refine ⟨fun name default => ?_, fun name => ?_, fun overwrite => ?_, told.output⟩
  · rw [Session.block, isOpen_recounted history _ told, told.blocks]
  · rw [hasBlock, told.blocks, isSome_stored]
  · rw [session, Call.run, Session.finish, told.frames]
    cases history.opened with
    | nil => exact ⟨rfl, rfl⟩
    | cons capture outer => exact ⟨_, rfl, rfl⟩

example : stored "outer" [.finish false, .write "3", .finish false, .write "2", .begin "inner", .write "1",
    .begin "outer"] = some "13" := by
  decide +kernel

end History

end Stencil.Session
