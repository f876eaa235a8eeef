import Stencil.Proofs.Render.Frames
import Stencil.Proofs.Render.History
import Stencil.Proofs.Render.Work

set_option autoImplicit false

namespace Stencil

open Session (Call History)

-- What a template inside another one does is kept apart: it may name no layout, and it ends none of the captures that it
-- came upon.
inductive Deed where
  | call (call : Call)
  | layout (name : String)
  | inside (deeds : List Deed)

namespace Deed

-- A template inside another one names no layout, and leaves to the other whether a content section has been closed.
mutual
def apply : Deed → Session → Session
  | .call made, session => made.run session
  | .layout name, session => if 0 < session.includeDepth then session else session.extend name
  | .inside deeds, session =>
      (applyAll deeds session.deeper).shallower session.contentClaimed

def applyAll : List Deed → Session → Session
  | [], session => session
  | deed :: rest, session => applyAll rest (deed.apply session)
end

-- No capture is ended but those above `floor`; a template inside another one ends none of those it came upon.
mutual
def Spares (floor : Nat) : Deed → Session → Prop
  | .call (.finish _), session => floor < session.height
  | .call _, _ | .layout _, _ => True
  | .inside deeds, session => SparesAll session.height deeds session.deeper

def SparesAll (floor : Nat) : List Deed → Session → Prop
  | [], _ => True
  | deed :: rest, session => deed.Spares floor session ∧ SparesAll floor rest (deed.apply session)
end

def Closes : Deed → Session → Prop
  | .inside deeds, session => (applyAll deeds session.deeper).height = session.height
  | _, _ => True

def ClosesAll : List Deed → Session → Prop
  | [], _ => True
  | deed :: rest, session => deed.Closes session ∧ ClosesAll rest (deed.apply session)

variable {floor : Nat}

theorem applyAll_append (first second : List Deed) (session : Session) :
    applyAll (first ++ second) session = applyAll second (applyAll first session) := by
  induction first generalizing session with
  | nil => rfl
  | cons deed rest ih => exact ih (deed.apply session)

theorem sparesAll_append (first second : List Deed) (session : Session) :
    SparesAll floor (first ++ second) session
      ↔ SparesAll floor first session ∧ SparesAll floor second (applyAll first session) := by
  induction first generalizing session with
  | nil => exact (true_and _).symm ▸ Iff.rfl
  | cons deed rest ih =>
      rw [List.cons_append, SparesAll, SparesAll, applyAll, ih, and_assoc]

theorem closesAll_append (first second : List Deed) (session : Session) :
    ClosesAll (first ++ second) session
      ↔ ClosesAll first session ∧ ClosesAll second (applyAll first session) := by
  induction first generalizing session with
  | nil => exact (true_and _).symm ▸ Iff.rfl
  | cons deed rest ih =>
      rw [List.cons_append, ClosesAll, ClosesAll, applyAll, ih, and_assoc]

theorem layout_parts (name : String) (session : Session) :
    Deed.apply (.layout name) session = { session with parent := (Deed.apply (.layout name) session).parent } := by
  rw [apply]
  by_cases inside : 0 < session.includeDepth
  · rw [if_pos inside]
  · rw [if_neg inside]
    rfl

theorem above_call (made : Call) (session : Session) (spares : Deed.Spares floor (.call made) session)
    (above : floor ≤ session.height) : floor ≤ (made.run session).height := by
  cases made with
  | begin name => exact Nat.le_succ_of_le above
  | write text => exact (Session.height_write text session).symm ▸ above
  | finish overwrite =>
      simp only [Spares, Session.height] at spares
      rw [Call.run, Session.finish]
      cases frames : session.frames with
      | nil => exact above
      | cons frame outer =>
          rw [frames, List.length_cons] at spares
          exact Nat.le_of_lt_succ spares
  | block _ _ | hasBlock _ => exact above

mutual
theorem above_apply (floor : Nat) (deed : Deed) (session : Session) (spares : deed.Spares floor session)
    (above : floor ≤ session.height) : floor ≤ (deed.apply session).height := by
  match deed with
  | .call made => exact above_call made session spares above
  | .layout name =>
      rw [layout_parts]
      exact above
  | .inside deeds =>
      rw [Spares] at spares
      exact Nat.le_trans above (above_applyAll session.height deeds session.deeper spares (Nat.le_refl _))

theorem above_applyAll (floor : Nat) (deeds : List Deed) (session : Session) (spares : SparesAll floor deeds session)
    (above : floor ≤ session.height) : floor ≤ (applyAll deeds session).height := by
  match deeds with
  | [] => exact above
  | deed :: rest => exact above_applyAll floor rest _ spares.2 (above_apply floor deed session spares.1 above)
end

theorem sparesAll_mono {lower higher : Nat} (below : lower ≤ higher) (deeds : List Deed) (session : Session)
    (spares : SparesAll higher deeds session) : SparesAll lower deeds session := by
  induction deeds generalizing session with
  | nil => trivial
  | cons deed rest ih =>
      refine ⟨?_, ih _ spares.2⟩
      have first := spares.1
      cases deed with
      | call made =>
          cases made with
          | finish overwrite => exact Nat.lt_of_le_of_lt below first
          | _ => trivial
      | layout name => trivial
      | inside deeds =>
          rw [Spares] at first ⊢
          exact first

structure Apart (before after : Session) : Prop where
  depth : after.includeDepth = before.includeDepth
  chain : after.chain = before.chain
  parent : 0 < before.includeDepth → after.parent = before.parent

theorem call_parent (made : Call) (session : Session) :
    Apart session (made.run session) ∧ (made.run session).parent = session.parent := by
  cases made with
  | write text =>
      rw [Call.run, Session.write_parts]
      exact ⟨⟨rfl, rfl, fun _ => rfl⟩, rfl⟩
  | finish overwrite =>
      rw [Call.run, Session.finish]
      cases session.frames with
      | nil => exact ⟨⟨rfl, rfl, fun _ => rfl⟩, rfl⟩
      | cons frame outer => exact ⟨⟨rfl, rfl, fun _ => rfl⟩, rfl⟩
  | begin _ | block _ _ | hasBlock _ => exact ⟨⟨rfl, rfl, fun _ => rfl⟩, rfl⟩

mutual
theorem apart_apply (deed : Deed) (session : Session) : Apart session (deed.apply session) := by
  match deed with
  | .call made => exact (call_parent made session).1
  | .layout name =>
      rw [apply]
      by_cases inside : 0 < session.includeDepth
      · rw [if_pos inside]
        exact ⟨rfl, rfl, fun _ => rfl⟩
      · rw [if_neg inside]
        exact ⟨rfl, rfl, fun within => absurd within inside⟩
  | .inside deeds =>
      have apart := apart_applyAll deeds session.deeper
      rw [apply]
      exact ⟨Nat.sub_eq_of_eq_add apart.depth, apart.chain, fun _ => apart.parent (Nat.succ_pos _)⟩

theorem apart_applyAll (deeds : List Deed) (session : Session) : Apart session (applyAll deeds session) := by
  match deeds with
  | [] => exact ⟨rfl, rfl, fun _ => rfl⟩
  | deed :: rest =>
      have first := apart_apply deed session
      have others := apart_applyAll rest (deed.apply session)
      rw [applyAll]
      refine ⟨others.depth.trans first.depth, others.chain.trans first.chain, fun inside => ?_⟩
      exact (others.parent (first.depth ▸ inside)).trans (first.parent inside)
end

def layout? : Deed → Option String
  | .layout name => some name
  | _ => none

def layouts (deeds : List Deed) : List String := deeds.filterMap layout?

theorem parent_applyAll (deeds : List Deed) (session : Session) (top : session.includeDepth = 0) :
    (applyAll deeds session).parent = session.parent.or (layouts deeds).head? := by
  induction deeds generalizing session with
  | nil => exact (Option.or_none).symm
  | cons deed rest ih =>
      rw [applyAll, ih _ ((apart_apply deed session).depth.trans top)]
      cases deed with
      | call made =>
          rw [apply, (call_parent made session).2]
          rfl
      | layout name =>
          have outside : ¬ 0 < session.includeDepth := by omega
          rw [apply, if_neg outside, Session.extend, Option.or_assoc]
          rfl
      | inside deeds =>
          have parent : (Deed.apply (.inside deeds) session).parent = session.parent := by
            rw [apply]
            exact (apart_applyAll deeds session.deeper).parent (Nat.succ_pos _)
          rw [parent]
          rfl

mutual
def calls : Deed → List Call
  | .call made => [made]
  | .layout _ => []
  | .inside deeds => allCalls deeds

def allCalls : List Deed → List Call
  | [] => []
  | deed :: rest => deed.calls ++ allCalls rest
end

def history (deeds : List Deed) : History := (allCalls deeds).reverse

-- The calls of a template itself. One inside it is told by the text that it adds.
def ownCalls : Deed → List Call
  | .call made => [made]
  | .layout _ => []
  | .inside deeds => [.write ((history deeds).written none)]

def ownHistory (deeds : List Deed) : History := (deeds.flatMap ownCalls).reverse

end Deed

-- A session in which captures were begun over those of another one: `inner` tells them and what was written below them.
structure Session.Stacked (inner base session : Session) : Prop where
  frames : session.frames = inner.frames ++ (base.write inner.output).frames
  output : session.output = (base.write inner.output).output

namespace Session

variable {inner base session : Session}

theorem stacked_start (base session : Session) (frames : session.frames = base.frames)
    (output : session.output = base.output) : Stacked start base session := by
  rw [← write_empty base] at frames output
  exact ⟨frames, output⟩

theorem height_of_stacked (stacked : Stacked inner base session) :
    session.height = inner.height + base.height := by
  rw [← height_write inner.output base, height, stacked.frames, List.length_append]
  rfl

theorem stacked_write (text : String) (stacked : Stacked inner base session) :
    Stacked (inner.write text) base (session.write text) := by
  obtain ⟨blocks, frames, output, parent, chain, depth, claimed⟩ := inner
  cases frames with
  | nil =>
      have same := write_congr text session (base.write output) stacked.frames stacked.output
      rw [write_write] at same
      exact ⟨same.1, same.2⟩
  | cons frame outer =>
      obtain ⟨blocks', frames', output', parent', chain', depth', claimed'⟩ := session
      obtain ⟨framed, printed⟩ := stacked
      dsimp only at framed printed
      subst framed printed
      exact ⟨rfl, rfl⟩

theorem stacked_finish (overwrite : Bool) (stacked : Stacked inner base session) (higher : base.height < session.height) :
    Stacked (Call.run (.finish overwrite) inner) base (Call.run (.finish overwrite) session) ∧
      ∃ frame outer, inner.frames = frame :: outer ∧
        (Call.run (.finish overwrite) session).contentClaimed
          = (session.contentClaimed || (frame.name == contentBlock && !frame.implicit)) ∧
        (Call.run (.finish overwrite) inner).contentClaimed
          = (inner.contentClaimed || (frame.name == contentBlock && !frame.implicit)) := by
  rw [height_of_stacked stacked] at higher
  obtain ⟨blocks, frames, output, parent, chain, depth, claimed⟩ := inner
  cases frames with
  | nil =>
      simp only [height, List.length_nil, Nat.zero_add] at higher
      exact absurd higher (Nat.lt_irrefl _)
  | cons frame outer =>
      obtain ⟨blocks', frames', output', parent', chain', depth', claimed'⟩ := session
      obtain ⟨framed, printed⟩ := stacked
      dsimp only at framed printed
      subst framed printed
      exact ⟨⟨rfl, rfl⟩, frame, outer, rfl, rfl, rfl⟩

theorem stacked_call (made : Call) (stacked : Stacked inner base session)
    (spares : Deed.Spares base.height (.call made) session) : Stacked (made.run inner) base (made.run session) := by
  cases made with
  | begin name => exact ⟨by rw [Call.run, Call.run, begin, openFrame, stacked.frames]; rfl, stacked.output⟩
  | write text => exact stacked_write text stacked
  | finish overwrite => exact (stacked_finish overwrite stacked spares).1
  | block _ _ | hasBlock _ => exact stacked

end Session

namespace Deed

open Session

variable {base : Session}

-- What deeds leave is told by all their calls, and at each point by those made so far.
mutual
theorem stacked_apply (deed : Deed) (past : History) (session : Session) (stacked : Stacked past.session base session)
    (spares : deed.Spares base.height session) :
    Stacked (History.session (deed.calls.reverse ++ past)) base (deed.apply session) := by
  match deed with
  | .call made =>
      rw [apply, calls]
      exact stacked_call made stacked spares
  | .layout name =>
      rw [layout_parts, calls]
      exact ⟨stacked.frames, stacked.output⟩
  | .inside deeds =>
      rw [Spares] at spares
      rw [apply, calls]
      have lower : base.height ≤ session.height := by
        rw [height_of_stacked stacked]
        exact Nat.le_add_left _ _
      have inner := stacked_applyAll deeds past session.deeper ⟨stacked.frames, stacked.output⟩
        (sparesAll_mono lower deeds _ spares)
      exact ⟨inner.frames, inner.output⟩

theorem stacked_applyAll (deeds : List Deed) (past : History) (session : Session)
    (stacked : Stacked past.session base session) (spares : SparesAll base.height deeds session) :
    Stacked (History.session ((allCalls deeds).reverse ++ past)) base (applyAll deeds session) := by
  match deeds with
  | [] => exact stacked
  | deed :: rest =>
      have first := stacked_apply deed past session stacked spares.1
      have others := stacked_applyAll rest _ _ first spares.2
      rw [allCalls, List.reverse_append, List.append_assoc]
      exact others
end

theorem stacked_history (deeds : List Deed) (session : Session) (spares : SparesAll session.height deeds session) :
    Stacked (history deeds).session session (applyAll deeds session) := by
  have all := stacked_applyAll deeds [] session (stacked_start session session rfl rfl) spares
  rw [List.append_nil] at all
  exact all

theorem frames_of_history (deeds : List Deed) (session : Session) (spares : SparesAll session.height deeds session) :
    (applyAll deeds session).frames
      = ((history deeds).opened.map fun (place, name) => ⟨name, (history deeds).written (some place), false⟩)
        ++ (session.write ((history deeds).written none)).frames ∧
    (applyAll deeds session).output = (session.write ((history deeds).written none)).output := by
  have stacked := stacked_history deeds session spares
  have told := History.recounts_session (history deeds)
  rw [stacked.frames, stacked.output, told.frames, told.output]
  exact ⟨rfl, rfl⟩

theorem own_inside (deeds : List Deed) (session : Session) (spares : Deed.Spares base.height (.inside deeds) session)
    (closes : Deed.Closes (.inside deeds) session) :
    (Deed.apply (.inside deeds) session).frames = (session.write ((history deeds).written none)).frames ∧
      (Deed.apply (.inside deeds) session).output = (session.write ((history deeds).written none)).output := by
  rw [Spares] at spares
  have stacked := stacked_history deeds session.deeper spares
  have level := height_of_stacked stacked
  change _ = _ + session.height at level
  rw [Closes] at closes
  rw [closes, Nat.right_eq_add] at level
  have ended : (history deeds).session.frames = [] := List.eq_nil_of_length_eq_zero level
  have written := (History.recounts_session (history deeds)).output
  have wrote := write_congr ((history deeds).written none) session.deeper session rfl rfl
  rw [apply, shallower]
  exact ⟨by rw [stacked.frames, ended, written, wrote.1]; rfl, by rw [stacked.output, written, wrote.2]⟩

theorem stacked_own (deeds : List Deed) (past : History) (session : Session) (stacked : Stacked past.session base session)
    (claims : session.contentClaimed = (base.contentClaimed || past.session.contentClaimed))
    (spares : SparesAll base.height deeds session) (closes : ClosesAll deeds session) :
    Stacked (History.session ((deeds.flatMap ownCalls).reverse ++ past)) base (applyAll deeds session) ∧
      (applyAll deeds session).contentClaimed
        = (base.contentClaimed || (History.session ((deeds.flatMap ownCalls).reverse ++ past)).contentClaimed) := by
  induction deeds generalizing past session with
  | nil => exact ⟨stacked, claims⟩
  | cons deed rest ih =>
      rw [List.flatMap_cons, List.reverse_append, List.append_assoc]
      have later (past' : History) (made : deed.ownCalls.reverse ++ past = past')
          (stacked : Stacked past'.session base (deed.apply session))
          (claims : (deed.apply session).contentClaimed = (base.contentClaimed || past'.session.contentClaimed)) :=
        made ▸ ih past' (deed.apply session) stacked claims spares.2 closes.2
      have first := spares.1
      cases deed with
      | layout name =>
          apply later past rfl
          · rw [layout_parts]
            exact ⟨stacked.frames, stacked.output⟩
          · rw [layout_parts]
            exact claims
      | inside deeds =>
          have added := own_inside deeds session first closes.1
          have wrote := stacked_write ((history deeds).written none) stacked
          refine later (.write ((history deeds).written none) :: past) rfl ⟨?_, ?_⟩ ?_
          · rw [added.1, wrote.frames]
            rfl
          · rw [added.2, wrote.output]
            rfl
          · rw [apply, shallower, claims, History.session, Call.run, write_parts]
      | call made =>
          refine later (made :: past) rfl (stacked_call made stacked first) ?_
          rw [apply, History.session]
          cases made with
          | finish overwrite =>
              obtain ⟨_, frame, outer, _, outside, within⟩ := stacked_finish overwrite stacked first
              rw [outside, within, claims, Bool.or_assoc]
          | write text =>
              rw [Call.run, Call.run, write_parts, write_parts text past.session]
              exact claims
          | begin _ | block _ _ | hasBlock _ => exact claims

end Deed

theorem Session.History.claimed_session (history : History) :
    history.session.contentClaimed = history.closings.any (·.name == contentBlock) := by
  induction history with
  | nil => rfl
  | cons made past ih =>
      rw [History.session]
      cases made with
      | finish overwrite =>
          have told := (History.recounts_session past).frames
          rw [Call.run, Session.finish, History.closings, told]
          cases History.opened past with
          | nil => exact ih
          | cons capture outer =>
              simp only [List.map_cons, Session.storeBlock, Bool.not_false, Bool.and_true, List.any_append, List.any_cons,
                List.any_nil, Bool.or_false, ih]
      | write text =>
          rw [Call.run, Session.write_parts]
          exact ih
      | begin _ | block _ _ | hasBlock _ => exact ih

end Stencil
