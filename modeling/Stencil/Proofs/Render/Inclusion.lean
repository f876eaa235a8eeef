import Stencil.Proofs.Render.Trail

set_option autoImplicit false

namespace Stencil

open Session (History)

def Session.captures (session : Session) : List (String × Bool) :=
  session.frames.map fun frame => (frame.name, frame.implicit)

theorem Session.captures_write (text : String) (session : Session) : (session.write text).captures = session.captures := by
  obtain ⟨blocks, frames, output, parent, chain, depth, claimed⟩ := session
  cases frames with
  | nil => rfl
  | cons frame outer => rfl

theorem Session.finish_write (text : String) (overwrite : Bool) (session : Session) :
    ((session.write text).finish overwrite).map Prod.fst = (session.finish overwrite).map Prod.fst := by
  obtain ⟨blocks, frames, output, parent, chain, depth, claimed⟩ := session
  cases frames with
  | nil => rfl
  | cons frame outer => rfl

theorem Session.finish_congr (overwrite : Bool) (first second : Session) (frames : first.frames = second.frames) :
    (first.finish overwrite).map Prod.fst = (second.finish overwrite).map Prod.fst := by
  rw [finish, finish, frames]
  cases second.frames with
  | nil => rfl
  | cons frame outer => rfl

namespace Renderer

variable {σ : Type} [Store σ] (renderer : Renderer)

def insertHistory (name : String) (vars : Fields) (run : Run σ) : History :=
  Deed.history (renderer.insertDeeds (renderer.limits.includeDepth - run.session.includeDepth) name vars run)

structure Restores (before after : Session) : Prop where
  depth : after.includeDepth = before.includeDepth
  claimed : after.contentClaimed = before.contentClaimed
  chain : after.chain = before.chain
  parent : after.parent = before.parent

theorem restores_insert (left : Nat) (name : String) (vars : Fields) (run : Run σ) :
    Restores run.session (Deed.applyAll (renderer.insertDeeds left name vars run) run.session) := by
  cases left with
  | zero => exact ⟨rfl, rfl, rfl, rfl⟩
  | succ left =>
      rw [insertDeeds]
      cases Cache.ensureFresh renderer.compiler name run.cache with
      | error e cache => exact ⟨rfl, rfl, rfl, rfl⟩
      | ok program cache =>
          have apart := Deed.apart_applyAll ((renderer.scope left name run.session.height).nodesDeeds
            (renderer.insertDeeds left) program.nodes vars ⟨cache, run.session.deeper⟩) run.session.deeper
          rw [Deed.applyAll, Deed.apply, Deed.applyAll]
          exact ⟨Nat.sub_eq_of_eq_add apart.depth, rfl, apart.chain, apart.parent (Nat.succ_pos _)⟩

theorem session_of_insert (name : String) (vars : Fields) (run after : Run σ) (e : ViewError)
    (failed : renderer.insertTemplate name vars run = .error e after) :
    let deeds := renderer.insertDeeds (renderer.limits.includeDepth - run.session.includeDepth) name vars run
    after.session = Deed.applyAll deeds run.session ∧ Deed.SparesAll run.session.height deeds run.session := by
  have told := renderer.tells_insert (fun _ _ _ _ _ _ => trivial)
    (renderer.limits.includeDepth - run.session.includeDepth) run.session.height name vars run
  rw [insertTemplate, Action.get_bind] at failed
  rw [failed] at told
  cases told with
  | failed same spares _ => exact ⟨same, spares⟩

/-- A template that is inserted and fails leaves the depth, the claim on the content, the layout and the chain as they
were. Captures that its templates have begun and not ended stay open above those of the caller, of which the innermost has
taken the text that stands outside of them. So the captures are as they were, and the next end closes the one that it
would have closed, exactly if all that were begun have been ended; else it closes the last of those. Where no template
is run at all, nothing changes. -/
theorem captures_of_failed (name : String) (vars : Fields) (run after : Run σ) (e : ViewError)
    (failed : renderer.insertTemplate name vars run = .error e after) :
    let history := renderer.insertHistory name vars run
    Restores run.session after.session ∧
    after.session.frames = (history.opened.map fun (place, name) => ⟨name, history.written (some place), false⟩)
      ++ (run.session.write (history.written none)).frames ∧
    after.session.output = (run.session.write (history.written none)).output ∧
    (after.session.captures = run.session.captures ↔ history.opened = []) ∧
    (∀ overwrite, (after.session.finish overwrite).map Prod.fst
      = match history.opened with
        | [] => (run.session.finish overwrite).map Prod.fst
        | (_, last) :: _ => .ok last) ∧
    (renderer.limits.includeDepth ≤ run.session.includeDepth ∨
        (∃ e cache, Cache.ensureFresh renderer.compiler name run.cache = .error e cache) →
      after.session = run.session) := by
  obtain ⟨same, spares⟩ := session_of_insert renderer name vars run after e failed
  have restores := restores_insert renderer (renderer.limits.includeDepth - run.session.includeDepth) name vars run
  obtain ⟨frames, output⟩ := Deed.frames_of_history _ run.session spares
  rw [← same] at restores frames output
  refine ⟨restores, frames, output, ?_, fun overwrite => ?_, fun unrun => ?_⟩
  · have kept := Session.captures_write ((renderer.insertHistory name vars run).written none) run.session
    rw [Session.captures, Session.captures] at kept
    rw [Session.captures, Session.captures, frames, List.map_append, insertHistory] at *
    rw [kept, List.append_left_eq_self, List.map_eq_nil_iff, List.map_eq_nil_iff]
  · rw [insertHistory]
    cases opened : (Deed.history (renderer.insertDeeds _ name vars run)).opened with
    | nil =>
        rw [opened] at frames
        exact (Session.finish_congr overwrite _ _ frames).trans (Session.finish_write _ overwrite run.session)
    | cons capture outer =>
        rw [opened] at frames
        rw [Session.finish, frames]
        rfl
  · rw [same]
    rcases unrun with full | ⟨e, cache, absent⟩
    · rw [Nat.sub_eq_zero_of_le full, insertDeeds]
      rfl
    · cases renderer.limits.includeDepth - run.session.includeDepth with
      | zero => rfl
      | succ left =>
          rw [insertDeeds, absent]
          rfl

def album : Run Memory where
  cache := ⟨⟨[("photo", ⟨"a @section('x') b @section('y') c @stop \x7b\x7b $missing \x7d\x7d", 1⟩)], []⟩, ⟨0, 0⟩⟩
  session := Session.start.begin "album"

def failedCaptures? : EStateM.Result ViewError (Run Memory) Unit → Option (List (String × Bool))
  | .ok _ _ => none
  | .error _ after => some after.session.captures

theorem error_of_failedCaptures (result : EStateM.Result ViewError (Run Memory) Unit) (captures : List (String × Bool))
    (found : failedCaptures? result = some captures) :
    ∃ e after, result = .error e after ∧ after.session.captures = captures := by
  cases result with
  | ok _ _ => cases found
  | error e after => exact ⟨e, after, rfl, Option.some.inj found⟩

theorem captures_of_failed_photo :
    ∃ e after, plain.insertTemplate "photo" [] album = .error e after ∧
      (plain.insertHistory "photo" [] album).opened = [(1, "x")] ∧
      after.session.frames = [⟨"x", " b  ", false⟩, ⟨"album", "a ", false⟩] ∧
      ∀ overwrite, (after.session.finish overwrite).map Prod.fst = .ok "x" := by
  obtain ⟨e, after, failed, _⟩ := error_of_failedCaptures (plain.insertTemplate "photo" [] album)
    [("x", false), ("album", false)] (by decide +kernel)
  obtain ⟨_, frames, _, _, ends, _⟩ := captures_of_failed plain "photo" [] album after e failed
  have opened : (plain.insertHistory "photo" [] album).opened = [(1, "x")] := by decide +kernel
  have inside : (plain.insertHistory "photo" [] album).written (some 1) = " b  " := by decide +kernel
  have outside : (plain.insertHistory "photo" [] album).written none = "a " := by decide +kernel
  simp only [opened] at frames ends
  refine ⟨e, after, failed, opened, ?_, ends⟩
  rw [frames, outside, List.map_singleton, inside]
  rfl

/-- The capture of a host is not the one that it closes next after such a failure. -/
theorem section_left_open :
    ¬ ∀ (name : String) (vars : Fields) (run after : Run Memory) (e : ViewError),
      plain.insertTemplate name vars run = .error e after → after.session.captures = run.session.captures := by
  intro kept
  obtain ⟨e, after, failed, left⟩ := error_of_failedCaptures (plain.insertTemplate "photo" [] album)
    [("x", false), ("album", false)] (by decide +kernel)
  have same := left.symm.trans (kept "photo" [] album after e failed)
  revert same
  decide

end Renderer

end Stencil
