import Stencil.Render.Session

set_option autoImplicit false

namespace Stencil

namespace Session

theorem height_write (text : String) (session : Session) : (session.write text).height = session.height := by
  obtain ⟨blocks, frames, output, parent, chain, depth, claimed⟩ := session
  cases frames with
  | nil => rfl
  | cons frame outer => rfl

theorem write_write (first second : String) (session : Session) :
    (session.write first).write second = session.write (first ++ second) := by
  obtain ⟨blocks, frames, output, parent, chain, depth, claimed⟩ := session
  cases frames with
  | nil => simp only [write, String.append_assoc]
  | cons frame outer => simp only [write, String.append_assoc]

theorem write_empty (session : Session) : session.write "" = session := by
  obtain ⟨blocks, frames, output, parent, chain, depth, claimed⟩ := session
  cases frames with
  | nil => simp only [write, String.append_empty]
  | cons frame outer => simp only [write, String.append_empty]

theorem write_parts (text : String) (session : Session) :
    session.write text
      = { session with frames := (session.write text).frames, output := (session.write text).output } := by
  obtain ⟨blocks, frames, output, parent, chain, depth, claimed⟩ := session
  cases frames with
  | nil => rfl
  | cons frame outer => rfl

theorem write_congr (text : String) (first second : Session) (frames : first.frames = second.frames)
    (output : first.output = second.output) :
    (first.write text).frames = (second.write text).frames ∧
      (first.write text).output = (second.write text).output := by
  obtain ⟨blocks, frames, output, parent, chain, depth, claimed⟩ := first
  dsimp only at frames output
  subst frames output
  obtain ⟨blocks', frames, output, parent', chain', depth', claimed'⟩ := second
  cases frames with
  | nil => exact ⟨rfl, rfl⟩
  | cons frame outer => exact ⟨rfl, rfl⟩

-- All that a template with this floor cannot open or close: the captures below, and the output.
def below (floor : Nat) (session : Session) : Session :=
  { start with frames := session.frames.drop (session.height - floor), output := session.output }

theorem below_height (session : Session) :
    session.below session.height = { start with frames := session.frames, output := session.output } := by
  simp only [below, Nat.sub_self, List.drop_zero]

theorem below_write_above (floor : Nat) (text : String) (session : Session) (above : floor < session.height) :
    (session.write text).below floor = session.below floor := by
  obtain ⟨blocks, frames, output, parent, chain, depth, claimed⟩ := session
  cases frames with
  | nil => simp [height] at above
  | cons frame outer =>
      have positive : outer.length + 1 - floor = (outer.length - floor) + 1 := by
        simp only [height, List.length_cons] at above
        omega
      simp only [below, write, height, List.length_cons, positive, List.drop_succ_cons]

theorem below_write_at (floor : Nat) (text : String) (session : Session) (at_floor : session.height = floor) :
    (session.write text).below floor = (session.below floor).write text := by
  subst at_floor
  rw [← height_write text session, below_height, height_write, below_height]
  obtain ⟨blocks, frames, output, parent, chain, depth, claimed⟩ := session
  cases frames with
  | nil => rfl
  | cons frame outer => rfl

structure Spares (floor : Nat) (before after : Session) : Prop where
  above : floor ≤ after.height
  written : ∃ text, after.below floor = (before.below floor).write text
  depth : after.includeDepth = before.includeDepth
  chain : after.chain = before.chain
  parent : 0 < before.includeDepth → after.parent = before.parent

variable {floor : Nat} {before session : Session}

theorem spares_self (above : floor ≤ session.height) : Spares floor session session :=
  ⟨above, ⟨"", (write_empty _).symm⟩, rfl, rfl, fun _ => rfl⟩

theorem spares_write (text : String) (spares : Spares floor before session) :
    Spares floor before (session.write text) := by
  obtain ⟨above, ⟨earlier, written⟩, depth, chain, parent⟩ := spares
  have parts := write_parts text session
  refine ⟨by rw [height_write]; exact above, ?_, (congrArg includeDepth parts).trans depth,
    (congrArg Session.chain parts).trans chain, fun inside => (congrArg Session.parent parts).trans (parent inside)⟩
  by_cases higher : floor < session.height
  · exact ⟨earlier, by rw [below_write_above floor text session higher, written]⟩
  · have at_floor : session.height = floor := by omega
    exact ⟨earlier ++ text, by rw [below_write_at floor text session at_floor, written, write_write]⟩

theorem spares_openFrame (name : String) (implicit : Bool) (spares : Spares floor before session) :
    Spares floor before (session.openFrame name implicit) := by
  obtain ⟨above, ⟨text, written⟩, depth, chain, parent⟩ := spares
  have raised : session.frames.length + 1 - floor = (session.frames.length - floor) + 1 := by
    simp only [height] at above
    omega
  refine ⟨?_, ⟨text, ?_⟩, depth, chain, parent⟩
  · simp only [height, openFrame, List.length_cons] at above ⊢
    omega
  · rw [← written]
    simp only [below, openFrame, height, List.length_cons, raised, List.drop_succ_cons]

theorem spares_finish (overwrite : Bool) (name : String) (after : Session)
    (higher : floor < session.height) (finished : session.finish overwrite = .ok (name, after))
    (spares : Spares floor before session) : Spares floor before after := by
  obtain ⟨above, ⟨text, written⟩, depth, chain, parent⟩ := spares
  obtain ⟨blocks, frames, output, up, links, inside, claimed⟩ := session
  cases frames with
  | nil => simp [height] at higher
  | cons frame outer =>
      obtain ⟨rfl, rfl⟩ := Prod.mk.inj (Except.ok.inj finished)
      have lowered : outer.length + 1 - floor = (outer.length - floor) + 1 := by
        simp only [height, List.length_cons] at higher
        omega
      refine ⟨?_, ⟨text, ?_⟩, depth, chain, parent⟩
      · simp only [height, List.length_cons, storeBlock] at higher ⊢
        omega
      · rw [← written]
        simp only [below, storeBlock, height, List.length_cons, lowered, List.drop_succ_cons]

theorem spares_extend (name : String) (outside : ¬ 0 < session.includeDepth)
    (spares : Spares floor before session) : Spares floor before (session.extend name) := by
  refine ⟨spares.above, spares.written, spares.depth, spares.chain, fun inside => ?_⟩
  rw [spares.depth] at outside
  exact absurd inside outside

theorem reverse_below (above : floor ≤ session.height) :
    (session.below floor).frames.reverse = session.frames.reverse.take floor := by
  have count : session.frames.length - (session.frames.length - floor) = floor := by
    simp only [height] at above
    omega
  simp only [below, height, List.reverse_drop, count]

theorem frame_below (above : floor ≤ session.height) (i : Nat) (inside : i < floor) :
    session.frames.reverse[i]? = (session.below floor).frames.reverse[i]? := by
  rw [reverse_below above, List.getElem?_take, if_pos inside]

structure Undisturbed (floor : Nat) (before after : Session) : Prop where
  above : floor ≤ after.height
  captures : ∀ i < floor, ∃ old new, before.frames.reverse[i]? = some old ∧ after.frames.reverse[i]? = some new ∧
    new.name = old.name ∧ new.implicit = old.implicit ∧
    (i + 1 < floor → new.buffer = old.buffer) ∧ ∃ text, new.buffer = old.buffer ++ text
  output : (0 < floor → after.output = before.output) ∧ ∃ text, after.output = before.output ++ text
  depth : after.includeDepth = before.includeDepth
  chain : after.chain = before.chain

theorem undisturbed_of_spares (above : floor ≤ before.height) (spares : Spares floor before session) :
    Undisturbed floor before session := by
  obtain ⟨above', ⟨text, written⟩, depth, chain, _⟩ := spares
  have count : (before.below floor).frames.length = floor := by
    simp only [height] at above
    simp only [below, height, List.length_drop]
    omega
  have outputs : (session.below floor).output = session.output ∧ (before.below floor).output = before.output :=
    ⟨rfl, rfl⟩
  refine ⟨above', fun i inside => ?_, ?_, depth, chain⟩
  · rw [frame_below above i inside, frame_below above' i inside, written]
    generalize before.below floor = bottom at count
    obtain ⟨blocks, frames, output, up, links, inside', claimed⟩ := bottom
    cases frames with
    | nil =>
        simp only [List.length_nil] at count
        omega
    | cons frame outer =>
        simp only [List.length_cons] at count
        simp only [write, List.reverse_cons]
        by_cases innermost : i < outer.reverse.length
        · rw [List.getElem?_append_left innermost, List.getElem?_append_left innermost]
          refine ⟨outer.reverse[i], outer.reverse[i], List.getElem?_eq_getElem innermost,
            List.getElem?_eq_getElem innermost, rfl, rfl, fun _ => rfl, "", ?_⟩
          rw [String.append_empty]
        · have last : i = outer.reverse.length := by
            rw [List.length_reverse] at innermost ⊢
            omega
          subst last
          rw [List.getElem?_concat_length, List.getElem?_concat_length]
          refine ⟨frame, _, rfl, rfl, rfl, rfl, fun below => ?_, text, rfl⟩
          rw [List.length_reverse] at below
          omega
  · rw [← outputs.1, ← outputs.2, written]
    generalize before.below floor = bottom at count
    obtain ⟨blocks, frames, output, up, links, inside', claimed⟩ := bottom
    cases frames with
    | nil =>
        refine ⟨fun positive => ?_, text, rfl⟩
        simp only [List.length_nil] at count
        omega
    | cons frame outer => exact ⟨fun _ => rfl, "", by simp only [write, String.append_empty]⟩

def Included (before after : Session) : Prop := ∃ text blocks, after = { before.write text with blocks }

theorem spares_included (after : Session) (spares : Spares floor before session)
    (included : session.Included after) : Spares floor before after := by
  obtain ⟨text, blocks, rfl⟩ := included
  have written := spares_write text spares
  exact ⟨written.above, written.written, written.depth, written.chain, written.parent⟩

theorem included_of_spares (template : String) (after : Session)
    (spares : Spares session.height session.deeper after)
    (closed : after.checkClosed template session.height = .ok ()) :
    session.Included (after.shallower session.contentClaimed) := by
  obtain ⟨above, ⟨text, written⟩, depth, chain, parent⟩ := spares
  have level : after.height = session.height := by
    simp only [checkClosed, frameAbove?] at closed
    split at closed
    · cases closed
    · rename_i none
      rw [List.getElem?_eq_none_iff, List.length_reverse] at none
      exact Nat.le_antisymm none above
  rw [← level, below_height, level] at written
  have bottom : below session.height session.deeper
      = { start with frames := session.frames, output := session.output } := below_height _
  rw [bottom] at written
  have same := write_congr text { start with frames := session.frames, output := session.output } session rfl rfl
  have frames : after.frames = (session.write text).frames := (congrArg Session.frames written).trans same.1
  have output : after.output = (session.write text).output := (congrArg Session.output written).trans same.2
  refine ⟨text, after.blocks, ?_⟩
  rw [write_parts text session, ← frames, ← output, shallower]
  simp only [chain, parent (Nat.succ_pos _), depth, deeper, Nat.add_sub_cancel]

end Session

end Stencil
