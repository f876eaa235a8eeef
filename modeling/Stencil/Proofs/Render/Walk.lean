import Mathlib.Data.List.Chain
import Mathlib.Data.List.Nodup
import Stencil.Proofs.Cache.Errors
import Stencil.Proofs.Render.Termination
import Stencil.Proofs.Render.Trail

set_option autoImplicit false

namespace Stencil

namespace Deed

def loose (deeds : List Deed) : String := (history deeds).written none

def claims (deeds : List Deed) : Bool := (ownHistory deeds).closings.any (·.name == contentBlock)

end Deed

namespace Renderer

open Stencil.Action Session

variable {σ : Type} [Store σ] (renderer : Renderer) (data : Fields)

def templateDeeds (name : String) (run : Run σ) : List Deed :=
  match Cache.ensureFresh renderer.compiler name run.cache with
  | .error _ _ => []
  | .ok program cache =>
      (renderer.scope renderer.limits.includeDepth name (run.session.height + 1)).nodesDeeds
        (renderer.insertDeeds renderer.limits.includeDepth) program.nodes data ⟨cache, opened run.session⟩

def contentOf (name : String) (run : Run σ) : String :=
  let deeds := renderer.templateDeeds data name run
  if Deed.claims deeds then ((Deed.applyAll deeds (opened run.session)).blocks.get? contentBlock).getD ""
  else Deed.loose deeds

section Templates

variable {renderer} {data} {name : String} {run after : Run σ} {excused : Prop}

theorem tells_template (fresh : ∀ name (cache after : Cache σ) e,
      Cache.ensureFresh renderer.compiler name cache = .error e after → e.ofChain = true → excused)
    (program : Program) (cache : Cache σ)
    (found : Cache.ensureFresh renderer.compiler name run.cache = .ok program cache) :
    Tells excused (run.session.height + 1) (opened run.session) (renderer.templateDeeds data name run)
      ((renderer.scope renderer.limits.includeDepth name (run.session.height + 1)).runNodes program.nodes data
        ⟨cache, opened run.session⟩) := by
  rw [templateDeeds, found]
  exact @tells_runNodes σ excused (renderer.scope renderer.limits.includeDepth name (run.session.height + 1)) _
    (renderer.tells_insert fresh renderer.limits.includeDepth (run.session.height + 1)) program.nodes data
    ⟨cache, opened run.session⟩ (Nat.le_refl _)

end Templates

structure Leaves (name : String) (run after : Run σ) : Prop where
  depth : after.session.includeDepth = run.session.includeDepth
  chain : after.session.chain = run.session.chain
  parent : run.session.includeDepth = 0 →
    after.session.parent = run.session.parent.or (Deed.layouts (renderer.templateDeeds data name run)).head?
  content : (after.session.blocks.get? contentBlock).getD "" = renderer.contentOf data name run

section Templates

variable {renderer} {data} {name : String} {run after : Run σ}

omit [Store σ] in
theorem ok_of_close (floor : Nat) (result : EStateM.Result ViewError (Run σ) Fields)
    (closed : close name floor result = .ok () after) :
    ∃ changed reached session, result = .ok changed reached ∧ reached.session.height ≤ floor ∧
      closeContent reached.session = .ok session ∧ after = { reached with session } := by
  cases result with
  | error e reached => cases closed
  | ok changed reached =>
      rw [close] at closed
      split at closed
      · cases closed
      · rename_i level
        split at closed
        · cases closed
        · rename_i session ended
          injection closed with _ same
          exact ⟨changed, reached, session, rfl, height_of_closed _ _ _ level, ended, same.symm⟩

theorem frames_opened (text : String) (before : Session) :
    ((opened before).write text).frames = ⟨contentBlock, text, true⟩ :: before.frames := by
  rw [← String.empty_append (s := text)]
  rfl

-- When all captures are ended, the implicit one has taken all loose text.
theorem closeContent_eq (before session : Session) (deeds : List Deed)
    (spares : Deed.SparesAll (opened before).height deeds (opened before)) (closes : Deed.ClosesAll deeds (opened before))
    (level : (Deed.applyAll deeds (opened before)).height ≤ (opened before).height)
    (ended : closeContent (Deed.applyAll deeds (opened before)) = .ok session) :
    session = { Deed.applyAll deeds (opened before) with
      frames := before.frames
      blocks := if Deed.claims deeds then (Deed.applyAll deeds (opened before)).blocks
        else (Deed.applyAll deeds (opened before)).blocks.set contentBlock (Deed.loose deeds) } := by
  have own := Deed.stacked_own deeds [] (opened before) (stacked_start _ _ rfl rfl) rfl spares closes
  have claimed : (Deed.applyAll deeds (opened before)).contentClaimed = Deed.claims deeds := by
    rw [own.2, List.append_nil, History.claimed_session]
    rfl
  have frames := (Deed.frames_of_history deeds (opened before) spares).1
  rw [height_of_stacked (Deed.stacked_history deeds (opened before) spares)] at level
  have ended' : (Deed.history deeds).session.frames = [] := by
    apply List.eq_nil_of_length_eq_zero
    rw [height] at level
    omega
  rw [(History.recounts_session _).frames, List.map_eq_nil_iff] at ended'
  rw [ended', List.map_nil, List.nil_append, frames_opened] at frames
  rw [closeContent, frames] at ended
  obtain rfl := Except.ok.inj ended
  by_cases taken : (Deed.applyAll deeds (opened before)).contentClaimed = true
  · rw [if_pos taken, if_pos (claimed ▸ taken)]
  · rw [if_neg taken, if_neg (claimed ▸ taken)]
    rfl

theorem leaves_of_ran (ran : renderer.runTemplate name data run = .ok () after) :
    renderer.Leaves data name run after := by
  cases found : Cache.ensureFresh renderer.compiler name run.cache with
  | error e cache =>
      rw [runTemplate_missing run e cache found] at ran
      cases ran
  | ok program cache =>
      rw [runTemplate_found run program cache found] at ran
      have told := @tells_template σ _ renderer data name run True (fun _ _ _ _ _ _ => trivial) program cache found
      obtain ⟨changed, reached, session, done, level, ended, rfl⟩ := ok_of_close _ _ ran
      rw [done] at told
      cases told with
      | done same spares closes =>
          rw [same] at level ended
          have closed := closeContent_eq run.session session _ spares closes level ended
          have apart := Deed.apart_applyAll (renderer.templateDeeds data name run) (opened run.session)
          have parent := Deed.parent_applyAll (renderer.templateDeeds data name run) (opened run.session)
          rw [closed]
          by_cases claimed : Deed.claims (renderer.templateDeeds data name run) = true
          · rw [if_pos claimed]
            refine ⟨apart.depth, apart.chain, parent, ?_⟩
            rw [contentOf, if_pos claimed]
          · rw [if_neg claimed]
            refine ⟨apart.depth, apart.chain, parent, ?_⟩
            rw [contentOf, if_neg claimed, Table.get_set, if_pos rfl, Option.getD_some]

omit [Store σ] in
theorem plain_of_close {floor : Nat} {changed : Fields} {e : ViewError} (reached after : Run σ)
    (failed : close name floor (.ok changed reached) = .error e after) : e.ofChain = false := by
  simp only [close, checkClosed, closeContent] at failed
  split at failed
  · rename_i fault unclosed
    split at unclosed
    · obtain rfl := Except.error.inj unclosed
      injection failed with same
      exact same ▸ rfl
    · cases unclosed
  · split at failed
    · rename_i fault unbalanced
      split at unbalanced
      · obtain rfl := Except.error.inj unbalanced
        injection failed with same
        exact same ▸ rfl
      · cases unbalanced
    · cases failed

theorem plain_of_failed (fresh : ∀ name (cache after : Cache σ) e,
      Cache.ensureFresh renderer.compiler name cache = .error e after → e.ofChain = false) (e : ViewError)
    (failed : renderer.runTemplate name data run = .error e after) : e.ofChain = false := by
  cases found : Cache.ensureFresh renderer.compiler name run.cache with
  | error fault cache =>
      rw [runTemplate_missing run fault cache found] at failed
      injection failed with same
      exact same ▸ fresh name run.cache cache fault found
  | ok program cache =>
      rw [runTemplate_found run program cache found] at failed
      have told := @tells_template σ _ renderer data name run False
        (fun name cache after e failed chained => Bool.false_ne_true ((fresh name cache after e failed).symm.trans chained))
        program cache found
      generalize (renderer.scope renderer.limits.includeDepth name (run.session.height + 1)).runNodes program.nodes data
        ⟨cache, opened run.session⟩ = result at failed told
      cases told with
      | failed same spares plain =>
          injection failed with same
          exact same ▸ Bool.eq_false_iff.mpr plain
      | done same spares closes => exact plain_of_close _ _ failed

end Templates

structure Visit (σ : Type) where
  name : String
  start : Run σ

def visits : Nat → String → Run σ → List (Visit σ)
  | 0, _, _ => []
  | left + 1, name, run =>
      if run.session.chain.contains name then []
      else match Cache.ensureFresh renderer.compiler name run.cache with
        | .error _ _ => []
        | .ok _ _ =>
            ⟨name, linked name run⟩ :: match renderer.runTemplate name data (linked name run) with
              | .error _ _ => []
              | .ok _ after =>
                  match after.session.parent with
                  | none => []
                  | some layout => visits left layout (parentless after)

def Visit.deeds (visit : Visit σ) : List Deed := renderer.templateDeeds data visit.name visit.start

def Visit.Ends (visit : Visit σ) (after : Run σ) : Prop :=
  renderer.runTemplate visit.name data visit.start = .ok () after

def Visit.Leads (visit : Visit σ) (after : Run σ) (layout : String) : Prop :=
  visit.Ends renderer data after ∧ (Deed.layouts (visit.deeds renderer data)).head? = some layout

def Visit.Follows (visit next : Visit σ) : Prop :=
  ∃ after, visit.Leads renderer data after next.name ∧ next.start = linked next.name (parentless after)

def Arrives (name : String) (run : Run σ) (visits : List (Visit σ)) (layout : String) (reached : Run σ) : Prop :=
  match visits.getLast? with
  | none => layout = name ∧ reached = run
  | some last => ∃ after, last.Leads renderer data after layout ∧ reached = parentless after

inductive Stops (name : String) (run : Run σ) (names : List String) (visits : List (Visit σ)) :
    EStateM.Result ViewError (Run σ) Unit → Prop where
  | cycle {layout : String} {reached : Run σ} (arrives : renderer.Arrives data name run visits layout reached)
      (looped : layout ∈ names) : Stops name run names visits (.error (.cycle (names ++ [layout])) reached)
  | deep {layout : String} {reached : Run σ} (arrives : renderer.Arrives data name run visits layout reached)
      (fresh : layout ∉ names) (full : names.length = renderer.limits.inheritanceDepth + 1) :
      Stops name run names visits (.error (.tooDeep .inheritance renderer.limits.inheritanceDepth layout) reached)
  | missing {layout : String} {reached : Run σ} {e : ViewError} {cache : Cache σ}
      (arrives : renderer.Arrives data name run visits layout reached) (fresh : layout ∉ names)
      (room : names.length ≤ renderer.limits.inheritanceDepth)
      (absent : Cache.ensureFresh renderer.compiler layout reached.cache = .error e cache) (plain : e.ofChain = false) :
      Stops name run names visits (.error e { linked layout reached with cache })
  | failed {last : Visit σ} {after : Run σ} {e : ViewError} (final : visits.getLast? = some last)
      (ran : renderer.runTemplate last.name data last.start = .error e after) (plain : e.ofChain = false) :
      Stops name run names visits (.error e after)
  | last {last : Visit σ} {after : Run σ} (final : visits.getLast? = some last) (ended : last.Ends renderer data after)
      (alone : Deed.layouts (last.deeds renderer data) = []) :
      Stops name run names visits (.ok () (parentless after))

structure Walks (left : Nat) (name : String) (run : Run σ) (visits : List (Visit σ))
    (result : EStateM.Result ViewError (Run σ) Unit) : Prop where
  few : visits.length ≤ left
  first : visits = [] ∨ visits.head? = some ⟨name, linked name run⟩
  distinct : run.session.chain.Nodup → (run.session.chain ++ visits.map Visit.name).Nodup
  next : visits.IsChain (Visit.Follows renderer data)
  stops : renderer.Stops data name run (run.session.chain ++ visits.map Visit.name) visits result

section Walk

variable {renderer} {data} {name layout : String} {run after reached : Run σ} {left : Nat} {visit : Visit σ}
  {rest visits : List (Visit σ)} {result : EStateM.Result ViewError (Run σ) Unit}

theorem walks_nil (stops : renderer.Stops data name run run.session.chain [] result) :
    renderer.Walks data left name run [] result where
  few := Nat.zero_le _
  first := .inl rfl
  distinct unique := (List.append_nil _).symm ▸ unique
  next := .nil
  stops := (List.append_nil run.session.chain).symm ▸ stops

omit [Store σ] in
theorem nodup_linked (fresh : name ∉ run.session.chain) (unique : run.session.chain.Nodup) :
    (linked name run).session.chain.Nodup :=
  List.nodup_append.mpr ⟨unique, List.nodup_singleton name, fun _ inside _ same equal =>
    fresh (equal.trans (List.mem_singleton.mp same) ▸ inside)⟩

theorem walks_single (fresh : name ∉ run.session.chain)
    (stops : renderer.Stops data name run (linked name run).session.chain [⟨name, linked name run⟩] result) :
    renderer.Walks data (left + 1) name run [⟨name, linked name run⟩] result where
  few := Nat.le_add_left _ _
  first := .inr rfl
  distinct := nodup_linked fresh
  next := .singleton _
  stops := stops

theorem arrives_cons (leads : visit.Leads renderer data after layout) {target : String}
    (arrives : renderer.Arrives data layout (parentless after) rest target reached) :
    renderer.Arrives data name run (visit :: rest) target reached := by
  cases rest with
  | nil =>
      obtain ⟨rfl, rfl⟩ := arrives
      exact ⟨after, leads, rfl⟩
  | cons second others =>
      rw [Arrives, List.getLast?_cons_cons]
      exact arrives

theorem stops_cons (leads : visit.Leads renderer data after layout) {names : List String}
    (stops : renderer.Stops data layout (parentless after) names rest result) :
    renderer.Stops data name run names (visit :: rest) result := by
  have kept (last : Visit σ) (final : rest.getLast? = some last) : (visit :: rest).getLast? = some last := by
    rw [List.getLast?_cons, final, Option.getD_some]
  cases stops with
  | cycle arrives looped => exact .cycle (arrives_cons leads arrives) looped
  | deep arrives fresh full => exact .deep (arrives_cons leads arrives) fresh full
  | missing arrives fresh room absent plain => exact .missing (arrives_cons leads arrives) fresh room absent plain
  | failed final ran plain => exact .failed (kept _ final) ran plain
  | last final ended alone => exact .last (kept _ final) ended alone

theorem walks_cons (fresh : name ∉ run.session.chain)
    (leads : Visit.Leads renderer data ⟨name, linked name run⟩ after layout)
    (chain : after.session.chain = (linked name run).session.chain)
    (walks : renderer.Walks data left layout (parentless after) rest result) :
    renderer.Walks data (left + 1) name run (⟨name, linked name run⟩ :: rest) result := by
  have names : (parentless after).session.chain ++ rest.map Visit.name
      = run.session.chain ++ (name :: rest.map Visit.name) := by
    rw [parentless, chain, linked, List.append_assoc]
    rfl
  refine ⟨Nat.succ_le_succ walks.few, .inr rfl, fun unique => ?_, ?_, ?_⟩
  · have unique' := walks.distinct (chain ▸ nodup_linked fresh unique)
    rw [names] at unique'
    exact unique'
  · cases rest with
    | nil => exact .singleton _
    | cons second others =>
        obtain absent | first := walks.first
        · cases absent
        · obtain rfl := Option.some.inj first
          exact .cons_cons ⟨after, leads, rfl⟩ walks.next
  · have stops := walks.stops
    rw [names] at stops
    exact stops_cons leads stops

section Stops

variable {names : List String} {final : Visit σ} (reaches : visits.getLast? = some final)

include reaches

theorem arrives_of_leads {target : String} {start : Run σ} (leads : final.Leads renderer data after layout)
    (arrives : renderer.Arrives data name start visits target reached) : target = layout ∧ reached = parentless after := by
  rw [Arrives, reaches] at arrives
  obtain ⟨after', leads', rfl⟩ := arrives
  have same := leads'.1.symm.trans leads.1
  injection same with _ same
  exact ⟨Option.some.inj (leads'.2.symm.trans leads.2), same ▸ rfl⟩

theorem stops_of_leads (leads : final.Leads renderer data after layout)
    (stops : renderer.Stops data name run names visits result) :
    (layout ∈ names ∧ result = .error (.cycle (names ++ [layout])) (parentless after)) ∨
    (layout ∉ names ∧ names.length = renderer.limits.inheritanceDepth + 1 ∧
      result = .error (.tooDeep .inheritance renderer.limits.inheritanceDepth layout) (parentless after)) ∨
    (layout ∉ names ∧ names.length ≤ renderer.limits.inheritanceDepth ∧
      ∃ e cache, Cache.ensureFresh renderer.compiler layout after.cache = .error e cache ∧ e.ofChain = false ∧
        result = .error e { linked layout (parentless after) with cache }) := by
  cases stops with
  | cycle arrives looped =>
      obtain ⟨rfl, rfl⟩ := arrives_of_leads reaches leads arrives
      exact .inl ⟨looped, rfl⟩
  | deep arrives fresh full =>
      obtain ⟨rfl, rfl⟩ := arrives_of_leads reaches leads arrives
      exact .inr (.inl ⟨fresh, full, rfl⟩)
  | missing arrives fresh room absent plain =>
      obtain ⟨rfl, rfl⟩ := arrives_of_leads reaches leads arrives
      exact .inr (.inr ⟨fresh, room, _, _, absent, plain, rfl⟩)
  | failed reaches' ran plain =>
      obtain rfl := Option.some.inj (reaches.symm.trans reaches')
      cases leads.1.symm.trans ran
  | last reaches' ended alone =>
      obtain rfl := Option.some.inj (reaches.symm.trans reaches')
      have named := leads.2
      rw [alone] at named
      cases named

theorem stops_of_ends (ended : final.Ends renderer data after) (alone : Deed.layouts (final.deeds renderer data) = [])
    (stops : renderer.Stops data name run names visits result) : result = .ok () (parentless after) := by
  have unled {target : String} {start reached : Run σ} (arrives : renderer.Arrives data name start visits target reached) :
      False := by
    rw [Arrives, reaches] at arrives
    obtain ⟨_, ⟨_, named⟩, _⟩ := arrives
    rw [alone] at named
    cases named
  cases stops with
  | cycle arrives _ => exact (unled arrives).elim
  | deep arrives _ _ => exact (unled arrives).elim
  | missing arrives _ _ _ _ => exact (unled arrives).elim
  | failed reaches' ran plain =>
      obtain rfl := Option.some.inj (reaches.symm.trans reaches')
      cases ended.symm.trans ran
  | last reaches' ended' alone =>
      obtain rfl := Option.some.inj (reaches.symm.trans reaches')
      have same := ended'.symm.trans ended
      injection same with _ same
      rw [same]

omit reaches

theorem stops_nil (stops : renderer.Stops data name run [] [] result) :
    ∃ e cache, Cache.ensureFresh renderer.compiler name run.cache = .error e cache ∧
      result = .error e { linked name run with cache } := by
  cases stops with
  | cycle _ looped => cases looped
  | deep _ _ full => cases full
  | missing arrives _ _ absent _ =>
      obtain ⟨rfl, rfl⟩ := arrives
      exact ⟨_, _, absent, rfl⟩
  | failed reaches _ _ => cases reaches
  | last reaches _ _ => cases reaches

theorem leads_of_arrives {start : Run σ} (arrives : renderer.Arrives data name start visits layout reached)
    (executed : visits ≠ []) :
    ∃ last after, visits.getLast? = some last ∧ last.Leads renderer data after layout := by
  rw [Arrives] at arrives
  cases reaches : visits.getLast? with
  | none => exact absurd (List.getLast?_eq_none_iff.mp reaches) executed
  | some last =>
      rw [reaches] at arrives
      obtain ⟨after, leads, _⟩ := arrives
      exact ⟨last, after, rfl, leads⟩

variable (stops : renderer.Stops data name run (visits.map Visit.name) visits result)

include stops

theorem cycle_iff_leads (chain : List String) :
    (∃ after, printed result = .error (.cycle chain) after) ↔
      ∃ last after layout, visits.getLast? = some last ∧ last.Leads renderer data after layout ∧
        layout ∈ visits.map Visit.name ∧ chain = visits.map Visit.name ++ [layout] := by
  constructor
  · rintro ⟨after, failed⟩
    cases stops with
    | @cycle layout reached arrives looped =>
        injection failed with same
        injection same with same
        obtain ⟨last, after, reaches, leads⟩ := leads_of_arrives arrives fun none => by
          rw [none] at looped
          cases looped
        exact ⟨last, after, layout, reaches, leads, looped, same.symm⟩
    | deep _ _ _ => cases failed
    | missing _ _ _ _ plain =>
        injection failed with same
        rw [same] at plain
        cases plain
    | failed _ _ plain =>
        injection failed with same
        rw [same] at plain
        cases plain
    | last _ _ _ => cases failed
  · rintro ⟨last, after, layout, reaches, leads, looped, rfl⟩
    rcases stops_of_leads reaches leads stops with ⟨_, rfl⟩ | ⟨fresh, _⟩ | ⟨fresh, _⟩
    · exact ⟨_, rfl⟩
    · exact absurd looped fresh
    · exact absurd looped fresh

theorem deep_iff_leads (limit : Nat) (layout : String) :
    (∃ after, printed result = .error (.tooDeep .inheritance limit layout) after) ↔
      limit = renderer.limits.inheritanceDepth ∧ visits.length = renderer.limits.inheritanceDepth + 1 ∧
        ∃ last after, visits.getLast? = some last ∧ last.Leads renderer data after layout ∧
          layout ∉ visits.map Visit.name := by
  have count : (visits.map Visit.name).length = visits.length := List.length_map _
  constructor
  · rintro ⟨after, failed⟩
    cases stops with
    | cycle _ _ => cases failed
    | deep arrives fresh full =>
        injection failed with same
        obtain ⟨_, rfl, rfl⟩ := ViewError.tooDeep.inj same
        rw [count] at full
        obtain ⟨last, after, reaches, leads⟩ := leads_of_arrives arrives fun none => by
          rw [none] at full
          cases full
        exact ⟨rfl, full, last, after, reaches, leads, fresh⟩
    | missing _ _ _ _ plain =>
        injection failed with same
        rw [same] at plain
        cases plain
    | failed _ _ plain =>
        injection failed with same
        rw [same] at plain
        cases plain
    | last _ _ _ => cases failed
  · rintro ⟨rfl, full, last, after, reaches, leads, fresh⟩
    rcases stops_of_leads reaches leads stops with ⟨looped, _⟩ | ⟨_, _, rfl⟩ | ⟨_, room, _⟩
    · exact absurd looped fresh
    · exact ⟨_, rfl⟩
    · omega

theorem printed_iff_ends (text : String) (cache : Cache σ) :
    printed result = .ok text cache ↔
      ∃ last after, visits.getLast? = some last ∧ last.Ends renderer data after ∧
        Deed.layouts (last.deeds renderer data) = [] ∧ text = (after.session.blocks.get? contentBlock).getD "" ∧
        cache = after.cache := by
  constructor
  · intro done
    cases stops with
    | last reaches ended alone =>
        injection done with same same'
        exact ⟨_, _, reaches, ended, alone, same.symm, same'.symm⟩
    | _ => cases done
  · rintro ⟨last, after, reaches, ended, alone, rfl, rfl⟩
    rw [stops_of_ends reaches ended alone stops]
    rfl

end Stops

variable (fresh : ∀ name (cache after : Cache σ) e,
  Cache.ensureFresh renderer.compiler name cache = .error e after → e.ofChain = false)

include fresh

theorem walks_runChain (data : Fields) (left : Nat) (name : String) (run : Run σ)
    (level : run.session.chain.length + left = renderer.limits.inheritanceDepth + 1)
    (top : run.session.includeDepth = 0) (unled : run.session.parent = none) :
    renderer.Walks data left name run (renderer.visits data left name run) (renderer.runChain data left name run) := by
  induction left generalizing name run with
  | zero =>
      rw [runChain_zero, visits]
      by_cases looped : run.session.chain.contains name = true
      · rw [if_pos looped]
        exact walks_nil (.cycle ⟨rfl, rfl⟩ (List.contains_iff_mem.mp looped))
      · rw [if_neg looped]
        exact walks_nil (.deep ⟨rfl, rfl⟩ (fun inside => looped (List.contains_iff_mem.mpr inside)) level)
  | succ left ih =>
      rw [runChain_succ, visits]
      by_cases looped : run.session.chain.contains name = true
      · rw [if_pos looped, if_pos looped]
        exact walks_nil (.cycle ⟨rfl, rfl⟩ (List.contains_iff_mem.mp looped))
      · rw [if_neg looped, if_neg looped, runLink_eq]
        have unseen : name ∉ run.session.chain := fun inside => looped (List.contains_iff_mem.mpr inside)
        have room : run.session.chain.length ≤ renderer.limits.inheritanceDepth := by omega
        cases found : Cache.ensureFresh renderer.compiler name run.cache with
        | error e cache =>
            rw [runTemplate_missing (linked name run) e cache found]
            exact walks_nil (.missing ⟨rfl, rfl⟩ unseen room found (fresh _ _ _ _ found))
        | ok program cache =>
            dsimp only
            cases ran : renderer.runTemplate name data (linked name run) with
            | error e after => exact walks_single unseen (.failed rfl ran (plain_of_failed fresh e ran))
            | ok _ after =>
                have leaves := leaves_of_ran ran
                have parent := leaves.parent top
                rw [linked, unled, Option.none_or] at parent
                dsimp only
                rw [parent]
                cases named : (Deed.layouts (renderer.templateDeeds data name (linked name run))).head? with
                | none =>
                    rw [linked] at named
                    rw [named]
                    exact walks_single unseen (.last rfl ran (List.head?_eq_none_iff.mp named))
                | some layout =>
                    rw [linked] at named
                    rw [named]
                    refine walks_cons unseen ⟨ran, named⟩ leaves.chain (ih layout (parentless after) ?_ ?_ rfl)
                    · exact level_parentless _ _ leaves.chain level
                    · exact leaves.depth.trans top

end Walk

def walk (name : String) (cache : Cache σ) : List (Visit σ) :=
  renderer.visits data (renderer.limits.inheritanceDepth + 1) name ⟨cache, .start⟩

structure Walked (name : String) (cache : Cache σ) : Prop where
  first : (renderer.walk data name cache).head? = some ⟨name, linked name ⟨cache, .start⟩⟩ ∨
    renderer.walk data name cache = [] ∧
      ∃ e after, Cache.ensureFresh renderer.compiler name cache = .error e after ∧
        renderer.render name data cache = .error e after
  next : (renderer.walk data name cache).IsChain (Visit.Follows renderer data)
  distinct : ((renderer.walk data name cache).map Visit.name).Nodup
  few : (renderer.walk data name cache).length ≤ renderer.limits.inheritanceDepth + 1
  stuck : ∀ last after layout, (renderer.walk data name cache).getLast? = some last →
    last.Leads renderer data after layout →
      layout ∈ (renderer.walk data name cache).map Visit.name ∨
      (renderer.walk data name cache).length = renderer.limits.inheritanceDepth + 1 ∨
      ∃ e reached, Cache.ensureFresh renderer.compiler layout after.cache = .error e reached ∧
        renderer.render name data cache = .error e reached
  cycle : ∀ chain, (∃ after, renderer.render name data cache = .error (.cycle chain) after) ↔
    ∃ last after layout, (renderer.walk data name cache).getLast? = some last ∧ last.Leads renderer data after layout ∧
      layout ∈ (renderer.walk data name cache).map Visit.name ∧
      chain = (renderer.walk data name cache).map Visit.name ++ [layout]
  deep : ∀ limit layout, (∃ after, renderer.render name data cache = .error (.tooDeep .inheritance limit layout) after) ↔
    limit = renderer.limits.inheritanceDepth ∧
    (renderer.walk data name cache).length = renderer.limits.inheritanceDepth + 1 ∧
    ∃ last after, (renderer.walk data name cache).getLast? = some last ∧ last.Leads renderer data after layout ∧
      layout ∉ (renderer.walk data name cache).map Visit.name
  text : ∀ text after, renderer.render name data cache = .ok text after ↔
    ∃ last reached, (renderer.walk data name cache).getLast? = some last ∧ last.Ends renderer data reached ∧
      Deed.layouts (last.deeds renderer data) = [] ∧
      text = (reached.session.blocks.get? contentBlock).getD "" ∧ after = reached.cache
  loose : ∀ text after last, renderer.render name data cache = .ok text after →
    (renderer.walk data name cache).getLast? = some last → ¬ Deed.claims (last.deeds renderer data) →
      text = Deed.loose (last.deeds renderer data)

theorem walked_render (fresh : ∀ name (cache after : Cache σ) e,
      Cache.ensureFresh renderer.compiler name cache = .error e after → e.ofChain = false)
    (name : String) (cache : Cache σ) : renderer.Walked data name cache := by
  have walks := walks_runChain fresh data (renderer.limits.inheritanceDepth + 1) name ⟨cache, .start⟩
    (Nat.zero_add _) rfl rfl
  rw [← walk] at walks
  have same := render_eq renderer data name cache
  obtain ⟨few, first, distinct, next, stops⟩ := walks
  have stops : renderer.Stops data name ⟨cache, .start⟩ ((renderer.walk data name cache).map Visit.name) _ _ := stops
  generalize renderer.runChain data (renderer.limits.inheritanceDepth + 1) name ⟨cache, .start⟩ = result at stops same
  have count : ((renderer.walk data name cache).map Visit.name).length = _ := List.length_map _
  refine ⟨?_, next, distinct .nil, few, ?_, ?_, ?_, ?_, ?_⟩
  · obtain none | first := first
    · rw [none] at stops
      obtain ⟨e, after, absent, rfl⟩ := stops_nil stops
      exact .inr ⟨none, e, after, absent, same⟩
    · exact .inl first
  · intro last after layout reaches leads
    rcases stops_of_leads reaches leads stops with ⟨looped, _⟩ | ⟨_, full, _⟩ | ⟨_, _, e, reached, absent, _, ended⟩
    · exact .inl looped
    · exact .inr (.inl (count ▸ full))
    · exact .inr (.inr ⟨e, reached, absent, by rw [same, ended]; rfl⟩)
  · rw [same]
    exact cycle_iff_leads stops
  · rw [same]
    exact deep_iff_leads stops
  · rw [same]
    exact printed_iff_ends stops
  · intro text after last done reaches unclaimed
    rw [same, printed_iff_ends stops] at done
    obtain ⟨last', reached, reaches', ended, _, rfl, _⟩ := done
    obtain rfl := Option.some.inj (reaches.symm.trans reaches')
    rw [(leaves_of_ran ended).content, contentOf]
    exact if_neg unclaimed

theorem plain_of_ofCache (e : ViewError) (known : e.ofCache = true) : e.ofChain = false := by
  cases e with
  | tooDeep bound limit name => cases known
  | cycle chain => cases known
  | _ => rfl

/-- The templates that a render executes at the top have different names, and are no more than the limit allows. The first
is the one that was asked for, and each goes on to the first layout that it names itself, as far as this layout can be had.
The render fails with a cycle exactly if the last one goes on to one of them, and with too many layouts exactly if it goes
on to another one after as many as may be. The text of a render is the content that the last one leaves: its own loose
text, unless it has itself closed a content section. -/
theorem walked (name : String) :
    (∀ cache : Cache Memory, renderer.Walked data name cache) ∧ ∀ cache : Cache Files, renderer.Walked data name cache :=
  ⟨renderer.walked_render data (fun name cache after e failed => plain_of_ofCache e
      (Cache.ofCache_ensureFresh Memory.calm renderer.compiler name cache after e failed)) name,
    renderer.walked_render data (fun name cache after e failed => plain_of_ofCache e
      (Cache.ofCache_ensureFresh Files.calm renderer.compiler name cache after e failed)) name⟩

-- A page names its layout after a part of it has named another one. The layout adds to the content with a section of its
-- own, so its loose text is lost.
def leaflet : Cache Memory where
  store := ⟨[("page", ⟨"a @include('part')@extends('base')@extends('none')", 1⟩), ("part", ⟨"b @extends('none')", 1⟩),
    ("base", ⟨"c @section('content')d @endsection", 1⟩)], []⟩
  counts := ⟨0, 0⟩

example : (plain.walk [] "page" leaflet).map Visit.name = ["page", "base"] ∧
    (plain.walk [] "page" leaflet).map (fun visit => Deed.loose (visit.deeds plain [])) = ["a b ", "c "] ∧
    (plain.walk [] "page" leaflet).map (fun visit => Deed.claims (visit.deeds plain [])) = [false, true] ∧
    (plain.render "page" []).result? leaflet = some "a b d " := by
  decide +kernel

end Renderer

end Stencil
