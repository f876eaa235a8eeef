import Stencil.Text.Entity

set_option autoImplicit false

namespace Stencil.Text

def entities : List (List Char) :=
  ["&amp;".toList, "&lt;".toList, "&gt;".toList, "&quot;".toList, "&#039;".toList]

def reserved : List Char := ['&', '<', '>', '"', '\'']

def unescapeHtml (text : String) : String := String.ofList (unescape text.toList)

section Entities

variable (c : Char)

theorem entity_free (free : c ∉ reserved) : entity c = [c] := by
  simp only [reserved, List.mem_cons, List.not_mem_nil, or_false, not_or] at free
  obtain ⟨mark, less, greater, quote, single⟩ := free
  rw [entity, if_neg mark, if_neg less, if_neg greater, if_neg quote, if_neg single]

theorem entity_reserved (escaped : c ∈ reserved) : entity c ∈ entities := by
  have shown : (reserved.all fun c => decide (entity c ∈ entities)) = true := by decide
  exact of_decide_eq_true (List.all_eq_true.mp shown c escaped)

theorem mem_entities : ∀ name ∈ entities, ∃ letters, name = '&' :: letters ∧ ∀ c ∈ letters, c ∉ reserved := by
  have shape : ∀ name ∈ entities, name = '&' :: name.tail ∧ (name.tail.all fun c => decide (c ∉ reserved)) = true := by
    decide
  intro name listed
  obtain ⟨spelling, free⟩ := shape name listed
  exact ⟨name.tail, spelling, fun c letter => of_decide_eq_true (List.all_eq_true.mp free c letter)⟩

theorem mark_of_reserved (other : Char) (inside : other ∈ entity c) (kept : other ∈ reserved) : other = '&' := by
  by_cases escaped : c ∈ reserved
  · obtain ⟨letters, spelling, free⟩ := mem_entities _ (entity_reserved c escaped)
    rw [spelling] at inside
    rcases List.mem_cons.mp inside with mark | letter
    · exact mark
    · exact absurd kept (free other letter)
  · rw [entity_free c escaped, List.mem_singleton] at inside
    exact absurd (inside ▸ kept) escaped

theorem entity_of_mark (after : List Char) (ending : '&' :: after <:+ entity c) : '&' :: after ∈ entities := by
  by_cases escaped : c ∈ reserved
  · have listed := entity_reserved c escaped
    obtain ⟨letters, spelling, free⟩ := mem_entities _ listed
    rw [spelling] at ending
    rcases List.suffix_cons_iff.mp ending with same | within
    · rwa [same, ← spelling]
    · exact absurd (by decide) (free '&' (within.subset List.mem_cons_self))
  · rw [entity_free c escaped] at ending
    have same := List.mem_singleton.mp (ending.subset List.mem_cons_self)
    exact absurd (by decide) (same ▸ escaped)

theorem unescape_free (rest : List Char) (free : c ≠ '&') : unescape (c :: rest) = c :: unescape rest := by
  rw [unescape]
  all_goals simp_all

theorem unescape_entity (rest : List Char) : unescape (entity c ++ rest) = c :: unescape rest := by
  by_cases escaped : c ∈ reserved
  · simp only [reserved, List.mem_cons, List.not_mem_nil, or_false] at escaped
    rcases escaped with rfl | rfl | rfl | rfl | rfl <;> rfl
  · rw [entity_free c escaped]
    exact unescape_free c rest fun mark => escaped (mark ▸ List.mem_cons_self)

end Entities

section Texts

theorem mark_of_escape (text : List Char) (c : Char) (inside : c ∈ escape text) (kept : c ∈ reserved) : c = '&' := by
  obtain ⟨origin, _, entered⟩ := List.mem_flatMap.mp inside
  exact mark_of_reserved origin c entered kept

theorem entity_of_escape (text before after : List Char) (found : escape text = before ++ '&' :: after) :
    ∃ name ∈ entities, name <+: '&' :: after := by
  induction text generalizing before with
  | nil => cases before <;> cases found
  | cons c rest ih =>
      rw [escape, List.flatMap_cons] at found
      rcases List.append_eq_append_iff.mp found with ⟨more, _, later⟩ | ⟨part, first, later⟩
      · exact ih more later
      · cases part with
        | nil => exact ih [] later.symm
        | cons mark letters =>
            -- The mark is in the entity of this character, so it is the first of it.
            obtain ⟨rfl, _⟩ := List.cons.inj later
            exact ⟨_, entity_of_mark c letters ⟨before, first.symm⟩, ⟨_, later.symm⟩⟩

theorem unescape_escape (text : List Char) : unescape (escape text) = text := by
  induction text with
  | nil => rfl
  | cons c rest ih =>
      calc
        unescape (escape (c :: rest)) = unescape (entity c ++ escape rest) := rfl
        _ = c :: unescape (escape rest) := unescape_entity c _
        _ = c :: rest := by rw [ih]

theorem unescapeHtml_escapeHtml (text : String) : unescapeHtml (escapeHtml text) = text := by
  rw [unescapeHtml, escapeHtml, String.toList_ofList, unescape_escape, String.ofList_toList]

end Texts

/-- An escaped text holds none of the characters that open or close a tag or a quoted value, each `&` in it starts an
entity, and decoding the entities gives the text back, so that different texts stay different. Escaping two texts and
joining them is the same as escaping them joined. -/
theorem escapeHtml_faithful (first second : String) :
    (∀ c ∈ (escapeHtml first).toList, c ≠ '<' ∧ c ≠ '>' ∧ c ≠ '"' ∧ c ≠ '\'') ∧
    (∀ before after, (escapeHtml first).toList = before ++ '&' :: after → ∃ name ∈ entities, name <+: '&' :: after) ∧
    unescapeHtml (escapeHtml first) = first ∧
    (escapeHtml first = escapeHtml second → first = second) ∧
    escapeHtml (first ++ second) = escapeHtml first ++ escapeHtml second := by
  have text : (escapeHtml first).toList = escape first.toList := String.toList_ofList
  refine ⟨fun c inside => ?_, fun before after found => ?_, unescapeHtml_escapeHtml first, fun same => ?_, ?_⟩
  · have kept := mark_of_escape first.toList c (text ▸ inside)
    refine ⟨?_, ?_, ?_, ?_⟩
    all_goals
      rintro rfl
      exact absurd (kept (by decide)) (by decide)
  · exact entity_of_escape first.toList before after (text ▸ found)
  · rw [← unescapeHtml_escapeHtml first, same, unescapeHtml_escapeHtml]
  · simp only [escapeHtml, escape, String.toList_append, List.flatMap_append, String.ofList_append]

-- Parts that would make an entity when joined do not make one when they are escaped first.
example : escapeHtml "&am" ++ escapeHtml "p;" = "&amp;amp;" := by decide +kernel

end Stencil.Text
