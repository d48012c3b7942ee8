import Mathlib.Data.List.DropRight
import Mathlib.Data.List.TakeWhile
import EnvTemplates.Text.Basic

/-!
# Trimming

A text is its core between blanks, where the core has no blank at either end. `Trims` says so
without taking anything away, and `trim` finds the only core that there is (`trim_eq_iff`).
-/

namespace EnvTemplates.Text

/-- All characters of a text are blank. -/
def AllBlank (t : Text) : Prop := ∀ c ∈ t, isBlank c = true

/-- A text has a core between blanks, and the core has no blank at either end. -/
structure Trims (text core : Text) : Prop where
  split : ∃ before after, text = before ++ core ++ after ∧ AllBlank before ∧ AllBlank after
  first : ∀ c, core.head? = some c → isBlank c = false
  last : ∀ c, core.getLast? = some c → isBlank c = false

variable {text core : Text}

theorem AllBlank.append {a b : Text} (ha : AllBlank a) (hb : AllBlank b) : AllBlank (a ++ b) :=
  fun c hc => (List.mem_append.1 hc).elim (ha c) (hb c)

theorem dropWhile_isBlank_append {before rest : Text} (hbefore : AllBlank before)
    (hfirst : ∀ c, rest.head? = some c → isBlank c = false) :
    (before ++ rest).dropWhile isBlank = rest := by
  rw [List.dropWhile_append_of_pos hbefore]
  cases rest with
  | nil => rfl
  | cons c rest => rw [List.dropWhile_cons_of_neg (by simp [hfirst c rfl])]

theorem trimEnd_append {after : Text} (hafter : AllBlank after)
    (hlast : ∀ c, core.getLast? = some c → isBlank c = false) : trimEnd (core ++ after) = core := by
  have hreverse : AllBlank after.reverse := fun c hc => hafter c (List.mem_reverse.1 hc)
  have hhead : ∀ c, core.reverse.head? = some c → isBlank c = false := by
    intro c hc
    rw [List.head?_reverse] at hc
    exact hlast c hc
  rw [trimEnd, List.reverse_append, dropWhile_isBlank_append hreverse hhead, List.reverse_reverse]

theorem Trims.trim_eq (h : Trims text core) : trim text = core := by
  obtain ⟨before, after, rfl, hbefore, hafter⟩ := h.split
  cases core with
  | nil =>
    -- There are only blanks, and all of them go at once.
    have hall : AllBlank (before ++ [] ++ after) := by
      rw [List.append_nil]
      exact hbefore.append hafter
    rw [trim, trimStart, List.dropWhile_eq_nil_iff.2 hall]
    rfl
  | cons c core =>
    have hhead : ∀ d, (c :: core ++ after).head? = some d → isBlank d = false := h.first
    rw [trim, trimStart, List.append_assoc, dropWhile_isBlank_append hbefore hhead,
      trimEnd_append hafter h.last]

theorem trims_trim (text : Text) : Trims text (trim text) := by
  have hend : ∀ t : Text, trimEnd t = t.rdropWhile isBlank := fun _ => rfl
  refine ⟨⟨text.takeWhile isBlank, (trimStart text).rtakeWhile isBlank, ?_, ?_, ?_⟩, ?_, ?_⟩
  · rw [List.append_assoc, trim, hend, List.rdropWhile_append_rtakeWhile, trimStart,
      List.takeWhile_append_dropWhile]
  · exact fun c hc => List.mem_takeWhile_imp hc
  · exact fun c hc => List.mem_rtakeWhile_imp hc
  · intro c hc
    -- What trimming leaves starts where the blanks in front end.
    obtain ⟨more, hmore⟩ := List.rdropWhile_prefix isBlank (trimStart text)
    obtain ⟨rest, hrest⟩ := List.head?_eq_some_iff.1 hc
    have hhead := List.head?_dropWhile_not isBlank text
    have hstart : text.dropWhile isBlank = c :: (rest ++ more) := by
      rw [← List.cons_append, ← hrest]
      exact hmore.symm
    rw [hstart] at hhead
    simpa using hhead
  · intro c hc
    have hne : (trimStart text).rdropWhile isBlank ≠ [] := by
      intro hnil
      rw [trim, hend, hnil] at hc
      cases hc
    have hlast := List.rdropWhile_last_not isBlank (trimStart text) hne
    rw [trim, hend, List.getLast?_eq_some_getLast hne, Option.some.injEq] at hc
    rw [hc] at hlast
    exact Bool.eq_false_iff.2 hlast

/-- More blanks around a text leave its core as it is. -/
theorem Trims.surround {before after : Text} (h : Trims text core) (hbefore : AllBlank before)
    (hafter : AllBlank after) : Trims (before ++ text ++ after) core := by
  obtain ⟨front, back, rfl, hfront, hback⟩ := h.split
  refine ⟨⟨before ++ front, back ++ after, ?_, hbefore.append hfront, hback.append hafter⟩,
    h.first, h.last⟩
  simp only [List.append_assoc]

/-- A text without blanks at its ends is its own core. -/
theorem trims_self (hfirst : ∀ c, text.head? = some c → isBlank c = false)
    (hlast : ∀ c, text.getLast? = some c → isBlank c = false) : Trims text text := by
  refine ⟨⟨[], [], (List.append_nil text).symm, ?_, ?_⟩, hfirst, hlast⟩
  · exact fun c hc => absurd hc List.not_mem_nil
  · exact fun c hc => absurd hc List.not_mem_nil

/-- **A text has one core**, the one that trimming leaves. -/
theorem trim_eq_iff : trim text = core ↔ Trims text core :=
  ⟨fun h => h ▸ trims_trim text, Trims.trim_eq⟩

end EnvTemplates.Text
