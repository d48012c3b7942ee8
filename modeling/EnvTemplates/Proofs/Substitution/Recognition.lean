import EnvTemplates.Proofs.Substitution.Simultaneous

/-!
# Scanning and replacing find the same placeholders

The scanner reads a text as tokens; a replacement searches it for a token's text. On every text, a
replacement of the token of a key goes to exactly the placeholders that the scanner finds with this
key (`replaceToken_written`). So a key was replaced if and only if it is among the keys of the text,
and a pass with a value that cannot become a part of a placeholder takes its key away and no other
one.
-/

namespace EnvTemplates.Substitution

open Placeholder

variable {key other value text : Text}

/-- **A pass over a text fills the holes of its key** and counts them, whatever stands around
them. -/
theorem replaceToken_written (hkey : IsKey key) (value text : Text) :
    Text.replaceToken (written key) value text =
      ⟨Part.flatten ((parts text).flatMap (Part.filled (only key value))),
        (parts text).count (.hole key)⟩ := by
  have hne : written key ≠ [] := List.cons_ne_nil _ _
  induction text using template_induction with
  | nil =>
    rw [Text.replaceToken_nil hne, parts_nil]
    rfl
  | hole name rest hname ih =>
    rw [parts_written hname, List.flatMap_cons, Part.flatten_append, Part.flatten_filled_hole]
    by_cases hsame : name = key
    · subst hsame
      rw [Text.replaceToken_append hne, ih, List.count_cons_self, only, if_pos rfl]
      rfl
    · rw [replaceToken_written_append value hname (isKey_brace_notMem hkey) hsame, ih,
        List.count_cons_of_ne (by simpa using hsame), only, if_neg hsame]
      rfl
  | char c rest hc ih =>
    have hstart : ¬ written key <+: c :: rest := by
      rintro ⟨tail, htail⟩
      rw [← htail, leadingKey?_written hkey] at hc
      cases hc
    rw [Text.replaceToken_cons hstart, ih, parts_cons hc, List.count_cons_of_ne (by simp)]
    rfl

/-- A placeholder lies in no placeholder of another key. -/
theorem not_written_infix_written (hkey : IsKey key) (hother : IsKey other) (hne : other ≠ key) :
    ¬ written other <:+: written key := by
  intro hinside
  have hparts : parts (written key) = [.hole key] := by
    have h := parts_written hkey []
    rwa [List.append_nil, parts_nil] at h
  have hmem := hole_mem_parts_iff.2 ⟨hother, hinside⟩
  rw [hparts, List.mem_singleton] at hmem
  exact hne (Part.hole.inj hmem)

/-- A pass takes no other key away. -/
theorem mem_scanKeys_replaceToken (hkey : IsKey key) (hother : other ∈ scanKeys text)
    (hne : other ≠ key) (value : Text) :
    other ∈ scanKeys (Text.replaceToken (written key) value text).text := by
  obtain ⟨hisKey, hinside⟩ := mem_scanKeys_iff.1 hother
  refine mem_scanKeys_iff.2 ⟨hisKey, ?_⟩
  have hkept := @Text.occurrences_le_replaceToken '$' '}' ('{' :: other) value
    ('{' :: key) (by decide) (by simp [isKey_dollar_notMem hisKey])
    (by simp [isKey_brace_notMem hisKey]) (not_written_infix_written hkey hisKey hne) text
  have hpos := Text.occurrences_pos_iff.2 hinside
  exact Text.occurrences_pos_iff.1 (Nat.lt_of_lt_of_le hpos hkept)

/-- **Scanning and replacing agree on what a placeholder is.** A pass with the token of a key makes
as many replacements as the scanner finds placeholders with the key, at their spans, and makes one
if and only if the key is among those of the text. With a value that has neither a dollar sign nor a
closing brace and does not lie in the token, the key is gone afterwards and all others are left. -/
theorem scan_agrees_with_replaceToken (hkey : IsKey key) (value text : Text) :
    (Text.replaceToken (written key) value text).count =
        (scan text).countP (fun p => p.key = key) ∧
    (Text.replaceToken (written key) value text).text = fill (only key value) text ∧
    (key ∈ scanKeys text ↔ 0 < (Text.replaceToken (written key) value text).count) ∧
    ('$' ∉ value → '}' ∉ value → ¬ value <:+: written key →
      key ∉ scanKeys (Text.replaceToken (written key) value text).text ∧
      ∀ other ∈ scanKeys text, other ≠ key →
        other ∈ scanKeys (Text.replaceToken (written key) value text).text) := by
  have hpass := replaceToken_written hkey value text
  refine ⟨?_, ?_, ?_, fun hdollar hbrace hvalue => ⟨fun hmem => ?_, fun other hother hne => ?_⟩⟩
  · rw [hpass, countP_scan]
  · rw [hpass, fill_eq_flatten]
  · rw [hpass, List.count_pos_iff, hole_mem_parts_iff, mem_scanKeys_iff]
  · -- One pass is enough for such a value.
    have hgone : ¬ written key <:+: (Text.replaceToken (written key) value text).text :=
      @Text.not_infix_replaceToken '$' '}' ('{' :: key) value hdollar hbrace hvalue text
    exact hgone (mem_scanKeys_iff.1 hmem).2
  · exact mem_scanKeys_replaceToken hkey hother hne value

/-- Dollar signs in front of a placeholder, one placeholder inside of another, one of another key,
and one that is not closed. -/
def crowded : Text := "$$\x7bA\x7d$\x7b$\x7bA\x7d\x7d$\x7bB\x7d$\x7bA".toList

theorem scan_agrees_with_replaceToken_crowded :
    IsKey ['A'] ∧
      (Text.replaceToken (written ['A']) ['x'] crowded).count =
        (scan crowded).countP (fun p => p.key = ['A']) ∧
      (Text.replaceToken (written ['A']) ['x'] crowded).text =
        "$x$\x7bx\x7d$\x7bB\x7d$\x7bA".toList ∧
      ['A'] ∉ scanKeys (Text.replaceToken (written ['A']) ['x'] crowded).text ∧
      ['B'] ∈ scanKeys (Text.replaceToken (written ['A']) ['x'] crowded).text := by
  have hkey : IsKey ['A'] := ⟨by decide, List.forall_mem_singleton.2 rfl⟩
  obtain ⟨hcount, hfill, -, hgone⟩ := scan_agrees_with_replaceToken hkey ['x'] crowded
  have hvalue : ¬ ['x'] <:+: written ['A'] := by
    intro hinside
    exact absurd (hinside.subset List.mem_cons_self) (by decide)
  obtain ⟨hnot, hothers⟩ := hgone (by decide) (by decide) hvalue
  refine ⟨hkey, hcount, ?_, hnot, hothers _ ?_ (by decide)⟩
  · rw [hfill]
    cbv
  · have hkeys : scanKeys crowded = [['A'], ['B']] := by cbv
    rw [hkeys]
    decide

end EnvTemplates.Substitution
