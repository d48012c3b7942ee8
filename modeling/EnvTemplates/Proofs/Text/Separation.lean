import Mathlib.Logic.ExistsUnique
import EnvTemplates.Proofs.Text.Pieces

/-!
# A text and what separates it

A token that is not empty separates a text into pieces:

    text  =  piece ++ token ++ piece ++ token ++ ... ++ piece

There is exactly one way to do so in which a piece with the token behind it contains the token only
at its end, and the last piece does not contain it (`existsUnique_separates`). A replacement joins
these pieces by the value instead (`Separates.replaceToken_eq`), so that joining them by the token
gives the text back.
-/

namespace EnvTemplates.Text

/-- A text contains a token nowhere but at its end. -/
def OnlyAtEnd (token text : Text) : Prop :=
  ∀ before after, text = before ++ token ++ after → after = []

/-- A token separates a text into the pieces of `front`, each with the token behind it, and `last`.
The tokens are the leftmost ones, and none is left. -/
structure Separates (token text : Text) (front : List Text) (last : Text) : Prop where
  text_eq : text = token.intercalate (front ++ [last])
  leftmost : ∀ piece ∈ front, OnlyAtEnd token (piece ++ token)
  free : ¬ token <:+: last

variable {token value text last : Text} {front : List Text}

theorem intercalate_cons_concat (separator piece : Text) (front : List Text) (last : Text) :
    separator.intercalate (piece :: front ++ [last]) =
      piece ++ separator ++ separator.intercalate (front ++ [last]) := by
  rw [List.cons_append, List.intercalate_cons_of_ne_nil (List.concat_ne_nil last front)]

/-! ### The cut at exact occurrences -/

theorem Separates.cuts (h : Separates token text front last) :
    Cuts id token text (front ++ [last]) := by
  obtain ⟨rfl, hleftmost, hfree⟩ := h
  induction front with
  | nil =>
    rw [List.nil_append, List.intercalate_singleton]
    exact Cuts.last (by simpa using hfree)
  | cons piece front ih =>
    obtain ⟨hpiece, hfront⟩ := List.forall_mem_cons.1 hleftmost
    rw [intercalate_cons_concat]
    refine Cuts.found rfl ?_ (ih hfront)
    rw [List.map_id, List.map_id]
    exact hpiece

theorem Cuts.separates {ps : List Text} (h : Cuts id token text ps) :
    ∃ front last, ps = front ++ [last] ∧ Separates token text front last := by
  induction h with
  | @last piece hfree =>
    refine ⟨[], piece, rfl, ?_, fun p hp => absurd hp List.not_mem_nil, by simpa using hfree⟩
    rw [List.nil_append, List.intercalate_singleton]
  | @found piece occurrence rest more hsame hend _ ih =>
    obtain ⟨front, last, rfl, hrest⟩ := ih
    rw [List.map_id, List.map_id] at hsame
    rw [List.map_id, List.map_id, hsame] at hend
    refine ⟨piece :: front, last, rfl, ?_, ?_, hrest.free⟩
    · rw [intercalate_cons_concat, ← hrest.text_eq, hsame]
    · exact List.forall_mem_cons.2 ⟨hend, hrest.leftmost⟩

theorem separates_iff (hne : token ≠ []) :
    Separates token text front last ↔ pieces id token text = front ++ [last] := by
  constructor
  · exact fun h => (cuts_iff hne).1 h.cuts
  · intro h
    obtain ⟨front', last', hpieces, hcut⟩ := ((cuts_iff hne).2 h).separates
    obtain ⟨rfl, hlast⟩ := List.append_inj' hpieces rfl
    cases hlast
    exact hcut

/-- **A text is separated in one way**, by any token that is not empty. -/
theorem existsUnique_separates (hne : token ≠ []) (text : Text) :
    ∃! cut : List Text × Text, Separates token text cut.1 cut.2 := by
  obtain ⟨front, last, -, hcut⟩ := (cuts_cut hne text).separates
  refine ⟨(front, last), hcut, ?_⟩
  rintro ⟨front', last'⟩ hcut'
  rw [separates_iff hne] at hcut hcut'
  obtain ⟨rfl, hlast⟩ := List.append_inj' (hcut.symm.trans hcut') rfl
  cases hlast
  rfl

/-! ### Joining by something else -/

/-- A replacement joins the pieces by the value, and counts the places between them. -/
theorem Separates.replaceToken_eq (hne : token ≠ []) (h : Separates token text front last) :
    replaceToken token value text = ⟨value.intercalate (front ++ [last]), front.length⟩ := by
  simp only [replaceToken, (separates_iff hne).1 h, List.length_append, List.length_singleton,
    Nat.add_sub_cancel]

theorem replaceToken_of_empty (value text : Text) : replaceToken [] value text = ⟨text, 0⟩ := by
  simp [replaceToken, pieces]

/-- Replacing a token by itself changes nothing. -/
theorem text_replaceToken_self (token text : Text) :
    (replaceToken token token text).text = text := by
  by_cases hne : token = []
  · rw [hne, replaceToken_of_empty]
  · obtain ⟨⟨front, last⟩, hcut, -⟩ := existsUnique_separates hne text
    rw [hcut.replaceToken_eq hne]
    exact hcut.text_eq.symm

/-- A replacement by a value that has no character in common with the text can be undone. -/
theorem replaceToken_undo (hne : token ≠ []) (hvalue : value ≠ [])
    (happart : ∀ c ∈ value, c ∉ text) :
    replaceToken value token (replaceToken token value text).text =
      ⟨text, (replaceToken token value text).count⟩ := by
  induction text using replacement_induction hne with
  | nil => rw [replaceToken_nil hne, replaceToken_nil hvalue]
  | found rest ih =>
    have hrest : ∀ c ∈ value, c ∉ rest :=
      fun c hc hmem => happart c hc (List.mem_append_right token hmem)
    rw [replaceToken_append hne, replaceToken_append hvalue, ih hrest]
  | kept c rest hkept ih =>
    have hrest : ∀ d ∈ value, d ∉ rest :=
      fun d hd hmem => happart d hd (List.mem_cons_of_mem c hmem)
    -- No value starts with a character of the text.
    have hstart : ¬ value <+: c :: (replaceToken token value rest).text := by
      obtain ⟨first, tail, rfl⟩ := List.exists_cons_of_ne_nil hvalue
      refine not_start_of_ne ?_ tail _
      rintro rfl
      exact happart first List.mem_cons_self List.mem_cons_self
    rw [replaceToken_cons hkept, replaceToken_cons hstart, ih hrest]

/-- **A replacement goes from left to right, and takes what it can.** A text is separated by the
token in exactly one way. The replacement joins the pieces by the value, and its count is the number
of tokens between them. So it is positive if the token occurs at all, the token itself gives the
text back, and a value apart from the text can be replaced back. A token that is empty is replaced
nowhere. -/
theorem replaceToken_separated (token value text : Text) :
    (token ≠ [] →
      (∃! cut : List Text × Text, Separates token text cut.1 cut.2) ∧
      (∀ front last, Separates token text front last →
        replaceToken token value text = ⟨value.intercalate (front ++ [last]), front.length⟩) ∧
      (0 < (replaceToken token value text).count ↔ token <:+: text) ∧
      (replaceToken token token text).text = text ∧
      (value ≠ [] → (∀ c ∈ value, c ∉ text) →
        replaceToken value token (replaceToken token value text).text =
          ⟨text, (replaceToken token value text).count⟩)) ∧
    replaceToken [] value text = ⟨text, 0⟩ := by
  refine ⟨fun hne => ⟨existsUnique_separates hne text, ?_, ?_, ?_, ?_⟩,
    replaceToken_of_empty value text⟩
  · exact fun front last hcut => hcut.replaceToken_eq hne
  · rw [Nat.pos_iff_ne_zero, ne_eq, count_replaceToken_eq_zero_iff hne, not_not]
  · exact text_replaceToken_self token text
  · exact replaceToken_undo hne

/-- The occurrences of this token overlap. Of `aaa` the first two characters are replaced. -/
theorem replaceToken_separated_overlapping :
    Separates "aa".toList "aaabaa".toList [[], "ab".toList] [] ∧
      replaceToken "aa".toList "-".toList "aaabaa".toList = ⟨"-ab-".toList, 2⟩ ∧
      "aa".toList <:+: "aaabaa".toList ∧
      replaceToken "-".toList "aa".toList "-ab-".toList = ⟨"aaabaa".toList, 2⟩ := by
  have hne : "aa".toList ≠ [] := by decide
  have hcut : Separates "aa".toList "aaabaa".toList [[], "ab".toList] [] :=
    (separates_iff hne).2 (by decide)
  obtain ⟨-, hreplaced, hpos, -, hundo⟩ :=
    (replaceToken_separated "aa".toList "-".toList "aaabaa".toList).1 hne
  have honce : replaceToken "aa".toList "-".toList "aaabaa".toList = ⟨"-ab-".toList, 2⟩ :=
    hreplaced _ _ hcut
  have hback := hundo (by decide) (by simp)
  rw [honce] at hpos hback
  exact ⟨hcut, honce, hpos.1 (by decide), hback⟩

end EnvTemplates.Text
