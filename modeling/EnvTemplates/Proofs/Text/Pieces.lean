import EnvTemplates.Proofs.Text.Replacement

/-!
# The cut of a text at a token

A text is cut at the leftmost, non-overlapping occurrences of a token, up to a folding of
characters:

    text  =  piece ++ occurrence ++ piece ++ occurrence ++ ... ++ piece

Each piece with the occurrence behind it contains the token only at its end, and the last piece does
not contain it. `Cuts` says this without the function that cuts. For a token that is not empty there
is exactly one such cut, the one that `pieces` finds (`cuts_iff`).
-/

namespace EnvTemplates.Text

/-- A text is cut into pieces at the leftmost, non-overlapping occurrences of a token. -/
inductive Cuts (fold : Char → Char) (token : Text) : Text → List Text → Prop
  | last {piece : Text} : ¬ token.map fold <:+: piece.map fold → Cuts fold token piece [piece]
  | found {piece occurrence rest : Text} {more : List Text} :
      occurrence.map fold = token.map fold →
      (∀ before after, (piece ++ occurrence).map fold = before ++ token.map fold ++ after →
        after = []) →
      Cuts fold token rest more →
      Cuts fold token (piece ++ occurrence ++ rest) (piece :: more)

variable {fold : Char → Char} {token text : Text}

/-! ### The function finds a cut -/

/-- A character at which no occurrence starts goes to the first piece. -/
theorem Cuts.cons {c : Char} {piece : Text} {more : List Text}
    (hkept : ¬ token.map fold <+: (c :: text).map fold) (h : Cuts fold token text (piece :: more)) :
    Cuts fold token (c :: text) ((c :: piece) :: more) := by
  cases h with
  | last hfree =>
    apply Cuts.last
    rw [List.map_cons, List.infix_cons_iff, not_or]
    exact ⟨hkept, hfree⟩
  | @found _ occurrence rest _ hsame hend hrest =>
    refine @Cuts.found fold token (c :: piece) occurrence rest more hsame ?_ hrest
    intro before after hsplit
    cases before with
    | nil =>
      -- The token would start at the character.
      refine absurd ?_ hkept
      rw [List.map_cons, List.map_append, ← List.cons_append, ← List.map_cons]
      rw [List.nil_append] at hsplit
      exact ⟨after ++ rest.map fold, by rw [← List.append_assoc, ← hsplit]; simp⟩
    | cons b before =>
      rw [List.cons_append, List.map_cons, List.cons_append, List.cons_append,
        List.cons.injEq] at hsplit
      exact hend before after hsplit.2

theorem cuts_cut (hne : token ≠ []) (text : Text) :
    Cuts fold token text (cut fold token 0 text) := by
  induction text using cut_induction fold hne with
  | nil =>
    rw [cut]
    exact Cuts.last (by simpa using hne)
  | found occurrence rest hsame ih =>
    rw [cut_append hne hsame]
    refine @Cuts.found fold token [] occurrence rest _ hsame ?_ ih
    intro before after hsplit
    have hlen := congrArg List.length hsplit
    rw [List.nil_append, hsame, List.length_append, List.length_append] at hlen
    exact List.eq_nil_of_length_eq_zero (by omega)
  | kept c rest hkept ih =>
    have hstart : startsWith fold token (c :: rest) = false := by
      rw [← Bool.not_eq_true, startsWith_iff]
      exact hkept
    obtain ⟨piece, more, hcut, hcons⟩ := cut_cons hstart
    rw [hcut] at ih
    rw [hcons]
    exact ih.cons hkept

/-! ### There is no other cut -/

theorem cut_of_free (hfree : ¬ token.map fold <:+: text.map fold) :
    cut fold token 0 text = [text] := by
  induction text with
  | nil => rfl
  | cons c rest ih =>
    rw [List.map_cons, List.infix_cons_iff, not_or] at hfree
    have hstart : startsWith fold token (c :: rest) = false := by
      rw [← Bool.not_eq_true, startsWith_iff]
      exact hfree.1
    obtain ⟨piece, more, hcut, hcons⟩ := cut_cons hstart
    rw [ih hfree.2] at hcut
    cases hcut
    exact hcons

/-- The first piece ends where the first occurrence starts. -/
theorem cut_append_append (hne : token ≠ []) {occurrence : Text}
    (hsame : occurrence.map fold = token.map fold) (rest : Text) : ∀ {piece : Text},
      (∀ before after, (piece ++ occurrence).map fold = before ++ token.map fold ++ after →
        after = []) →
      cut fold token 0 (piece ++ occurrence ++ rest) = piece :: cut fold token 0 rest
  | [], _ => cut_append hne hsame rest
  | c :: piece, hend => by
    have hstart : startsWith fold token (c :: (piece ++ occurrence ++ rest)) = false := by
      rw [← Bool.not_eq_true, startsWith_iff]
      intro hstart
      -- The token would lie before the end of the piece with its occurrence.
      have hshort : token.map fold <+: (c :: (piece ++ occurrence)).map fold := by
        refine List.prefix_of_prefix_length_le hstart ?_ ?_
        · exact (List.prefix_append (c :: (piece ++ occurrence)) rest).map fold
        · rw [← hsame, List.length_map, List.length_map, List.length_cons, List.length_append]
          omega
      obtain ⟨after, hafter⟩ := hshort
      have hnil := hend [] after (by rw [List.nil_append, hafter, List.cons_append])
      have hlen := congrArg List.length hafter
      rw [hnil, ← hsame] at hlen
      simp at hlen
      omega
    have hend' : ∀ before after,
        (piece ++ occurrence).map fold = before ++ token.map fold ++ after → after = [] := by
      intro before after hsplit
      apply hend (fold c :: before) after
      rw [List.cons_append, List.map_cons, hsplit]
      rfl
    obtain ⟨first, more, hcut, hcons⟩ := cut_cons hstart
    rw [cut_append_append hne hsame rest hend'] at hcut
    cases hcut
    exact hcons

theorem Cuts.cut_eq (hne : token ≠ []) {ps : List Text} (h : Cuts fold token text ps) :
    cut fold token 0 text = ps := by
  induction h with
  | last hfree => exact cut_of_free hfree
  | found hsame hend _ ih => rw [cut_append_append hne hsame _ hend, ih]

/-- **A text has one cut**, the one that is found. -/
theorem cuts_iff (hne : token ≠ []) {ps : List Text} :
    Cuts fold token text ps ↔ pieces fold token text = ps := by
  rw [pieces, if_neg hne]
  exact ⟨Cuts.cut_eq hne, fun h => h ▸ cuts_cut hne text⟩

/-! ### Joining the pieces -/

theorem Cuts.ne_nil {ps : List Text} (h : Cuts fold token text ps) : ps ≠ [] := by
  cases h <;> exact List.cons_ne_nil _ _

/-- Joining the pieces gives nothing only if there was nothing to cut. -/
theorem Cuts.intercalate_eq_nil_iff {ps : List Text} {separator : Text}
    (h : Cuts fold token text ps) (htoken : token ≠ []) (hseparator : separator ≠ []) :
    separator.intercalate ps = [] ↔ text = [] := by
  cases h with
  | last _ => rw [List.intercalate_singleton]
  | @found piece occurrence rest more hsame _ hrest =>
    have hoccurrence : occurrence ≠ [] := by
      rintro rfl
      exact htoken (List.map_eq_nil_iff.1 hsame.symm)
    obtain ⟨next, others, rfl⟩ := List.exists_cons_of_ne_nil hrest.ne_nil
    rw [List.intercalate_cons_cons]
    simp [hoccurrence, hseparator]

end EnvTemplates.Text
