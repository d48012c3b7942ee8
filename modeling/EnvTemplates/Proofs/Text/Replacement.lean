import Mathlib.Data.List.Infix
import EnvTemplates.Text.Replace

/-!
# How replacement goes through a text

`replaceToken` is defined by cutting a text and joining the pieces. Proofs about it go through the
text from left to right instead, by three equations: at the end of the text nothing happens, where
the token stands it is replaced, and any other character is kept.

    replaceToken_nil     replaceToken_append     replaceToken_cons

`replacement_induction` is the induction that follows them, a case of the one along any cut
(`cut_induction`). The last section counts the places at which a text starts inside of another one
(`occurrences`) and says what a replacement does to them: the occurrences of a text that the
replaced token cannot overlap all stay (`occurrences_le_replaceToken`), and the token itself is gone
if the value cannot become a part of it (`not_infix_replaceToken`).
-/

namespace EnvTemplates

/-! ### Occurrence as a block -/

/-- `occursIn` decides whether a list is a contiguous block of another one. -/
theorem occursIn_iff {α : Type} [DecidableEq α] {part : List α} :
    ∀ {l : List α}, occursIn part l = true ↔ part <:+: l
  | [] => by simp [occursIn, List.isEmpty_iff]
  | a :: rest => by
    rw [occursIn, Bool.or_eq_true, List.isPrefixOf_iff_prefix, occursIn_iff, List.infix_cons_iff]

namespace Text

/-! ### Cutting -/

/-- A text starts with another one up to a folding of characters if the folded texts do. -/
theorem startsWith_iff {fold : Char → Char} :
    ∀ {start text : Text}, startsWith fold start text = true ↔ start.map fold <+: text.map fold
  | [], _ => by simp [startsWith]
  | _ :: _, [] => by simp [startsWith]
  | a :: start, b :: text => by
    rw [startsWith, Bool.and_eq_true, beq_iff_eq, startsWith_iff, List.map_cons, List.map_cons,
      List.cons_prefix_cons]

/-- What is still to be passed over does not matter. -/
theorem cut_skip {fold : Char → Char} {token : Text} :
    ∀ (passed rest : Text), cut fold token passed.length (passed ++ rest) = cut fold token 0 rest
  | [], _ => rfl
  | _ :: passed, rest => by
    rw [List.length_cons, List.cons_append, cut]
    exact cut_skip passed rest

theorem cut_ne_nil (fold : Char → Char) (token : Text) :
    ∀ (skip : Nat) (text : Text), cut fold token skip text ≠ []
  | _, [] => by simp [cut]
  | skip + 1, _ :: rest => by
    rw [cut]
    exact cut_ne_nil fold token skip rest
  | 0, c :: rest => by
    rw [cut]
    split
    · simp
    · split <;> simp

/-- Where an occurrence stands, a piece ends and the cut goes on behind the occurrence. -/
theorem cut_append {fold : Char → Char} {token found : Text} (hne : token ≠ [])
    (hfound : found.map fold = token.map fold) (rest : Text) :
    cut fold token 0 (found ++ rest) = [] :: cut fold token 0 rest := by
  have hlen : found.length = token.length := by
    simpa using congrArg List.length hfound
  cases found with
  | nil => exact absurd (List.length_eq_zero_iff.1 hlen.symm) hne
  | cons c found =>
    -- The cut looks at the first character only, and passes over the others.
    have hstart : startsWith fold token (c :: (found ++ rest)) = true := by
      rw [startsWith_iff, ← List.cons_append, List.map_append, hfound]
      exact List.prefix_append _ _
    have hskip : token.length - 1 = found.length := by
      rw [← hlen, List.length_cons]
      rfl
    rw [List.cons_append, cut, if_pos hstart, hskip, cut_skip]

/-- Where no occurrence starts, the character goes to the current piece. -/
theorem cut_cons {fold : Char → Char} {token : Text} {c : Char} {rest : Text}
    (h : startsWith fold token (c :: rest) = false) :
    ∃ piece more, cut fold token 0 rest = piece :: more ∧
      cut fold token 0 (c :: rest) = (c :: piece) :: more := by
  obtain ⟨piece, more, hcut⟩ := List.exists_cons_of_ne_nil (cut_ne_nil fold token 0 rest)
  refine ⟨piece, more, hcut, ?_⟩
  rw [cut, if_neg (by simp [h]), hcut]

/-- Induction along a cut: through a text from left to right, an occurrence of the token or a single
character at a time. -/
theorem cut_induction {token : Text} {motive : Text → Prop} (fold : Char → Char)
    (hne : token ≠ []) (nil : motive [])
    (found : ∀ occurrence rest, occurrence.map fold = token.map fold → motive rest →
      motive (occurrence ++ rest))
    (kept : ∀ c rest, ¬ token.map fold <+: (c :: rest).map fold → motive rest →
      motive (c :: rest)) :
    ∀ text, motive text := by
  intro text
  -- Strong induction on the length, since an occurrence takes away several characters at once.
  induction hn : text.length using Nat.strongRecOn generalizing text with
  | _ n ih =>
    by_cases hstart : token.map fold <+: text.map fold
    · obtain ⟨after, hafter⟩ := hstart
      obtain ⟨occurrence, rest, rfl, hsame, -⟩ := List.map_eq_append_iff.1 hafter.symm
      have hpos : 0 < occurrence.length := by
        have hlen := congrArg List.length hsame
        rw [List.length_map, List.length_map] at hlen
        rw [hlen]
        exact List.length_pos_iff.2 hne
      have hlt : rest.length < n := by
        rw [← hn, List.length_append]
        omega
      exact found occurrence rest hsame (ih _ hlt rest rfl)
    · cases text with
      | nil => exact nil
      | cons c rest =>
        have hlt : rest.length < n := by
          rw [← hn, List.length_cons]
          omega
        exact kept c rest hstart (ih _ hlt rest rfl)

/-- A cut takes all characters from the text. -/
theorem mem_of_mem_cut {fold : Char → Char} {token : Text} {c : Char} :
    ∀ {skip : Nat} {text piece : Text}, piece ∈ cut fold token skip text → c ∈ piece → c ∈ text
  | _, [], piece, hpiece, hc => by
    rw [cut, List.mem_singleton] at hpiece
    rw [hpiece] at hc
    exact hc
  | skip + 1, _ :: rest, piece, hpiece, hc => by
    rw [cut] at hpiece
    exact List.mem_cons_of_mem _ (mem_of_mem_cut hpiece hc)
  | 0, d :: rest, piece, hpiece, hc => by
    cases hstart : startsWith fold token (d :: rest) with
    | true =>
      rw [cut, if_pos hstart] at hpiece
      rcases List.mem_cons.1 hpiece with rfl | hpiece
      · exact absurd hc List.not_mem_nil
      · exact List.mem_cons_of_mem _ (mem_of_mem_cut hpiece hc)
    | false =>
      obtain ⟨first, more, hcut, hcons⟩ := cut_cons hstart
      have hrest : ∀ p ∈ first :: more, c ∈ p → c ∈ rest := by
        intro p hp
        rw [← hcut] at hp
        exact mem_of_mem_cut hp
      rw [hcons] at hpiece
      rcases List.mem_cons.1 hpiece with rfl | hpiece
      · rcases List.mem_cons.1 hc with rfl | hc
        · exact List.mem_cons_self
        · exact List.mem_cons_of_mem _ (hrest first List.mem_cons_self hc)
      · exact List.mem_cons_of_mem _ (hrest piece (List.mem_cons_of_mem _ hpiece) hc)

theorem mem_of_mem_pieces {fold : Char → Char} {token text piece : Text} {c : Char}
    (hpiece : piece ∈ pieces fold token text) (hc : c ∈ piece) : c ∈ text := by
  rw [pieces] at hpiece
  split at hpiece
  · rw [List.mem_singleton] at hpiece
    rw [hpiece] at hc
    exact hc
  · exact mem_of_mem_cut hpiece hc

theorem mem_of_mem_intercalate {c : Char} {value : Text} :
    ∀ {cuts : List Text}, c ∈ value.intercalate cuts → c ∈ value ∨ ∃ piece ∈ cuts, c ∈ piece
  | [], h => by
    rw [List.intercalate_nil] at h
    exact absurd h List.not_mem_nil
  | [piece], h => by
    rw [List.intercalate_singleton] at h
    exact Or.inr ⟨piece, List.mem_cons_self, h⟩
  | piece :: next :: more, h => by
    rw [List.intercalate_cons_cons, List.mem_append, List.mem_append] at h
    rcases h with (h | h) | h
    · exact Or.inr ⟨piece, List.mem_cons_self, h⟩
    · exact Or.inl h
    · refine (mem_of_mem_intercalate h).imp id ?_
      rintro ⟨p, hp, hc⟩
      exact ⟨p, List.mem_cons_of_mem _ hp, hc⟩

/-- Every character after a replacement was there before or is inserted by it. -/
theorem mem_of_mem_replaceIgnoringCase {c : Char} {haystack needle value : Text}
    (h : c ∈ replaceIgnoringCase haystack needle value) : c ∈ haystack ∨ c ∈ value := by
  rcases mem_of_mem_intercalate h with h | ⟨piece, hpiece, hc⟩
  · exact Or.inr h
  · exact Or.inl (mem_of_mem_pieces hpiece hc)

/-! ### Replacing -/

variable {token value : Text}

@[simp] theorem replaceToken_nil (hne : token ≠ []) : replaceToken token value [] = ⟨[], 0⟩ := by
  simp [replaceToken, pieces, hne, cut]

/-- Where the token stands it is replaced. -/
theorem replaceToken_append (hne : token ≠ []) (rest : Text) :
    replaceToken token value (token ++ rest) =
      ⟨value ++ (replaceToken token value rest).text,
        (replaceToken token value rest).count + 1⟩ := by
  obtain ⟨piece, more, hcut⟩ := List.exists_cons_of_ne_nil (cut_ne_nil id token 0 rest)
  simp only [replaceToken, pieces, if_neg hne, cut_append hne rfl, hcut,
    List.intercalate_cons_cons, List.nil_append, List.length_cons, Nat.add_sub_cancel]

/-- Where the token does not stand the character is kept. -/
theorem replaceToken_cons {c : Char} {rest : Text} (h : ¬ token <+: c :: rest) :
    replaceToken token value (c :: rest) =
      ⟨c :: (replaceToken token value rest).text, (replaceToken token value rest).count⟩ := by
  have hne : token ≠ [] := by
    rintro rfl
    exact h (List.nil_prefix)
  have hstart : startsWith id token (c :: rest) = false := by
    rw [← Bool.not_eq_true, startsWith_iff]
    simpa using h
  obtain ⟨piece, more, hcut, hcons⟩ := cut_cons hstart
  simp only [replaceToken, pieces, if_neg hne, hcut, hcons, List.intercalate_cons_cons_left,
    List.length_cons]

/-- Induction along a replacement: a cut at exact occurrences. -/
theorem replacement_induction {motive : Text → Prop} (hne : token ≠ []) (nil : motive [])
    (found : ∀ rest, motive rest → motive (token ++ rest))
    (kept : ∀ c rest, ¬ token <+: c :: rest → motive rest → motive (c :: rest)) :
    ∀ text, motive text := by
  apply cut_induction id hne nil
  · intro occurrence rest hsame
    rw [List.map_id, List.map_id] at hsame
    exact hsame ▸ found rest
  · intro c rest hstart
    rw [List.map_id, List.map_id] at hstart
    exact kept c rest hstart

/-- A pass that finds nothing leaves the text alone. -/
theorem text_replaceToken_of_count_eq_zero {text : Text}
    (h : (replaceToken token value text).count = 0) :
    (replaceToken token value text).text = text := by
  by_cases hne : token = []
  · simp [replaceToken, pieces, hne]
  · induction text using replacement_induction hne with
    | nil => simp [hne]
    | found rest _ => simp [replaceToken_append hne] at h
    | kept c rest hstart ih =>
      rw [replaceToken_cons hstart] at h ⊢
      rw [ih h]

/-- A pass finds nothing exactly where the token does not occur. -/
theorem count_replaceToken_eq_zero_iff (hne : token ≠ []) {text : Text} :
    (replaceToken token value text).count = 0 ↔ ¬ token <:+: text := by
  induction text using replacement_induction hne with
  | nil => simp [hne]
  | found rest _ =>
    have hin : token <:+: token ++ rest := (List.prefix_append token rest).isInfix
    simp [replaceToken_append hne, hin]
  | kept c rest hstart ih =>
    rw [replaceToken_cons hstart, ih, List.infix_cons_iff]
    simp [hstart]

theorem not_start_of_ne {first c : Char} (h : first ≠ c) (tail rest : Text) :
    ¬ first :: tail <+: c :: rest := by
  rw [List.cons_prefix_cons]
  intro hstart
  exact h hstart.1

/-- A stretch without the first character of the token is passed over. -/
theorem replaceToken_append_of_notMem {first : Char} {tail rest : Text} :
    ∀ {passed : Text}, first ∉ passed →
      replaceToken (first :: tail) value (passed ++ rest) =
        ⟨passed ++ (replaceToken (first :: tail) value rest).text,
          (replaceToken (first :: tail) value rest).count⟩
  | [], _ => rfl
  | c :: passed, h => by
    obtain ⟨hc, hpassed⟩ := not_or.1 (mt List.mem_cons.2 h)
    rw [List.cons_append, replaceToken_cons (not_start_of_ne hc tail _),
      replaceToken_append_of_notMem hpassed]
    rfl

/-! ### Counting occurrences -/

/-- The number of places of a text at which `part` starts. Places may overlap. -/
def occurrences (part text : Text) : Nat := text.tails.countP fun rest => part.isPrefixOf rest

@[simp] theorem occurrences_nil_right {part : Text} (hne : part ≠ []) :
    occurrences part [] = 0 := by
  cases part with
  | nil => exact absurd rfl hne
  | cons a part => rfl

theorem occurrences_cons_of_start {part : Text} {c : Char} {rest : Text}
    (h : part <+: c :: rest) : occurrences part (c :: rest) = occurrences part rest + 1 := by
  have hbool : part.isPrefixOf (c :: rest) = true := List.isPrefixOf_iff_prefix.2 h
  rw [occurrences, List.tails_cons, List.countP_cons_of_pos hbool]
  rfl

theorem occurrences_cons_of_not_start {part : Text} {c : Char} {rest : Text}
    (h : ¬ part <+: c :: rest) : occurrences part (c :: rest) = occurrences part rest := by
  have hbool : ¬ part.isPrefixOf (c :: rest) = true := by
    rw [List.isPrefixOf_iff_prefix]
    exact h
  rw [occurrences, List.tails_cons, List.countP_cons_of_neg hbool]
  rfl

/-- A text occurs somewhere exactly if it is a block of the other one. -/
theorem occurrences_pos_iff {part : Text} {text : Text} :
    0 < occurrences part text ↔ part <:+: text := by
  rw [occurrences, List.countP_pos_iff, List.infix_iff_prefix_suffix]
  constructor
  · rintro ⟨rest, hrest, hstart⟩
    exact ⟨rest, List.isPrefixOf_iff_prefix.1 hstart, (List.mem_tails _ _).1 hrest⟩
  · rintro ⟨rest, hstart, hrest⟩
    exact ⟨rest, (List.mem_tails _ _).2 hrest, List.isPrefixOf_iff_prefix.2 hstart⟩

/-- Text in front loses no occurrence. -/
theorem occurrences_le_append {part text : Text} :
    ∀ front : Text, occurrences part text ≤ occurrences part (front ++ text)
  | [] => Nat.le_refl _
  | c :: front => by
    have hle : occurrences part text ≤ occurrences part (front ++ text) :=
      occurrences_le_append front
    rw [List.cons_append]
    by_cases h : part <+: c :: (front ++ text)
    · rw [occurrences_cons_of_start h]
      omega
    · rw [occurrences_cons_of_not_start h]
      exact hle

/-! ### What a replacement does to occurrences

A text that starts with `first`, ends with `last` and has neither of them in between cannot overlap
another text of that shape without lying inside of it. -/

/-- A stretch without the first character of a text has no occurrence that starts in it. -/
theorem occurrences_append_of_notMem {first : Char} {tail rest : Text} :
    ∀ {passed : Text}, first ∉ passed →
      occurrences (first :: tail) (passed ++ rest) = occurrences (first :: tail) rest
  | [], _ => rfl
  | c :: passed, h => by
    obtain ⟨hc, hpassed⟩ := not_or.1 (mt List.mem_cons.2 h)
    rw [List.cons_append, occurrences_cons_of_not_start (not_start_of_ne hc tail _),
      occurrences_append_of_notMem hpassed]

/-- If the first character of a token does not come back in it, occurrences cannot overlap and a
pass replaces them all. -/
theorem count_replaceToken {first : Char} {tail value : Text} (h : first ∉ tail) (text : Text) :
    (replaceToken (first :: tail) value text).count = occurrences (first :: tail) text := by
  have hne : first :: tail ≠ [] := List.cons_ne_nil _ _
  induction text using replacement_induction hne with
  | nil => simp
  | found rest ih =>
    have hstart : first :: tail <+: first :: (tail ++ rest) := List.prefix_append _ rest
    rw [replaceToken_append hne, List.cons_append, occurrences_cons_of_start hstart,
      occurrences_append_of_notMem h, ih]
  | kept c rest hstart ih =>
    rw [replaceToken_cons hstart, occurrences_cons_of_not_start hstart, ih]

section Enclosed

variable {first last : Char} {middle value : Text}

/-- A stretch that ends with `last` has no occurrence that starts in it, unless one lies inside. -/
theorem occurrences_append_of_not_infix (hne : first ≠ last) (hlast : last ∉ middle)
    (rest : Text) : ∀ {stretch : Text}, ¬ first :: (middle ++ [last]) <:+: stretch →
      (∀ c, stretch.getLast? = some c → c = last) →
      occurrences (first :: (middle ++ [last])) (stretch ++ rest) =
        occurrences (first :: (middle ++ [last])) rest
  | [], _, _ => rfl
  | c :: stretch, hnot, hend => by
    have hstart : ¬ first :: (middle ++ [last]) <+: c :: (stretch ++ rest) := by
      intro hstart
      rw [← List.cons_append] at hstart
      rcases List.prefix_or_prefix_of_prefix hstart (List.prefix_append (c :: stretch) rest)
        with hin | hin
      · exact hnot hin.isInfix
      · -- the stretch would be a proper beginning of the text, whose `last` is at its end only
        rw [List.prefix_concat_iff] at hin
        rcases hin with heq | hin
        · exact hnot (heq ▸ List.infix_refl _)
        · have hmem : last ∈ c :: stretch := by
            have hget := hend _ (List.getLast?_eq_some_getLast (List.cons_ne_nil c stretch))
            exact hget ▸ List.getLast_mem _
          rcases List.mem_cons.1 (hin.subset hmem) with heq | hmid
          · exact hne heq.symm
          · exact hlast hmid
    have hnot' : ¬ first :: (middle ++ [last]) <:+: stretch := by
      intro h
      exact hnot (List.infix_cons h)
    have hend' : ∀ d, stretch.getLast? = some d → d = last := by
      intro d hd
      refine hend d ?_
      rw [List.getLast?_cons, hd]
      rfl
    rw [List.cons_append, occurrences_cons_of_not_start hstart,
      occurrences_append_of_not_infix hne hlast rest hnot' hend']

/-- Replacing a token loses no occurrence of a text that the token does not contain. -/
theorem occurrences_le_replaceToken (inner : Text) (hne : first ≠ last) (hfirst : first ∉ middle)
    (hlast : last ∉ middle) (hnot : ¬ first :: (middle ++ [last]) <:+: first :: (inner ++ [last]))
    (text : Text) :
    occurrences (first :: (middle ++ [last])) text ≤
      occurrences (first :: (middle ++ [last]))
        (replaceToken (first :: (inner ++ [last])) value text).text := by
  have htoken : first :: (inner ++ [last]) ≠ [] := List.cons_ne_nil _ _
  have htail : first ∉ middle ++ [last] := by
    simp [hfirst, hne]
  induction text using replacement_induction htoken with
  | nil => simp
  | found rest ih =>
    have hend : ∀ c, (first :: (inner ++ [last])).getLast? = some c → c = last := by
      intro c hc
      rw [← List.cons_append, List.getLast?_concat] at hc
      exact (Option.some.inj hc).symm
    -- No occurrence starts in the token, so those of the rest are all there are.
    rw [replaceToken_append htoken, occurrences_append_of_not_infix hne hlast rest hnot hend]
    exact Nat.le_trans ih (occurrences_le_append value)
  | kept c rest hstart ih =>
    rw [replaceToken_cons hstart]
    by_cases hother : first :: (middle ++ [last]) <+: c :: rest
    · obtain ⟨rfl, hrest⟩ := List.cons_prefix_cons.1 hother
      obtain ⟨rest', rfl⟩ := hrest
      -- The occurrence that starts here has no further `first`, so nothing in it is replaced.
      have hkept : first :: (middle ++ [last]) <+:
          first :: (replaceToken (first :: (inner ++ [last])) value
            (middle ++ [last] ++ rest')).text := by
        rw [replaceToken_append_of_notMem htail, List.cons_prefix_cons]
        exact ⟨rfl, List.prefix_append _ _⟩
      rw [occurrences_cons_of_start hother, occurrences_cons_of_start hkept]
      exact Nat.succ_le_succ ih
    · rw [occurrences_cons_of_not_start hother]
      exact Nat.le_trans ih (occurrences_le_append [c])

/-- What a replacement cannot have made was there before: a beginning of the new text that ends with
a character that is not in the value, and that the value does not lie in. -/
theorem prefix_of_prefix_replaceToken {token : Text} (htoken : token ≠ []) (hlast : last ∉ value)
    {text : Text} : ∀ {part : Text}, ¬ value <:+: part ++ [last] →
      part ++ [last] <+: (replaceToken token value text).text → part ++ [last] <+: text := by
  induction text using replacement_induction htoken with
  | nil =>
    intro part _ hstart
    simp [htoken] at hstart
  | found rest _ =>
    intro part hnot hstart
    rw [replaceToken_append htoken] at hstart
    rcases List.prefix_or_prefix_of_prefix hstart (List.prefix_append value _) with hin | hin
    · exact absurd (hin.subset (List.mem_append_right part List.mem_cons_self)) hlast
    · exact absurd hin.isInfix hnot
  | kept c rest hkept ih =>
    intro part hnot hstart
    rw [replaceToken_cons hkept] at hstart
    cases part with
    | nil => simpa using hstart
    | cons d part =>
      rw [List.cons_append, List.cons_prefix_cons] at hstart ⊢
      exact ⟨hstart.1, ih (fun hin => hnot (List.infix_cons hin)) hstart.2⟩

/-- **One pass is enough** for a value that has neither end of the token and does not lie in it. -/
theorem not_infix_replaceToken (hfirst : first ∉ value) (hlast : last ∉ value)
    (hnot : ¬ value <:+: first :: (middle ++ [last])) (text : Text) :
    ¬ first :: (middle ++ [last]) <:+:
      (replaceToken (first :: (middle ++ [last])) value text).text := by
  have htoken : first :: (middle ++ [last]) ≠ [] := List.cons_ne_nil _ _
  induction text using replacement_induction htoken with
  | nil => simp
  | found rest ih =>
    rw [← occurrences_pos_iff] at ih ⊢
    rwa [replaceToken_append htoken, occurrences_append_of_notMem hfirst]
  | kept c rest hkept ih =>
    rw [replaceToken_cons hkept, List.infix_cons_iff, not_or]
    refine ⟨fun hstart => hkept ?_, ih⟩
    rw [List.cons_prefix_cons] at hstart ⊢
    have hinner : ¬ value <:+: middle ++ [last] := fun hin => hnot (List.infix_cons hin)
    exact ⟨hstart.1, prefix_of_prefix_replaceToken htoken hlast hinner hstart.2⟩

end Enclosed

end Text

end EnvTemplates
