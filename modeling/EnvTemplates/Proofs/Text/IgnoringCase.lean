import EnvTemplates.Proofs.Text.AsciiCase
import EnvTemplates.Proofs.Text.Separation
import EnvTemplates.Proofs.Text.Slice

/-!
# Replacement up to ASCII case

An occurrence up to a folding of characters can differ from the token, so a text is taken apart into
its pieces and the occurrences between them:

    text  =  piece ++ occurrence ++ piece ++ occurrence ++ ... ++ piece

The leftmost occurrences do this in one way (`existsUnique_takenApart`). Folding everything turns
them into exact occurrences in the folded text, with the folded pieces between them
(`pieces_map`).

Small letters take as many bytes as capitals. So the occurrences can be looked for in the text in
small letters, and their byte offsets used to cut the text itself: `replaceAtOffsets?` does that,
never cuts inside of a character, and gives the same result (`replaceAtOffsets?_eq`).
-/

namespace EnvTemplates.Text

/-! ### Pieces and occurrences -/

/-- A text is taken apart at the leftmost occurrences of a token up to a folding: each piece of
`found` stands with the occurrence behind it, and `last` is what is left. -/
structure TakenApart (fold : Char → Char) (token text : Text) (found : List (Text × Text))
    (last : Text) : Prop where
  text_eq : text = (found.flatMap fun f => f.1 ++ f.2) ++ last
  same : ∀ f ∈ found, f.2.map fold = token.map fold
  leftmost : ∀ f ∈ found, OnlyAtEnd (token.map fold) ((f.1 ++ f.2).map fold)
  free : ¬ token.map fold <:+: last.map fold

variable {fold : Char → Char} {token text last : Text} {found : List (Text × Text)}

theorem TakenApart.cuts (h : TakenApart fold token text found last) :
    Cuts fold token text (found.map Prod.fst ++ [last]) := by
  obtain ⟨rfl, hsame, hleftmost, hfree⟩ := h
  induction found with
  | nil => exact Cuts.last hfree
  | cons f found ih =>
    obtain ⟨hf, hfound⟩ := List.forall_mem_cons.1 hsame
    obtain ⟨hend, hends⟩ := List.forall_mem_cons.1 hleftmost
    rw [List.flatMap_cons, List.append_assoc]
    exact Cuts.found hf hend (ih hfound hends)

theorem Cuts.takenApart {ps : List Text} (h : Cuts fold token text ps) :
    ∃ found last, TakenApart fold token text found last := by
  induction h with
  | @last piece hfree =>
    exact ⟨[], piece, rfl, fun f hf => absurd hf List.not_mem_nil,
      fun f hf => absurd hf List.not_mem_nil, hfree⟩
  | @found piece occurrence rest more hsame hend _ ih =>
    obtain ⟨found, last, rfl, hsames, hends, hfree⟩ := ih
    refine ⟨(piece, occurrence) :: found, last, ?_, List.forall_mem_cons.2 ⟨hsame, hsames⟩,
      List.forall_mem_cons.2 ⟨hend, hends⟩, hfree⟩
    rw [List.flatMap_cons]
    exact (List.append_assoc (piece ++ occurrence) _ last).symm

/-- All occurrences have the length of the token, so the pieces tell where they stand. -/
theorem eq_of_map_fst_eq {found' : List (Text × Text)}
    (hsame : ∀ f ∈ found, f.2.map fold = token.map fold)
    (hsame' : ∀ f ∈ found', f.2.map fold = token.map fold)
    (hpieces : found.map Prod.fst = found'.map Prod.fst)
    (htext : (found.flatMap fun f => f.1 ++ f.2) = found'.flatMap fun f => f.1 ++ f.2) :
    found = found' := by
  induction found generalizing found' with
  | nil => exact (List.map_eq_nil_iff.1 hpieces.symm).symm
  | cons f found ih =>
    cases found' with
    | nil => cases hpieces
    | cons f' found' =>
      obtain ⟨hf, hfound⟩ := List.forall_mem_cons.1 hsame
      obtain ⟨hf', hfound'⟩ := List.forall_mem_cons.1 hsame'
      obtain ⟨hpiece, hmore⟩ := List.cons.inj hpieces
      rw [List.flatMap_cons, List.flatMap_cons, hpiece, List.append_assoc, List.append_assoc,
        List.append_right_inj] at htext
      have hlength : f.2.length = f'.2.length := by
        simpa using congrArg List.length (hf.trans hf'.symm)
      obtain ⟨hoccurrence, hrest⟩ := List.append_inj htext hlength
      rw [Prod.ext hpiece hoccurrence, ih hfound hfound' hmore hrest]

theorem eq_of_pieces_eq {found' : List (Text × Text)} {last' : Text}
    (hsame : ∀ f ∈ found, f.2.map fold = token.map fold)
    (hsame' : ∀ f ∈ found', f.2.map fold = token.map fold)
    (hpieces : found.map Prod.fst ++ [last] = found'.map Prod.fst ++ [last'])
    (htext : (found.flatMap fun f => f.1 ++ f.2) ++ last =
      (found'.flatMap fun f => f.1 ++ f.2) ++ last') :
    found = found' ∧ last = last' := by
  obtain ⟨hfirsts, hlast⟩ := List.append_inj' hpieces rfl
  obtain rfl : last = last' := List.singleton_inj.1 hlast
  rw [List.append_left_inj] at htext
  exact ⟨eq_of_map_fst_eq hsame hsame' hfirsts htext, rfl⟩

/-- The pieces are those of the cut, and between them stand occurrences. -/
theorem takenApart_iff (hne : token ≠ []) :
    TakenApart fold token text found last ↔
      text = (found.flatMap fun f => f.1 ++ f.2) ++ last ∧
        (∀ f ∈ found, f.2.map fold = token.map fold) ∧
        pieces fold token text = found.map Prod.fst ++ [last] := by
  constructor
  · exact fun h => ⟨h.text_eq, h.same, (cuts_iff hne).1 h.cuts⟩
  · rintro ⟨htext, hsame, hpieces⟩
    obtain ⟨found', last', h⟩ := ((cuts_iff hne).2 hpieces).takenApart
    rw [(cuts_iff hne).1 h.cuts] at hpieces
    obtain ⟨rfl, rfl⟩ := eq_of_pieces_eq h.same hsame hpieces (h.text_eq.symm.trans htext)
    exact h

/-- **A text is taken apart in one way**, by any token that is not empty. -/
theorem existsUnique_takenApart (hne : token ≠ []) (text : Text) :
    ∃! parts : List (Text × Text) × Text, TakenApart fold token text parts.1 parts.2 := by
  have hcuts : Cuts fold token text (cut fold token 0 text) := cuts_cut hne text
  obtain ⟨found, last, h⟩ := hcuts.takenApart
  refine ⟨(found, last), h, ?_⟩
  rintro ⟨found', last'⟩ h'
  have hpieces := ((takenApart_iff hne).1 h').2.2.symm.trans ((takenApart_iff hne).1 h).2.2
  obtain ⟨rfl, rfl⟩ := eq_of_pieces_eq h'.same h.same hpieces (h'.text_eq.symm.trans h.text_eq)
  rfl

theorem TakenApart.replaceIgnoringCase_eq {needle haystack value : Text} (hne : needle ≠ [])
    (h : TakenApart Char.toLower needle haystack found last) :
    replaceIgnoringCase haystack needle value = (found.flatMap fun f => f.1 ++ value) ++ last := by
  rw [replaceIgnoringCase, (cuts_iff hne).1 h.cuts]
  clear h
  induction found with
  | nil =>
    rw [List.map_nil, List.nil_append, List.intercalate_singleton]
    rfl
  | cons f found ih =>
    rw [List.map_cons, intercalate_cons_concat, ih, List.flatMap_cons]
    exact (List.append_assoc (f.1 ++ value) _ last).symm

/-! ### Folding the text -/

/-- A cut depends on the token only up to folding. -/
theorem Cuts.of_map_eq {token' : Text} {ps : List Text} (hsame : token'.map fold = token.map fold)
    (h : Cuts fold token text ps) : Cuts fold token' text ps := by
  induction h with
  | last hfree =>
    rw [← hsame] at hfree
    exact Cuts.last hfree
  | found hoccurrence hend _ ih =>
    rw [← hsame] at hoccurrence hend
    exact Cuts.found hoccurrence hend ih

/-- The occurrences are the exact ones in the folded text. -/
theorem Cuts.map {ps : List Text} (h : Cuts fold token text ps) :
    Cuts id (token.map fold) (text.map fold) (ps.map (List.map fold)) := by
  induction h with
  | last hfree =>
    apply Cuts.last
    rw [List.map_id, List.map_id]
    exact hfree
  | @found piece occurrence rest more hsame hend _ ih =>
    rw [List.map_append, List.map_append, List.map_cons]
    refine Cuts.found (by rw [hsame]) ?_ ih
    rw [List.map_id, List.map_id, ← List.map_append]
    exact hend

theorem pieces_map (hne : token ≠ []) (text : Text) :
    pieces id (token.map fold) (text.map fold) =
      (pieces fold token text).map (List.map fold) := by
  have hne' : token.map fold ≠ [] := mt List.map_eq_nil_iff.1 hne
  exact (cuts_iff hne').1 ((cuts_iff hne).2 rfl).map

theorem map_intercalate (f : Char → Char) (separator : Text) : ∀ ps : List Text,
    (separator.intercalate ps).map f = (separator.map f).intercalate (ps.map (List.map f))
  | [] => rfl
  | [piece] => by simp only [List.intercalate_singleton, List.map_cons, List.map_nil]
  | piece :: next :: more => by
    rw [List.intercalate_cons_cons, List.map_append, List.map_append,
      map_intercalate f separator (next :: more)]
    simp only [List.map_cons, List.intercalate_cons_cons]

/-! ### Byte offsets -/

/-- The byte offsets at which the tokens between some pieces start, where the first piece starts at
`offset` and a token takes `width` bytes. -/
def startsBetween (width : Nat) : (offset : Nat) → List Text → List Nat
  | _, [] => []
  | _, [_] => []
  | offset, piece :: next :: more =>
    let start := offset + byteLength piece
    start :: startsBetween width (start + width) (next :: more)

/-- The slices of a text from `offset` on, without the `width` bytes at each of `starts`, joined by
a value. -/
def splice? (text value : Text) (width : Nat) : (offset : Nat) → (starts : List Nat) → Option Text
  | offset, [] => slice? offset (byteLength text) text
  | offset, start :: starts => do
    let piece ← slice? offset start text
    let rest ← splice? text value width (start + width) starts
    return piece ++ value ++ rest

/-- Replacement by byte offsets: the occurrences are looked for in small letters, and the text
itself is cut at their offsets. There is no result if a cut would be inside of a character. -/
def replaceAtOffsets? (haystack needle value : Text) : Option Text :=
  let small := needle.map Char.toLower
  let starts := startsBetween (byteLength small) 0 (pieces id small (haystack.map Char.toLower))
  splice? haystack value (byteLength needle) 0 starts

/-- The cut of the small letters fits what is still to be replaced in the text. -/
theorem Cuts.splice?_eq {haystack needle value : Text} {ps : List Text}
    (h : Cuts Char.toLower needle text ps) : ∀ before : Text, haystack = before ++ text →
      splice? haystack value (byteLength needle) (byteLength before)
        (startsBetween (byteLength needle) (byteLength before)
          (ps.map (List.map Char.toLower))) = some (value.intercalate ps) := by
  induction h with
  | @last piece hfree =>
    rintro before rfl
    rw [List.map_cons, List.map_nil, startsBetween, splice?, slice?_eq_some_iff,
      List.intercalate_singleton]
    exact ⟨before, [], (List.append_nil _).symm, rfl, rfl⟩
  | @found piece occurrence rest more hsame hend hrest ih =>
    rintro before rfl
    obtain ⟨next, others, rfl⟩ := List.exists_cons_of_ne_nil hrest.ne_nil
    have hstart : byteLength before + byteLength (piece.map Char.toLower) =
        byteLength (before ++ piece) := by
      rw [byteLength_map_toLower, byteLength_append]
    have hwidth : byteLength (before ++ piece) + byteLength needle =
        byteLength (before ++ piece ++ occurrence) := by
      rw [byteLength_append _ occurrence, ← byteLength_map_toLower needle, ← hsame,
        byteLength_map_toLower]
    have hpiece : slice? (byteLength before) (byteLength (before ++ piece))
        (before ++ (piece ++ occurrence ++ rest)) = some piece :=
      slice?_eq_some_iff.2 ⟨before, occurrence ++ rest, by simp, rfl, rfl⟩
    have hmore := ih (before ++ piece ++ occurrence) (by simp)
    rw [List.map_cons] at hmore
    rw [List.map_cons, List.map_cons, startsBetween, hstart, splice?, hpiece, hwidth, hmore,
      List.intercalate_cons_cons]
    rfl

theorem replaceAtOffsets?_eq {needle : Text} (hne : needle ≠ []) (haystack value : Text) :
    replaceAtOffsets? haystack needle value = some (replaceIgnoringCase haystack needle value) := by
  have hcuts : Cuts Char.toLower needle haystack (pieces Char.toLower needle haystack) :=
    (cuts_iff hne).2 rfl
  rw [replaceAtOffsets?, byteLength_map_toLower, pieces_map hne]
  exact hcuts.splice?_eq [] rfl

/-- **Replacement up to ASCII case cuts a text at the leftmost occurrences**, and nowhere inside of
a character. What stands between the occurrences stays as it is. The case of the needle makes no
difference, and in small letters the result is that of exact replacement in small letters. -/
theorem replaceIgnoringCase_takenApart {needle : Text} (hne : needle ≠ [])
    (haystack value : Text) :
    replaceAtOffsets? haystack needle value = some (replaceIgnoringCase haystack needle value) ∧
    (∃! parts : List (Text × Text) × Text,
      TakenApart Char.toLower needle haystack parts.1 parts.2) ∧
    (∀ found last, TakenApart Char.toLower needle haystack found last →
      replaceIgnoringCase haystack needle value =
        (found.flatMap fun f => f.1 ++ value) ++ last) ∧
    (∀ needle', needle'.map Char.toLower = needle.map Char.toLower →
      replaceIgnoringCase haystack needle' value = replaceIgnoringCase haystack needle value) ∧
    (replaceIgnoringCase haystack needle value).map Char.toLower =
      (replaceToken (needle.map Char.toLower) (value.map Char.toLower)
        (haystack.map Char.toLower)).text := by
  refine ⟨replaceAtOffsets?_eq hne haystack value, existsUnique_takenApart hne haystack,
    fun found last h => h.replaceIgnoringCase_eq hne, fun needle' hsame => ?_, ?_⟩
  · have hne' : needle' ≠ [] := by
      rintro rfl
      exact hne (List.map_eq_nil_iff.1 hsame.symm)
    have hcuts : Cuts Char.toLower needle haystack (pieces Char.toLower needle haystack) :=
      (cuts_iff hne).2 rfl
    rw [replaceIgnoringCase, (cuts_iff hne').1 (hcuts.of_map_eq hsame), replaceIgnoringCase]
  · rw [replaceIgnoringCase, map_intercalate, replaceToken, pieces_map hne]

/-- Characters of several bytes stand on both sides, one of them a capital beyond ASCII, and the dot
between two markers belongs to the first of them. -/
theorem replaceIgnoringCase_takenApart_shared :
    TakenApart Char.toLower ".env.".toList "É.Env.eNV.ñ".toList
        [("É".toList, ".Env.".toList)] "eNV.ñ".toList ∧
      replaceAtOffsets? "É.Env.eNV.ñ".toList ".env.".toList "-Ü-".toList =
        some "É-Ü-eNV.ñ".toList ∧
      replaceIgnoringCase "É.Env.eNV.ñ".toList ".ENV.".toList "-Ü-".toList =
        "É-Ü-eNV.ñ".toList ∧
      (replaceToken ".env.".toList "-Ü-".toList "É.env.env.ñ".toList).text =
        "É-Ü-env.ñ".toList := by
  have hne : ".env.".toList ≠ [] := by decide
  have hparts : TakenApart Char.toLower ".env.".toList "É.Env.eNV.ñ".toList
      [("É".toList, ".Env.".toList)] "eNV.ñ".toList :=
    (takenApart_iff hne).2 (by decide)
  obtain ⟨hoffsets, -, hreplaced, hcase, hlower⟩ :=
    replaceIgnoringCase_takenApart hne "É.Env.eNV.ñ".toList "-Ü-".toList
  have honce : replaceIgnoringCase "É.Env.eNV.ñ".toList ".env.".toList "-Ü-".toList =
      "É-Ü-eNV.ñ".toList := hreplaced _ _ hparts
  rw [honce] at hoffsets hcase hlower
  exact ⟨hparts, hoffsets, hcase _ (by decide), hlower.symm⟩

end EnvTemplates.Text
