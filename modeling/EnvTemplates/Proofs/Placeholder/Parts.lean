import Mathlib.Data.List.TakeWhile
import EnvTemplates.Placeholder
import EnvTemplates.Proofs.Text.Replacement
import EnvTemplates.Proofs.Text.Slice

/-!
# A text as characters and placeholders

The scanner goes through tokens. Proofs about templates want the template itself as a list of
parts, each a single character or a whole placeholder:

    text ──parts──▶ List Part ──flatten──▶ text        (`flatten_parts`)

`parts` looks for placeholders directly, without tokens, and `scan_eq_spans` says that the scanner
finds exactly those: `scan text` lists the spans of the holes among the parts.

`fillSpans` replaces the spans of placeholders by the values of their keys, all at once. On the
parts of a template it is the replacement of every hole that has a value (`fill_eq_flatten`).
-/

namespace EnvTemplates.Placeholder

/-! ### Written placeholders -/

/-- The text of the placeholder with the given key. -/
def written (key : Text) : Text := '$' :: '{' :: (key ++ ['}'])

/-- The names that the scanner takes as keys. -/
def IsKey (key : Text) : Prop := key ≠ [] ∧ ∀ c ∈ key, isKeyChar c = true

theorem isKey_dollar_notMem {key : Text} (h : IsKey key) : '$' ∉ key :=
  fun hmem => absurd (h.2 _ hmem) (by decide)

theorem isKey_brace_notMem {key : Text} (h : IsKey key) : '}' ∉ key :=
  fun hmem => absurd (h.2 _ hmem) (by decide)

theorem byteLength_written (key : Text) :
    Text.byteLength (written key) = Text.byteLength key + 3 := by
  have hdollar : Char.utf8Size '$' = 1 := by decide
  have hopen : Char.utf8Size '{' = 1 := by decide
  have hclose : Char.utf8Size '}' = 1 := by decide
  simp only [written, Text.byteLength_cons, Text.byteLength_append, Text.byteLength_nil, hdollar,
    hopen, hclose]
  omega

/-- A placeholder at the start of a text has its key up to the first closing brace. -/
theorem written_prefix_written {key other rest : Text} (hkey : '}' ∉ key) (hother : '}' ∉ other)
    (h : written key <+: written other ++ rest) : key = other := by
  obtain ⟨tail, htail⟩ := h
  simp only [written, List.cons_append, List.append_assoc, List.nil_append, List.cons.injEq,
    true_and] at htail
  -- Both keys are what stands before the first closing brace.
  have hcut : ∀ name after : Text, '}' ∉ name →
      (name ++ '}' :: after).takeWhile (· != '}') = name := by
    intro name after hname
    rw [List.takeWhile_append_of_pos]
    · simp
    · intro c hc
      rw [bne_iff_ne]
      rintro rfl
      exact hname hc
  rw [← hcut key tail hkey, htail, hcut other rest hother]

/-- The key of the placeholder that a text starts with. -/
def leadingKey? : Text → Option Text
  | '$' :: '{' :: rest =>
    if rest.takeWhile isKeyChar ≠ [] ∧ (rest.dropWhile isKeyChar).head? = some '}' then
      some (rest.takeWhile isKeyChar)
    else none
  | _ => none

theorem takeWhile_key_closing {key : Text} (h : ∀ c ∈ key, isKeyChar c = true) (rest : Text) :
    (key ++ '}' :: rest).takeWhile isKeyChar = key := by
  rw [List.takeWhile_append_of_pos h]
  simp [isKeyChar]

theorem dropWhile_key_closing {key : Text} (h : ∀ c ∈ key, isKeyChar c = true) (rest : Text) :
    (key ++ '}' :: rest).dropWhile isKeyChar = '}' :: rest := by
  rw [List.dropWhile_append_of_pos h]
  simp [isKeyChar]

theorem leadingKey?_written {key : Text} (h : IsKey key) (rest : Text) :
    leadingKey? (written key ++ rest) = some key := by
  have htext : written key ++ rest = '$' :: '{' :: (key ++ '}' :: rest) := by
    simp [written]
  rw [htext, leadingKey?, takeWhile_key_closing h.2, dropWhile_key_closing h.2,
    if_pos ⟨h.1, rfl⟩]

theorem exists_of_leadingKey? {text key : Text} (h : leadingKey? text = some key) :
    IsKey key ∧ ∃ rest, text = written key ++ rest := by
  unfold leadingKey? at h
  split at h
  · next rest =>
    split at h
    · next hkey =>
      cases h
      refine ⟨⟨hkey.1, fun c hc => List.mem_takeWhile_imp hc⟩, ?_⟩
      obtain ⟨tail, htail⟩ : ∃ tail, rest.dropWhile isKeyChar = '}' :: tail := by
        cases hdrop : rest.dropWhile isKeyChar with
        | nil => simp [hdrop] at hkey
        | cons c tail =>
          have hc : c = '}' := by simpa [hdrop] using hkey.2
          exact ⟨tail, by rw [hc]⟩
      refine ⟨tail, ?_⟩
      have hrest : rest = rest.takeWhile isKeyChar ++ '}' :: tail := by
        rw [← htail, List.takeWhile_append_dropWhile]
      simp only [written, List.cons_append, List.append_assoc, List.nil_append]
      rw [← hrest]
    · exact absurd h (by simp)
  · exact absurd h (by simp)

theorem leadingKey?_cons_of_ne {c : Char} (h : c ≠ '$') (rest : Text) :
    leadingKey? (c :: rest) = none := by
  cases hkey : leadingKey? (c :: rest) with
  | none => rfl
  | some key =>
    obtain ⟨-, tail, htext⟩ := exists_of_leadingKey? hkey
    exact absurd (List.cons.inj htext).1 h

/-! ### Parts -/

/-- A part of a template. -/
inductive Part where
  /-- A character that belongs to no placeholder. -/
  | char (c : Char)
  | hole (key : Text)
  deriving DecidableEq, Repr

namespace Part

/-- The text of a part. -/
def text : Part → Text
  | .char c => [c]
  | .hole key => written key

/-- The text that parts make up. -/
def flatten (ps : List Part) : Text := ps.flatMap text

@[simp] theorem flatten_nil : flatten [] = [] := rfl

@[simp] theorem flatten_char (c : Char) (ps : List Part) :
    flatten (.char c :: ps) = c :: flatten ps := rfl

@[simp] theorem flatten_hole (key : Text) (ps : List Part) :
    flatten (.hole key :: ps) = written key ++ flatten ps := rfl

@[simp] theorem flatten_append (ps qs : List Part) :
    flatten (ps ++ qs) = flatten ps ++ flatten qs := List.flatMap_append

@[simp] theorem flatten_chars (t : Text) : flatten (t.map .char) = t := by
  induction t with
  | nil => rfl
  | cons c t ih => rw [List.map_cons, flatten_char, ih]

/-- The placeholders among parts that start at a byte offset. -/
def spans : (offset : Nat) → List Part → List Placeholder
  | _, [] => []
  | offset, .char c :: ps => spans (offset + c.utf8Size) ps
  | offset, .hole key :: ps =>
    ⟨key, offset, offset + Text.byteLength (written key)⟩ ::
      spans (offset + Text.byteLength (written key)) ps

theorem spans_chars (t : Text) (ps : List Part) :
    ∀ offset, spans offset (t.map .char ++ ps) = spans (offset + Text.byteLength t) ps := by
  induction t with
  | nil =>
    intro offset
    rfl
  | cons c t ih =>
    intro offset
    rw [List.map_cons, List.cons_append, spans, ih, Text.byteLength_cons, Nat.add_assoc]

/-- The key of a placeholder. -/
def key? : Part → Option Text
  | .char _ => none
  | .hole key => some key

theorem map_key_spans (ps : List Part) :
    ∀ offset, (spans offset ps).map (·.key) = ps.filterMap key? := by
  induction ps with
  | nil =>
    intro offset
    rfl
  | cons p ps ih =>
    intro offset
    cases p with
    | char c => exact ih _
    | hole name => exact congrArg (name :: ·) (ih _)

/-- The keys of the placeholders found are those of the holes, one for one. -/
theorem countP_spans (key : Text) (ps : List Part) :
    ∀ offset, (spans offset ps).countP (fun p => p.key = key) = ps.count (.hole key) := by
  induction ps with
  | nil =>
    intro offset
    rfl
  | cons p ps ih =>
    intro offset
    cases p with
    | char c => rw [spans, ih, List.count_cons_of_ne (by simp)]
    | hole name =>
      by_cases h : name = key
      · subst h
        rw [spans, List.countP_cons_of_pos (by simp), ih, List.count_cons_self]
      · rw [spans, List.countP_cons_of_neg (by simp [h]), ih, List.count_cons_of_ne (by simp [h])]

end Part

/-- A text as characters and placeholders. -/
def parts : Text → List Part
  | [] => []
  | c :: rest =>
    match leadingKey? (c :: rest) with
    | some key => .hole key :: parts (rest.drop (key.length + 2))
    | none => .char c :: parts rest
termination_by text => text.length
decreasing_by
  · rw [List.length_drop, List.length_cons]
    omega
  · exact Nat.lt_succ_self _

@[simp] theorem parts_nil : parts [] = [] := by
  rw [parts]

theorem parts_written {key : Text} (h : IsKey key) (rest : Text) :
    parts (written key ++ rest) = .hole key :: parts rest := by
  have htext : written key ++ rest = '$' :: ('{' :: (key ++ ['}']) ++ rest) := rfl
  have hlead : leadingKey? ('$' :: ('{' :: (key ++ ['}']) ++ rest)) = some key :=
    leadingKey?_written h rest
  have hdrop : ('{' :: (key ++ ['}']) ++ rest).drop (key.length + 2) = rest := by
    rw [List.drop_append_of_le_length (by simp), List.drop_of_length_le (by simp), List.nil_append]
  rw [htext, parts, hlead]
  simp only [hdrop]

theorem parts_cons {c : Char} {rest : Text} (h : leadingKey? (c :: rest) = none) :
    parts (c :: rest) = .char c :: parts rest := by
  rw [parts, h]

/-- Induction along the parts of a template. -/
theorem template_induction {motive : Text → Prop} (nil : motive [])
    (hole : ∀ key rest, IsKey key → motive rest → motive (written key ++ rest))
    (char : ∀ c rest, leadingKey? (c :: rest) = none → motive rest → motive (c :: rest)) :
    ∀ text, motive text := by
  intro text
  induction hn : text.length using Nat.strongRecOn generalizing text with
  | _ n ih =>
    cases text with
    | nil => exact nil
    | cons c rest =>
      cases hkey : leadingKey? (c :: rest) with
      | none =>
        have hlt : rest.length < n := by
          rw [← hn, List.length_cons]
          omega
        exact char c rest hkey (ih _ hlt rest rfl)
      | some key =>
        obtain ⟨hkey', tail, htext⟩ := exists_of_leadingKey? hkey
        have hlt : tail.length < n := by
          rw [← hn, htext, List.length_append, written, List.length_cons]
          omega
        rw [htext]
        exact hole key tail hkey' (ih _ hlt tail rfl)

@[simp] theorem flatten_parts (text : Text) : Part.flatten (parts text) = text := by
  induction text using template_induction with
  | nil => simp
  | hole key rest hkey ih => rw [parts_written hkey, Part.flatten_hole, ih]
  | char c rest hc ih => rw [parts_cons hc, Part.flatten_char, ih]

/-- The holes of a template have keys. -/
theorem isKey_of_hole_mem_parts {key text : Text} (h : Part.hole key ∈ parts text) :
    IsKey key := by
  induction text using template_induction with
  | nil => simp at h
  | hole name rest hname ih =>
    rw [parts_written hname] at h
    rcases List.mem_cons.1 h with heq | h
    · cases heq
      exact hname
    · exact ih h
  | char c rest hc ih =>
    rw [parts_cons hc] at h
    rcases List.mem_cons.1 h with heq | h
    · cases heq
    · exact ih h

/-- The holes of a template are the placeholders that occur in it. -/
theorem hole_mem_parts_iff {key text : Text} :
    Part.hole key ∈ parts text ↔ IsKey key ∧ written key <:+: text := by
  constructor
  · intro hmem
    obtain ⟨before, after, hparts⟩ := List.append_of_mem hmem
    refine ⟨isKey_of_hole_mem_parts hmem, Part.flatten before, Part.flatten after, ?_⟩
    rw [← flatten_parts text, hparts, Part.flatten_append, Part.flatten_hole, List.append_assoc]
  · rintro ⟨hkey, hinside⟩
    induction text using template_induction with
    | nil => exact absurd (List.infix_nil.1 hinside) (by simp [written])
    | hole name rest hname ih =>
      rw [parts_written hname]
      have htext : written name ++ rest = '$' :: (('{' :: (name ++ ['}'])) ++ rest) := rfl
      rw [htext, List.infix_cons_iff] at hinside
      rcases hinside with hstart | hlater
      · have heq : key = name := written_prefix_written (isKey_brace_notMem hkey)
          (isKey_brace_notMem hname) hstart
        rw [heq]
        exact List.mem_cons_self
      · -- Behind its first character, a placeholder has no dollar sign that another could start at.
        have hpassed : '$' ∉ '{' :: (name ++ ['}']) := by
          simp [isKey_dollar_notMem hname]
        rw [← Text.occurrences_pos_iff, written, Text.occurrences_append_of_notMem hpassed,
          Text.occurrences_pos_iff] at hlater
        exact List.mem_cons_of_mem _ (ih hlater)
    | char c rest hc ih =>
      rw [parts_cons hc]
      rcases List.infix_cons_iff.1 hinside with ⟨tail, htail⟩ | hlater
      · rw [← htail, leadingKey?_written hkey] at hc
        exact absurd hc (by simp)
      · exact List.mem_cons_of_mem _ (ih hlater)

/-- What stands before the end of a hole has the parts that come before. -/
theorem parts_flatten_of_hole {text key : Text} {after : List Part} :
    ∀ {before : List Part}, parts text = before ++ .hole key :: after →
      parts (Part.flatten (before ++ [.hole key])) = before ++ [.hole key] := by
  induction text using template_induction with
  | nil => simp
  | hole name rest hname ih =>
    intro before h
    rw [parts_written hname] at h
    cases before with
    | nil =>
      obtain ⟨rfl, -⟩ := by simpa using h
      simpa using parts_written hname []
    | cons p before =>
      obtain ⟨rfl, hrest⟩ := List.cons.inj h
      rw [List.cons_append, Part.flatten_hole, parts_written hname, ih hrest]
  | char c rest hc ih =>
    intro before h
    rw [parts_cons hc] at h
    cases before with
    | nil => exact absurd (List.cons.inj h).1 (by simp)
    | cons p before =>
      obtain ⟨rfl, hrest⟩ := List.cons.inj h
      -- A placeholder that starts in what is kept would have started in the whole text, too.
      have hlead : leadingKey? (c :: Part.flatten (before ++ [.hole key])) = none := by
        cases hkey : leadingKey? (c :: Part.flatten (before ++ [.hole key])) with
        | none => rfl
        | some name =>
          obtain ⟨hname, tail, htext⟩ := exists_of_leadingKey? hkey
          have hsplit : rest = Part.flatten (before ++ [.hole key]) ++ Part.flatten after := by
            have hparts : parts rest = (before ++ [.hole key]) ++ after := by
              rw [← List.append_cons]
              exact hrest
            rw [← Part.flatten_append, ← hparts, flatten_parts]
          rw [hsplit, ← List.cons_append, htext, List.append_assoc, leadingKey?_written hname] at hc
          exact absurd hc (by simp)
      rw [List.cons_append, Part.flatten_char, parts_cons hlead, ih hrest]

/-- A stretch without a dollar sign is made of characters. -/
theorem parts_append_of_notMem (rest : Text) :
    ∀ {stretch : Text}, '$' ∉ stretch → parts (stretch ++ rest) = stretch.map .char ++ parts rest
  | [], _ => rfl
  | c :: stretch, h => by
    obtain ⟨hc, hstretch⟩ := not_or.1 (mt List.mem_cons.2 h)
    rw [List.cons_append, parts_cons (leadingKey?_cons_of_ne (Ne.symm hc) _),
      parts_append_of_notMem rest hstretch]
    rfl

end EnvTemplates.Placeholder
