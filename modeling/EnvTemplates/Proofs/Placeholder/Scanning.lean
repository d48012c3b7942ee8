import Mathlib.Data.List.Basic
import Mathlib.Data.List.Induction
import EnvTemplates.Proofs.Placeholder.Parts

/-!
# The scanner finds the holes of a template

`scan` reads a text as tokens and looks for an opening token, a key and a closing brace in a row.
`scan_eq_spans` says that what it finds are the holes among the `parts` of the text, each with its
span: splitting the text into tokens hides no placeholder and makes none up.

From there the distinct keys of a text (`mem_scanKeys_iff`), their order (`pairwise_scanKeys`), and
the simultaneous replacement of placeholders (`fill_eq_flatten`) are statements about parts.
-/

namespace EnvTemplates.Placeholder

/-! ### Tokens -/

theorem tokenize_key {c : Char} (h : isKeyChar c = true) (rest : Text) :
    tokenize (c :: rest) =
      .key (c :: rest.takeWhile isKeyChar) :: tokenize (rest.dropWhile isKeyChar) := by
  have hdollar : c ≠ '$' := by
    rintro rfl
    exact absurd h (by decide)
  have hclose : c ≠ '}' := by
    rintro rfl
    exact absurd h (by decide)
  rw [tokenize.eq_5 c rest (fun _ heq => absurd heq hdollar) hdollar hclose, if_pos h]

/-- A token stream that starts with a key was read from a text that starts with it. -/
theorem takeWhile_of_tokenize {text name : Text} {more : List Token}
    (h : tokenize text = .key name :: more) :
    name ≠ [] ∧ name = text.takeWhile isKeyChar ∧ more = tokenize (text.dropWhile isKeyChar) := by
  fun_cases tokenize text with
  | case1 | case2 | case3 | case4 => simp [tokenize] at h
  | case5 c rest _ _ _ hkey =>
    rw [tokenize_key hkey] at h
    cases h
    simp [hkey]
  | case6 c rest _ hdollar hclose hkey => simp [tokenize, hkey] at h

theorem head?_of_tokenize {text : Text} {more : List Token}
    (h : tokenize text = .closing :: more) : text.head? = some '}' := by
  fun_cases tokenize text with
  | case1 | case2 | case3 => simp [tokenize] at h
  | case4 => rfl
  | case5 c rest _ _ _ hkey => simp [tokenize, hkey] at h
  | case6 c rest _ _ _ hkey => simp [tokenize, hkey] at h

/-- A key with its closing brace is read as two tokens, whatever follows. -/
theorem tokenize_key_closing {key : Text} (h : IsKey key) (rest : Text) :
    tokenize (key ++ '}' :: rest) = .key key :: .closing :: tokenize rest := by
  obtain ⟨c, key, rfl⟩ := List.exists_cons_of_ne_nil h.1
  have hkey : ∀ d ∈ key, isKeyChar d = true := fun d hd => h.2 d (List.mem_cons_of_mem c hd)
  rw [List.cons_append, tokenize_key (h.2 c List.mem_cons_self), takeWhile_key_closing hkey,
    dropWhile_key_closing hkey, tokenize]

/-! ### Placeholders in a token stream -/

/-- A token other than an opening one starts no placeholder. -/
theorem placeholdersFrom_cons {token : Token} (h : token ≠ .opening) (offset : Nat)
    (rest : List Token) :
    placeholdersFrom offset (token :: rest) =
      placeholdersFrom (offset + Text.byteLength token.lexeme) rest := by
  rw [placeholdersFrom]
  intro _ _ htoken _
  exact absurd htoken h

/-- Neither does an opening token without a key and a closing brace behind it. -/
theorem placeholdersFrom_opening {rest : List Token}
    (h : ∀ name more, rest ≠ .key name :: .closing :: more) (offset : Nat) :
    placeholdersFrom offset (.opening :: rest) = placeholdersFrom (offset + 2) rest := by
  rw [placeholdersFrom]
  · rfl
  · intro name more _ hrest
    exact absurd hrest (h name more)

/-- A run without a dollar sign shifts the offset by its length. -/
theorem spans_parts_append {run : Text} (h : '$' ∉ run) (offset : Nat) (rest : Text) :
    Part.spans offset (parts (run ++ rest)) =
      Part.spans (offset + Text.byteLength run) (parts rest) := by
  rw [parts_append_of_notMem rest h, Part.spans_chars]

/-- So does a run of characters of one kind, if a dollar sign is not of that kind. -/
theorem spans_parts_run {kind : Char → Bool} (hkind : kind '$' = false) {c : Char} (hc : c ≠ '$')
    (offset : Nat) (rest : Text) :
    Part.spans offset (parts (c :: rest)) =
      Part.spans (offset + Text.byteLength (c :: rest.takeWhile kind))
        (parts (rest.dropWhile kind)) := by
  have hrun : '$' ∉ c :: rest.takeWhile kind := by
    intro hmem
    rcases List.mem_cons.1 hmem with heq | hmem
    · exact hc heq.symm
    · have hdollar := List.mem_takeWhile_imp hmem
      rw [hkind] at hdollar
      cases hdollar
  have hsplit := spans_parts_append hrun offset (rest.dropWhile kind)
  rw [List.cons_append, List.takeWhile_append_dropWhile] at hsplit
  exact hsplit

/-- An opening token and what follows it: either a hole starts there or two characters stand there
that start none. -/
theorem placeholdersFrom_tokenize_opening {rest : Text}
    (ih : ∀ offset, placeholdersFrom offset (tokenize rest) = Part.spans offset (parts rest))
    (offset : Nat) :
    placeholdersFrom offset (.opening :: tokenize rest) =
      Part.spans offset (parts ('$' :: '{' :: rest)) := by
  cases hkey : leadingKey? ('$' :: '{' :: rest) with
  | some key =>
    obtain ⟨hkey', tail, htext⟩ := exists_of_leadingKey? hkey
    have hrest : rest = key ++ '}' :: tail := by
      simpa [written] using htext
    -- The scanner goes on behind the opening token, the parts go on behind the hole. In between
    -- there is no dollar sign.
    have hparts : Part.spans (offset + 2) (parts rest) =
        Part.spans (offset + Text.byteLength (written key)) (parts tail) := by
      have hrun : '$' ∉ key ++ ['}'] := by
        simp [isKey_dollar_notMem hkey']
      have hclose : Char.utf8Size '}' = 1 := by decide
      rw [hrest, List.append_cons, spans_parts_append hrun, byteLength_written]
      simp only [Text.byteLength_append, Text.byteLength_cons, Text.byteLength_nil, hclose]
      congr 1
      omega
    have hfound : placeholdersFrom offset (.opening :: tokenize rest) =
        ⟨key, offset, offset + Text.byteLength (written key)⟩ ::
          placeholdersFrom (offset + 2) (tokenize rest) := by
      have hopening : Text.byteLength Token.opening.lexeme = 2 := by decide
      rw [hrest, tokenize_key_closing hkey', placeholdersFrom, byteLength_written]
      simp only [hopening, List.cons.injEq, mk.injEq, true_and, and_true]
      omega
    rw [hfound, ih, hparts, htext, parts_written hkey', Part.spans]
  | none =>
    -- A key and a closing brace among the tokens would be the placeholder that is not there.
    have hnot : ∀ name more, tokenize rest ≠ .key name :: .closing :: more := by
      intro name more heq
      obtain ⟨hne, hname, hmore⟩ := takeWhile_of_tokenize heq
      have hclose := head?_of_tokenize hmore.symm
      rw [leadingKey?, if_pos ⟨hname ▸ hne, hclose⟩] at hkey
      exact absurd hkey (by simp)
    have hopen : leadingKey? ('{' :: rest) = none := leadingKey?_cons_of_ne (by decide) rest
    rw [placeholdersFrom_opening hnot, ih, parts_cons hkey, parts_cons hopen]
    rfl

theorem placeholdersFrom_tokenize (text : Text) :
    ∀ offset, placeholdersFrom offset (tokenize text) = Part.spans offset (parts text) := by
  fun_induction tokenize text with
  | case1 =>
    intro offset
    rw [parts_nil]
    rfl
  | case2 rest ih => exact placeholdersFrom_tokenize_opening ih
  | case3 rest hrest ih =>
    intro offset
    have hlead : leadingKey? ('$' :: rest) = none := by
      rw [leadingKey?]
      intro tail htext
      exact hrest tail (List.cons.inj htext).2
    rw [placeholdersFrom_cons (by simp), ih, parts_cons hlead]
    rfl
  | case4 rest ih =>
    intro offset
    rw [placeholdersFrom_cons (by simp), ih]
    exact (spans_parts_append (by decide : '$' ∉ ['}']) offset rest).symm
  | case5 c rest _ hdollar hclose hkey ih =>
    intro offset
    rw [placeholdersFrom_cons (by simp), ih]
    exact (spans_parts_run (by decide) hdollar offset rest).symm
  | case6 c rest _ hdollar hclose hkey ih =>
    intro offset
    rw [placeholdersFrom_cons (by simp), ih]
    exact (spans_parts_run (by decide) hdollar offset rest).symm

/-- **The scanner finds the holes of a text**, each with its span. -/
theorem scan_eq_spans (text : Text) : scan text = Part.spans 0 (parts text) :=
  placeholdersFrom_tokenize text 0

/-- The number of placeholders with a key is the number of holes with it. -/
theorem countP_scan (key text : Text) :
    (scan text).countP (fun p => p.key = key) = (parts text).count (.hole key) := by
  rw [scan_eq_spans, Part.countP_spans]

/-! ### Distinct keys -/

section FirstOccurrences

variable {α : Type} [DecidableEq α]

theorem firstOccurrences_concat (l : List α) (a : α) :
    firstOccurrences (l ++ [a]) =
      if a ∈ firstOccurrences l then firstOccurrences l else firstOccurrences l ++ [a] := by
  rw [firstOccurrences, List.foldl_append]
  rfl

theorem mem_firstOccurrences {a : α} {l : List α} : a ∈ firstOccurrences l ↔ a ∈ l := by
  induction l using List.reverseRecOn with
  | nil => exact Iff.rfl
  | append_singleton l b ih =>
    rw [firstOccurrences_concat, List.mem_append, List.mem_singleton]
    split
    · next hb =>
      rw [ih]
      refine ⟨Or.inl, ?_⟩
      rintro (h | rfl)
      · exact h
      · exact ih.1 hb
    · rw [List.mem_append, List.mem_singleton, ih]

/-- Keeping the first occurrences is erasing the duplicates that come after them. -/
theorem firstOccurrences_eq_eraseDups [BEq α] [LawfulBEq α] (l : List α) :
    firstOccurrences l = l.eraseDups := by
  induction l using List.reverseRecOn with
  | nil => rfl
  | append_singleton l a ih =>
    rw [firstOccurrences_concat, List.eraseDups_append, ← ih, List.cons_removeAll,
      List.nil_removeAll]
    simp only [mem_firstOccurrences]
    by_cases h : a ∈ l <;> simp [h, List.eraseDups_cons]

/-- The first occurrences stand in the order in which they occur. -/
theorem pairwise_firstOccurrences (l : List α) :
    (firstOccurrences l).Pairwise fun a b => ∃ before after, l = before ++ a :: after ∧
      b ∉ before ++ [a] := by
  induction l using List.reverseRecOn with
  | nil => exact List.Pairwise.nil
  | append_singleton l c ih =>
    have hold : (firstOccurrences l).Pairwise fun a b => ∃ before after,
        l ++ [c] = before ++ a :: after ∧ b ∉ before ++ [a] := by
      refine ih.imp fun {a b} h => ?_
      obtain ⟨before, after, rfl, hb⟩ := h
      exact ⟨before, after ++ [c], by simp, hb⟩
    rw [firstOccurrences_concat]
    split
    · exact hold
    · next hc =>
      have hnew : c ∉ l := by
        intro h
        exact hc (mem_firstOccurrences.2 h)
      refine List.pairwise_append.2 ⟨hold, List.pairwise_singleton _ _, ?_⟩
      intro a ha b hb
      obtain ⟨before, after, rfl⟩ := List.append_of_mem (mem_firstOccurrences.1 ha)
      refine ⟨before, after ++ [c], by simp, ?_⟩
      rw [List.mem_singleton.1 hb]
      intro hmem
      rw [List.append_cons] at hnew
      exact hnew (List.mem_append_left after hmem)

end FirstOccurrences

/-- The keys of a text are those of the placeholders that occur in it. -/
theorem mem_scanKeys_iff {key text : Text} :
    key ∈ scanKeys text ↔ IsKey key ∧ written key <:+: text := by
  rw [← hole_mem_parts_iff, scanKeys, mem_firstOccurrences, List.mem_map, ← List.count_pos_iff,
    ← countP_scan, List.countP_pos_iff]
  simp

/-- The placeholder with the key `a` has already been passed where the first one with the key `b`
ends. -/
def SeenBefore (text a b : Text) : Prop :=
  ∃ front rest, text = front ++ written a ++ rest ∧ ¬ written b <:+: front ++ written a

theorem SeenBefore.ne {text a b : Text} (h : SeenBefore text a b) : a ≠ b := by
  rintro rfl
  obtain ⟨front, rest, -, hnot⟩ := h
  exact hnot (List.suffix_append front _).isInfix

/-- The keys of a text stand in the order in which they are first seen. -/
theorem pairwise_scanKeys (text : Text) : (scanKeys text).Pairwise (SeenBefore text) := by
  refine (pairwise_firstOccurrences _).imp_of_mem fun {a b} _ hb h => ?_
  obtain ⟨keys, more, hkeys, hnot⟩ := h
  rw [scan_eq_spans, Part.map_key_spans, List.filterMap_eq_append_iff] at hkeys
  obtain ⟨front, rest, hparts, rfl, hrest⟩ := hkeys
  obtain ⟨chars, p, after, rfl, hchars, hp, -⟩ := List.filterMap_eq_cons_iff.1 hrest
  cases p with
  | char c => exact absurd hp (by simp [Part.key?])
  | hole name =>
    obtain rfl : name = a := by simpa [Part.key?] using hp
    rw [← List.append_assoc] at hparts
    refine ⟨Part.flatten (front ++ chars), Part.flatten after, ?_, ?_⟩
    · rw [← flatten_parts text, hparts, Part.flatten_append, Part.flatten_hole, List.append_assoc]
    · -- A placeholder in what has been passed would be one of the holes that have been passed.
      intro hinside
      have hpassed := hole_mem_parts_iff.2 ⟨(mem_scanKeys_iff.1 hb).1, hinside⟩
      have hsame := parts_flatten_of_hole hparts
      rw [Part.flatten_append, Part.flatten_hole, Part.flatten_nil, List.append_nil] at hsame
      rw [hsame, List.append_assoc, List.mem_append, List.mem_append] at hpassed
      refine hnot (List.mem_append.2 ?_)
      rcases hpassed with hfront | hmem | hlast
      · exact Or.inl (List.mem_filterMap.2 ⟨_, hfront, rfl⟩)
      · exact absurd (hchars _ hmem) (by simp [Part.key?])
      · exact Or.inr (by simpa using hlast)

/-! ### Simultaneous replacement -/

/-- A text with the spans of placeholders replaced at once by the values of their keys. What has no
value stays, and so does everything between the spans. -/
def fillSpans (value? : Text → Option Text) (text : Text) : (offset : Nat) → List Placeholder → Text
  | offset, [] => text.slice offset text.byteLength
  | offset, p :: more =>
    text.slice offset p.start ++ (value? p.key).getD (text.slice p.start p.stop) ++
      fillSpans value? text p.stop more

/-- A template with every placeholder whose key has a value replaced by it, all at once. -/
def fill (value? : Text → Option Text) (template : Text) : Text :=
  fillSpans value? template 0 (scan template)

/-- The parts that come of a part when holes are filled. -/
def Part.filled (value? : Text → Option Text) : Part → List Part
  | .char c => [.char c]
  | .hole key =>
    match value? key with
    | some value => value.map .char
    | none => [.hole key]

theorem Part.flatten_filled_hole (value? : Text → Option Text) (key : Text) :
    Part.flatten (Part.filled value? (.hole key)) = (value? key).getD (written key) := by
  rw [Part.filled]
  cases value? key with
  | some value => simp
  | none => simp

/-- Between the offset and the next span there may be characters already passed; `lead` are those,
and `front` is what was filled before. -/
theorem fillSpans_spans (value? : Text → Option Text) (ps : List Part) :
    ∀ front lead : Text,
      fillSpans value? (front ++ lead ++ Part.flatten ps) (Text.byteLength front)
          (Part.spans (Text.byteLength (front ++ lead)) ps) =
        lead ++ Part.flatten (ps.flatMap (Part.filled value?)) := by
  induction ps with
  | nil =>
    intro front lead
    have hslice := Text.slice_append front lead []
    rw [List.append_nil, Text.byteLength_append] at hslice
    simp [Part.spans, fillSpans, hslice]
  | cons p ps ih =>
    intro front lead
    cases p with
    | char c =>
      -- A character joins those passed since the last span.
      have hih := ih front (lead ++ [c])
      have hspan : Text.byteLength (front ++ (lead ++ [c])) =
          Text.byteLength (front ++ lead) + c.utf8Size := by
        simp [Nat.add_assoc]
      rw [hspan] at hih
      simpa [Part.spans, Part.filled] using hih
    | hole key =>
      -- A hole ends the stretch. What was passed is copied, and the next one starts behind it.
      have hih := ih (front ++ lead ++ written key) []
      have hlead := Text.slice_append front lead (written key ++ Part.flatten ps)
      have hhole := Text.slice_append (front ++ lead) (written key) (Part.flatten ps)
      have htext : front ++ lead ++ Part.flatten (.hole key :: ps) =
          front ++ lead ++ written key ++ Part.flatten ps := by
        simp only [Part.flatten_hole, List.append_assoc]
      have hstop : Text.byteLength (front ++ lead) + Text.byteLength (written key) =
          Text.byteLength (front ++ lead ++ written key) := (Text.byteLength_append _ _).symm
      rw [List.append_nil] at hih
      rw [← List.append_assoc] at hlead
      rw [htext, Part.spans, fillSpans, hstop, hlead, hhole, hih, List.flatMap_cons,
        Part.flatten_append, Part.flatten_filled_hole]
      simp

/-- Simultaneous replacement fills the holes of a template. -/
theorem fill_eq_flatten (value? : Text → Option Text) (template : Text) :
    fill value? template = Part.flatten ((parts template).flatMap (Part.filled value?)) := by
  have h := fillSpans_spans value? (parts template) [] []
  rw [fill, scan_eq_spans]
  simpa using h

end EnvTemplates.Placeholder
