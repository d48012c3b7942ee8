import EnvTemplates.Proofs.Placeholder.Scanning

/-!
# The grammar of placeholders

Reading a text goes through two steps, each of which is told here without the functions that do it.

* Tokens: `Munches tokens text` says that a text splits into tokens, each of them the longest that
  any token can be at its place. `tokenize` computes the only such split (`tokenize_eq_iff`), so
  every text has one and nothing of the text is left out of it.
* Placeholders: a placeholder is found where a slice of the text reads as an opening, a key and a
  closing brace, whatever stands around it (`mem_scan_iff`). The spans come in order and do not
  overlap (`pairwise_scan`), so the slices determine the whole list.
-/

namespace EnvTemplates.Placeholder

variable {text rest : Text} {c : Char}

/-! ### The longest token -/

/-- A token that some text can be read as: runs are not empty and hold characters of one kind. -/
def Token.IsProper : Token → Prop
  | .key name => IsKey name
  | .plain run => run ≠ [] ∧ ∀ c ∈ run, isPlainChar c = true
  | .opening | .closing | .dollar => True

theorem Token.IsProper.lexeme_ne_nil {token : Token} (h : token.IsProper) : token.lexeme ≠ [] := by
  cases token with
  | opening | closing | dollar => exact List.cons_ne_nil _ _
  | key | plain => exact h.1

/-- A text starts with a token, and with none that is longer. -/
structure IsLongest (token : Token) (text : Text) : Prop where
  proper : token.IsProper
  start : token.lexeme <+: text
  longest : ∀ other : Token, other.IsProper → other.lexeme <+: text →
    other.lexeme.length ≤ token.lexeme.length

/-- The characters that a token can start with. -/
def Token.starts : Token → Char → Bool
  | .opening | .dollar => fun c => c == '$'
  | .closing => fun c => c == '}'
  | .key _ => isKeyChar
  | .plain _ => isPlainChar

theorem Token.IsProper.starts_of_prefix {token : Token} (h : token.IsProper)
    (hstart : token.lexeme <+: c :: rest) : token.starts c = true := by
  cases token with
  | opening | closing | dollar =>
    obtain ⟨rfl, -⟩ := List.cons_prefix_cons.1 hstart
    rfl
  | key run | plain run =>
    obtain ⟨d, run, rfl⟩ := List.exists_cons_of_ne_nil h.1
    obtain ⟨rfl, -⟩ := List.cons_prefix_cons.1 hstart
    exact h.2 d List.mem_cons_self

/-- A character starts tokens of one kind only. -/
theorem isPlainChar_of_isKeyChar (h : isKeyChar c = true) : isPlainChar c = false := by
  simp [isPlainChar, h]

/-- A run at the start of a text is at most as long as the longest one. -/
theorem length_le_takeWhile {kind : Char → Bool} {run : Text} (hrun : ∀ d ∈ run, kind d = true)
    (hstart : run <+: text) : run.length ≤ (text.takeWhile kind).length := by
  obtain ⟨tail, rfl⟩ := hstart
  rw [List.takeWhile_append_of_pos hrun, List.length_append]
  exact Nat.le_add_right _ _

/-- A maximal run is the longest token of a text if all tokens that the text starts with are runs of
the same kind. -/
theorem isLongest_run {kind : Char → Bool} {token : Token} (hproper : token.IsProper)
    (hlexeme : token.lexeme = text.takeWhile kind)
    (hkind : ∀ other : Token, other.IsProper → other.lexeme <+: text →
      ∀ d ∈ other.lexeme, kind d = true) : IsLongest token text := by
  refine ⟨hproper, ?_, fun other hother hstart => ?_⟩
  · rw [hlexeme]
    exact List.takeWhile_prefix kind
  · rw [hlexeme]
    exact length_le_takeWhile (hkind other hother hstart) hstart

theorem isLongest_key (h : isKeyChar c = true) :
    IsLongest (.key (c :: rest.takeWhile isKeyChar)) (c :: rest) := by
  have hrun : c :: rest.takeWhile isKeyChar = (c :: rest).takeWhile isKeyChar :=
    (List.takeWhile_cons_of_pos h).symm
  refine isLongest_run ⟨List.cons_ne_nil _ _, ?_⟩ hrun ?_
  · rw [hrun]
    exact fun d hd => List.mem_takeWhile_imp hd
  · intro other hother hstart
    have hstarts := hother.starts_of_prefix hstart
    cases other with
    | opening | closing | dollar =>
      obtain rfl := eq_of_beq hstarts
      exact absurd h (by decide)
    | key run => exact hother.2
    | plain run =>
      rw [Token.starts, isPlainChar_of_isKeyChar h] at hstarts
      cases hstarts

theorem isLongest_plain (h : isPlainChar c = true) :
    IsLongest (.plain (c :: rest.takeWhile isPlainChar)) (c :: rest) := by
  have hrun : c :: rest.takeWhile isPlainChar = (c :: rest).takeWhile isPlainChar :=
    (List.takeWhile_cons_of_pos h).symm
  refine isLongest_run ⟨List.cons_ne_nil _ _, ?_⟩ hrun ?_
  · rw [hrun]
    exact fun d hd => List.mem_takeWhile_imp hd
  · intro other hother hstart
    have hstarts := hother.starts_of_prefix hstart
    cases other with
    | opening | closing | dollar =>
      obtain rfl := eq_of_beq hstarts
      exact absurd h (by decide)
    | key run =>
      rw [isPlainChar_of_isKeyChar hstarts] at h
      cases h
    | plain run => exact hother.2

theorem isLongest_closing (rest : Text) : IsLongest .closing ('}' :: rest) := by
  refine ⟨trivial, List.prefix_append ['}'] rest, fun other hother hstart => ?_⟩
  have hstarts := hother.starts_of_prefix hstart
  cases other with
  | closing => exact Nat.le_refl _
  | opening | dollar => exact absurd hstarts (by decide)
  | key => exact absurd (show isKeyChar '}' = true from hstarts) (by decide)
  | plain => exact absurd (show isPlainChar '}' = true from hstarts) (by decide)

theorem isLongest_opening (rest : Text) : IsLongest .opening ('$' :: '{' :: rest) := by
  refine ⟨trivial, List.prefix_append ['$', '{'] rest, fun other hother hstart => ?_⟩
  have hstarts := hother.starts_of_prefix hstart
  cases other with
  | opening => exact Nat.le_refl _
  | dollar => exact Nat.le_succ 1
  | closing => exact absurd hstarts (by decide)
  | key => exact absurd (show isKeyChar '$' = true from hstarts) (by decide)
  | plain => exact absurd (show isPlainChar '$' = true from hstarts) (by decide)

theorem isLongest_dollar (h : ∀ more, rest ≠ '{' :: more) : IsLongest .dollar ('$' :: rest) := by
  refine ⟨trivial, List.prefix_append ['$'] rest, fun other hother hstart => ?_⟩
  have hstarts := hother.starts_of_prefix hstart
  cases other with
  | opening =>
    obtain ⟨more, hmore⟩ := hstart
    exact absurd (List.cons.inj hmore).2.symm (h more)
  | dollar => exact Nat.le_refl _
  | closing => exact absurd hstarts (by decide)
  | key => exact absurd (show isKeyChar '$' = true from hstarts) (by decide)
  | plain => exact absurd (show isPlainChar '$' = true from hstarts) (by decide)

/-! ### The only split into longest tokens -/

/-- A text splits into tokens, each of them the longest at its place. -/
inductive Munches : List Token → Text → Prop
  | nil : Munches [] []
  | cons {token tokens text rest} (longest : IsLongest token text)
      (split : text = token.lexeme ++ rest) (more : Munches tokens rest) :
      Munches (token :: tokens) text

/-- Every text has such a split, and `tokenize` finds it. -/
theorem munches_tokenize (text : Text) : Munches (tokenize text) text := by
  have hrun : ∀ (kind : Char → Bool) (c : Char) (rest : Text),
      c :: rest = c :: rest.takeWhile kind ++ rest.dropWhile kind := by
    intro kind c rest
    rw [List.cons_append, List.takeWhile_append_dropWhile]
  fun_induction tokenize text with
  | case1 => exact .nil
  | case2 rest ih => exact .cons (isLongest_opening rest) rfl ih
  | case3 rest hrest ih => exact .cons (isLongest_dollar hrest) rfl ih
  | case4 rest ih => exact .cons (isLongest_closing rest) rfl ih
  | case5 c rest _ _ _ hkey ih => exact .cons (isLongest_key hkey) (hrun isKeyChar c rest) ih
  | case6 c rest _ hdollar hclose hkey ih =>
    have hplain : isPlainChar c = true := by
      simpa [isPlainChar, hkey] using ⟨hdollar, hclose⟩
    exact .cons (isLongest_plain hplain) (hrun isPlainChar c rest) ih

/-- Nothing of a text is left out of its split. -/
theorem Munches.flatMap_lexeme {tokens : List Token} (h : Munches tokens text) :
    tokens.flatMap Token.lexeme = text := by
  induction h with
  | nil => rfl
  | cons _ split _ ih => rw [List.flatMap_cons, ih, split]

theorem tokenize_plain (h : isPlainChar c = true) (rest : Text) :
    tokenize (c :: rest) =
      .plain (c :: rest.takeWhile isPlainChar) :: tokenize (rest.dropWhile isPlainChar) := by
  have hkey : ¬ isKeyChar c = true := by
    intro hkey
    rw [isPlainChar_of_isKeyChar hkey] at h
    cases h
  have hdollar : c ≠ '$' := by
    rintro rfl
    exact absurd h (by decide)
  have hclose : c ≠ '}' := by
    rintro rfl
    exact absurd h (by decide)
  rw [tokenize.eq_5 c rest (fun _ heq => absurd heq hdollar) hdollar hclose, if_neg hkey]

/-- A lexeme alone is read as its token. -/
theorem Token.IsProper.tokenize_lexeme {token : Token} (h : token.IsProper) :
    tokenize token.lexeme = [token] := by
  cases token with
  | opening | closing | dollar => simp [lexeme, tokenize]
  | key run =>
    obtain ⟨c, run, rfl⟩ := List.exists_cons_of_ne_nil h.1
    obtain ⟨hc, hrun⟩ := List.forall_mem_cons.1 h.2
    rw [lexeme, tokenize_key hc, List.takeWhile_eq_self_iff.2 hrun,
      List.dropWhile_eq_nil_iff.2 hrun, tokenize]
  | plain run =>
    obtain ⟨c, run, rfl⟩ := List.exists_cons_of_ne_nil h.1
    obtain ⟨hc, hrun⟩ := List.forall_mem_cons.1 h.2
    rw [lexeme, tokenize_plain hc, List.takeWhile_eq_self_iff.2 hrun,
      List.dropWhile_eq_nil_iff.2 hrun, tokenize]

/-- Two tokens that are both the longest at the start of a text are the same. -/
theorem IsLongest.unique {token other : Token} (h : IsLongest token text)
    (hother : IsLongest other text) : token = other := by
  have hlength : token.lexeme.length = other.lexeme.length :=
    Nat.le_antisymm (hother.longest token h.proper h.start)
      (h.longest other hother.proper hother.start)
  have hlexeme : token.lexeme = other.lexeme :=
    (List.prefix_of_prefix_length_le h.start hother.start hlength.le).eq_of_length hlength
  have htokens : [token] = [other] := by
    rw [← h.proper.tokenize_lexeme, ← hother.proper.tokenize_lexeme, hlexeme]
  exact List.singleton_inj.1 htokens

theorem Munches.unique {tokens others : List Token} (h : Munches tokens text)
    (hothers : Munches others text) : tokens = others := by
  induction h generalizing others with
  | nil =>
    cases hothers with
    | nil => rfl
    | cons longest split _ =>
      exact absurd (List.nil_eq_append_iff.1 split).1 longest.proper.lexeme_ne_nil
  | @cons token _ _ rest longest split _ ih =>
    cases hothers with
    | nil => exact absurd (List.nil_eq_append_iff.1 split).1 longest.proper.lexeme_ne_nil
    | @cons other _ _ rest' longest' split' more' =>
      obtain rfl := longest.unique longest'
      have hrest : rest' = rest := List.append_cancel_left (split'.symm.trans split)
      rw [ih (hrest ▸ more')]

/-- **A text is split into longest tokens in one way only.** -/
theorem tokenize_eq_iff {tokens : List Token} : tokenize text = tokens ↔ Munches tokens text := by
  constructor
  · rintro rfl
    exact munches_tokenize text
  · exact (munches_tokenize text).unique

/-! ### Slices that read as placeholders -/

/-- What a placeholder is: its span is a slice of the text that reads as an opening, its key and a
closing brace. -/
structure IsWritten (p : Placeholder) (text : Text) : Prop where
  isKey : IsKey p.key
  slice : Text.IsSlice p.start p.stop (written p.key) text

/-- A placeholder is one of the parts of a text, wherever it stands in it. -/
theorem parts_append_written {key : Text} (h : IsKey key) (after : Text) (before : Text) :
    parts (before ++ written key ++ after) = parts before ++ .hole key :: parts after := by
  induction before using template_induction with
  | nil => rw [List.nil_append, parts_written h, parts_nil, List.nil_append]
  | hole name rest hname ih =>
    rw [parts_written hname, List.append_assoc, List.append_assoc, parts_written hname,
      ← List.append_assoc, ih, List.cons_append]
  | char c rest hc ih =>
    -- A placeholder that starts before `key` ends before it, since it has no further dollar sign.
    have hlead : leadingKey? (c :: (rest ++ written key ++ after)) = none := by
      cases hname : leadingKey? (c :: (rest ++ written key ++ after)) with
      | none => rfl
      | some name =>
        obtain ⟨hname', tail, htext⟩ := exists_of_leadingKey? hname
        have hnot : ∀ more, c :: rest ≠ written name ++ more := by
          intro more heq
          rw [heq, leadingKey?_written hname'] at hc
          cases hc
        rw [List.append_assoc, ← List.cons_append, List.append_eq_append_iff] at htext
        rcases htext with ⟨more, hsplit, hmore⟩ | ⟨more, hsplit, -⟩
        · cases more with
          | nil => exact absurd (by simpa using hsplit.symm) (hnot [])
          | cons d more =>
            obtain ⟨rfl, -⟩ := List.cons.inj hmore
            have hinside : '$' ∈ '{' :: (name ++ ['}']) := by
              rw [(List.cons.inj hsplit).2]
              simp
            exact absurd hinside (by simp [isKey_dollar_notMem hname'])
        · exact absurd hsplit (hnot more)
    rw [List.cons_append, List.cons_append, parts_cons hlead, parts_cons hc, ih, List.cons_append]

/-- The spans among parts that start at a byte offset are those of the holes. -/
theorem Part.mem_spans_iff {p : Placeholder} {ps : List Part} : ∀ {offset : Nat},
    p ∈ Part.spans offset ps ↔ ∃ before after, ps = before ++ .hole p.key :: after ∧
      p.start = offset + Text.byteLength (Part.flatten before) ∧
      p.stop = p.start + Text.byteLength (written p.key) := by
  induction ps with
  | nil => simp [Part.spans]
  | cons part ps ih =>
    intro offset
    cases part with
    | char c =>
      rw [Part.spans, ih]
      constructor
      · rintro ⟨before, after, rfl, hstart, hstop⟩
        refine ⟨.char c :: before, after, rfl, ?_, hstop⟩
        rw [hstart, Part.flatten_char, Text.byteLength_cons, Nat.add_assoc]
      · rintro ⟨before, after, hsplit, hstart, hstop⟩
        cases before with
        | nil => cases hsplit
        | cons first before =>
          obtain ⟨rfl, rfl⟩ := List.cons.inj hsplit
          refine ⟨before, after, rfl, ?_, hstop⟩
          rw [hstart, Part.flatten_char, Text.byteLength_cons, Nat.add_assoc]
    | hole name =>
      rw [Part.spans, List.mem_cons, ih]
      constructor
      · rintro (rfl | ⟨before, after, rfl, hstart, hstop⟩)
        · exact ⟨[], ps, rfl, rfl, rfl⟩
        · refine ⟨.hole name :: before, after, rfl, ?_, hstop⟩
          rw [hstart, Part.flatten_hole, Text.byteLength_append, Nat.add_assoc]
      · rintro ⟨before, after, hsplit, hstart, hstop⟩
        cases before with
        | nil =>
          obtain ⟨heq, rfl⟩ := List.cons.inj hsplit
          obtain rfl := Part.hole.inj heq
          left
          show (⟨p.key, p.start, p.stop⟩ : Placeholder) = _
          rw [hstop, hstart]
          rfl
        | cons first before =>
          obtain ⟨rfl, rfl⟩ := List.cons.inj hsplit
          refine Or.inr ⟨before, after, rfl, ?_, hstop⟩
          rw [hstart, Part.flatten_hole, Text.byteLength_append, Nat.add_assoc]

theorem mem_scan_iff {p : Placeholder} : p ∈ scan text ↔ IsWritten p text := by
  rw [scan_eq_spans, Part.mem_spans_iff]
  constructor
  · rintro ⟨before, after, hparts, hstart, hstop⟩
    have hkey : IsKey p.key :=
      isKey_of_hole_mem_parts (hparts ▸ List.mem_append_right _ List.mem_cons_self)
    refine ⟨hkey, Part.flatten before, Part.flatten after, ?_, ?_, ?_⟩
    · rw [← flatten_parts text, hparts, Part.flatten_append, Part.flatten_hole, List.append_assoc]
    · rw [hstart, Nat.zero_add]
    · rw [hstop, hstart, Nat.zero_add, Text.byteLength_append]
  · rintro ⟨hkey, before, after, htext, hstart, hstop⟩
    refine ⟨parts before, parts after, ?_, ?_, ?_⟩
    · rw [htext, parts_append_written hkey]
    · rw [hstart, flatten_parts, Nat.zero_add]
    · rw [hstop, hstart, Text.byteLength_append]

/-- Spans come in order and do not overlap. -/
theorem Part.pairwise_spans (ps : List Part) : ∀ offset : Nat,
    (Part.spans offset ps).Pairwise fun p q => p.start < q.start ∧ p.stop ≤ q.start := by
  induction ps with
  | nil => exact fun _ => List.Pairwise.nil
  | cons part ps ih =>
    intro offset
    cases part with
    | char c => exact ih _
    | hole name =>
      refine List.pairwise_cons.2 ⟨fun q hq => ?_, ih _⟩
      -- What follows starts behind the hole, and a hole is not empty.
      obtain ⟨before, after, -, hstart, -⟩ := Part.mem_spans_iff.1 hq
      have hlength := byteLength_written name
      simp only
      omega

/-- **The scanner accepts exactly its grammar.** The tokens of a text are the longest at their
places and leave nothing out; the placeholders found are the slices of the text that read as one,
each once, in order and without overlap; and the keys of a text are theirs without repetitions, each
where it comes first. -/
theorem scan_exact (text : Text) :
    Munches (tokenize text) text ∧ (tokenize text).flatMap Token.lexeme = text ∧
    (∀ p, p ∈ scan text ↔ IsWritten p text) ∧
    (scan text).Pairwise (fun p q => p.start < q.start ∧ p.stop ≤ q.start) ∧
    scanKeys text = ((scan text).map (·.key)).eraseDups := by
  have htokens : Munches (tokenize text) text := munches_tokenize text
  refine ⟨htokens, htokens.flatMap_lexeme, fun p => mem_scan_iff, ?_, ?_⟩
  · rw [scan_eq_spans]
    exact Part.pairwise_spans (parts text) 0
  · exact firstOccurrences_eq_eraseDups ((scan text).map (·.key))

/-- Dollar signs in front of a placeholder, one inside of another, and two that are none. -/
example : scan "é$$\x7bA\x7d$\x7b$\x7bB_\x7d\x7d$\x7b\x7d$\x7ba\x7d".toList =
    [⟨"A".toList, 3, 7⟩, ⟨"B_".toList, 9, 14⟩] := by
  cbv

end EnvTemplates.Placeholder
