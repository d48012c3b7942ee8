import EnvTemplates.Naming
import EnvTemplates.Proofs.Text.AsciiCase
import EnvTemplates.Proofs.Text.Cutting
import EnvTemplates.Proofs.Text.Trimming

/-!
# What Pascal case does to a name

Pascal case keeps the ASCII letters and digits of a name, in their order, and drops all else. What
it may change is their case. Of the name without the characters that are neither letters, digits nor
separators (`kept`), each maximal run of letters and digits appears in the result at its place:

| run                                                 | appears                          |
|-----------------------------------------------------|----------------------------------|
| behind a separator, two characters at least         | a capital, then small letters    |
| any other, with letters or digits in front of it    | as it is                         |
| any other, at the start                             | as it is, but with a capital     |

The result has no separators, so it is one such run, and Pascal case leaves it as it is.
-/

namespace EnvTemplates.Text

/-! ### Words -/

theorem words_append_blank {c : Char} (hc : isBlank c = true) (a b : Text) :
    words (a ++ c :: b) = words a ++ words b := by
  rw [words, fields_eq_splitOnP, List.splitOnP_append_cons a b hc, List.filter_append,
    ← fields_eq_splitOnP, ← fields_eq_splitOnP]
  rfl

theorem words_of_notBlank {t : Text} (hne : t ≠ []) (h : ∀ c ∈ t, isBlank c = false) :
    words t = [t] := by
  rw [words, fields_eq_splitOnP, List.splitOnP_eq_singleton h]
  exact List.filter_cons_of_pos (by simpa using hne)

theorem flatten_words (t : Text) : (words t).flatten = t.filter fun c => !isBlank c := by
  rw [words, List.flatten_filter_ne_nil, flatten_fields]

theorem words_eq_nil_iff {t : Text} : words t = [] ↔ AllBlank t := by
  have hflat : words t = [] ↔ (words t).flatten = [] := by
    rw [List.flatten_eq_nil_iff]
    constructor
    · intro hnil
      rw [hnil]
      exact fun word hword => absurd hword List.not_mem_nil
    · intro hempty
      -- No word is empty, so there is none.
      rw [List.eq_nil_iff_forall_not_mem]
      intro word hword
      have hne : word ≠ [] := by simpa using (List.mem_filter.1 hword).2
      exact hne (hempty word hword)
  rw [hflat, flatten_words, List.filter_eq_nil_iff]
  simp [AllBlank]

/-- A word with blanks or the ends of the text on both sides is one of its words. -/
theorem words_append_word {before word after : Text} (hne : word ≠ [])
    (hword : ∀ c ∈ word, isBlank c = false)
    (hbefore : ∀ c, before.getLast? = some c → isBlank c = true)
    (hafter : ∀ c, after.head? = some c → isBlank c = true) :
    words (before ++ word ++ after) = words before ++ word :: words after := by
  have hrest : words (word ++ after) = word :: words after := by
    cases after with
    | nil => rw [List.append_nil, words_of_notBlank hne hword]; rfl
    | cons c after =>
      have hc : isBlank c = true := hafter c rfl
      have hfirst : words (c :: after) = words after := words_append_blank hc [] after
      rw [words_append_blank hc, words_of_notBlank hne hword, hfirst]
      rfl
  rcases List.eq_nil_or_concat' before with rfl | ⟨front, c, rfl⟩
  · rw [List.nil_append, hrest]
    rfl
  · have hc : isBlank c = true := hbefore c (List.getLast?_concat ..)
    have hfront : words (front ++ [c]) = words front := by
      rw [words_append_blank hc front []]
      exact List.append_nil _
    rw [List.append_assoc, List.append_assoc, List.singleton_append, words_append_blank hc, hrest,
      hfront]

/-! ### Joining words -/

/-- The words of a name as they are joined: the first one is capitalised only if it stands behind a
separator. -/
def joined (behind : Bool) : List Text → Text
  | [] => []
  | word :: more =>
    (if behind then capitaliseWord word else word) ++ (more.map capitaliseWord).flatten

theorem pascalCase_eq (t : Text) :
    pascalCase t = capitalise (joined (startsBlank (wordText t)) (words (wordText t))) := by
  rw [pascalCase]
  split
  · next hnil => rw [hnil]; rfl
  · next first more hwords => rw [hwords]; rfl

theorem map_toLower_capitalise (t : Text) :
    (capitalise t).map Char.toLower = t.map Char.toLower := by
  cases t with
  | nil => rfl
  | cons c rest => rw [capitalise, List.map_cons, List.map_cons,
      Char.toLower_toUpper_eq_toLower]

theorem map_toLower_capitaliseWord (t : Text) :
    (capitaliseWord t).map Char.toLower = t.map Char.toLower := by
  match t with
  | [] => rfl
  | [c] => rfl
  | c :: d :: rest => simp [capitaliseWord]

theorem capitaliseWord_ne_nil {t : Text} (h : t ≠ []) : capitaliseWord t ≠ [] := by
  match t with
  | [] => exact absurd rfl h
  | [c] => exact List.cons_ne_nil _ _
  | c :: d :: rest => exact List.cons_ne_nil _ _

theorem map_toLower_joined (behind : Bool) (ws : List Text) :
    (joined behind ws).map Char.toLower = ws.flatten.map Char.toLower := by
  have hmore : ∀ ws : List Text, ((ws.map capitaliseWord).flatten).map Char.toLower =
      ws.flatten.map Char.toLower := by
    intro ws
    rw [List.map_flatten, List.map_flatten, List.map_map]
    congr 2
    funext t
    exact map_toLower_capitaliseWord t
  cases ws with
  | nil => rfl
  | cons word more =>
    rw [joined, List.map_append, hmore, List.flatten_cons, List.map_append]
    split
    · rw [map_toLower_capitaliseWord]
    · rfl

theorem length_joined (behind : Bool) (ws : List Text) :
    (joined behind ws).length = ws.flatten.length := by
  have hlength := congrArg List.length (map_toLower_joined behind ws)
  rwa [List.length_map, List.length_map] at hlength

theorem joined_append (behind : Bool) (front : List Text) (word : Text) (back : List Text) :
    joined behind (front ++ word :: back) =
      joined behind front ++ (if behind = true ∨ front ≠ [] then capitaliseWord word else word) ++
        (back.map capitaliseWord).flatten := by
  cases front with
  | nil => simp [joined]
  | cons first more => simp [joined]

theorem capitalise_append {a : Text} (hne : a ≠ []) (b : Text) :
    capitalise (a ++ b) = capitalise a ++ b := by
  cases a with
  | nil => exact absurd rfl hne
  | cons c rest => rfl

theorem capitalise_capitalise (t : Text) : capitalise (capitalise t) = capitalise t := by
  cases t with
  | nil => rfl
  | cons c rest => simp only [capitalise, Char.toUpper_toUpper_eq_toUpper]

/-! ### What is kept -/

/-- The characters that stand between words. -/
def isSeparator (c : Char) : Bool := c == '-' || c == '_' || isBlank c

/-- A name without the characters that are neither letters, digits nor separators. -/
def kept (t : Text) : Text := t.filter fun c => c.isAlphanum || isSeparator c

/-- How a character of a name is read. -/
def spaced (c : Char) : Char := if c == '-' || c == '_' then ' ' else c

theorem isBlank_spaced (c : Char) : isBlank (spaced c) = isSeparator c := by
  rw [spaced, isSeparator]
  cases hmark : c == '-' || c == '_' with
  | true => rfl
  | false => rfl

theorem isSeparator_eq_false {c : Char} (h : c.isAlphanum = true) : isSeparator c = false := by
  rw [isSeparator, isBlank_eq_false_of_isAlphanum h, Bool.or_false, Bool.or_eq_false_iff,
    beq_eq_false_iff_ne, beq_eq_false_iff_ne]
  constructor <;> rintro rfl <;> exact absurd h (by decide)

theorem spaced_eq_self {c : Char} (h : isSeparator c = false) : spaced c = c := by
  rw [isSeparator, Bool.or_eq_false_iff] at h
  rw [spaced, if_neg (Bool.eq_false_iff.1 h.1)]

/-- Letters and digits are read as themselves. -/
theorem map_spaced_eq_self {t : Text} (h : ∀ c ∈ t, c.isAlphanum = true) : t.map spaced = t := by
  have hself : ∀ c ∈ t, spaced c = id c :=
    fun c hc => spaced_eq_self (isSeparator_eq_false (h c hc))
  rw [List.map_congr_left hself, List.map_id]

theorem wordText_eq (t : Text) : wordText t = (kept t).map spaced := by
  have hread : ∀ c, ((spaced c).isAlphanum || isBlank (spaced c)) =
      (c.isAlphanum || isSeparator c) := by
    intro c
    rw [isBlank_spaced]
    cases hsep : isSeparator c with
    | true => rw [Bool.or_true, Bool.or_true]
    | false => rw [spaced_eq_self hsep]
  rw [kept, ← funext hread]
  exact List.filter_map

/-- The words of what is kept are its letters and digits. -/
theorem flatten_words_spaced {t : Text}
    (h : ∀ c ∈ t, (c.isAlphanum || isSeparator c) = true) :
    (words (t.map spaced)).flatten = t.filter Char.isAlphanum := by
  have hnot : ∀ c ∈ t, (!isSeparator c) = c.isAlphanum := by
    intro c hc
    cases halnum : c.isAlphanum with
    | true => rw [isSeparator_eq_false halnum]; rfl
    | false =>
      have hsep := h c hc
      rw [halnum, Bool.false_or] at hsep
      rw [hsep]
      rfl
  have hfilter : t.filter (fun c => !isSeparator c) = t.filter Char.isAlphanum :=
    List.filter_congr hnot
  have hblank : (fun c => !isBlank c) ∘ spaced = fun c => !isSeparator c := by
    funext c
    exact congrArg not (isBlank_spaced c)
  rw [flatten_words, List.filter_map, hblank, hfilter]
  exact map_spaced_eq_self fun c hc => (List.mem_filter.1 hc).2

theorem filter_isAlphanum_kept (t : Text) :
    (kept t).filter Char.isAlphanum = t.filter Char.isAlphanum := by
  rw [kept, List.filter_filter]
  apply List.filter_congr
  intro c _
  cases c.isAlphanum <;> rfl

/-! ### Letters and digits -/

/-- Only the case of letters changes. -/
theorem map_toLower_pascalCase (t : Text) :
    (pascalCase t).map Char.toLower = (t.filter Char.isAlphanum).map Char.toLower := by
  have hkept : ∀ c ∈ kept t, (c.isAlphanum || isSeparator c) = true :=
    fun c hc => (List.mem_filter.1 hc).2
  rw [pascalCase_eq, map_toLower_capitalise, map_toLower_joined, wordText_eq,
    flatten_words_spaced hkept, filter_isAlphanum_kept]

theorem isAlphanum_of_mem_pascalCase {t : Text} {c : Char} (h : c ∈ pascalCase t) :
    c.isAlphanum = true := by
  have hmem : c.toLower ∈ (t.filter Char.isAlphanum).map Char.toLower := by
    rw [← map_toLower_pascalCase]
    exact List.mem_map_of_mem h
  obtain ⟨d, hd, hcase⟩ := List.mem_map.1 hmem
  rw [← isAlphanum_toLower, ← hcase, isAlphanum_toLower]
  exact (List.mem_filter.1 hd).2

/-- Pascal case leaves nothing of a name without ASCII letters and digits. -/
theorem pascalCase_eq_nil_iff {t : Text} :
    pascalCase t = [] ↔ ∀ c ∈ t, c.isAlphanum = false := by
  rw [← List.map_eq_nil_iff (f := Char.toLower), map_toLower_pascalCase, List.map_eq_nil_iff,
    List.filter_eq_nil_iff]
  simp only [Bool.not_eq_true]

theorem isLower_head_capitalise {t : Text} {c : Char} (h : (capitalise t).head? = some c) :
    c.isLower = false := by
  cases t with
  | nil => cases h
  | cons d rest =>
    cases h
    exact d.isLower_toUpper_eq_false

/-- A name without separators is one word, and only its first letter changes. -/
theorem pascalCase_of_isAlphanum {t : Text} (h : ∀ c ∈ t, c.isAlphanum = true) :
    pascalCase t = capitalise t := by
  have hkept : kept t = t := by
    rw [kept, List.filter_eq_self]
    intro c hc
    rw [h c hc, Bool.true_or]
  have hblank : ∀ c ∈ t, isBlank c = false :=
    fun c hc => isBlank_eq_false_of_isAlphanum (h c hc)
  rw [pascalCase_eq, wordText_eq, hkept, map_spaced_eq_self h]
  cases t with
  | nil => rfl
  | cons c rest =>
    rw [words_of_notBlank (List.cons_ne_nil c rest) hblank, startsBlank,
      hblank c List.mem_cons_self]
    simp [joined]

theorem pascalCase_pascalCase (t : Text) : pascalCase (pascalCase t) = pascalCase t := by
  rw [pascalCase_of_isAlphanum fun c => isAlphanum_of_mem_pascalCase, pascalCase_eq,
    capitalise_capitalise]

/-! ### Runs -/

/-- A separator stands at the end of what comes before a run. -/
def FollowsSeparator (before : Text) : Prop :=
  ∃ c, before.getLast? = some c ∧ isSeparator c = true

/-- A maximal run of letters and digits in what is kept of a name. -/
structure IsRun (name before run after : Text) : Prop where
  kept_eq : kept name = before ++ run ++ after
  ne_nil : run ≠ []
  isAlphanum : ∀ c ∈ run, c.isAlphanum = true
  starts : ∀ c, before.getLast? = some c → c.isAlphanum = false
  ends : ∀ c, after.head? = some c → c.isAlphanum = false

/-- How a run appears in Pascal case. -/
inductive Appears (before : Text) : (run shown : Text) → Prop
  | word {c : Char} {rest : Text} : FollowsSeparator before → rest ≠ [] →
      Appears before (c :: rest) (c.toUpper :: rest.map Char.toLower)
  | first {c : Char} {rest : Text} : ¬ (FollowsSeparator before ∧ rest ≠ []) →
      (∀ b ∈ before, b.isAlphanum = false) → Appears before (c :: rest) (c.toUpper :: rest)
  | other {c : Char} {rest : Text} : ¬ (FollowsSeparator before ∧ rest ≠ []) →
      (∃ b ∈ before, b.isAlphanum = true) → Appears before (c :: rest) (c :: rest)

variable {name before run after : Text}

theorem IsRun.isSeparator_of_mem {c : Char} (h : IsRun name before run after)
    (hmem : c ∈ before ++ after) (hc : c.isAlphanum = false) : isSeparator c = true := by
  have hkept : c ∈ kept name := by
    rw [h.kept_eq, List.append_assoc, List.mem_append, List.mem_append]
    exact (List.mem_append.1 hmem).imp_right Or.inr
  have hor := (List.mem_filter.1 hkept).2
  rwa [hc, Bool.false_or] at hor

theorem IsRun.followsSeparator_iff (h : IsRun name before run after) :
    FollowsSeparator before ↔ before ≠ [] := by
  constructor
  · rintro ⟨c, hc, -⟩ rfl
    cases hc
  · intro hne
    have hlast := List.getLast?_eq_some_getLast hne
    refine ⟨_, hlast, h.isSeparator_of_mem ?_ (h.starts _ hlast)⟩
    exact List.mem_append_left after (List.getLast_mem hne)

theorem IsRun.wordText_eq (h : IsRun name before run after) :
    wordText name = before.map spaced ++ run ++ after.map spaced := by
  rw [Text.wordText_eq, h.kept_eq, List.map_append, List.map_append,
    map_spaced_eq_self h.isAlphanum]

/-- A run is a word of its own. -/
theorem IsRun.words_eq (h : IsRun name before run after) :
    words (wordText name) =
      words (before.map spaced) ++ run :: words (after.map spaced) := by
  rw [h.wordText_eq]
  apply words_append_word h.ne_nil
  · exact fun c hc => isBlank_eq_false_of_isAlphanum (h.isAlphanum c hc)
  · intro c hc
    rw [List.getLast?_map, Option.map_eq_some_iff] at hc
    obtain ⟨d, hd, rfl⟩ := hc
    rw [isBlank_spaced]
    exact h.isSeparator_of_mem (List.mem_append_left after (List.mem_of_getLast? hd))
      (h.starts d hd)
  · intro c hc
    rw [List.head?_map, Option.map_eq_some_iff] at hc
    obtain ⟨d, hd, rfl⟩ := hc
    rw [isBlank_spaced]
    exact h.isSeparator_of_mem (List.mem_append_right before (List.mem_of_head? hd)) (h.ends d hd)

/-- A run is not the first word, or the name starts with a separator, exactly if something is kept
in front of it. -/
theorem IsRun.behind_iff (h : IsRun name before run after) :
    startsBlank (wordText name) = true ∨ words (before.map spaced) ≠ [] ↔ before ≠ [] := by
  rw [h.wordText_eq]
  cases before with
  | nil =>
    obtain ⟨c, rest, rfl⟩ := List.exists_cons_of_ne_nil h.ne_nil
    have hc := isBlank_eq_false_of_isAlphanum (h.isAlphanum c List.mem_cons_self)
    simp [startsBlank, hc, words, fields]
  | cons b before =>
    rw [ne_eq, words_eq_nil_iff]
    refine iff_of_true ?_ (List.cons_ne_nil b before)
    by_cases hb : isBlank (spaced b) = true
    · exact Or.inl hb
    · exact Or.inr fun hall => hb (hall _ (List.mem_map_of_mem List.mem_cons_self))

/-- A run behind something else is capitalised, and then the whole name is. -/
theorem IsRun.pascalCase_eq (h : IsRun name before run after) :
    ∃ front back, front.length = before.countP Char.isAlphanum ∧
      pascalCase name =
        capitalise (front ++ (if before ≠ [] then capitaliseWord run else run) ++ back) := by
  have hbefore : ∀ c ∈ before, (c.isAlphanum || isSeparator c) = true := by
    intro c hc
    cases halnum : c.isAlphanum with
    | true => rfl
    | false => exact h.isSeparator_of_mem (List.mem_append_left after hc) halnum
  refine ⟨joined (startsBlank (wordText name)) (words (before.map spaced)),
    ((words (after.map spaced)).map capitaliseWord).flatten, ?_, ?_⟩
  · rw [length_joined, flatten_words_spaced hbefore, List.countP_eq_length_filter]
  · simp only [Text.pascalCase_eq, h.words_eq, joined_append, h.behind_iff]

/-- A run behind a separator is capitalised. -/
theorem IsRun.appears_behind (h : IsRun name before run after)
    (hsome : ∃ b ∈ before, b.isAlphanum = true) :
    Appears before run (capitaliseWord run) := by
  have hne : before ≠ [] := by
    rintro rfl
    obtain ⟨b, hb, -⟩ := hsome
    exact List.not_mem_nil hb
  match run, h.ne_nil with
  | [c], _ => exact Appears.other (fun hlong => hlong.2 rfl) hsome
  | c :: d :: rest, _ => exact Appears.word (h.followsSeparator_iff.2 hne) (List.cons_ne_nil d rest)

/-- The first run gets a capital in any case. -/
theorem IsRun.appears_first (h : IsRun name before run after)
    (hnone : ∀ b ∈ before, b.isAlphanum = false) :
    Appears before run (capitalise (if before ≠ [] then capitaliseWord run else run)) := by
  by_cases hne : before ≠ []
  · rw [if_pos hne]
    match run, h.ne_nil with
    | [c], _ => exact Appears.first (fun hlong => hlong.2 rfl) hnone
    | c :: d :: rest, _ =>
      rw [capitaliseWord, capitalise, Char.toUpper_toUpper_eq_toUpper]
      exact Appears.word (h.followsSeparator_iff.2 hne) (List.cons_ne_nil d rest)
  · rw [if_neg hne]
    obtain ⟨c, rest, rfl⟩ := List.exists_cons_of_ne_nil h.ne_nil
    exact Appears.first (fun hlong => hne (h.followsSeparator_iff.1 hlong.1)) hnone

/-- **Every run appears at its place**: behind as many characters as there are letters and digits in
front of it. -/
theorem IsRun.appears (h : IsRun name before run after) :
    ∃ front shown back, pascalCase name = front ++ shown ++ back ∧
      front.length = before.countP Char.isAlphanum ∧ Appears before run shown := by
  obtain ⟨front, back, hlength, hname⟩ := h.pascalCase_eq
  by_cases hfirst : front = []
  · rw [hfirst, List.length_nil, eq_comm, List.countP_eq_zero] at hlength
    have hnone : ∀ b ∈ before, b.isAlphanum = false :=
      fun b hb => Bool.eq_false_iff.2 (hlength b hb)
    have hshown : (if before ≠ [] then capitaliseWord run else run) ≠ [] := by
      split
      · exact capitaliseWord_ne_nil h.ne_nil
      · exact h.ne_nil
    rw [hfirst, List.nil_append, capitalise_append hshown] at hname
    refine ⟨[], _, back, hname, ?_, h.appears_first hnone⟩
    exact (List.countP_eq_zero.2 hlength).symm
  · have hsome : ∃ b ∈ before, b.isAlphanum = true := by
      rw [← List.countP_pos_iff, ← hlength]
      exact List.length_pos_iff.2 hfirst
    have hne : before ≠ [] := by
      rintro rfl
      obtain ⟨b, hb, -⟩ := hsome
      exact List.not_mem_nil hb
    rw [if_pos hne, List.append_assoc, capitalise_append hfirst, ← List.append_assoc] at hname
    refine ⟨capitalise front, capitaliseWord run, back, hname, ?_, h.appears_behind hsome⟩
    rw [← hlength, ← List.length_map Char.toLower, map_toLower_capitalise, List.length_map]

/-- **Pascal case changes the case of letters alone, and changes nothing in its own result.** The
result has the letters and digits of the name, in their order, and does not start with a small
letter. Every run of letters and digits appears at its place. -/
theorem pascalCase_runs (name : Text) :
    (pascalCase name).map Char.toLower = (name.filter Char.isAlphanum).map Char.toLower ∧
    (∀ c, (pascalCase name).head? = some c → c.isLower = false) ∧
    (∀ before run after, IsRun name before run after →
      ∃ front shown back, pascalCase name = front ++ shown ++ back ∧
        front.length = before.countP Char.isAlphanum ∧ Appears before run shown) ∧
    pascalCase (pascalCase name) = pascalCase name := by
  refine ⟨map_toLower_pascalCase name, fun c hc => ?_, fun before run after h => h.appears,
    pascalCase_pascalCase name⟩
  rw [pascalCase_eq] at hc
  exact isLower_head_capitalise hc

/-- The name starts with a separator, a dot and an accented letter drop out of its words, and a word
of one letter stays small. -/
theorem pascalCase_runs_single :
    IsRun "-aB.c_d éF2".toList "-aBc_".toList "d".toList " F2".toList ∧
      (∃ front shown back, "AbcdF2".toList = front ++ shown ++ back ∧ front.length = 3 ∧
        Appears "-aBc_".toList "d".toList shown) ∧
      pascalCase "-aB.c_d éF2".toList = "AbcdF2".toList ∧
      pascalCase "AbcdF2".toList = "AbcdF2".toList := by
  have hrun : IsRun "-aB.c_d éF2".toList "-aBc_".toList "d".toList " F2".toList := by
    refine ⟨by decide +kernel, by decide, by simp, ?_, ?_⟩
    · rintro c ⟨⟩
      decide
    · rintro c ⟨⟩
      decide
  have hname : pascalCase "-aB.c_d éF2".toList = "AbcdF2".toList := by decide +kernel
  obtain ⟨-, -, hruns, hagain⟩ := pascalCase_runs "-aB.c_d éF2".toList
  have happears := hruns _ _ _ hrun
  rw [hname] at happears hagain
  exact ⟨hrun, happears, hname, hagain⟩

end EnvTemplates.Text
