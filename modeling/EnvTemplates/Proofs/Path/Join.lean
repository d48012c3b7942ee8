import Mathlib
import EnvTemplates.Path
import EnvTemplates.Proofs.Text.Cutting

/-!
# Joining names to paths

Joining the name of an entry to a path adds one component and leaves the others alone, however the
path was spelled (`components_join_name`), so that a path below a root spells out the names that
lead to it: different names give different paths (`joinAll_inj`). Paths are ordered by their
components, as `Before` says.
-/

namespace EnvTemplates

namespace Path

variable {p : Path} {name : Bytes}

theorem IsName.ne_dot (h : IsName name) : name ≠ dot := by
  rintro rfl
  exact absurd h.1 (by decide)

theorem slash_notMem_of_mem_fields {bytes part : Bytes} (h : part ∈ fields (· == slash) bytes) :
    slash ∉ part := by
  intro hslash
  have hfalse := not_sep_of_mem_fields h _ hslash
  simp at hfalse

theorem fields_eq_of_slash_notMem {part : Bytes} (h : slash ∉ part) :
    fields (· == slash) part = [part] := by
  rw [fields_eq_splitOnP]
  apply List.splitOnP_eq_singleton
  intro b hb
  rw [beq_eq_false_iff_ne]
  rintro rfl
  exact h hb

theorem IsName.fields_eq (h : IsName name) : fields (· == slash) name = [name] :=
  fields_eq_of_slash_notMem h.2.2

theorem IsName.component? (h : IsName name) : component? name = some (.name name) := by
  simp [Path.component?, h.1, h.2.1]

theorem isAbsolute_of_slash_notMem {part : Bytes} (h : slash ∉ part) :
    isAbsolute ⟨part⟩ = false := by
  cases part with
  | nil => rfl
  | cons b part =>
    have hb : b ≠ slash := by
      rintro rfl
      exact h List.mem_cons_self
    simp [isAbsolute, hb]

/-- The spellings of a path with a part joined to it. -/
theorem bytes_join {part : Bytes} (h : slash ∉ part) :
    (p.bytes = [] ∧ (p.join ⟨part⟩).bytes = part) ∨
      (∃ x, p.bytes = x ++ [slash] ∧ (p.join ⟨part⟩).bytes = x ++ slash :: part) ∨
      (p.bytes ≠ [] ∧ (p.join ⟨part⟩).bytes = p.bytes ++ slash :: part) := by
  rw [join, isAbsolute_of_slash_notMem h, if_neg (by simp)]
  by_cases hempty : p.bytes = []
  · exact Or.inl ⟨hempty, by simp [hempty]⟩
  · refine Or.inr ?_
    by_cases hslash : p.bytes.getLast? = some slash
    · obtain ⟨x, hx⟩ := List.getLast?_eq_some_iff.1 hslash
      exact Or.inl ⟨x, hx, by simp [hx]⟩
    · exact Or.inr ⟨hempty, by simp [hempty, hslash]⟩

/-! ### Parts behind a slash -/

theorem fields_append_slash (before after : Bytes) :
    fields (· == slash) (before ++ slash :: after) =
      fields (· == slash) before ++ fields (· == slash) after := by
  simp only [fields_eq_splitOnP]
  exact List.splitOnP_append_cons before after rfl

theorem head?_fields_append_slash (before after : Bytes) :
    (fields (· == slash) (before ++ slash :: after)).head? =
      (fields (· == slash) before).head? := by
  have hne : fields (· == slash) before ≠ [] := by
    rw [fields_eq_splitOnP]
    exact List.splitOnP_ne_nil _ _
  obtain ⟨part, parts, hparts⟩ := List.exists_cons_of_ne_nil hne
  rw [fields_append_slash, hparts]
  rfl

theorem front_of_nil (h : p.bytes = []) : p.front = [] := by
  rw [front, isAbsolute, segments, h]
  rfl

theorem front_congr {p q : Path} (habsolute : p.bytes.head? = q.bytes.head?)
    (hsegments : p.segments.head? = q.segments.head?) : p.front = q.front := by
  rw [front, front, isAbsolute, isAbsolute, habsolute, hsegments]

/-- A joined name leaves the front of a path as it is. -/
theorem front_join_name (h : IsName name) : (p.join ⟨name⟩).front = p.front := by
  -- A name is joined to nothing, to a path with a slash at its end, or with a slash in between.
  rcases bytes_join h.2.2 (p := p) with ⟨hempty, hjoin⟩ | ⟨x, hx, hjoin⟩ | ⟨hne, hjoin⟩
  · have habsolute : (p.join ⟨name⟩).isAbsolute = false := by
      rw [isAbsolute, hjoin]
      exact isAbsolute_of_slash_notMem h.2.2
    have hsegments : (p.join ⟨name⟩).segments = [name] := by
      rw [segments, hjoin]
      exact h.fields_eq
    rw [front_of_nil hempty, front, habsolute, hsegments]
    simp [h.ne_dot]
  · refine front_congr ?_ ?_
    · rw [hjoin, hx, List.head?_append, List.head?_append]
      rfl
    · rw [segments, segments, hjoin, hx, head?_fields_append_slash, head?_fields_append_slash]
  · refine front_congr ?_ ?_
    · obtain ⟨b, rest, hb⟩ := List.exists_cons_of_ne_nil hne
      rw [hjoin, hb]
      rfl
    · rw [segments, segments, hjoin, head?_fields_append_slash]

theorem length_front_le (p : Path) : p.front.length ≤ p.bytes.length := by
  by_cases hempty : p.bytes = []
  · rw [front_of_nil hempty]
    exact Nat.zero_le _
  · have hpos : 0 < p.bytes.length := List.length_pos_iff.2 hempty
    have hone : p.front.length ≤ 1 := by
      rw [front]
      split
      · exact Nat.le_refl _
      · split
        · exact Nat.le_refl _
        · exact Nat.zero_le _
    omega

/-- A joined name is the last part of a path. The parts before it stand for the same components as
those of the path that it was joined to. -/
theorem body_join_name (h : IsName name) :
    ∃ parts, (p.join ⟨name⟩).body = parts ++ [name] ∧
      parts.filterMap Path.component? = p.body.filterMap Path.component? := by
  have hlength := length_front_le p
  rw [body, body, front_join_name h]
  rcases bytes_join h.2.2 (p := p) with ⟨hempty, hjoin⟩ | ⟨x, hx, hjoin⟩ | ⟨-, hjoin⟩
  · rw [hempty] at hlength
    have hfront : p.front.length = 0 := Nat.le_zero.1 hlength
    refine ⟨[], ?_, ?_⟩
    · rw [hjoin, hfront]
      exact h.fields_eq
    · rw [hempty, List.drop_nil]
      rfl
  · rw [hx, List.length_append, List.length_singleton] at hlength
    rw [hjoin, hx]
    by_cases hinside : p.front.length ≤ x.length
    · refine ⟨fields (· == slash) (x.drop p.front.length), ?_, ?_⟩
      · rw [List.drop_append_of_le_length hinside, fields_append_slash, h.fields_eq]
      · rw [List.drop_append_of_le_length hinside, fields_append_slash, List.filterMap_append]
        exact (List.append_nil _).symm
    · -- All of the path is its front.
      have hall : p.front.length = (x ++ [slash]).length := by
        rw [List.length_append, List.length_singleton]
        omega
      refine ⟨[], ?_, ?_⟩
      · rw [hall, List.append_cons x slash name, List.drop_left]
        exact h.fields_eq
      · rw [hall, List.drop_length]
        rfl
  · refine ⟨fields (· == slash) (p.bytes.drop p.front.length), ?_, rfl⟩
    rw [hjoin, List.drop_append_of_le_length hlength, fields_append_slash, h.fields_eq]

theorem isAbsolute_eq_decide (p : Path) : p.isAbsolute = decide (p.front = [slash]) := by
  rw [front]
  cases p.isAbsolute with
  | true => rfl
  | false =>
    rw [if_neg (by simp)]
    split <;> rfl

/-- **A joined name is one more component.** -/
theorem components_join_name (h : IsName name) :
    (p.join ⟨name⟩).components = p.components ++ [.name name] := by
  obtain ⟨parts, hbody, hparts⟩ := body_join_name h (p := p)
  rw [components, components, isAbsolute_eq_decide, isAbsolute_eq_decide, front_join_name h, hbody,
    List.filterMap_append, hparts, List.append_assoc]
  simp only [List.filterMap_cons, List.filterMap_nil, h.component?]

theorem trimParts_concat (h : IsName name) (parts : List Bytes) :
    trimParts (parts ++ [name]) = parts ++ [name] := by
  rw [trimParts, List.reverse_append, List.reverse_singleton, List.singleton_append,
    List.dropWhile_cons_of_neg (by simp [h.1]), List.reverse_cons, List.reverse_reverse]

theorem fileName?_join_name (h : IsName name) : (p.join ⟨name⟩).fileName? = some name := by
  obtain ⟨parts, hbody, -⟩ := body_join_name h (p := p)
  rw [fileName?, hbody, trimParts_concat h, List.getLast?_concat]
  exact if_neg h.2.1

/-! ### Several names -/

/-- What a list of names leads to from a directory. -/
def joinAll (p : Path) (names : List Bytes) : Path :=
  names.foldl (fun p name => p.join ⟨name⟩) p

theorem joinAll_cons (p : Path) (name : Bytes) (names : List Bytes) :
    p.joinAll (name :: names) = (p.join ⟨name⟩).joinAll names := rfl

theorem joinAll_append (p : Path) (names more : List Bytes) :
    p.joinAll (names ++ more) = (p.joinAll names).joinAll more := List.foldl_append

theorem components_joinAll {names : List Bytes} (h : ∀ name ∈ names, IsName name) :
    ∀ p : Path, (p.joinAll names).components = p.components ++ names.map .name := by
  induction names with
  | nil =>
    intro p
    exact (List.append_nil _).symm
  | cons name names ih =>
    intro p
    obtain ⟨hname, hnames⟩ := List.forall_mem_cons.1 h
    rw [joinAll_cons, ih hnames, components_join_name hname, List.append_assoc]
    rfl

theorem map_name_injective : Function.Injective (List.map Component.name) :=
  List.map_injective_iff.2 fun _ _ h => Component.name.inj h

/-- Different names lead to different paths. -/
theorem joinAll_inj {names others : List Bytes} (h : ∀ name ∈ names, IsName name)
    (hothers : ∀ name ∈ others, IsName name) (heq : p.joinAll names = p.joinAll others) :
    names = others := by
  have hcomponents := congrArg components heq
  rw [components_joinAll h, components_joinAll hothers, List.append_cancel_left_eq] at hcomponents
  exact map_name_injective hcomponents

end Path

/-! ### The order of paths -/

/-- The place of a component among those of other kinds. -/
def Component.rank : Component → Nat
  | .root => 0
  | .here => 1
  | .up => 2
  | .name _ => 3

/-- The order of components: names by their bytes, behind all others. -/
def Component.Before : Component → Component → Prop
  | .name a, .name b => a < b
  | a, b => a.rank < b.rank

theorem Component.not_before_self : ∀ c : Component, ¬ c.Before c
  | .name a => List.lt_irrefl a
  | .root | .here | .up => Nat.lt_irrefl _

instance : Std.Asymm Component.Before where
  asymm
    | .name _, .name _ => List.lt_asymm
    | .root, _ | .here, _ | .up, _ | .name _, .root | .name _, .here | .name _, .up =>
      fun h h' => by
        simp only [Component.Before, Component.rank] at h h'
        grind

namespace Path

/-- The order of paths by their components. -/
def Before (p q : Path) : Prop := List.Lex Component.Before p.components q.components

theorem not_before_self (p : Path) : ¬ p.Before p :=
  List.lex_irrefl Component.not_before_self p.components

theorem not_before_of_before {p q : Path} (h : p.Before q) : ¬ q.Before p :=
  (List.Lex.asymm Component.Before).asymm _ _ h

/-- Entries of a directory come in the order of their names, with all that is below them. -/
theorem joinAll_before {name other : Bytes} {names others : List Bytes} (hlt : name < other)
    (hnames : ∀ n ∈ name :: names, IsName n) (hothers : ∀ n ∈ other :: others, IsName n)
    (p : Path) : (p.joinAll (name :: names)).Before (p.joinAll (other :: others)) := by
  -- The paths part at the first names, so what is below them does not matter.
  have hfirst : Component.Before (.name name) (.name other) := hlt
  rw [Before, components_joinAll hnames, components_joinAll hothers]
  exact List.Lex.append_left _ (List.Lex.rel hfirst) _

end Path

end EnvTemplates
