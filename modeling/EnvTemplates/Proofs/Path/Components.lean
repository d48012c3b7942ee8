import EnvTemplates.Proofs.Path.Join

/-!
# What a path stands for

Two spellings of a path have the same components if they start at the same place and have the same
steps, idle parts left out (`isAbsolute_eq_of_components_eq`, `steps_eq_of_components_eq`). The
parent of an entry of a directory is spelled without the idle parts at the end of the directory's
path, and stands for the same (`components_parent?_join_name`).
-/

namespace EnvTemplates.Path

variable {p q : Path} {name part front : Bytes} {parts more : List Bytes}

/-! ### Parts and components -/

theorem component?_eq_none_iff : component? part = none ↔ isIdle part = true := by
  rw [component?]
  cases isIdle part with
  | true => simp
  | false =>
    simp only [Bool.false_eq_true, if_false, iff_false]
    split <;> simp

theorem component?_dots : component? dots = some .up := by decide

theorem component?_eq_some_iff {c : Component} : component? part = some c ↔
    isIdle part = false ∧ c = if part = dots then .up else .name part := by
  rw [component?]
  cases isIdle part with
  | true => simp
  | false =>
    simp only [Bool.false_eq_true, if_false, true_and]
    split <;> rw [Option.some.injEq, eq_comm]

/-- A component is spelled in one way. -/
theorem component?_inj {other : Bytes} {c : Component} (h : component? part = some c)
    (hother : component? other = some c) : part = other := by
  rw [component?_eq_some_iff] at h hother
  have heq := h.2.symm.trans hother.2
  split at heq <;> split at heq
  · next hpart hother => rw [hpart, hother]
  · cases heq
  · cases heq
  · exact Component.name.inj heq

/-- The parts of a path that lead on, as components: up, or to a name. -/
def steps (p : Path) : List Component := p.segments.filterMap component?

/-- Whether a component leads on from where the path stands. -/
def IsStep (c : Component) : Prop := c ≠ .root ∧ c ≠ .here

instance (c : Component) : Decidable (IsStep c) :=
  inferInstanceAs (Decidable (c ≠ .root ∧ c ≠ .here))

theorem isStep_of_component? {c : Component} (h : component? part = some c) : IsStep c := by
  obtain ⟨-, rfl⟩ := component?_eq_some_iff.1 h
  split
  · decide
  · exact ⟨nofun, nofun⟩

/-- A list of bytes is its first part, or that and what stands behind a slash. -/
theorem eq_of_fields_eq_cons {bytes : Bytes} (h : fields (· == slash) bytes = part :: more) :
    (bytes = part ∧ more = []) ∨
      ∃ rest, bytes = part ++ slash :: rest ∧ more = fields (· == slash) rest := by
  have hne : ∀ l : Bytes, fields (· == slash) l ≠ [] := by
    intro l
    rw [fields_eq_splitOnP]
    exact List.splitOnP_ne_nil _ _
  induction bytes generalizing part more with
  | nil =>
    rw [fields] at h
    obtain ⟨rfl, rfl⟩ := List.cons.inj h
    exact Or.inl ⟨rfl, rfl⟩
  | cons b bytes ih =>
    rw [fields] at h
    split at h
    · next hb =>
      obtain ⟨rfl, rfl⟩ := List.cons.inj h
      rw [beq_iff_eq] at hb
      exact Or.inr ⟨bytes, by rw [hb]; rfl, rfl⟩
    · split at h
      · next hnil => exact absurd hnil (hne bytes)
      · next field rest hcons =>
        obtain ⟨rfl, rfl⟩ := List.cons.inj h
        rcases ih hcons with ⟨rfl, rfl⟩ | ⟨after, rfl, rfl⟩
        · exact Or.inl ⟨rfl, rfl⟩
        · exact Or.inr ⟨after, rfl, rfl⟩

/-- How a path starts: at the root, at a dot, or with a part that leads on. -/
theorem front_cases (p : Path) :
    (∃ rest, p.bytes = slash :: rest ∧ p.front = [slash] ∧ p.body = fields (· == slash) rest) ∨
    (p.bytes = dot ∧ p.front = dot ∧ p.body = [[]]) ∨
    (∃ rest, p.bytes = dot ++ slash :: rest ∧ p.front = dot ∧
      p.body = [] :: fields (· == slash) rest) ∨
    (p.isAbsolute = false ∧ p.segments.head? ≠ some dot ∧ p.front = [] ∧ p.body = p.segments) := by
  cases habsolute : p.isAbsolute with
  | true =>
    obtain ⟨rest, hrest⟩ : ∃ rest, p.bytes = slash :: rest := by
      rw [isAbsolute, decide_eq_true_eq] at habsolute
      exact List.head?_eq_some_iff.1 habsolute
    have hfront : p.front = [slash] := by rw [front, habsolute, if_pos rfl]
    refine Or.inl ⟨rest, hrest, hfront, ?_⟩
    rw [body, hfront, hrest]
    rfl
  | false =>
    refine Or.inr ?_
    by_cases hdot : p.segments.head? = some dot
    · have hfront : p.front = dot := by rw [front, habsolute, if_neg (by simp), if_pos hdot]
      obtain ⟨more, hmore⟩ := List.head?_eq_some_iff.1 hdot
      rcases eq_of_fields_eq_cons hmore with ⟨hbytes, -⟩ | ⟨rest, hbytes, -⟩
      · refine Or.inl ⟨hbytes, hfront, ?_⟩
        rw [body, hfront, hbytes]
        rfl
      · refine Or.inr (Or.inl ⟨rest, hbytes, hfront, ?_⟩)
        rw [body, hfront, hbytes]
        rfl
    · have hfront : p.front = [] := by rw [front, habsolute, if_neg (by simp), if_neg hdot]
      refine Or.inr (Or.inr ⟨rfl, hdot, hfront, ?_⟩)
      rw [body, hfront]
      rfl

/-- The body of a path has its steps. -/
theorem filterMap_body (p : Path) : p.body.filterMap component? = p.steps := by
  rw [steps, segments]
  rcases front_cases p with ⟨rest, hbytes, -, hbody⟩ | ⟨hbytes, -, hbody⟩ |
    ⟨rest, hbytes, -, hbody⟩ | ⟨-, -, -, hbody⟩
  · rw [hbody, hbytes]
    rfl
  · rw [hbody, hbytes]
    rfl
  · rw [hbody, hbytes, fields_append_slash]
    rfl
  · rw [hbody, segments]

theorem components_eq (p : Path) : p.components =
    (if p.front = [] then [] else if p.isAbsolute then [.root] else [.here]) ++ p.steps := by
  rw [components, filterMap_body]

theorem filter_steps (p : Path) : p.steps.filter (fun c => IsStep c) = p.steps := by
  rw [List.filter_eq_self]
  intro c hc
  obtain ⟨part, -, hpart⟩ := List.mem_filterMap.1 hc
  exact decide_eq_true (isStep_of_component? hpart)

theorem steps_eq_filter (p : Path) : p.steps = p.components.filter fun c => IsStep c := by
  rw [components_eq, List.filter_append, filter_steps]
  split
  · rfl
  · split <;> rfl

theorem root_mem_components_iff (p : Path) : .root ∈ p.components ↔ p.isAbsolute = true := by
  have hsteps : .root ∉ p.steps := by
    intro hmem
    rw [← filter_steps] at hmem
    have hstep := (List.mem_filter.1 hmem).2
    exact absurd hstep (by decide)
  have habsolute := isAbsolute_eq_decide p
  rw [components_eq, List.mem_append, or_iff_left hsteps]
  by_cases hfront : p.front = [slash]
  · simp [habsolute, hfront]
  · simp only [habsolute, hfront, decide_false, Bool.false_eq_true, if_false, iff_false]
    split <;> simp

/-- Paths with the same components have the same steps. -/
theorem steps_eq_of_components_eq (h : p.components = q.components) : p.steps = q.steps := by
  rw [steps_eq_filter, steps_eq_filter, h]

/-- Paths with the same components start at the same place. -/
theorem isAbsolute_eq_of_components_eq (h : p.components = q.components) :
    p.isAbsolute = q.isAbsolute := by
  rw [Bool.eq_iff_iff, ← root_mem_components_iff, ← root_mem_components_iff, h]

/-! ### Parents -/

/-- Parts that can stand behind a front, so that they do not change it. -/
def Fits (front : Bytes) (parts : List Bytes) : Prop :=
  front = [slash] ∨ (front = dot ∧ ∀ part ∈ parts.head?, part = []) ∨
    (front = [] ∧ ∀ part ∈ parts.head?, part ≠ [] ∧ part ≠ dot)

theorem fits_body (h : p.bytes ≠ []) : Fits p.front p.body := by
  rcases front_cases p with ⟨rest, -, hfront, -⟩ | ⟨-, hfront, hbody⟩ | ⟨rest, -, hfront, hbody⟩ |
    ⟨habsolute, hdot, hfront, hbody⟩
  · exact Or.inl hfront
  · refine Or.inr (Or.inl ⟨hfront, ?_⟩)
    simp [hbody]
  · refine Or.inr (Or.inl ⟨hfront, ?_⟩)
    simp [hbody]
  · refine Or.inr (Or.inr ⟨hfront, fun part hpart => ?_⟩)
    rw [hbody] at hpart
    constructor
    · -- A path that starts with an empty part is empty, or it starts with a slash.
      rintro rfl
      obtain ⟨more, hmore⟩ := List.head?_eq_some_iff.1 hpart
      rcases eq_of_fields_eq_cons hmore with ⟨hbytes, -⟩ | ⟨rest, hbytes, -⟩
      · exact h hbytes
      · rw [isAbsolute, hbytes] at habsolute
        exact absurd habsolute (by simp)
    · rintro rfl
      exact hdot hpart

theorem Fits.of_prefix (h : Fits front parts) {start : List Bytes} (hstart : start <+: parts) :
    Fits front start := by
  have hhead : ∀ part ∈ start.head?, part ∈ parts.head? := by
    obtain ⟨more, rfl⟩ := hstart
    cases start with
    | nil => exact nofun
    | cons first start => exact fun part hpart => hpart
  refine h.imp id (Or.imp ?_ ?_)
  · exact And.imp id fun hparts part hpart => hparts part (hhead part hpart)
  · exact And.imp id fun hparts part hpart => hparts part (hhead part hpart)

theorem prefix_trimParts (parts : List Bytes) : trimParts parts <+: parts := by
  rw [trimParts, ← List.reverse_suffix, List.reverse_reverse]
  exact List.dropWhile_suffix _

theorem filterMap_trimParts (parts : List Bytes) :
    (trimParts parts).filterMap component? = parts.filterMap component? := by
  rw [trimParts, ← List.reverse_inj, ← List.filterMap_reverse, ← List.filterMap_reverse,
    List.reverse_reverse]
  induction parts.reverse with
  | nil => rfl
  | cons part parts ih =>
    rw [List.dropWhile_cons]
    split
    · next hidle => rw [ih, List.filterMap_cons_none (component?_eq_none_iff.2 hidle)]
    · rfl

theorem isIdle_of_trimParts_eq_concat {parts front : List Bytes} {last : Bytes}
    (h : trimParts parts = front ++ [last]) : isIdle last = false := by
  have hdrop : parts.reverse.dropWhile isIdle = last :: front.reverse := by
    rw [← List.reverse_inj, ← trimParts, h, List.reverse_cons, List.reverse_reverse]
  have hhead := List.head?_dropWhile_not isIdle parts.reverse
  rw [hdrop] at hhead
  exact hhead

/-- A path whose last step is a name has that file name. -/
theorem fileName?_of_steps {before : List Component} {name : Bytes}
    (h : p.steps = before ++ [.name name]) : p.fileName? = some name := by
  have hparts : (trimParts p.body).filterMap component? = before ++ [.name name] := by
    rw [filterMap_trimParts, filterMap_body, h]
  rcases List.eq_nil_or_concat' (trimParts p.body) with hnil | ⟨front, last, hlast⟩
  · rw [hnil] at hparts
    exact absurd hparts.symm (by simp)
  · -- The last part is the one that the last step comes from.
    have hc := component?_eq_some_iff.2 ⟨isIdle_of_trimParts_eq_concat hlast, rfl⟩
    rw [hlast, List.filterMap_append, List.filterMap_cons_some hc] at hparts
    have hname := List.singleton_inj.1 (List.append_inj' hparts rfl).2
    split at hname
    · cases hname
    · next hdots =>
      rw [fileName?, hlast, List.getLast?_concat, ← Component.name.inj hname]
      exact if_neg hdots

/-- The parts of a path that is spelled with slashes between them. -/
theorem fields_ofSegments (hparts : ∀ part ∈ parts, slash ∉ part) (hne : parts ≠ []) :
    fields (· == slash) (ofSegments parts).bytes = parts := by
  rw [fields_eq_splitOnP]
  exact List.splitOn_intercalate slash hparts hne

theorem filterMap_fields_ofSegments (hparts : ∀ part ∈ parts, slash ∉ part) :
    (fields (· == slash) (ofSegments parts).bytes).filterMap component? =
      parts.filterMap component? := by
  by_cases hne : parts = []
  · rw [hne]
    rfl
  · rw [fields_ofSegments hparts hne]

/-- The path of a front and some parts behind it has this front. -/
theorem front_mk (h : Fits front parts) (hparts : ∀ part ∈ parts, slash ∉ part) :
    Path.front ⟨front ++ (ofSegments parts).bytes⟩ = front := by
  rcases h with rfl | ⟨rfl, hhead⟩ | ⟨rfl, hhead⟩
  · rfl
  · rcases parts with _ | ⟨part, _ | ⟨next, more⟩⟩
    · rfl
    · rw [hhead part rfl]
      rfl
    · obtain rfl := hhead part rfl
      have hbytes : dot ++ (ofSegments ([] :: next :: more)).bytes =
          dot ++ slash :: (ofSegments (next :: more)).bytes := by
        rw [ofSegments, List.intercalate_cons_cons]
        rfl
      rw [hbytes, front, segments, head?_fields_append_slash]
      rfl
  · rw [List.nil_append]
    cases parts with
    | nil => rfl
    | cons part more =>
      obtain ⟨hne, hdot⟩ := hhead part rfl
      have hsegments : segments ⟨(ofSegments (part :: more)).bytes⟩ = part :: more :=
        fields_ofSegments hparts (List.cons_ne_nil _ _)
      have habsolute : isAbsolute ⟨(ofSegments (part :: more)).bytes⟩ = false := by
        obtain ⟨b, rest, rfl⟩ := List.exists_cons_of_ne_nil hne
        have hb : b ≠ slash := by
          rintro rfl
          exact hparts _ List.mem_cons_self List.mem_cons_self
        cases more with
        | nil => simp [isAbsolute, ofSegments, hb]
        | cons next more => simp [isAbsolute, ofSegments, List.intercalate_cons_cons, hb]
      rw [front, habsolute, hsegments]
      simp [hdot]

/-- **The parent of an entry of a directory** stands for the directory. -/
theorem components_parent?_join_name (h : IsName name) :
    ∃ q, (p.join ⟨name⟩).parent? = some q ∧ q.components = p.components := by
  obtain ⟨parts, hbody, hparts⟩ := body_join_name h (p := p)
  have hne : (p.join ⟨name⟩).bytes ≠ [] := by
    intro hempty
    have hsingle : (p.join ⟨name⟩).body = [[]] := by
      rw [body, hempty, List.drop_nil]
      rfl
    rw [hbody] at hsingle
    have hlast := congrArg List.getLast? hsingle
    rw [List.getLast?_concat] at hlast
    cases hlast
    exact absurd h.1 (by decide)
  have hfits : Fits p.front (trimParts parts) := by
    have hfits := fits_body hne
    rw [front_join_name h, hbody] at hfits
    exact hfits.of_prefix ((prefix_trimParts parts).trans (List.prefix_append _ _))
  have hslash : ∀ part ∈ trimParts parts, slash ∉ part := by
    intro part hpart
    have hin : part ∈ (p.join ⟨name⟩).body := by
      rw [hbody]
      exact List.mem_append_left _ ((prefix_trimParts parts).subset hpart)
    exact slash_notMem_of_mem_fields hin
  refine ⟨⟨p.front ++ (ofSegments (trimParts parts)).bytes⟩, ?_, ?_⟩
  · rw [parent?, hbody, trimParts_concat h]
    split
    · next hnil => exact absurd hnil (by simp)
    · rw [List.dropLast_concat, front_join_name h]
  · have hfront := front_mk hfits hslash
    rw [components, components, isAbsolute_eq_decide, isAbsolute_eq_decide, hfront, body, hfront,
      List.drop_left, filterMap_fields_ofSegments hslash, filterMap_trimParts, hparts]

/-! ### File names -/

/-- A path with a file name ends in the part with this name. -/
theorem trimParts_of_fileName? (h : p.fileName? = some name) :
    name ≠ dots ∧ ∃ parts, trimParts p.body = parts ++ [name] := by
  rw [fileName?] at h
  split at h
  · next part hlast =>
    obtain ⟨hdots, rfl⟩ : part ≠ dots ∧ part = name := by simpa using h
    exact ⟨hdots, List.getLast?_eq_some_iff.1 hlast⟩
  · cases h

theorem slash_notMem_fileName? (h : p.fileName? = some name) : slash ∉ name := by
  obtain ⟨-, parts, hparts⟩ := trimParts_of_fileName? h
  have hmem : name ∈ trimParts p.body := by
    rw [hparts]
    exact List.mem_append_right parts (List.mem_singleton_self name)
  exact slash_notMem_of_mem_fields ((prefix_trimParts p.body).subset hmem)

/-- A file name can be the name of an entry. -/
theorem isName_of_fileName? (h : p.fileName? = some name) : IsName name := by
  obtain ⟨hdots, parts, hparts⟩ := trimParts_of_fileName? h
  exact ⟨isIdle_of_trimParts_eq_concat hparts, hdots, slash_notMem_fileName? h⟩

/-- What has a file name has a parent. -/
theorem exists_parent?_of_fileName? (h : p.fileName? = some name) : ∃ q, p.parent? = some q := by
  obtain ⟨-, parts, hparts⟩ := trimParts_of_fileName? h
  rw [parent?, hparts]
  split
  · next hnil => exact absurd hnil (by simp)
  · exact ⟨_, rfl⟩

/-! ### Joined parts -/

/-- A part leads on from the path that it is joined to, unless it says nothing. -/
theorem steps_join (h : slash ∉ part) :
    (p.join ⟨part⟩).steps = p.steps ++ (component? part).toList := by
  have hpart : (fields (· == slash) part).filterMap component? = (component? part).toList := by
    rw [fields_eq_of_slash_notMem h]
    cases hc : component? part with
    | none => rw [List.filterMap_cons_none hc, List.filterMap_nil, Option.toList_none]
    | some c => rw [List.filterMap_cons_some hc, List.filterMap_nil, Option.toList_some]
  rw [steps, steps, segments, segments]
  rcases bytes_join h (p := p) with ⟨hempty, hjoin⟩ | ⟨x, hx, hjoin⟩ | ⟨-, hjoin⟩
  · rw [hjoin, hempty, hpart]
    rfl
  · -- Nothing stands behind the slash at the end of the path.
    rw [hjoin, hx, fields_append_slash, fields_append_slash, List.filterMap_append,
      List.filterMap_append, hpart]
    simp [fields, component?, isIdle]
  · rw [hjoin, fields_append_slash, List.filterMap_append, hpart]

theorem isAbsolute_join (h : slash ∉ part) : (p.join ⟨part⟩).isAbsolute = p.isAbsolute := by
  rcases bytes_join h (p := p) with ⟨hempty, hjoin⟩ | ⟨x, hx, hjoin⟩ | ⟨hne, hjoin⟩
  · rw [isAbsolute, hjoin, isAbsolute, hempty]
    exact isAbsolute_of_slash_notMem h
  · rw [isAbsolute, isAbsolute, hjoin, hx, List.head?_append, List.head?_append]
    rfl
  · obtain ⟨b, rest, hb⟩ := List.exists_cons_of_ne_nil hne
    rw [isAbsolute, isAbsolute, hjoin, hb]
    rfl

end EnvTemplates.Path
