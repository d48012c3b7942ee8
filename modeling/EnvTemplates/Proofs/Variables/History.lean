import Mathlib.Data.List.Nodup
import EnvTemplates.Proofs.Variables
import EnvTemplates.Proofs.Variables.Declarations

/-!
# The last declaration wins

Variables come about by insertions, one after the other, from none. Of each key they hold what was
inserted last, in the place of that insertion, and nothing of what was inserted before. So they are
the history of insertions with `keepLast` run over it once at the end (`Reached.toList_eq`), and it
makes no difference whether a part of the history was cleared of its repetitions before
(`keepLast_append_keepLast`).
-/

namespace EnvTemplates.Variables

/-! ### Last declarations -/

/-- Of each key, the last variable that has it, in its place. -/
def keepLast : List Variable → List Variable
  | [] => []
  | v :: rest => if ∃ u ∈ rest, u.key = v.key then keepLast rest else v :: keepLast rest

/-- A variable stands in a list, and none behind it has its key. -/
def IsLastIn (v : Variable) (l : List Variable) : Prop :=
  ∃ before after, l = before ++ v :: after ∧ v.key ∉ after.map (·.key)

variable {v : Variable} {l history : List Variable} {vs : Variables}

theorem keepLast_cons_of_mem (h : v.key ∈ l.map (·.key)) : keepLast (v :: l) = keepLast l :=
  if_pos (List.mem_map.1 h)

theorem keepLast_cons_of_notMem (h : v.key ∉ l.map (·.key)) :
    keepLast (v :: l) = v :: keepLast l :=
  if_neg (mt List.mem_map.2 h)

/-- No key is lost. -/
theorem mem_keys_keepLast {key : Text} : ∀ {l : List Variable},
    key ∈ (keepLast l).map (·.key) ↔ key ∈ l.map (·.key)
  | [] => Iff.rfl
  | v :: l => by
    by_cases hv : v.key ∈ l.map (·.key)
    · rw [keepLast_cons_of_mem hv, mem_keys_keepLast, List.map_cons, List.mem_cons]
      refine ⟨Or.inr, ?_⟩
      rintro (rfl | h)
      · exact hv
      · exact h
    · rw [keepLast_cons_of_notMem hv, List.map_cons, List.mem_cons, mem_keys_keepLast,
        List.map_cons, List.mem_cons]

theorem nodup_keys_keepLast : ∀ l : List Variable, ((keepLast l).map (·.key)).Nodup
  | [] => List.nodup_nil
  | v :: l => by
    by_cases hv : v.key ∈ l.map (·.key)
    · rw [keepLast_cons_of_mem hv]
      exact nodup_keys_keepLast l
    · rw [keepLast_cons_of_notMem hv, List.map_cons, List.nodup_cons, mem_keys_keepLast]
      exact ⟨hv, nodup_keys_keepLast l⟩

theorem keepLast_of_nodup (h : (l.map (·.key)).Nodup) : keepLast l = l := by
  induction l with
  | nil => rfl
  | cons v l ih =>
    obtain ⟨hv, hl⟩ := List.nodup_cons.1 h
    rw [keepLast_cons_of_notMem hv, ih hl]

/-- What is kept of a list with more behind it: the keys that come again are dropped. -/
theorem keepLast_append (a b : List Variable) :
    keepLast (a ++ b) = (keepLast a).filter (fun v => v.key ∉ b.map (·.key)) ++ keepLast b := by
  induction a with
  | nil => rfl
  | cons v a ih =>
    rw [List.cons_append]
    by_cases ha : v.key ∈ a.map (·.key)
    · have hab : v.key ∈ (a ++ b).map (·.key) := by
        rw [List.map_append]
        exact List.mem_append_left _ ha
      rw [keepLast_cons_of_mem ha, keepLast_cons_of_mem hab, ih]
    · rw [keepLast_cons_of_notMem ha]
      by_cases hb : v.key ∈ b.map (·.key)
      · have hab : v.key ∈ (a ++ b).map (·.key) := by
          rw [List.map_append]
          exact List.mem_append_right _ hb
        rw [keepLast_cons_of_mem hab, List.filter_cons_of_neg (by simpa using hb), ih]
      · have hab : v.key ∉ (a ++ b).map (·.key) := by
          rw [List.map_append, List.mem_append, not_or]
          exact ⟨ha, hb⟩
        rw [keepLast_cons_of_notMem hab, List.filter_cons_of_pos (by simpa using hb), ih,
          List.cons_append]

/-- The step lemma: an insertion drops the key and puts the variable at the end. -/
theorem keepLast_concat (l : List Variable) (v : Variable) :
    keepLast (l ++ [v]) = without v.key (keepLast l) ++ [v] := by
  rw [keepLast_append, without]
  simp only [List.map_cons, List.map_nil, List.mem_singleton]
  rfl

theorem keepLast_append_keepLast (a b : List Variable) :
    keepLast (a ++ keepLast b) = keepLast (a ++ b) := by
  rw [keepLast_append, keepLast_append, keepLast_of_nodup (nodup_keys_keepLast b)]
  simp only [mem_keys_keepLast]

/-- What is kept is what stands last. -/
theorem mem_keepLast_iff : v ∈ keepLast l ↔ IsLastIn v l := by
  constructor
  · induction l with
    | nil => exact fun h => absurd h List.not_mem_nil
    | cons u l ih =>
      have hrest : v ∈ keepLast l → IsLastIn v (u :: l) := by
        intro h
        obtain ⟨before, after, rfl, hlast⟩ := ih h
        exact ⟨u :: before, after, rfl, hlast⟩
      intro h
      by_cases hu : u.key ∈ l.map (·.key)
      · rw [keepLast_cons_of_mem hu] at h
        exact hrest h
      · rw [keepLast_cons_of_notMem hu] at h
        rcases List.mem_cons.1 h with rfl | h
        · exact ⟨[], l, rfl, hu⟩
        · exact hrest h
  · rintro ⟨before, after, rfl, hlast⟩
    rw [keepLast_append, keepLast_cons_of_notMem hlast]
    exact List.mem_append_right _ List.mem_cons_self

/-! ### Histories -/

/-- Variables come about by inserting those of a history, one after the other, into none. -/
inductive Reached : List Variable → Variables → Prop
  | empty : Reached [] {}
  | insert {history : List Variable} {vs : Variables} (v : Variable) :
      Reached history vs → Reached (history ++ [v]) (vs.insert v)

theorem Reached.insertAll (h : Reached history vs) (l : List Variable) :
    Reached (history ++ l) (vs.insertAll l) := by
  induction l generalizing history vs with
  | nil =>
    rw [List.append_nil]
    exact h
  | cons v l ih =>
    rw [List.append_cons]
    exact ih (h.insert v)

theorem reached_ofList (l : List Variable) : Reached l (ofList l) := Reached.empty.insertAll l

/-- The run lemma: the variables are what is kept of their history. -/
theorem Reached.toList_eq (h : Reached history vs) : vs.toList = keepLast history := by
  induction h with
  | empty => rfl
  | insert v _ ih =>
    rw [keepLast_concat, ← ih]
    rfl

theorem eq_of_reached {vs' : Variables} {history' : List Variable} (h : Reached history vs)
    (h' : Reached history' vs') (hkept : keepLast history = keepLast history') : vs = vs' := by
  rw [← h.toList_eq, ← h'.toList_eq] at hkept
  exact eq_of_toList_eq hkept

/-- Variables hold the last of each key in a history, in the order of the history, and look-ups find
it. -/
structure HoldsLast (vs : Variables) (history : List Variable) : Prop where
  distinct : vs.keys.Nodup
  toList_eq : vs.toList = keepLast history
  get?_eq_some : ∀ key value, vs.get? key = some value ↔ IsLastIn ⟨key, value⟩ history
  get?_eq_none : ∀ key, vs.get? key = none ↔ key ∉ history.map (·.key)

theorem Reached.holdsLast (h : Reached history vs) : HoldsLast vs history := by
  have hlist := h.toList_eq
  refine ⟨?_, hlist, fun key value => ?_, fun key => ?_⟩
  · rw [keys, hlist]
    exact nodup_keys_keepLast history
  · rw [Variables.get?_eq_some_iff, hlist, mem_keepLast_iff]
  · rw [Variables.get?_eq_none_iff, keys, hlist, mem_keys_keepLast]

/-- **The last declaration of a key wins, and the order is that of the last declarations.** A text
gives what is kept of the declarations on its lines. Whatever is inserted into variables that were
reached before, they hold the last of each key in the whole history. And a text behind another one
does the same as inserting what it declares on its own. -/
theorem last_declaration_wins :
    (∀ text : Text, ∃ lines declared, text.IsSplit lines ∧ Reads lines declared ∧
      HoldsLast (parse text) declared) ∧
    (∀ history vs, Reached history vs → ∀ more, HoldsLast (vs.insertAll more) (history ++ more)) ∧
    ∀ a b : Text, parse (a ++ '\n' :: b) = (parse a).insertAll (parse b).toList := by
  refine ⟨fun text => ?_, fun history vs h more => ?_, fun a b => ?_⟩
  · obtain ⟨lines, hsplit, hreads⟩ := declarations_eq_iff.1 (Eq.refl (declarations text))
    exact ⟨lines, _, hsplit, hreads, (reached_ofList _).holdsLast⟩
  · exact (h.insertAll more).holdsLast
  · -- Both have the same history, but for the repetitions in `b`.
    have hboth : Reached (declarations (a ++ '\n' :: b)) (parse (a ++ '\n' :: b)) :=
      reached_ofList _
    have hfirst : Reached (declarations a) (parse a) := reached_ofList _
    have hsecond : (parse b).toList = keepLast (declarations b) := (reached_ofList _).toList_eq
    apply eq_of_reached hboth (hfirst.insertAll _)
    rw [declarations_append, hsecond, keepLast_append_keepLast]

/-- Two declarations of `A` and one of `B`. -/
def repeated : List Variable :=
  [⟨"A".toList, "1".toList⟩, ⟨"A".toList, "3".toList⟩, ⟨"B".toList, "2".toList⟩]

/-- Once `A` is declared again, it has the last value and stands behind `B`. -/
theorem last_declaration_wins_repeated :
    Reached repeated (ofList repeated) ∧
      ((ofList repeated).insertAll [⟨"A".toList, "1".toList⟩]).toList =
        [⟨"B".toList, "2".toList⟩, ⟨"A".toList, "1".toList⟩] ∧
      ((ofList repeated).insertAll [⟨"A".toList, "1".toList⟩]).get? "A".toList =
        some "1".toList ∧
      ((ofList repeated).insertAll [⟨"A".toList, "1".toList⟩]).get? "C".toList = none := by
  have hreached : Reached repeated (ofList repeated) := reached_ofList repeated
  have hholds := last_declaration_wins.2.1 _ _ hreached [⟨"A".toList, "1".toList⟩]
  refine ⟨hreached, ?_, ?_, ?_⟩
  · rw [hholds.toList_eq]
    decide
  · rw [hholds.get?_eq_some]
    exact ⟨repeated, [], rfl, List.not_mem_nil⟩
  · rw [hholds.get?_eq_none]
    decide

end EnvTemplates.Variables
