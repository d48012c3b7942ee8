import EnvTemplates.Proofs.Placeholder.Scanning
import EnvTemplates.Proofs.Substitution.Turns
import EnvTemplates.Proofs.Variables

/-!
# Substitution as simultaneous replacement

The variables take turns, and each turn runs over text that earlier turns have rewritten. On an
ordinary template with values free of dollar signs none of that shows: the result is that of filling
all placeholders at once, whatever the order of the variables (`substitute_ordinary`).

The text between two turns is seen as parts: the holes that are left, and characters that come from
the template or from inserted values. The invariant is `Settled`: a dollar sign among the characters
is never followed by an opening brace or a hole. So tokens occur at holes only, a pass fills exactly
the holes of its key (`replaceToken_flatten`), and filling keeps the invariant (`Settled.filled`),
because a value brings in no dollar sign.
-/

namespace EnvTemplates.Substitution

open Placeholder

/-! ### Ordinary templates -/

/-- Each dollar sign starts a placeholder, or is not followed by an opening brace or another dollar
sign. -/
def IsOrdinary (template : Text) : Prop :=
  ∀ before after, template = before ++ '$' :: after →
    (∃ key rest, IsKey key ∧ '$' :: after = written key ++ rest) ∨
      (after.head? ≠ some '{' ∧ after.head? ≠ some '$')

/-- An ordinary template can be told by looking at each of its ends. -/
theorem isOrdinary_iff {template : Text} :
    IsOrdinary template ↔ ∀ rest ∈ template.tails, rest.head? = some '$' →
      (leadingKey? rest).isSome ∨ (rest.tail.head? ≠ some '{' ∧ rest.tail.head? ≠ some '$') := by
  constructor
  · intro h rest hrest hhead
    obtain ⟨before, rfl⟩ := (List.mem_tails _ _).1 hrest
    obtain ⟨after, rfl⟩ := List.head?_eq_some_iff.1 hhead
    rcases h before after rfl with ⟨key, rest, hkey, htext⟩ | hplain
    · left
      rw [htext, leadingKey?_written hkey]
      rfl
    · exact Or.inr hplain
  · rintro h before after rfl
    have htail : '$' :: after ∈ (before ++ '$' :: after).tails :=
      (List.mem_tails _ _).2 (List.suffix_append _ _)
    rcases h _ htail rfl with hlead | hplain
    · obtain ⟨key, hlead⟩ := Option.isSome_iff_exists.1 hlead
      obtain ⟨hkey, rest, htext⟩ := exists_of_leadingKey? hlead
      exact Or.inl ⟨key, rest, hkey, htext⟩
    · exact Or.inr hplain

instance (template : Text) : Decidable (IsOrdinary template) :=
  decidable_of_iff _ isOrdinary_iff.symm

theorem IsOrdinary.of_append (front : Text) {rest : Text} (h : IsOrdinary (front ++ rest)) :
    IsOrdinary rest := by
  rintro before after rfl
  exact h (front ++ before) after (List.append_assoc _ _ _).symm

/-! ### The invariant -/

/-- No dollar sign among the characters is followed by an opening brace or a hole. -/
def Settled : List Part → Prop
  | [] => True
  | .char c :: ps =>
    (c = '$' → ∀ p, ps.head? = some p → ∃ d, p = .char d ∧ d ≠ '{') ∧ Settled ps
  | .hole key :: ps => IsKey key ∧ Settled ps

theorem settled_parts {template : Text} (h : IsOrdinary template) : Settled (parts template) := by
  induction template using template_induction with
  | nil =>
    rw [parts_nil]
    trivial
  | hole key rest hkey ih =>
    rw [parts_written hkey]
    exact ⟨hkey, ih (h.of_append (written key))⟩
  | char c rest hc ih =>
    rw [parts_cons hc]
    refine ⟨?_, ih (h.of_append [c])⟩
    rintro rfl p hp
    -- A dollar sign that is a part of its own starts no placeholder, so it is of the other kind.
    rcases h [] rest rfl with ⟨key, tail, hkey, htext⟩ | ⟨hopen, hdollar⟩
    · rw [htext, leadingKey?_written hkey] at hc
      exact absurd hc (by simp)
    · cases rest with
      | nil => simp at hp
      | cons d rest =>
        have hd : d ≠ '$' := by
          rintro rfl
          exact hdollar rfl
        rw [parts_cons (leadingKey?_cons_of_ne hd rest)] at hp
        exact ⟨d, (Option.some.inj hp).symm, fun heq => hopen (heq ▸ rfl)⟩

/-- Characters without a dollar sign can stand in front of settled parts. -/
theorem Settled.chars_append {ps : List Part} (h : Settled ps) :
    ∀ {t : Text}, '$' ∉ t → Settled (t.map .char ++ ps)
  | [], _ => h
  | c :: t, hdollar => by
    obtain ⟨hc, ht⟩ := not_or.1 (mt List.mem_cons.2 hdollar)
    constructor
    · intro heq
      exact absurd heq.symm hc
    · exact Settled.chars_append h ht

/-- Filling holes with values that have no dollar sign keeps parts settled. -/
theorem Settled.filled {value? : Text → Option Text}
    (hvalue : ∀ key value, value? key = some value → '$' ∉ value) :
    ∀ {ps : List Part}, Settled ps → Settled (ps.flatMap (Part.filled value?))
  | [], _ => trivial
  | .char c :: ps, h => by
    refine ⟨?_, Settled.filled hvalue h.2⟩
    intro hc p hp
    -- What follows a dollar sign is a character, which filling leaves where it is.
    cases ps with
    | nil => simp at hp
    | cons q ps =>
      obtain ⟨d, rfl, hd⟩ := h.1 hc q rfl
      exact ⟨d, (Option.some.inj hp).symm, hd⟩
  | .hole key :: ps, h => by
    rw [List.flatMap_cons, Part.filled]
    cases hkey : value? key with
    | some value => exact Settled.chars_append (Settled.filled hvalue h.2) (hvalue key value hkey)
    | none => exact ⟨h.1, Settled.filled hvalue h.2⟩

/-! ### One pass -/

/-- Values for a single key. -/
def only (key value : Text) : Text → Option Text := fun k => if k = key then some value else none

theorem only_dollar_notMem (key : Text) {value : Text} (h : '$' ∉ value) :
    ∀ k v, only key value k = some v → '$' ∉ v := by
  intro k v heq
  rw [only] at heq
  split at heq
  · exact Option.some.inj heq ▸ h
  · exact absurd heq (by simp)

theorem written_not_start {key : Text} {c : Char} {ps : List Part} (h : Settled (.char c :: ps)) :
    ¬ written key <+: c :: Part.flatten ps := by
  rw [written, List.cons_prefix_cons]
  rintro ⟨hc, hopen⟩
  cases ps with
  | nil => simp at hopen
  | cons p ps =>
    obtain ⟨d, rfl, hd⟩ := h.1 hc.symm p rfl
    rw [Part.flatten_char, List.cons_prefix_cons] at hopen
    exact hd hopen.1.symm

/-- A pass goes past the placeholder of another key: the token does not start there, and no other
dollar sign stands in it. -/
theorem replaceToken_written_append {name key : Text} (value : Text) (hname : IsKey name)
    (hkey : '}' ∉ key) (hne : name ≠ key) (rest : Text) :
    Text.replaceToken (written key) value (written name ++ rest) =
      ⟨written name ++ (Text.replaceToken (written key) value rest).text,
        (Text.replaceToken (written key) value rest).count⟩ := by
  have hstart : ¬ written key <+: written name ++ rest := by
    intro hstart
    exact hne (written_prefix_written hkey (isKey_brace_notMem hname) hstart).symm
  have htail : '$' ∉ '{' :: (name ++ ['}']) := by
    simp [isKey_dollar_notMem hname]
  have hpass : Text.replaceToken (written key) value ('{' :: (name ++ ['}']) ++ rest) =
      ⟨'{' :: (name ++ ['}']) ++ (Text.replaceToken (written key) value rest).text,
        (Text.replaceToken (written key) value rest).count⟩ :=
    Text.replaceToken_append_of_notMem htail
  have hsplit : written name ++ rest = '$' :: ('{' :: (name ++ ['}']) ++ rest) := rfl
  rw [hsplit] at hstart ⊢
  rw [Text.replaceToken_cons hstart, hpass]
  rfl

/-- **A pass fills the holes of its key** and counts them. -/
theorem replaceToken_flatten (value : Text) {key : Text} (hkey : '}' ∉ key) :
    ∀ {ps : List Part}, Settled ps →
      Text.replaceToken (written key) value (Part.flatten ps) =
        ⟨Part.flatten (ps.flatMap (Part.filled (only key value))), ps.count (.hole key)⟩
  | [], _ => Text.replaceToken_nil (List.cons_ne_nil _ _)
  | .char c :: ps, h => by
    rw [Part.flatten_char, Text.replaceToken_cons (written_not_start h),
      replaceToken_flatten value hkey h.2, List.count_cons_of_ne (by simp)]
    rfl
  | .hole name :: ps, h => by
    rw [Part.flatten_hole, List.flatMap_cons, Part.flatten_append, Part.flatten_filled_hole]
    by_cases hname : name = key
    · subst hname
      have hne : written name ≠ [] := List.cons_ne_nil _ _
      rw [Text.replaceToken_append hne, replaceToken_flatten value hkey h.2, List.count_cons_self,
        only, if_pos rfl]
      rfl
    · rw [replaceToken_written_append value h.1 hkey hname, replaceToken_flatten value hkey h.2,
        List.count_cons_of_ne (by simpa using hname), only, if_neg hname]
      rfl

/-- What is left of the holes: those without a value. -/
theorem count_hole_filled (value? : Text → Option Text) (key : Text) (ps : List Part) :
    (ps.flatMap (Part.filled value?)).count (.hole key) =
      if value? key = none then ps.count (.hole key) else 0 := by
  have hchars : ∀ t : Text, (t.map Part.char).count (.hole key) = 0 := by
    intro t
    apply List.count_eq_zero.2
    intro hmem
    obtain ⟨c, -, hc⟩ := List.mem_map.1 hmem
    exact absurd hc (by simp)
  induction ps with
  | nil => simp
  | cons p ps ih =>
    rw [List.flatMap_cons, List.count_append, ih]
    cases p with
    | char c => simp [Part.filled]
    | hole name =>
      rw [Part.filled]
      by_cases hname : name = key
      · subst hname
        cases hvalue : value? name with
        | some value => simp [hchars]
        | none => simp [Nat.add_comm]
      · cases value? name with
        | some value => simp [hchars, hname]
        | none => simp [hname]

/-- Filling twice is filling once, the first value counting. -/
theorem filled_flatMap_filled (f g : Text → Option Text) (ps : List Part) :
    (ps.flatMap (Part.filled f)).flatMap (Part.filled g) =
      ps.flatMap (Part.filled fun key => (f key).or (g key)) := by
  have hchars : ∀ t : Text, (t.map Part.char).flatMap (Part.filled g) = t.map .char := by
    intro t
    induction t with
    | nil => rfl
    | cons c t ih => rw [List.map_cons, List.flatMap_cons, ih, Part.filled, List.singleton_append]
  induction ps with
  | nil => rfl
  | cons p ps ih =>
    rw [List.flatMap_cons, List.flatMap_cons, List.flatMap_append, ih]
    cases p with
    | char c => rfl
    | hole key =>
      simp only [Part.filled]
      cases f key with
      | some value => rw [hchars, Option.some_or]
      | none => simp [Part.filled]

/-- Filling with no value for any hole changes nothing. -/
theorem flatMap_filled_eq_self {value? : Text → Option Text} {ps : List Part}
    (h : ∀ key, Part.hole key ∈ ps → value? key = none) : ps.flatMap (Part.filled value?) = ps := by
  induction ps with
  | nil => rfl
  | cons p ps ih =>
    have hps : ps.flatMap (Part.filled value?) = ps :=
      ih fun key hkey => h key (List.mem_cons_of_mem p hkey)
    rw [List.flatMap_cons, hps]
    cases p with
    | char c => rfl
    | hole key => simp [Part.filled, h key List.mem_cons_self]

/-! ### Turns -/

/-- On settled parts a turn is a single pass: a second one finds nothing. -/
theorem turn_flatten {v : Variable} {ps : List Part} (hkey : '}' ∉ v.key) (hvalue : '$' ∉ v.value)
    (h : Settled ps) :
    turn v (Part.flatten ps) =
      (⟨Part.flatten (ps.flatMap (Part.filled (only v.key v.value))), ps.count (.hole v.key),
        false⟩, []) := by
  have hself : ¬ v.token <:+: v.value := fun hin => hvalue (hin.subset List.mem_cons_self)
  have hpass : pass v (Part.flatten ps) = _ := replaceToken_flatten v.value hkey h
  have hagain : (pass v (pass v (Part.flatten ps)).text).count = 0 := by
    have hfilled := h.filled (only_dollar_notMem v.key hvalue)
    rw [hpass, pass, token_eq_written, replaceToken_flatten v.value hkey hfilled,
      count_hole_filled, only, if_pos rfl, if_neg (by simp)]
  rw [turn_of_second_idle hself hagain, hpass]

/-- The value of a key in a list of variables. -/
def lookup (vs : List Variable) (key : Text) : Option Text :=
  (vs.find? fun v => v.key = key).map (·.value)

theorem only_or_lookup (v : Variable) (vs : List Variable) (key : Text) :
    (only v.key v.value key).or (lookup vs key) = lookup (v :: vs) key := by
  rw [only, lookup, lookup, List.find?_cons]
  by_cases h : key = v.key
  · simp [h]
  · simp [h, Ne.symm h]

/-- **All turns on settled parts**: every hole with a declared key is filled, each variable is
counted once for each of its holes, and nothing but the ends of the turns is logged. -/
theorem takeTurns_flatten :
    ∀ {vs : List Variable} {ps : List Part}, (∀ v ∈ vs, '}' ∉ v.key) → (∀ v ∈ vs, '$' ∉ v.value) →
      (vs.map (·.key)).Nodup → Settled ps →
      takeTurns vs (Part.flatten ps) =
        ⟨Part.flatten (ps.flatMap (Part.filled (lookup vs))),
          vs.map fun v => ⟨v.key, ps.count (.hole v.key)⟩,
          vs.map fun v => .substituted v.key (ps.count (.hole v.key))⟩
  | [], ps, _, _, _, _ => by
    have hnone : ps.flatMap (Part.filled (lookup [])) = ps := flatMap_filled_eq_self fun _ _ => rfl
    rw [hnone]
    rfl
  | v :: vs, ps, hkeys, hvalues, hdistinct, h => by
    obtain ⟨hkey, hkeys'⟩ := List.forall_mem_cons.1 hkeys
    obtain ⟨hvalue, hvalues'⟩ := List.forall_mem_cons.1 hvalues
    obtain ⟨hnew, hdistinct'⟩ := List.nodup_cons.1 hdistinct
    have hsettled : Settled (ps.flatMap (Part.filled (only v.key v.value))) :=
      h.filled (only_dollar_notMem v.key hvalue)
    -- The holes of later variables are not touched, because keys are distinct.
    have hcount : ∀ u ∈ vs, (ps.flatMap (Part.filled (only v.key v.value))).count (.hole u.key) =
        ps.count (.hole u.key) := by
      intro u hu
      have hne : u.key ≠ v.key := by
        intro heq
        exact hnew (List.mem_map.2 ⟨u, hu, heq⟩)
      rw [count_hole_filled, only, if_neg hne, if_pos rfl]
    have hlookup : (fun key => (only v.key v.value key).or (lookup vs key)) = lookup (v :: vs) :=
      funext (only_or_lookup v vs)
    rw [takeTurns, turn_flatten hkey hvalue h]
    simp only [takeTurns_flatten hkeys' hvalues' hdistinct' hsettled, filled_flatMap_filled,
      hlookup, List.nil_append, List.map_cons, Turns.mk.injEq, List.cons.injEq, true_and]
    constructor
    · exact List.map_congr_left fun u hu => by rw [hcount u hu]
    · exact List.map_congr_left fun u hu => by rw [hcount u hu]

/-! ### Whole templates -/

section Settled

variable {vars : Variables} {ps : List Part}

theorem takeTurns_settled (hkeys : ∀ v ∈ vars.toList, '}' ∉ v.key)
    (hvalues : ∀ v ∈ vars.toList, '$' ∉ v.value) (h : Settled ps) :
    takeTurns vars.toList (Part.flatten ps) =
      ⟨Part.flatten (ps.flatMap (Part.filled vars.get?)),
        vars.keys.map fun key => ⟨key, ps.count (.hole key)⟩,
        vars.keys.map fun key => .substituted key (ps.count (.hole key))⟩ := by
  rw [takeTurns_flatten hkeys hvalues vars.distinct h, Variables.keys, List.map_map, List.map_map]
  rfl

theorem text_substitute_settled (hkeys : ∀ v ∈ vars.toList, '}' ∉ v.key)
    (hvalues : ∀ v ∈ vars.toList, '$' ∉ v.value) (h : Settled ps) :
    (substitute (Part.flatten ps) vars).text =
      Part.flatten (ps.flatMap (Part.filled vars.get?)) := by
  rw [substitute, run, takeTurns_settled hkeys hvalues h]

theorem replacements_substitute_settled (hkeys : ∀ v ∈ vars.toList, '}' ∉ v.key)
    (hvalues : ∀ v ∈ vars.toList, '$' ∉ v.value) (h : Settled ps) :
    (substitute (Part.flatten ps) vars).replacements =
      vars.keys.map fun key => ⟨key, ps.count (.hole key)⟩ := by
  rw [substitute, run, takeTurns_settled hkeys hvalues h]

end Settled

/-- The count of a key among what a template refers to is the one among the replacements. -/
theorem count_eq_zero_of_mem_referenced {template : Text} {vars : Variables}
    (h : ∀ t ∈ (substitute template vars).replacements, t.count = 0) :
    ∀ t ∈ (substitute template vars).referenced, t.count = 0 := by
  intro t ht
  obtain ⟨key, -, rfl⟩ := List.mem_map.1 ht
  exact Tally.getD_count?_eq_zero h key

/-- **Substitution into an ordinary template is simultaneous replacement.** If no key has a closing
brace and no value a dollar sign, every placeholder of a declared key is replaced at once and all
else stays; each key is counted once for each of its placeholders; nothing is warned about; the
order of the variables does not matter; and a second substitution finds nothing to replace. -/
theorem substitute_ordinary {template : Text} {vars : Variables} (ordinary : IsOrdinary template)
    (keys : ∀ v ∈ vars.toList, '}' ∉ v.key) (values : ∀ v ∈ vars.toList, '$' ∉ v.value) :
    (substitute template vars).text = fill vars.get? template ∧
    (substitute template vars).replacements =
      vars.keys.map (fun key => ⟨key, (scan template).countP fun p => p.key = key⟩) ∧
    (∀ e ∈ (run template vars).2, e.isWarning = false) ∧
    (∀ vars' : Variables, vars'.toList.Perm vars.toList →
      (substitute template vars').text = (substitute template vars).text ∧
      ∀ key, Tally.count? key (substitute template vars').replacements =
        Tally.count? key (substitute template vars).replacements) ∧
    (substitute (substitute template vars).text vars).text = (substitute template vars).text ∧
    (∀ t ∈ (substitute (substitute template vars).text vars).replacements, t.count = 0) ∧
    ∀ t ∈ (substitute (substitute template vars).text vars).referenced, t.count = 0 := by
  have hsettled := settled_parts ordinary
  have htext := text_substitute_settled keys values hsettled
  have hcounts := replacements_substitute_settled keys values hsettled
  rw [flatten_parts] at htext hcounts
  have hvalue : ∀ key value, vars.get? key = some value → '$' ∉ value :=
    fun key value h => values _ (Variables.get?_eq_some_iff.1 h)
  -- the holes that are left have no value
  have hagain := hsettled.filled hvalue
  have htwice := text_substitute_settled keys values hagain
  have hzero := replacements_substitute_settled keys values hagain
  rw [← htext] at htwice hzero
  have hnone : ∀ t ∈ (substitute (substitute template vars).text vars).replacements,
      t.count = 0 := by
    rw [hzero]
    intro t ht
    obtain ⟨key, hkey, rfl⟩ := List.mem_map.1 ht
    rw [count_hole_filled, if_neg fun h => Variables.get?_eq_none_iff.1 h hkey]
  refine ⟨?_, ?_, ?_, ?_, ?_, hnone, count_eq_zero_of_mem_referenced hnone⟩
  · rw [htext, fill_eq_flatten]
  · rw [hcounts]
    exact List.map_congr_left fun key _ => by rw [countP_scan]
  · intro e he
    rw [run, ← flatten_parts template, takeTurns_settled keys values hsettled] at he
    obtain ⟨key, -, rfl⟩ := List.mem_map.1 he
    rfl
  · intro vars' hperm
    have keys' : ∀ v ∈ vars'.toList, '}' ∉ v.key := fun v hv => keys v (hperm.mem_iff.1 hv)
    have values' : ∀ v ∈ vars'.toList, '$' ∉ v.value := fun v hv => values v (hperm.mem_iff.1 hv)
    have htext' := text_substitute_settled keys' values' hsettled
    have hcounts' := replacements_substitute_settled keys' values' hsettled
    rw [flatten_parts] at htext' hcounts'
    refine ⟨by rw [htext, htext', Variables.get?_eq_of_perm hperm], fun key => ?_⟩
    have hmem : key ∈ vars'.keys ↔ key ∈ vars.keys := (hperm.map (·.key)).mem_iff
    rw [hcounts, hcounts', Tally.count?_map, Tally.count?_map]
    simp only [hmem]
  · have hfixed : ∀ f : Text → Option Text, (fun key => (f key).or (f key)) = f :=
      fun f => funext fun key => by cases f key <;> rfl
    rw [htwice, htext, filled_flatMap_filled, hfixed]

/-- Placeholders side by side, an empty value, a value that starts with an opening brace and a
dollar sign that starts nothing. -/
theorem substitute_ordinary_adjacent :
    IsOrdinary "$5${A}${B}${A} ${C}".toList ∧
      (substitute "$5${A}${B}${A} ${C}".toList
        (.ofList [⟨"A".toList, "{x}".toList⟩, ⟨"B".toList, []⟩])).text =
        "$5{x}{x} ${C}".toList := by
  have hordinary : IsOrdinary "$5${A}${B}${A} ${C}".toList := by decide
  refine ⟨hordinary, (substitute_ordinary hordinary ?_ ?_).1.trans ?_⟩
  · decide
  · decide
  · cbv

end EnvTemplates.Substitution
