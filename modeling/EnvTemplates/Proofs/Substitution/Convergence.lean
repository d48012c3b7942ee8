import Mathlib.Data.Nat.Count
import EnvTemplates.Proofs.Substitution.Passes
import EnvTemplates.Proofs.Text.Weight

/-!
# How many passes a turn takes

Replacing a token until it is gone need not come to an end: the value `A}A}${${` for the key `A`
does not contain its token, but from `${${A}` on every pass finds a token and makes the text longer.
What brings a turn to its end is a character that the token has more often than the value. Each
replacement takes one of it from the text (`count_pass_le`), so that no more passes replace
something than the text has of it at the start, and a text with at most as many of it as there are
passes is rid of the token (`not_outlasts_of_count_le`).
-/

namespace EnvTemplates.Substitution

/-- The number of passes of a turn that replace something. -/
def productivePasses (v : Variable) (text : Text) : Nat :=
  Nat.count (fun i => 0 < foundAfter v i text) (allowedPasses v)

variable {v : Variable}

/-- The productive passes come first, so the turn ends after them. -/
theorem afterPasses_count (v : Variable) (text : Text) (n : Nat) :
    afterPasses v n text =
      afterPasses v (Nat.count (fun i => 0 < foundAfter v i text) n) text := by
  induction n with
  | zero => rfl
  | succ n ih =>
    rw [Nat.count_succ]
    by_cases hfound : 0 < foundAfter v n text
    · -- No pass before this one can have been idle.
      have hall : ∀ i < n, 0 < foundAfter v i text := by
        intro i hi
        by_contra hidle
        have hzero : foundAfter v i text = 0 := Nat.eq_zero_of_not_pos hidle
        rw [foundAfter, afterPasses_of_foundAfter_eq_zero hzero (Nat.le_of_lt hi)] at hfound
        exact hidle hfound
      rw [if_pos hfound, Nat.count_of_forall hall]
    · have hidle : foundAfter v n text = 0 := Nat.eq_zero_of_not_pos hfound
      rw [if_neg hfound, afterPasses_of_foundAfter_eq_zero hidle (Nat.le_succ n)]
      exact ih

/-! ### A character that runs out -/

section Decreasing

variable {c : Char}

theorem not_self_of_count_lt (h : v.value.count c < v.token.count c) :
    ¬ v.token <:+: v.value := by
  intro hin
  have hle : v.token.count c ≤ v.value.count c := hin.sublist.count_le c
  omega

/-- Each replacement takes at least one of the character from the text. -/
theorem count_pass_le (h : v.value.count c < v.token.count c) (text : Text) :
    (pass v text).text.count c + (pass v text).count ≤ text.count c := by
  have hweight : (pass v text).text.count c + (pass v text).count * v.token.count c =
      text.count c + (pass v text).count * v.value.count c := by
    simp only [Text.count_eq_weight]
    exact Text.weight_replaceToken _ v.token v.value text
  have hmul : (pass v text).count * (v.value.count c + 1) ≤
      (pass v text).count * v.token.count c := Nat.mul_le_mul_left _ h
  rw [Nat.mul_succ] at hmul
  omega

/-- So does each pass that replaces something. -/
theorem count_afterPasses_le (h : v.value.count c < v.token.count c) (text : Text) (n : Nat) :
    (afterPasses v n text).count c + Nat.count (fun i => 0 < foundAfter v i text) n ≤
      text.count c := by
  induction n with
  | zero => simp
  | succ n ih =>
    have hpass : (pass v (afterPasses v n text)).text.count c + foundAfter v n text ≤
        (afterPasses v n text).count c := count_pass_le h _
    rw [afterPasses_succ_apply, Nat.count_succ]
    split
    · omega
    · omega

/-- A token cannot outlast more passes than there are characters for it. -/
theorem not_outlasts_of_count_le (h : v.value.count c < v.token.count c) {text : Text} {n : Nat}
    (hle : text.count c ≤ n) : ¬ Outlasts v n text := by
  rintro ⟨hall, hin⟩
  have hleft := count_afterPasses_le h text n
  rw [Nat.count_of_forall hall] at hleft
  have hneeded : v.token.count c ≤ (afterPasses v n text).count c := hin.sublist.count_le c
  omega

end Decreasing

/-- The dollar sign and the braces stand in every token. -/
theorem count_lt_of_notMem {c : Char} (hc : c ∈ ['$', '{', '}']) (hvalue : c ∉ v.value) :
    v.value.count c < v.token.count c := by
  have htoken : c ∈ v.token := by
    simp only [List.mem_cons, List.not_mem_nil, or_false] at hc
    rcases hc with rfl | rfl | rfl
    · simp [Variable.token]
    · simp [Variable.token]
    · simp [Variable.token]
  rw [List.count_eq_zero_of_not_mem hvalue]
  exact List.count_pos_iff.2 htoken

/-- **A turn converges** if some character is more often in the token than in the value. It has at
most as many productive passes as the text has of that character, so with at most 64 of it the token
is gone after the turn, without a warning. A dollar sign or a brace that the value lacks is such a
character. A single pass is enough for a value that has neither a dollar sign nor a closing brace
and does not lie in the token. -/
theorem turn_converges (v : Variable) (text : Text) :
    (∀ c, v.value.count c < v.token.count c →
      productivePasses v text ≤ text.count c ∧
      (text.count c ≤ 64 → ¬ v.token <:+: (turn v text).1.text ∧ (turn v text).2 = [])) ∧
    (∀ c ∈ ['$', '{', '}'], c ∉ v.value → v.value.count c < v.token.count c) ∧
    (turn v text).1.text = afterPasses v (productivePasses v text) text ∧
    ('$' ∉ v.value → '}' ∉ v.value → ¬ v.value <:+: v.token →
      ¬ v.token <:+: (pass v text).text ∧ (pass v (pass v text).text).count = 0 ∧
      turn v text = (⟨(pass v text).text, (pass v text).count, false⟩, [])) := by
  refine ⟨fun c h => ⟨?_, fun hle => ?_⟩, fun c => count_lt_of_notMem, ?_, ?_⟩
  · have hpasses := count_afterPasses_le h text (allowedPasses v)
    rw [← productivePasses] at hpasses
    omega
  · have hself := not_self_of_count_lt h
    have hlimit : ¬ Outlasts v maxPasses text := not_outlasts_of_count_le h hle
    constructor
    · intro hin
      rcases cases_of_infix_turn hin with ⟨hin, -⟩ | ⟨-, hin⟩
      · exact hself hin
      · exact hlimit hin
    · rw [turn_of_not_self v text hself, if_neg hlimit]
  · rw [text_turn, productivePasses]
    exact afterPasses_count v text (allowedPasses v)
  · intro hdollar hbrace hnot
    have habsent : ¬ v.token <:+: (pass v text).text :=
      @Text.not_infix_replaceToken '$' '}' ('{' :: v.key) v.value hdollar hbrace hnot text
    have hidle := count_pass_eq_zero_iff.2 habsent
    have hself := not_self_of_count_lt (count_lt_of_notMem (by decide) hdollar)
    exact ⟨habsent, hidle, turn_of_second_idle hself hidle⟩

/-- Two dollar signs for two passes, each of which closes a token, and a value after which one pass
is enough. -/
theorem turn_converges_closing :
    (productivePasses ⟨['A'], ['}']⟩ ['$', '{', 'A', '$', '{', 'A', '}'] ≤ 2 ∧
      (turn ⟨['A'], ['}']⟩ ['$', '{', 'A', '$', '{', 'A', '}']).2 = []) ∧
    ¬ "${A}".toList <:+: (pass ⟨"A".toList, "x".toList⟩ "$${A}{A}".toList).text := by
  constructor
  · obtain ⟨hconverges, hlacking, -, -⟩ :=
      turn_converges ⟨['A'], ['}']⟩ ['$', '{', 'A', '$', '{', 'A', '}']
    obtain ⟨hpasses, hgone⟩ := hconverges '$' (hlacking '$' (by decide) (by decide))
    exact ⟨hpasses.trans (by decide), (hgone (by decide)).2⟩
  · have honce := (turn_converges ⟨"A".toList, "x".toList⟩ "$${A}{A}".toList).2.2.2
    exact (honce (by decide) (by decide) (by decide)).1

end EnvTemplates.Substitution
