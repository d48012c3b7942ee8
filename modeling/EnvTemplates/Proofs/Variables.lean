import Mathlib.Data.List.Nodup
import Mathlib.Data.List.TakeWhile
import EnvTemplates.Variables

/-!
# Looking variables up

Keys are distinct, so that a look-up does not depend on the order of the variables
(`get?_eq_some_iff`, `get?_eq_of_perm`), and a declared key cuts the variables in two: those before
it and those after it (`toList_eq_of_mem_keys`).
-/

namespace EnvTemplates.Variables

theorem eq_of_toList_eq {vs vs' : Variables} (h : vs.toList = vs'.toList) : vs = vs' := by
  cases vs
  cases vs'
  cases h
  rfl

theorem get?_eq_some_iff {vs : Variables} {key value : Text} :
    vs.get? key = some value ↔ ⟨key, value⟩ ∈ vs.toList := by
  rw [get?, Option.map_eq_some_iff]
  constructor
  · rintro ⟨v, hfind, rfl⟩
    have hkey : v.key = key := by simpa using List.find?_some hfind
    exact hkey ▸ List.mem_of_find?_eq_some hfind
  · intro hmem
    cases hfind : vs.toList.find? fun v => v.key = key with
    | none =>
      have hnone := List.find?_eq_none.1 hfind ⟨key, value⟩ hmem
      simp at hnone
    | some v =>
      have hkey : v.key = key := by simpa using List.find?_some hfind
      have hv : v = ⟨key, value⟩ :=
        List.inj_on_of_nodup_map vs.distinct (List.mem_of_find?_eq_some hfind) hmem hkey
      exact ⟨v, rfl, congrArg Variable.value hv⟩

theorem get?_eq_none_iff {vs : Variables} {key : Text} : vs.get? key = none ↔ key ∉ vs.keys := by
  rw [get?, Option.map_eq_none_iff, List.find?_eq_none, keys, List.mem_map]
  simp

/-- The order of the variables does not matter to a look-up. -/
theorem get?_eq_of_perm {vs vs' : Variables} (h : vs'.toList.Perm vs.toList) :
    vs'.get? = vs.get? := by
  funext key
  apply Option.ext
  intro value
  rw [get?_eq_some_iff, get?_eq_some_iff, h.mem_iff]

/-- The variables that are declared before a key. -/
def before (vs : Variables) (key : Text) : List Variable := vs.toList.takeWhile fun v => v.key ≠ key

theorem toList_eq_of_mem_keys {vs : Variables} {key : Text} (h : key ∈ vs.keys) :
    ∃ v after, v.key = key ∧ vs.toList = vs.before key ++ v :: after := by
  have hsplit : vs.before key ++ vs.toList.dropWhile (fun v => v.key ≠ key) = vs.toList :=
    List.takeWhile_append_dropWhile
  cases hrest : vs.toList.dropWhile (fun v => v.key ≠ key) with
  | nil =>
    -- Then no variable has the key.
    obtain ⟨v, hv, hkey⟩ := List.mem_map.1 h
    have hne := List.dropWhile_eq_nil_iff.1 hrest v hv
    simp [hkey] at hne
  | cons v after =>
    have hhead := List.head?_dropWhile_not (fun v : Variable => v.key ≠ key) vs.toList
    rw [hrest] at hhead
    refine ⟨v, after, by simpa using hhead, ?_⟩
    rw [← hrest]
    exact hsplit.symm

theorem key_ne_of_toList_eq {vs : Variables} {v : Variable} {front after : List Variable}
    (h : vs.toList = front ++ v :: after) : ∀ u ∈ front, u.key ≠ v.key := by
  have hdistinct := vs.distinct
  rw [h, List.map_append, List.nodup_append] at hdistinct
  intro u hu
  exact hdistinct.2.2 _ (List.mem_map_of_mem hu) _ List.mem_cons_self

theorem before_eq {vs : Variables} {v : Variable} {front after : List Variable}
    (h : vs.toList = front ++ v :: after) : vs.before v.key = front := by
  have hnew := key_ne_of_toList_eq h
  rw [before, h, List.takeWhile_append_of_pos (by simpa using hnew),
    List.takeWhile_cons_of_neg (by simp), List.append_nil]

theorem key_ne_of_mem_before {vs : Variables} {key : Text} {u : Variable} (h : u ∈ vs.before key) :
    u.key ≠ key := by
  simpa using List.mem_takeWhile_imp h

end EnvTemplates.Variables
