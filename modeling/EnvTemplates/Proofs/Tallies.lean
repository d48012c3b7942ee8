import Mathlib
import EnvTemplates.Report

/-!
# Tallies

A list of tallies is looked up by key. With distinct keys it is given by its keys and the counts
that a look-up finds (`eq_map_of_nodup`), so that what an update does is said by two facts: what it
does to the keys, and what it does to the count of each key.
-/

namespace EnvTemplates

namespace Tally

/-- The counts of a list in which each key has the count that a function gives it. -/
theorem count?_map (f : Text → Nat) (key : Text) (keys : List Text) :
    count? key (keys.map fun k => ⟨k, f k⟩) = if key ∈ keys then some (f key) else none := by
  induction keys with
  | nil => rfl
  | cons k keys ih =>
    by_cases h : k = key
    · simp [count?, h]
    · have hne : ¬ key = k := fun heq => h heq.symm
      simpa [count?, h, hne] using ih

@[simp] theorem count?_cons_self (key : Text) (n : Nat) (ts : List Tally) :
    count? key (⟨key, n⟩ :: ts) = some n := by
  simp [count?]

theorem count?_cons_of_ne {key : Text} {t : Tally} (h : t.key ≠ key) (ts : List Tally) :
    count? key (t :: ts) = count? key ts := by
  simp [count?, h]

theorem count?_append (key : Text) (ts us : List Tally) :
    count? key (ts ++ us) = (count? key ts).or (count? key us) := by
  rw [count?, count?, count?, List.find?_append]
  cases ts.find? fun t => t.key = key <;> rfl

theorem count?_eq_none_iff {key : Text} {ts : List Tally} :
    count? key ts = none ↔ key ∉ ts.map (·.key) := by
  rw [count?, Option.map_eq_none_iff, List.find?_eq_none, List.mem_map]
  simp

theorem mem_of_count? {key : Text} {n : Nat} {ts : List Tally} (h : count? key ts = some n) :
    ⟨key, n⟩ ∈ ts := by
  obtain ⟨t, hfind, rfl⟩ := Option.map_eq_some_iff.1 h
  have hkey : t.key = key := by simpa using List.find?_some hfind
  exact hkey ▸ List.mem_of_find?_eq_some hfind

/-- Where all counts are zero, so is the count of each key. -/
theorem getD_count?_eq_zero {ts : List Tally} (h : ∀ t ∈ ts, t.count = 0) (key : Text) :
    (count? key ts).getD 0 = 0 := by
  cases hcount : count? key ts with
  | none => rfl
  | some n => exact h _ (mem_of_count? hcount)

/-- With distinct keys, a list of tallies is its keys with the counts that a look-up finds. -/
theorem eq_map_of_nodup {ts : List Tally} (h : (ts.map (·.key)).Nodup) :
    ts = (ts.map (·.key)).map fun key => ⟨key, (count? key ts).getD 0⟩ := by
  induction ts with
  | nil => rfl
  | cons t ts ih =>
    obtain ⟨hnew, hdistinct⟩ := List.nodup_cons.1 h
    -- The first tally has a key of its own, so the others are looked up as before.
    have hrest : (ts.map (·.key)).map (fun key => (⟨key, (count? key (t :: ts)).getD 0⟩ : Tally)) =
        (ts.map (·.key)).map fun key => ⟨key, (count? key ts).getD 0⟩ := by
      apply List.map_congr_left
      intro key hkey
      have hne : t.key ≠ key := by
        intro heq
        subst heq
        exact hnew hkey
      rw [count?_cons_of_ne hne]
    have hhead : (count? t.key (t :: ts)).getD 0 = t.count := by
      rw [show t = ⟨t.key, t.count⟩ from rfl, count?_cons_self]
      rfl
    rw [List.map_cons, List.map_cons, hrest, hhead, ← ih hdistinct]

/-- With distinct keys, every tally is found under its key. -/
theorem getD_count?_of_mem {ts : List Tally} (h : (ts.map (·.key)).Nodup) {t : Tally}
    (ht : t ∈ ts) : (count? t.key ts).getD 0 = t.count := by
  rw [eq_map_of_nodup h] at ht
  obtain ⟨key, -, rfl⟩ := List.mem_map.1 ht
  rfl

/-! ### Totals -/

theorem total_eq_sum (ts : List Tally) : total ts = (ts.map (·.count)).sum := rfl

theorem total_cons (t : Tally) (ts : List Tally) : total (t :: ts) = t.count + total ts := by
  rw [total_eq_sum, List.map_cons, List.sum_cons, total_eq_sum]

theorem total_append (ts us : List Tally) : total (ts ++ us) = total ts + total us := by
  rw [total_eq_sum, List.map_append, List.sum_append, total_eq_sum, total_eq_sum]

/-! ### Leaving tallies out -/

/-- Leaving out some keys leaves the counts of the others as they are. -/
theorem count?_filter (keep : Text → Bool) (key : Text) (ts : List Tally) :
    count? key (ts.filter fun t => keep t.key) = if keep key then count? key ts else none := by
  induction ts with
  | nil => simp [count?]
  | cons t ts ih =>
    cases hkeep : keep t.key with
    | true =>
      rw [List.filter_cons, hkeep, if_pos rfl]
      by_cases hkey : t.key = key
      · subst hkey
        simp [count?, hkeep]
      · rw [count?_cons_of_ne hkey, count?_cons_of_ne hkey, ih]
    | false =>
      rw [List.filter_cons, hkeep, if_neg Bool.false_ne_true, ih]
      by_cases hkey : t.key = key
      · subst hkey
        simp [hkeep]
      · rw [count?_cons_of_ne hkey]

theorem total_filter (keep : Text → Bool) {ts : List Tally}
    (h : ∀ t ∈ ts, keep t.key = false → t.count = 0) :
    total (ts.filter fun t => keep t.key) = total ts := by
  induction ts with
  | nil => rfl
  | cons t ts ih =>
    obtain ⟨ht, hts⟩ := List.forall_mem_cons.1 h
    cases hkeep : keep t.key with
    | true => rw [List.filter_cons, hkeep, if_pos rfl, total_cons, total_cons, ih hts]
    | false =>
      rw [List.filter_cons, hkeep, if_neg Bool.false_ne_true, total_cons, ih hts, ht hkeep,
        Nat.zero_add]

/-! ### Adding to a list of tallies -/

/-- The sum of all counts of a key. -/
def sumOf (key : Text) (ts : List Tally) : Nat :=
  ((ts.filter fun t => t.key = key).map (·.count)).sum

theorem sumOf_cons (key : Text) (t : Tally) (ts : List Tally) :
    sumOf key (t :: ts) = (if t.key = key then t.count else 0) + sumOf key ts := by
  by_cases h : t.key = key <;> simp [sumOf, h]

theorem sumOf_eq_zero {key : Text} {ts : List Tally} (h : key ∉ ts.map (·.key)) :
    sumOf key ts = 0 := by
  have hnone : ts.filter (fun t => t.key = key) = [] := by
    rw [List.filter_eq_nil_iff]
    intro t ht hkey
    exact h (List.mem_map.2 ⟨t, ht, of_decide_eq_true hkey⟩)
  rw [sumOf, hnone]
  rfl

theorem sumOf_of_nodup {ts : List Tally} (h : (ts.map (·.key)).Nodup) (key : Text) :
    sumOf key ts = (count? key ts).getD 0 := by
  induction ts with
  | nil => rfl
  | cons t ts ih =>
    obtain ⟨hnew, hdistinct⟩ := List.nodup_cons.1 h
    rw [sumOf_cons]
    by_cases hkey : t.key = key
    · subst hkey
      rw [if_pos rfl, sumOf_eq_zero hnew, show t = ⟨t.key, t.count⟩ from rfl, count?_cons_self]
      rfl
    · rw [if_neg hkey, count?_cons_of_ne hkey, ih hdistinct, Nat.zero_add]

theorem keys_addTo (key : Text) (n : Nat) (ts : List Tally) :
    (addTo key n ts).map (·.key) = ts.map (·.key) := by
  induction ts with
  | nil => rfl
  | cons t ts ih =>
    rw [addTo]
    split
    · next h => rw [List.map_cons, List.map_cons, h]
    · rw [List.map_cons, List.map_cons, ih]

theorem count?_addTo (key k : Text) (n : Nat) (ts : List Tally) :
    count? k (addTo key n ts) =
      if key = k then (count? k ts).map (· + n) else count? k ts := by
  induction ts with
  | nil => simp [addTo, count?]
  | cons t ts ih =>
    rw [addTo]
    by_cases ht : t.key = key
    · subst ht
      by_cases hk : t.key = k
      · subst hk
        simp [count?]
      · rw [if_pos rfl, if_neg hk, count?_cons_of_ne (by exact hk), count?_cons_of_ne hk]
    · rw [if_neg ht]
      by_cases hk : t.key = k
      · have hne : ¬ key = k := fun heq => ht (hk.trans heq.symm)
        simp [count?, hk, hne]
      · rw [count?_cons_of_ne hk, count?_cons_of_ne hk, ih]

theorem total_addTo {key : Text} (n : Nat) {ts : List Tally} (h : (count? key ts).isSome) :
    total (addTo key n ts) = total ts + n := by
  induction ts with
  | nil => simp [count?] at h
  | cons t ts ih =>
    rw [addTo, total_cons]
    split
    · show t.count + n + total ts = t.count + total ts + n
      omega
    · next hne =>
      rw [count?_cons_of_ne hne] at h
      rw [total_cons, ih h, Nat.add_assoc]

end Tally

namespace RunContext

open Tally

theorem keys_addTally (counts : List Tally) (t : Tally) :
    (addTally counts t).map (·.key) =
      if t.key ∈ counts.map (·.key) then counts.map (·.key) else counts.map (·.key) ++ [t.key] := by
  have hmem : (count? t.key counts).isSome ↔ t.key ∈ counts.map (·.key) := by
    rw [← not_iff_not, Bool.not_eq_true, Option.isSome_eq_false_iff, Option.isNone_iff_eq_none,
      count?_eq_none_iff]
  rw [addTally]
  simp only [hmem]
  split
  · exact keys_addTo _ _ _
  · rw [List.map_append]
    rfl

/-- Adding a tally adds to the count of its key and to no other. -/
theorem getD_count?_addTally (counts : List Tally) (t : Tally) (key : Text) :
    (count? key (addTally counts t)).getD 0 =
      (count? key counts).getD 0 + if t.key = key then t.count else 0 := by
  rw [addTally]
  split
  · next hsome =>
    obtain ⟨n, hn⟩ := Option.isSome_iff_exists.1 hsome
    rw [count?_addTo]
    by_cases hkey : t.key = key
    · subst hkey
      simp [hn]
    · simp [hkey]
  · next hnone =>
    rw [count?_append]
    by_cases hkey : t.key = key
    · subst hkey
      have hn : count? t.key counts = none := by simpa using hnone
      rw [hn, if_pos rfl, show t = ⟨t.key, t.count⟩ from rfl, count?_cons_self]
      simp
    · rw [count?_cons_of_ne hkey, if_neg hkey]
      cases count? key counts <;> rfl

theorem getD_count?_foldl (ts : List Tally) (key : Text) :
    ∀ counts, (count? key (ts.foldl addTally counts)).getD 0 =
      (count? key counts).getD 0 + sumOf key ts := by
  induction ts with
  | nil => exact fun _ => rfl
  | cons t ts ih =>
    intro counts
    rw [List.foldl_cons, ih, getD_count?_addTally, sumOf_cons, Nat.add_assoc]

/-- **The keys after some tallies**: those that stood there before, then the new ones in the order
in which they first come. -/
theorem keys_foldl_addTally (ts : List Tally) :
    ∀ counts, (ts.foldl addTally counts).map (·.key) =
      counts.map (·.key) ++
        ((ts.map (·.key)).filter fun key => key ∉ counts.map (·.key)).eraseDups := by
  induction ts with
  | nil =>
    intro counts
    show counts.map (·.key) = counts.map (·.key) ++ []
    rw [List.append_nil]
  | cons t ts ih =>
    intro counts
    rw [List.foldl_cons, ih, keys_addTally, List.map_cons]
    by_cases h : t.key ∈ counts.map (·.key)
    · rw [if_pos h, List.filter_cons_of_neg (by simpa using h)]
    · -- A new key goes to the end, and what comes later of it is not new any more.
      rw [if_neg h, List.filter_cons_of_pos (by simpa using h), List.eraseDups_cons,
        List.filter_filter, List.append_assoc, List.singleton_append]
      have hlater : (fun key => decide (key ∉ counts.map (·.key) ++ [t.key])) =
          fun key => !(key == t.key) && decide (key ∉ counts.map (·.key)) := by
        funext key
        by_cases hkey : key = t.key <;> simp [hkey]
      rw [hlater]

theorem nodup_keys_foldl_addTally (ts : List Tally) :
    ∀ {counts : List Tally}, (counts.map (·.key)).Nodup →
      ((ts.foldl addTally counts).map (·.key)).Nodup := by
  induction ts with
  | nil => exact fun h => h
  | cons t ts ih =>
    intro counts h
    apply ih
    rw [keys_addTally]
    split
    · exact h
    · next hnew =>
      rw [← List.concat_eq_append]
      exact (List.nodup_concat _ _).2 ⟨hnew, h⟩

theorem total_addTally (counts : List Tally) (t : Tally) :
    total (addTally counts t) = total counts + t.count := by
  rw [addTally]
  split
  · next hsome => exact total_addTo t.count hsome
  · simp [total_eq_sum]

theorem total_foldl_addTally (ts : List Tally) :
    ∀ counts, total (ts.foldl addTally counts) = total counts + total ts := by
  induction ts with
  | nil => exact fun _ => rfl
  | cons t ts ih =>
    intro counts
    rw [List.foldl_cons, ih, total_addTally, total_cons, Nat.add_assoc]

theorem keys_foldl_of_subset {ts counts : List Tally}
    (h : ∀ t ∈ ts, t.key ∈ counts.map (·.key)) :
    (ts.foldl addTally counts).map (·.key) = counts.map (·.key) := by
  have hnone : (ts.map (·.key)).filter (fun key => key ∉ counts.map (·.key)) = [] := by
    rw [List.filter_eq_nil_iff, List.forall_mem_map]
    intro t ht
    simpa using h t ht
  rw [keys_foldl_addTally, hnone]
  exact List.append_nil _

/-- **Recording tallies of the declared keys** adds them key by key. -/
theorem foldl_addTally_map {keys : List Text} (f : Text → Nat) {ts : List Tally}
    (hdistinct : keys.Nodup) (hts : ts.map (·.key) = keys) :
    ts.foldl addTally (keys.map fun key => ⟨key, f key⟩) =
      keys.map fun key => ⟨key, f key + (count? key ts).getD 0⟩ := by
  have hstart : (keys.map fun key => (⟨key, f key⟩ : Tally)).map (·.key) = keys := by
    rw [List.map_map]
    exact List.map_id keys
  have hkeys : (ts.foldl addTally (keys.map fun key => ⟨key, f key⟩)).map (·.key) = keys := by
    rw [keys_foldl_of_subset, hstart]
    intro t ht
    rw [hstart, ← hts]
    exact List.mem_map_of_mem ht
  have hnodup : ((ts.foldl addTally (keys.map fun key => ⟨key, f key⟩)).map (·.key)).Nodup := by
    rw [hkeys]
    exact hdistinct
  rw [eq_map_of_nodup hnodup, hkeys]
  apply List.map_congr_left
  intro key hkey
  rw [getD_count?_foldl, count?_map, if_pos hkey, sumOf_of_nodup (hts ▸ hdistinct)]
  rfl

end RunContext

end EnvTemplates
