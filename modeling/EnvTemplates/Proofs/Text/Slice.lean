import EnvTemplates.Text.Basic

/-!
# Slices of a text by bytes

Spans are counted in bytes of UTF-8 while a text is a list of characters. `slice` gives the part of
a text between two byte offsets. Where the offsets fall on the boundaries of characters it is the
part that stands there (`slice_append`, and `IsSlice` as a relation); spans of placeholders always
do. `slice?` refuses all other offsets (`slice?_eq_some_iff`).
-/

namespace EnvTemplates.Text

/-! ### The length in bytes -/

@[simp] theorem byteLength_nil : byteLength [] = 0 := rfl

@[simp] theorem byteLength_cons (c : Char) (t : Text) :
    byteLength (c :: t) = c.utf8Size + byteLength t := rfl

theorem byteLength_cons_ne_zero (c : Char) (t : Text) : byteLength (c :: t) ≠ 0 := by
  have hpos : 0 < c.utf8Size := Char.utf8Size_pos c
  rw [byteLength_cons]
  omega

@[simp] theorem byteLength_append (a b : Text) :
    byteLength (a ++ b) = byteLength a + byteLength b := by
  induction a with
  | nil => rw [List.nil_append, byteLength_nil, Nat.zero_add]
  | cons c a ih => rw [List.cons_append, byteLength_cons, byteLength_cons, ih, Nat.add_assoc]

/-! ### Slices -/

/-- The text without its first bytes. -/
def dropBytes : Nat → Text → Text
  | _, [] => []
  | n, c :: rest => if n = 0 then c :: rest else dropBytes (n - c.utf8Size) rest

/-- The characters that take the first bytes of a text. -/
def takeBytes : Nat → Text → Text
  | _, [] => []
  | n, c :: rest => if n = 0 then [] else c :: takeBytes (n - c.utf8Size) rest

/-- The part of a text between two byte offsets. -/
def slice (start stop : Nat) (t : Text) : Text := takeBytes (stop - start) (dropBytes start t)

@[simp] theorem dropBytes_zero (t : Text) : dropBytes 0 t = t := by
  cases t <;> rfl

@[simp] theorem takeBytes_zero (t : Text) : takeBytes 0 t = [] := by
  cases t <;> rfl

theorem dropBytes_append (b : Text) : ∀ a : Text, dropBytes (byteLength a) (a ++ b) = b
  | [] => dropBytes_zero b
  | c :: a => by
    rw [List.cons_append, dropBytes, if_neg (byteLength_cons_ne_zero c a), byteLength_cons,
      Nat.add_sub_cancel_left, dropBytes_append b a]

theorem takeBytes_append (b : Text) : ∀ a : Text, takeBytes (byteLength a) (a ++ b) = a
  | [] => takeBytes_zero b
  | c :: a => by
    rw [List.cons_append, takeBytes, if_neg (byteLength_cons_ne_zero c a), byteLength_cons,
      Nat.add_sub_cancel_left, takeBytes_append b a]

/-- The slice between the ends of two beginnings of a text is what the longer one has more. -/
theorem slice_append (a b c : Text) :
    slice (byteLength a) (byteLength (a ++ b)) (a ++ b ++ c) = b := by
  rw [slice, List.append_assoc, dropBytes_append, byteLength_append, Nat.add_sub_cancel_left,
    takeBytes_append]

/-- A part of a text stands between two byte offsets, both on boundaries of characters. -/
def IsSlice (start stop : Nat) (part text : Text) : Prop :=
  ∃ before after, text = before ++ part ++ after ∧ start = byteLength before ∧
    stop = byteLength (before ++ part)

/-! ### Slices that can be refused -/

/-- Cut a text behind its first bytes, unless that is inside of a character or behind the end. -/
def splitBytes? : Nat → Text → Option (Text × Text)
  | 0, text => some ([], text)
  | _ + 1, [] => none
  | n + 1, c :: rest =>
    if c.utf8Size ≤ n + 1 then
      (splitBytes? (n + 1 - c.utf8Size) rest).map fun cut => (c :: cut.1, cut.2)
    else none

/-- The part of a text between two byte offsets, if they are in order and both are on boundaries of
characters. -/
def slice? (start stop : Nat) (text : Text) : Option Text :=
  if start ≤ stop then
    (splitBytes? start text).bind fun front =>
      (splitBytes? (stop - start) front.2).map (·.1)
  else none

theorem splitBytes?_append (b : Text) :
    ∀ a : Text, splitBytes? (byteLength a) (a ++ b) = some (a, b)
  | [] => by rw [List.nil_append, byteLength_nil, splitBytes?]
  | c :: a => by
    obtain ⟨n, hn⟩ := Nat.exists_eq_succ_of_ne_zero (byteLength_cons_ne_zero c a)
    have hlength := byteLength_cons c a
    have hrest : n + 1 - c.utf8Size = byteLength a := by omega
    rw [hn, List.cons_append, splitBytes?, if_pos (by omega), hrest, splitBytes?_append b a]
    rfl

theorem splitBytes?_eq_some_iff {n : Nat} {a b text : Text} :
    splitBytes? n text = some (a, b) ↔ text = a ++ b ∧ n = byteLength a := by
  constructor
  · intro h
    induction text generalizing n a with
    | nil =>
      cases n with
      | zero =>
        cases h
        exact ⟨rfl, rfl⟩
      | succ n => cases h
    | cons c rest ih =>
      cases n with
      | zero =>
        cases h
        exact ⟨rfl, rfl⟩
      | succ n =>
        rw [splitBytes?] at h
        split at h
        · next hle =>
          obtain ⟨⟨a', b'⟩, hrest, hcons⟩ := Option.map_eq_some_iff.1 h
          cases hcons
          obtain ⟨rfl, hlength⟩ := ih hrest
          refine ⟨rfl, ?_⟩
          rw [byteLength_cons, ← hlength]
          omega
        · cases h
  · rintro ⟨rfl, rfl⟩
    exact splitBytes?_append b a

theorem slice?_eq_some_iff {start stop : Nat} {part text : Text} :
    slice? start stop text = some part ↔ IsSlice start stop part text := by
  rw [slice?, IsSlice]
  constructor
  · intro h
    split at h
    · next hle =>
      obtain ⟨⟨before, rest⟩, hfront, h⟩ := Option.bind_eq_some_iff.1 h
      obtain ⟨⟨found, after⟩, hpart, rfl⟩ := Option.map_eq_some_iff.1 h
      obtain ⟨rfl, hbefore⟩ := splitBytes?_eq_some_iff.1 hfront
      obtain ⟨rfl, hfound⟩ := splitBytes?_eq_some_iff.1 hpart
      refine ⟨before, after, (List.append_assoc _ _ _).symm, hbefore, ?_⟩
      rw [byteLength_append, ← hbefore, ← hfound]
      omega
    · cases h
  · rintro ⟨before, after, rfl, rfl, rfl⟩
    have hle : byteLength before ≤ byteLength (before ++ part) := by
      rw [byteLength_append]
      exact Nat.le_add_right _ _
    rw [if_pos hle, List.append_assoc, splitBytes?_append, Option.bind_some, byteLength_append,
      Nat.add_sub_cancel_left, splitBytes?_append]
    rfl

end EnvTemplates.Text
