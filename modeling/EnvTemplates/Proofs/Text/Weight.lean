import EnvTemplates.Proofs.Text.Replacement

/-!
# What a replacement does to the weight of a text

A weight gives a number to each character and adds them up over a text: the number of times that a
character occurs is a weight, and so is the length in bytes. A replacement takes a token out and
puts a value in, as often as it counts, and leaves all other characters where they are. So with
every weight

    after the pass + count * token  =  before the pass + count * value

(`weight_replaceToken`).
-/

namespace EnvTemplates.Text

/-- The weight of a text: the sum of what its characters weigh. -/
def weight (w : Char → Nat) (t : Text) : Nat := (t.map w).foldr (· + ·) 0

@[simp] theorem weight_nil (w : Char → Nat) : weight w [] = 0 := rfl

@[simp] theorem weight_cons (w : Char → Nat) (c : Char) (t : Text) :
    weight w (c :: t) = w c + weight w t := rfl

@[simp] theorem weight_append (w : Char → Nat) (a b : Text) :
    weight w (a ++ b) = weight w a + weight w b := by
  induction a with
  | nil => simp
  | cons c a ih => simp only [List.cons_append, weight_cons, ih, Nat.add_assoc]

/-- The number of times that a character occurs is the weight that counts it alone. -/
theorem count_eq_weight (c : Char) (t : Text) :
    t.count c = weight (fun d => if d = c then 1 else 0) t := by
  induction t with
  | nil => rfl
  | cons d t ih =>
    rw [List.count_cons, weight_cons, ih, Nat.add_comm]
    simp

theorem byteLength_eq_weight (t : Text) : byteLength t = weight Char.utf8Size t := rfl

/-- **A pass exchanges values for tokens**, as often as it counts, and nothing else. -/
theorem weight_replaceToken (w : Char → Nat) (token value text : Text) :
    weight w (replaceToken token value text).text +
        (replaceToken token value text).count * weight w token =
      weight w text + (replaceToken token value text).count * weight w value := by
  by_cases hne : token = []
  · simp [replaceToken, pieces, hne]
  · induction text using replacement_induction hne with
    | nil => simp [hne]
    | found rest ih =>
      simp only [replaceToken_append hne, weight_append, Nat.add_mul, Nat.one_mul]
      omega
    | kept c rest hstart ih =>
      simp only [replaceToken_cons hstart, weight_cons]
      omega

end EnvTemplates.Text
