/-!
# Code points

What texts are made of: characters, and halves of characters. A document can spell out one of the
two sixteen-bit units of a character whose other unit is missing. Such a half has a number of its
own, which no character has.
-/

namespace HttpWorkbench

/-- A character, or one of the 2048 halves that pairs of sixteen-bit units are made of. -/
inductive CodePoint where
  | char (c : Char)
  | half (offset : Fin 0x800)
  deriving DecidableEq, Repr

namespace CodePoint

/-- A character as a code point. -/
instance : Coe Char CodePoint := ⟨.char⟩

/-- The number of a code point. -/
def value : CodePoint → Nat
  | .char c => c.toNat
  | .half offset => 0xD800 + offset.val

/-- The code point with a number; beyond the last number, the null character. -/
def ofValue (n : Nat) : CodePoint :=
  if h : 0xD800 ≤ n ∧ n < 0xE000 then .half ⟨n - 0xD800, by omega⟩ else .char (Char.ofNat n)

/-- Whether the code point is half a character. -/
def isHalf : CodePoint → Bool
  | .char _ => false
  | .half _ => true

/-- Whether the code point is a character that passes a test. -/
def passes (test : Char → Bool) : CodePoint → Bool
  | .char c => test c
  | .half _ => false

/-- The code point with a character changed; a half stays. -/
def mapChar (f : Char → Char) : CodePoint → CodePoint
  | .char c => .char (f c)
  | .half offset => .half offset

/-- The number of a character is not that of a half. -/
theorem toNat_not_half (c : Char) : ¬(0xD800 ≤ c.toNat ∧ c.toNat < 0xE000) := by
  rintro ⟨low, high⟩
  rcases c.valid with h | ⟨h, _⟩
  · exact absurd (show c.toNat < 0xD800 from h) (by omega)
  · exact absurd (show 0xDFFF < c.toNat from h) (by omega)

@[simp] theorem ofValue_value (p : CodePoint) : ofValue p.value = p := by
  cases p with
  | char c => rw [ofValue, value, dif_neg (toNat_not_half c), Char.ofNat_toNat]
  | half offset =>
    have bound := offset.isLt
    rw [ofValue, dif_pos (by simp only [value]; omega)]
    simp [value]

/-- Numbers tell code points apart. -/
theorem value_injective {p q : CodePoint} (h : p.value = q.value) : p = q := by
  rw [← ofValue_value p, h, ofValue_value]

end CodePoint

end HttpWorkbench
