import HttpWorkbench.Number.Shortest
import HttpWorkbench.Text.Basic

/-!
# Written numbers

Decimals are written positionally when the point is near the digits, and with an exponent
otherwise. A `NumberStyle` fixes where that changes and how the parts look.
-/

namespace HttpWorkbench

/-- How decimals are written. -/
structure NumberStyle where
  /-- Positions of the point, counted from the left of the digits, that are written out. -/
  firstPoint : Int
  lastPoint : Int
  /-- Whether a whole number ends in `.0`. -/
  wholeMark : Bool

/-- Every double has a point or an exponent; sixteen digits stand before the point at most. -/
def NumberStyle.value : NumberStyle := ⟨-3, 16, true⟩

/-- Six significant digits at most, and nothing after a whole number. -/
def NumberStyle.general : NumberStyle := ⟨-3, 6, false⟩

/-- Digits in base ten. -/
def natText (n : Nat) : Text := .ofChars (Nat.toDigits 10 n)

/-- An integer in base ten. -/
def intText (n : Int) : Text :=
  if n < 0 then '-' :: natText n.natAbs else natText n.natAbs

/-- Digits tell natural numbers apart. -/
theorem natText_injective {m n : Nat} (h : natText m = natText n) : m = n := by
  have hdigits : Nat.toDigits 10 m = Nat.toDigits 10 n := by
    simpa [natText, Text.ofChars, List.map_inj_right] using h
  rw [← Nat.ofDigitChars_ten_toDigits (n := m), hdigits, Nat.ofDigitChars_ten_toDigits]

/-- No digit is a sign. -/
theorem sign_notMem_natText (n : Nat) : .char '-' ∉ natText n := by
  intro h
  obtain ⟨c, hc, hsign⟩ := List.mem_map.mp h
  have hdigit := Nat.isDigit_of_mem_toDigits (by decide) (by decide) hc
  rw [CodePoint.char.inj hsign] at hdigit
  exact absurd hdigit (by decide)

/-- Written numbers tell integers apart. -/
theorem intText_injective {m n : Int} (h : intText m = intText n) : m = n := by
  by_cases hm : m < 0 <;> by_cases hn : n < 0 <;> simp only [intText, hm, hn, if_true, if_false] at h
  · have habs := natText_injective (List.cons.inj h).2
    omega
  · exact absurd (h ▸ List.mem_cons_self) (sign_notMem_natText n.natAbs)
  · exact absurd (h ▸ List.mem_cons_self) (sign_notMem_natText m.natAbs)
  · have habs := natText_injective h
    omega

/-- The exponent part, with a sign and at least two digits. -/
def exponentText (e : Int) : Text :=
  let digits := natText e.natAbs
  'e' :: (if e < 0 then .char '-' else .char '+') ::
    (List.replicate (2 - digits.length) (.char '0') ++ digits)

/-- Digits of a decimal with the point at the given position, counted from the left. -/
def positional (style : NumberStyle) (digits : Text) (point : Int) : Text :=
  if point ≤ 0 then '0' :: '.' :: (List.replicate (-point).toNat (.char '0') ++ digits)
  else
    let whole := point.toNat
    if digits.length ≤ whole then
      digits ++ List.replicate (whole - digits.length) (.char '0') ++
        (if style.wholeMark then [.char '.', .char '0'] else [])
    else digits.take whole ++ .char '.' :: digits.drop whole

/-- One digit, the others after a point, and the exponent. -/
def scientific (digits : Text) (point : Int) : Text :=
  (match digits with
    | [] => []
    | [d] => [d]
    | d :: rest => d :: .char '.' :: rest) ++ exponentText (point - 1)

/-- A positive decimal without trailing zeros. -/
def Decimal.text (style : NumberStyle) (d : Decimal) : Text :=
  if style.firstPoint ≤ d.point ∧ d.point ≤ style.lastPoint
  then positional style (.ofChars d.digits) d.point
  else scientific (.ofChars d.digits) d.point

namespace Binary64

/-- A sign in front of a magnitude. -/
def withSign (negative : Bool) (magnitude : Text) : Text :=
  if negative then '-' :: magnitude else magnitude

/-- The words for what is not finite. -/
structure SpecialNames where
  nan : Text
  infinite : Text

/-- How values are shown. -/
def SpecialNames.shown : SpecialNames := ⟨"nan", "inf"⟩

/-- How documents spell them. -/
def SpecialNames.document : SpecialNames := ⟨"NaN", "Infinity"⟩

/-- The shortest text that reads back as the number. -/
def shortestText (names : SpecialNames) : Binary64 → Text
  | .nan _ => names.nan
  | .infinite s => withSign s names.infinite
  | .finite s m e _ =>
    withSign s (if m = 0 then .ofString "0.0" else (shortest m e).text .value)

/-- The number as shown in a message. -/
def text (x : Binary64) : Text := x.shortestText .shown

/-- The number with at most six significant digits. -/
def generalText : Binary64 → Text
  | .nan _ => "nan"
  | .infinite s => if s then "-inf" else "inf"
  | .finite s m e _ =>
    let (num, den) := ratio m e
    withSign s (if m = 0 then ['0'] else (significant 6 num den).text .general)

/-- The number rounded to a whole one, a half going to the even neighbour. -/
def wholeText : Binary64 → Text
  | .nan _ => "nan"
  | .infinite s => if s then "-inf" else "inf"
  | .finite s m e _ =>
    let (num, den) := ratio m e
    withSign s (natText (roundQuotient num den))

end Binary64

end HttpWorkbench
