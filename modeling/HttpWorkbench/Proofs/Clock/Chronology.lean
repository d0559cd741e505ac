import HttpWorkbench.Proofs.Clock.Calendar
import HttpWorkbench.Proofs.Json.Numbers
import HttpWorkbench.Value.Order

/-!
# Timestamps are ordered as the clock

The texts of two clock readings, both from 1970 up to the end of the year 9999, stand in the order of
the readings. The parts of a timestamp have fixed widths, except that a fraction of a second which is
zero is not written: the offset that follows then begins with a plus sign, which comes before the
point of every fraction.
-/

namespace HttpWorkbench

open Json (isDigit digitsValue)

/-! ## The order of texts in parts -/

namespace Value

theorem rowOrder_append {a b : List Nat} (h : a.length = b.length) (x y : List Nat) :
    rowOrder (a ++ x) (b ++ y) = (rowOrder a b).then (rowOrder x y) := by
  induction a generalizing b with
  | nil =>
    cases b with
    | nil => rfl
    | cons _ _ => cases h
  | cons m a ih =>
    cases b with
    | nil => cases h
    | cons n b =>
      rw [List.cons_append, List.cons_append, rowOrder, rowOrder, ih (Nat.succ.inj h),
        Ordering.then_assoc]

theorem rowOrder_self (a : List Nat) : rowOrder a a = .eq := by
  induction a with
  | nil => rfl
  | cons n a ih =>
    rw [rowOrder, ih, Nat.compare_eq_eq.mpr rfl]
    rfl

/-- Texts that begin with parts of one length are ordered by these parts, and then by the rest. -/
theorem textOrder_append {s t : Text} (h : s.length = t.length) (u v : Text) :
    textOrder (s ++ u) (t ++ v) = (textOrder s t).then (textOrder u v) := by
  rw [textOrder, List.map_append, List.map_append, rowOrder_append (by simpa using h)]
  rfl

theorem textOrder_self (s : Text) : textOrder s s = .eq := rowOrder_self _

theorem textOrder_append_left (s u v : Text) :
    textOrder (s ++ u) (s ++ v) = textOrder u v := by
  rw [textOrder_append rfl, textOrder_self]
  rfl

end Value

open Value

/-! ## Digits -/

theorem Json.value_of_isDigit {c : CodePoint} (h : isDigit c = true) :
    0x30 ≤ c.value ∧ c.value ≤ 0x39 := by
  cases c with
  | char d =>
    change d.isDigit = true at h
    rw [Char.isDigit, Bool.and_eq_true, decide_eq_true_eq, decide_eq_true_eq] at h
    exact h
  | half _ => cases h

theorem Json.digitsValue_cons (c : CodePoint) (cs : Text) :
    digitsValue (c :: cs) = (c.value - 0x30) * 10 ^ cs.length + digitsValue cs := by
  rw [← List.singleton_append, digitsValue_append]
  congr 2
  exact Nat.zero_add _

theorem Json.digitsValue_lt {ds : Text} (h : ∀ c ∈ ds, isDigit c = true) :
    digitsValue ds < 10 ^ ds.length := by
  induction ds with
  | nil => decide
  | cons c ds ih =>
    obtain ⟨hc, hds⟩ := List.forall_mem_cons.mp h
    have hvalue := value_of_isDigit hc
    have hrest := ih hds
    have hfirst : (c.value - 0x30) * 10 ^ ds.length ≤ 9 * 10 ^ ds.length :=
      Nat.mul_le_mul_right _ (by omega)
    rw [digitsValue_cons, List.length_cons, Nat.pow_succ]
    omega

/-- A first digit and the number after it are quotient and remainder. -/
theorem mul_add_div_mod {k r : Nat} (n : Nat) (hr : r < k) :
    (n * k + r) / k = n ∧ (n * k + r) % k = r := by
  rw [Nat.mul_comm]
  constructor
  · rw [Nat.mul_add_div (by omega), Nat.div_eq_of_lt hr, Nat.add_zero]
  · rw [Nat.mul_add_mod, Nat.mod_eq_of_lt hr]

/-- Rows of equally many digits are ordered as the numbers that they write. -/
theorem textOrder_digits {ds es : Text} (hds : ∀ c ∈ ds, isDigit c = true)
    (hes : ∀ c ∈ es, isDigit c = true) (hlength : ds.length = es.length) :
    textOrder ds es = compare (digitsValue ds) (digitsValue es) := by
  induction ds generalizing es with
  | nil =>
    cases es with
    | nil => rfl
    | cons _ _ => cases hlength
  | cons c ds ih =>
    cases es with
    | nil => cases hlength
    | cons d es =>
      obtain ⟨hc, hds⟩ := List.forall_mem_cons.mp hds
      obtain ⟨hd, hes⟩ := List.forall_mem_cons.mp hes
      have hlength : ds.length = es.length := Nat.succ.inj hlength
      have hc := Json.value_of_isDigit hc
      have hd := Json.value_of_isDigit hd
      have hfirst : compare (c.value - 0x30) (d.value - 0x30) = compare c.value d.value := by
        rw [← Timestamp.compare_add_left 0x30 (c.value - 0x30), Nat.add_sub_cancel' hc.1,
          Nat.add_sub_cancel' hd.1]
      have hm := mul_add_div_mod (c.value - 0x30) (Json.digitsValue_lt hds)
      have hn := mul_add_div_mod (d.value - 0x30) (Json.digitsValue_lt hes)
      rw [hlength] at hm
      rw [Json.digitsValue_cons, Json.digitsValue_cons, hlength,
        ← Timestamp.compare_div_mod (10 ^ es.length) (_ * _ + _), hm.1, hm.2, hn.1, hn.2, hfirst,
        ← ih hds hes hlength]
      rfl

namespace Timestamp

/-! ## Numbers of fixed width -/

theorem isDigit_of_mem_padded {width n : Nat} {c : CodePoint} (h : c ∈ padded width n) :
    isDigit c = true :=
  (List.mem_append.mp h).elim Json.isDigit_of_mem_zeros isDigit_of_mem_natText

theorem digitsValue_padded (width n : Nat) : digitsValue (padded width n) = n := by
  rw [padded, Json.digitsValue_append, Json.digitsValue_zeros, digitsValue_natText, Nat.zero_mul,
    Nat.zero_add]

theorem length_padded {width n : Nat} (hwidth : 0 < width) (hn : n < 10 ^ width) :
    (padded width n).length = width := by
  have hdigits : (natText n).length ≤ width := by
    rw [natText, Text.ofChars, List.length_map]
    exact (Nat.length_toDigits_le_iff (by decide) hwidth).mpr hn
  simp only [padded, List.length_append, List.length_replicate]
  omega

/-- Texts that begin with numbers of one width are ordered by these numbers, and then by the rest. -/
theorem textOrder_padded {width m n : Nat} (hwidth : 0 < width) (hm : m < 10 ^ width)
    (hn : n < 10 ^ width) (s t : Text) :
    textOrder (padded width m ++ s) (padded width n ++ t) = (compare m n).then (textOrder s t) := by
  have hlength : (padded width m).length = (padded width n).length := by
    rw [length_padded hwidth hm, length_padded hwidth hn]
  rw [textOrder_append hlength, textOrder_digits (fun _ => isDigit_of_mem_padded)
    (fun _ => isDigit_of_mem_padded) hlength, digitsValue_padded, digitsValue_padded]

/-! ## Timestamps -/

/-- The text after the seconds: the fraction of a second in milliseconds, unless that is zero, and the
offset. -/
def tailText (fraction : Nat) : Text :=
  (if fraction = 0 then [] else .char '.' :: padded 6 (fraction * 1000)) ++ "+00:00"

/-- A fraction that is not written comes before those that are. -/
theorem textOrder_tailText {m n : Nat} (hm : m < 1000) (hn : n < 1000) :
    textOrder (tailText m) (tailText n) = compare m n := by
  rw [tailText, tailText]
  split <;> split
  · rename_i hm hn
    rw [hm, hn]
    rfl
  · rename_i hm hn
    rw [hm, Nat.compare_eq_lt.mpr (Nat.pos_of_ne_zero hn)]
    rfl
  · rename_i hm hn
    rw [hn, Nat.compare_eq_gt.mpr (Nat.pos_of_ne_zero hm)]
    rfl
  · have hpoint (s t : Text) : textOrder (.char '.' :: s) (.char '.' :: t) = textOrder s t :=
      textOrder_append_left [.char '.'] s t
    have hscaled : compare (m * 1000) (n * 1000) = compare m n := by
      rw [← compare_div_mod 1000]
      simp only [Nat.mul_div_cancel _ (by decide : 0 < 1000), Nat.mul_mod_left]
      exact Ordering.then_eq
    rw [List.cons_append, List.cons_append, hpoint, textOrder_padded (by decide) (by omega) (by omega),
      textOrder_self, Ordering.then_eq, hscaled]

/-- Seconds of a day are ordered by the hours, then the minutes, then the seconds of the minute. -/
theorem compare_seconds (m n : Nat) :
    (compare (m / 3600) (n / 3600)).then ((compare (m / 60 % 60) (n / 60 % 60)).then
      (compare (m % 60) (n % 60))) = compare m n := by
  have hminute (n : Nat) : n % 3600 / 60 = n / 60 % 60 ∧ n % 3600 % 60 = n % 60 := by omega
  rw [← compare_div_mod 3600 m n, ← compare_div_mod 60 (m % 3600) (n % 3600), (hminute m).1,
    (hminute m).2, (hminute n).1, (hminute n).2]

/-- Milliseconds are ordered by the days, then the seconds of the day, then the fractions of the
second. -/
theorem compare_milliseconds (m n : Nat) :
    (compare (m / 86400000) (n / 86400000)).then
      ((compare (m / 1000 % 86400) (n / 1000 % 86400)).then (compare (m % 1000) (n % 1000))) =
        compare m n := by
  rw [← compare_div_mod 1000 m n, ← compare_div_mod 86400 (m / 1000) (n / 1000),
    Nat.div_div_eq_div_mul, Nat.div_div_eq_div_mul, Ordering.then_assoc]

/-- Timestamps of times before the year 10000 are ordered as the times. -/
theorem textOrder_ofMilliseconds {m n : Nat} (hm : m / 86400000 < daysBeforeYear 10000)
    (hn : n / 86400000 < daysBeforeYear 10000) :
    textOrder (ofMilliseconds m) (ofMilliseconds n) = compare m n := by
  obtain ⟨hmyear, hmmonth, hmday⟩ := dateOf_bounds hm
  obtain ⟨hnyear, hnmonth, hnday⟩ := dateOf_bounds hn
  rw [← compare_milliseconds m n, ← compare_dateOf, ← compare_seconds (m / 1000 % 86400)]
  have htext (n : Nat) : ofMilliseconds n = padded 4 (dateOf (n / 86400000)).1 ++ ("-" ++
      (padded 2 (dateOf (n / 86400000)).2.1 ++ ("-" ++ (padded 2 (dateOf (n / 86400000)).2.2 ++ ("T" ++
        (padded 2 (n / 1000 % 86400 / 3600) ++ (":" ++ (padded 2 (n / 1000 % 86400 / 60 % 60) ++
          (":" ++ (padded 2 (n / 1000 % 86400 % 60) ++ tailText (n % 1000))))))))))) := by
    simp only [ofMilliseconds, tailText, List.append_assoc]
  rw [htext, htext, textOrder_padded (by decide) hmyear hnyear, textOrder_append_left,
    textOrder_padded (by decide) hmmonth hnmonth, textOrder_append_left,
    textOrder_padded (by decide) hmday hnday, textOrder_append_left,
    textOrder_padded (by decide) (by omega) (by omega), textOrder_append_left,
    textOrder_padded (by decide) (by omega) (by omega), textOrder_append_left,
    textOrder_padded (by decide) (by omega) (by omega),
    textOrder_tailText (Nat.mod_lt _ (by decide)) (Nat.mod_lt _ (by decide))]
  simp only [Ordering.then_assoc]

end Timestamp

/-- The clock reading at the end of the year 9999. -/
def endOfYears : Int := 253402300800000

/-- The timestamps of clock readings from 1970 to the end of the year 9999 are ordered as the
readings. -/
theorem textOrder_timestamp {m n : Int} (hm : 0 ≤ m ∧ m < endOfYears) (hn : 0 ≤ n ∧ n < endOfYears) :
    textOrder (timestamp m) (timestamp n) = compare m n := by
  have hday {n : Int} (hn : 0 ≤ n ∧ n < endOfYears) :
      Timestamp.sinceYearOne n / 86400000 < Timestamp.daysBeforeYear 10000 := by
    rw [endOfYears] at hn
    have hdays : Timestamp.daysBeforeYear 10000 = 3652059 := rfl
    rw [hdays, Timestamp.sinceYearOne, Timestamp.epochDay]
    omega
  have hsince {n : Int} (hn : 0 ≤ n) :
      (Timestamp.sinceYearOne n : Int) = n + 719162 * 86400000 := by
    rw [Timestamp.sinceYearOne, Timestamp.epochDay]
    omega
  have hsincem := hsince hm.1
  have hsincen := hsince hn.1
  rw [timestamp, timestamp, Timestamp.textOrder_ofMilliseconds (hday hm) (hday hn)]
  rcases lt_trichotomy m n with h | h | h
  · rw [Int.compare_eq_lt.mpr h, Nat.compare_eq_lt.mpr (by omega)]
  · rw [Int.compare_eq_eq.mpr h, Nat.compare_eq_eq.mpr (by omega)]
  · rw [Int.compare_eq_gt.mpr h, Nat.compare_eq_gt.mpr (by omega)]

end HttpWorkbench
