import HttpWorkbench.Proofs.Number.Rounding
import HttpWorkbench.Proofs.Result
import HttpWorkbench.Sending.Service

/-!
# Time limits

The limit on the time of an exchange is the limit of the call, or else that of the service. One that
is not positive is refused, and a positive one becomes the nearest number of seconds, unless there is
none because the quotient is too large.
-/

namespace HttpWorkbench

/-- The rational that a value counts for, if it is a finite number or a truth value. -/
def Value.amount? : Value → Option ℚ
  | .bool b => some (if b then 1 else 0)
  | .int n => some n
  | .float (.finite negative m e _) => some (if negative then -((m : ℚ) * 2 ^ e) else m * 2 ^ e)
  | _ => none

theorem Value.amount?_of_asInt? {v : Value} {n : Int} (h : v.asInt? = some n) :
    v.amount? = some (n : ℚ) := by
  cases v with
  | bool b => cases b <;> cases h <;> simp [amount?]
  | int m =>
    cases h
    rfl
  | _ => cases h

/-- An amount is a whole number or a finite number of the format. -/
theorem Value.amount?_cases {v : Value} {q : ℚ} (h : v.amount? = some q) :
    (∃ n : Int, v.asInt? = some n ∧ q = n) ∨
    ∃ negative m e hcanonical, v = .float (.finite negative m e hcanonical) ∧
      q = if negative then -((m : ℚ) * 2 ^ e) else m * 2 ^ e := by
  cases hv : v.asInt? with
  | some n =>
    rw [amount?_of_asInt? hv] at h
    exact .inl ⟨n, rfl, (Option.some.inj h).symm⟩
  | none =>
    cases v with
    | float x =>
      cases x with
      | finite negative m e hcanonical =>
        exact .inr ⟨negative, m, e, hcanonical, rfl, (Option.some.inj h).symm⟩
      | _ => cases h
    | bool b => cases hv
    | int n => cases hv
    | _ => cases h

namespace Binary64

theorem signedRatio_div (negative : Bool) (m : Nat) (e : Int) :
    ((signedRatio negative m e).1 : ℚ) / (signedRatio negative m e).2 =
      if negative then -((m : ℚ) * 2 ^ e) else m * 2 ^ e := by
  have hratio := ratio_div m e
  cases negative
  · simpa [signedRatio] using hratio
  · simpa [signedRatio, neg_div] using hratio

/-- A finite number is compared with zero by its sign. -/
theorem compareInt?_zero (negative : Bool) (m : Nat) (e : Int) (h : Canonical m e) :
    (finite negative m e h).compareInt? 0 =
      some (compare (if negative then -((m : ℚ) * 2 ^ e) else m * 2 ^ e) 0) := by
  have hden : (0 : ℚ) < (signedRatio negative m e).2 := by
    exact_mod_cast ratio_snd_pos m e
  have hratio := signedRatio_div negative m e
  rw [compareInt?, ← hratio]
  simp only [zero_mul]
  congr 1
  rcases lt_trichotomy (signedRatio negative m e).1 0 with hlt | heq | hgt
  · rw [compare_lt_iff_lt.mpr hlt, eq_comm, compare_lt_iff_lt]
    exact div_neg_of_neg_of_pos (by exact_mod_cast hlt) hden
  · rw [heq]
    simp
  · rw [compare_gt_iff_gt.mpr hgt, eq_comm, compare_gt_iff_gt]
    exact div_pos (by exact_mod_cast hgt) hden

/-- A positive finite number divided by a natural is rounded to the nearest number. -/
theorem divide_finite (m : Nat) {e : Int} (h : Canonical m e) {divisor : Nat} (hpos : 0 < divisor) :
    ∃ n d hnd, (finite false m e h).divide divisor = .finite false n d hnd ∧
      RoundsTo (m * 2 ^ e / divisor) n d := by
  have hratio := ratio_div m e
  have hden := ratio_snd_pos m e
  have hx : ((ratio m e).1 : ℚ) / ((ratio m e).2 * divisor : Nat) = m * 2 ^ e / divisor := by
    rw [Nat.cast_mul, ← div_div, hratio]
  have hbound : ((ratio m e).1 : ℚ) / ((ratio m e).2 * divisor : Nat) < overflowBound := by
    have hdivisor : (1 : ℚ) ≤ divisor := by exact_mod_cast hpos
    rw [hx]
    exact (div_le_self (by positivity) hdivisor).trans_lt h.lt_overflowBound
  obtain ⟨n, d, hnd, hround, hnear⟩ := ofRatio_finite (Nat.mul_pos hden hpos) false hbound
  exact ⟨n, d, hnd, hround, hx ▸ hnear⟩

end Binary64

namespace Service

open Binary64

/-- The limit on the time of a call: its own, unless that is null, or else that of the service. -/
def effectiveTimeout (s : Service) (timeout : Value) : Value :=
  match timeout with
  | .null => s.timeout
  | v => v

theorem timeLimit_eq (s : Service) (timeout : Value) :
    s.timeLimit timeout = (s.effectiveTimeout timeout).isAtMost (.int 0) >>= fun tooSmall =>
      if tooSmall then .error (.send (.timeoutNotPositive (s.effectiveTimeout timeout).text))
      else inSeconds (s.effectiveTimeout timeout) := rfl

theorem isAtMost_zero {v : Value} {q : ℚ} (h : v.amount? = some q) :
    v.isAtMost (.int 0) = .ok (decide (q ≤ 0)) := by
  have hcompare {o : Option Ordering} (horder : v.order "<=" (.int 0) = .ok o)
      (ho : o = some (compare q 0)) : v.isAtMost (.int 0) = .ok (decide (q ≤ 0)) := by
    rw [Value.isAtMost, horder, ho, ok_bind]
    congr 1
    rcases lt_trichotomy q 0 with hlt | rfl | hgt
    · rw [compare_lt_iff_lt.mpr hlt, decide_eq_true hlt.le]
      rfl
    · simp
    · rw [compare_gt_iff_gt.mpr hgt, decide_eq_false (not_le.mpr hgt)]
      rfl
  have hcast (n : Int) : compare n 0 = compare (n : ℚ) 0 := by
    rcases lt_trichotomy n 0 with hlt | rfl | hgt
    · rw [compare_lt_iff_lt.mpr hlt, compare_lt_iff_lt.mpr (by exact_mod_cast hlt)]
    · simp
    · rw [compare_gt_iff_gt.mpr hgt, compare_gt_iff_gt.mpr (by exact_mod_cast hgt)]
  cases v with
  | bool b =>
    cases h
    refine hcompare rfl ?_
    rw [hcast]
    cases b <;> simp
  | int n =>
    cases h
    refine hcompare rfl ?_
    rw [hcast]
  | float x =>
    cases x with
    | finite negative m e hcanonical =>
      cases h
      exact hcompare rfl (compareInt?_zero negative m e hcanonical)
    | _ => cases h
  | _ => cases h

/-- A limit that is not positive is refused. -/
theorem timeLimit_of_nonpos (s : Service) {timeout : Value} {q : ℚ}
    (h : (s.effectiveTimeout timeout).amount? = some q) (hq : q ≤ 0) :
    s.timeLimit timeout =
      .error (.send (.timeoutNotPositive (s.effectiveTimeout timeout).text)) := by
  rw [timeLimit_eq, isAtMost_zero h, ok_bind, decide_eq_true hq, if_pos rfl]

theorem timeLimit_of_pos (s : Service) {timeout : Value} {q : ℚ}
    (h : (s.effectiveTimeout timeout).amount? = some q) (hq : 0 < q) :
    s.timeLimit timeout = inSeconds (s.effectiveTimeout timeout) := by
  rw [timeLimit_eq, isAtMost_zero h, ok_bind, decide_eq_false (not_le.mpr hq)]
  rfl

/-- A positive whole number of milliseconds in seconds, where there is such a number. -/
theorem inSeconds_int {v : Value} {n : Int} (hv : v.asInt? = some n) (hn : 0 < n) :
    ((n : ℚ) / 1000 < overflowBound →
      ∃ m e h, inSeconds v = .ok (.finite false m e h) ∧ RoundsTo ((n : ℚ) / 1000) m e) ∧
    (overflowBound ≤ (n : ℚ) / 1000 → inSeconds v = misused .quotientTooLarge) := by
  obtain ⟨k, rfl⟩ := Int.eq_ofNat_of_zero_le hn.le
  have hsign : decide ((k : Int) < 0) = false := decide_eq_false (by omega)
  have hseconds : inSeconds v = (ofQuotient? k 1000).elim (misused .quotientTooLarge) .ok := by
    unfold inSeconds
    split
    · cases hv
    · simp only [hv]
      cases ofQuotient? k 1000 <;> rfl
  have hquotient : ((k : Int) : ℚ) / 1000 = (k : ℚ) / (1000 : Nat) := by norm_num
  have hthousand : 0 < 1000 := by decide
  rw [hseconds, hquotient, ofQuotient?, hsign, Int.natAbs_natCast]
  constructor
  · intro hbound
    obtain ⟨m, e, h, hround, hnear⟩ := ofRatio_finite hthousand false hbound
    exact ⟨m, e, h, by rw [hround]; rfl, hnear⟩
  · intro hbound
    rw [ofRatio_infinite hthousand false hbound]
    rfl

/-- A positive limit is the nearest number of seconds. -/
theorem timeLimit_finite (s : Service) {timeout : Value} {q : ℚ}
    (h : (s.effectiveTimeout timeout).amount? = some q) (hq : 0 < q)
    (hbound : q / 1000 < overflowBound) :
    ∃ m e h, s.timeLimit timeout = .ok (.finite false m e h) ∧ RoundsTo (q / 1000) m e := by
  rw [s.timeLimit_of_pos h hq]
  rcases Value.amount?_cases h with ⟨n, hn, rfl⟩ | ⟨negative, m, e, hcanonical, hv, rfl⟩
  · exact (inSeconds_int hn (by exact_mod_cast hq)).1 hbound
  · rw [hv]
    cases negative with
    | false =>
      obtain ⟨n, d, hnd, hdivide, hnear⟩ := divide_finite m hcanonical (by decide : 0 < 1000)
      exact ⟨n, d, hnd, congrArg Except.ok hdivide, by exact_mod_cast hnear⟩
    | true =>
      have hnonneg : (0 : ℚ) ≤ m * 2 ^ e := by positivity
      simp only [if_true] at hq
      linarith

end Service

end HttpWorkbench
