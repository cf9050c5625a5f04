import HelperHandoff.Counter.Store

set_option autoImplicit false

namespace HelperHandoff.ExitCode

open Counter (InRange Store)

/-- The codes that stand for a value in the range of a counter. -/
def Accepted (code : Int32) : Prop := -999 ≤ code.toInt ∧ code.toInt ≤ 31767

instance (code : Int32) : Decidable (Accepted code) := inferInstanceAs (Decidable (_ ∧ _))

theorem encode?_eq_some_iff {code v : Int32} :
    encode? code = some v ↔
      (code.toInt ≤ 2147482647 ∧ -1000 < code.toInt) ∧ Int32.ofInt (code.toInt + 1000) = v := by
  simp only [encode?, Option.ite_none_right_eq_some, Option.some.injEq]
  simp only [Protocol.counterOffset, Protocol.counterResting, wordMax]
  constructor
  · rintro ⟨hs, hv⟩
    exact ⟨by omega, hv⟩
  · rintro ⟨hs, hv⟩
    exact ⟨by omega, hv⟩

theorem toInt_of_encode? {code v : Int32} (h : encode? code = some v) :
    v.toInt = code.toInt + 1000 := by
  obtain ⟨hs, rfl⟩ := encode?_eq_some_iff.mp h
  exact Int32.toInt_ofInt_of_le (by omega) (by omega)

theorem ne_zero_of_encode? {code v : Int32} (h : encode? code = some v) : v ≠ 0 := by
  have hv := toInt_of_encode? h
  obtain ⟨hs, -⟩ := encode?_eq_some_iff.mp h
  rintro rfl
  have hz : (0 : Int32).toInt = 0 := rfl
  omega

@[simp] theorem decode?_zero : decode? 0 = none := rfl

theorem decode?_of_ne_zero {v : Int32} (h : v ≠ 0) :
    decode? v = some (Int32.ofInt (v.toInt - 1000)) := by
  have hv : v.toInt ≠ 0 := fun hz => h (Int32.toInt_inj.mp hz)
  simp [decode?, Protocol.counterResting, Protocol.counterOffset, hv]

theorem decode?_of_encode? {code v : Int32} (h : encode? code = some v) :
    decode? v = some code := by
  rw [decode?_of_ne_zero (ne_zero_of_encode? h), toInt_of_encode? h, Int.add_sub_cancel,
    Int32.ofInt_toInt]

theorem toInt_of_decode? {code v : Int32} (hr : InRange v) (h : decode? v = some code) :
    v ≠ 0 ∧ v.toInt = code.toInt + 1000 := by
  by_cases hv : v = 0
  · simp [hv] at h
  · rw [decode?_of_ne_zero hv] at h
    obtain rfl := Option.some.inj h
    have hc := hr.2
    simp only [Counter.ceiling] at hc
    have hw : (Int32.ofInt (v.toInt - 1000)).toInt = v.toInt - 1000 :=
      Int32.toInt_ofInt_of_le (by have := hr.1; omega) (by omega)
    exact ⟨hv, by omega⟩

theorem Accepted.encode? {code : Int32} (h : Accepted code) :
    ∃ v, ExitCode.encode? code = some v ∧ InRange v := by
  obtain ⟨hl, hu⟩ := h
  have he : ExitCode.encode? code = some (Int32.ofInt (code.toInt + 1000)) :=
    encode?_eq_some_iff.mpr ⟨by omega, rfl⟩
  have hv := toInt_of_encode? he
  refine ⟨_, he, ?_⟩
  unfold InRange
  rw [hv]
  simp only [Counter.ceiling]
  omega

theorem accepted_of_encode? {code v : Int32} (h : ExitCode.encode? code = some v)
    (hr : InRange v) : Accepted code := by
  have hv := toInt_of_encode? h
  obtain ⟨hs, -⟩ := encode?_eq_some_iff.mp h
  obtain ⟨hl, hu⟩ := hr
  simp only [Counter.ceiling] at hu
  exact ⟨by omega, by omega⟩

/-! ### Statuses -/

theorem saturate_eq_self {n : Int} (hl : wordMin ≤ n) (hu : n ≤ wordMax) : saturate n = n := by
  unfold saturate
  omega

theorem toNat_statusByte_of_nonneg {code : Int32} (h : 0 ≤ code.toInt) :
    ((statusByte code).toNat : Int) = code.toInt % 256 := by
  simp only [statusByte, if_neg (Int.not_lt.mpr h), UInt8.toNat_ofNat']
  omega

theorem toNat_statusByte_of_neg {code : Int32} (h : code.toInt < 0)
    (hs : saturate (128 + saturate (-code.toInt)) = 128 - code.toInt) :
    ((statusByte code).toNat : Int) = (128 - code.toInt) % 256 := by
  simp only [statusByte, if_pos h, hs, UInt8.toNat_ofNat']
  omega

/-- The status of a client says what the code was: the code itself if it fits, the number of the
signal behind 128, and the low eight bits of anything greater. -/
structure Tells (code : Int32) (status : UInt8) : Prop where
  plain : 0 ≤ code.toInt → code.toInt ≤ 255 → (status.toNat : Int) = code.toInt
  signal : ∀ n : Nat, 1 ≤ n → n ≤ 127 → code.toInt = -n → status.toNat = 128 + n
  nonneg : 0 ≤ code.toInt → (status.toNat : Int) = code.toInt % 256
  neg : code.toInt < 0 → (status.toNat : Int) = (128 - code.toInt) % 256

/-- On the way from the value of a counter to the status of its code each difference and each sum
is a word, so that none of them is cut off. -/
structure Exact (v code : Int32) : Prop where
  decoded : decode? v = some code
  difference : code.toInt = v.toInt - Protocol.counterOffset
  negation : code.toInt < 0 → saturate (-code.toInt) = -code.toInt
  sum : code.toInt < 0 → saturate (128 + saturate (-code.toInt)) = 128 - code.toInt
  tells : Tells code (statusByte code)

theorem exact_of_decode? {v code : Int32} (hr : InRange v) (h : decode? v = some code) :
    Exact v code := by
  obtain ⟨-, hv⟩ := toInt_of_decode? hr h
  obtain ⟨hl, hu⟩ := hr
  simp only [Counter.ceiling] at hu
  have hnegation (hn : code.toInt < 0) : saturate (-code.toInt) = -code.toInt :=
    saturate_eq_self (by simp only [wordMin]; omega) (by simp only [wordMax]; omega)
  have hsum (hn : code.toInt < 0) :
      saturate (128 + saturate (-code.toInt)) = 128 - code.toInt := by
    rw [hnegation hn, ← Int.sub_eq_add_neg]
    exact saturate_eq_self (by simp only [wordMin]; omega) (by simp only [wordMax]; omega)
  have hneg (hn : code.toInt < 0) := toNat_statusByte_of_neg hn (hsum hn)
  refine ⟨h, ?_, hnegation, hsum, ?_, ?_, toNat_statusByte_of_nonneg, hneg⟩
  · simp only [Protocol.counterOffset]
    omega
  · intro hp hc
    rw [toNat_statusByte_of_nonneg hp]
    omega
  · intro n h1 hn hc
    have hs := hneg (by omega)
    omega

/-- Every value but the resting one that anybody can leave in a counter stands for a code. -/
theorem exists_exact {v : Int32} (hr : InRange v) (hv : v ≠ 0) : ∃ code, Exact v code :=
  ⟨_, exact_of_decode? hr (decode?_of_ne_zero hv)⟩

end HelperHandoff.ExitCode
