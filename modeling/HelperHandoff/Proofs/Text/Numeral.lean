import HelperHandoff.Text.Blank
import HelperHandoff.Text.Numeral
import Mathlib.Data.List.TakeWhile

set_option autoImplicit false

namespace HelperHandoff.Text

/-! ### Digits -/

theorem digit?_eq_some_iff {c : Char} {d : Nat} :
    digit? c = some d ↔ c.isDigit = true ∧ d = c.toNat - '0'.toNat := by
  have hle : ('0' ≤ c ∧ c ≤ '9') ↔ c.isDigit = true := by
    rw [Char.isDigit_iff_toNat]
    exact Iff.rfl
  rw [digit?, Option.ite_none_right_eq_some, hle, Option.some.injEq, @eq_comm _ d]

theorem digitsFrom_eq_none {cap : Nat} {cs : List Char} (h : ¬ ∀ c ∈ cs, c.isDigit = true)
    (n : Nat) : digitsFrom cap n cs = none := by
  induction cs generalizing n with
  | nil => simp at h
  | cons c cs ih =>
    rw [digitsFrom]
    cases hd : digit? c with
    | none => rfl
    | some d =>
      have hc := (digit?_eq_some_iff.mp hd).1
      exact ih (fun hcs => h (List.forall_mem_cons.mpr ⟨hc, hcs⟩)) _

theorem le_ofDigitChars (n : Nat) (cs : List Char) : n ≤ Nat.ofDigitChars 10 cs n := by
  rw [Nat.ofDigitChars_eq_ofDigitChars_zero]
  have hpos : 0 < 10 ^ cs.length := Nat.pow_pos (by decide)
  have hmul := Nat.le_mul_of_pos_left n hpos
  omega

theorem min_ofDigitChars (cap n : Nat) (cs : List Char) :
    min cap (Nat.ofDigitChars 10 cs (min cap n)) = min cap (Nat.ofDigitChars 10 cs n) := by
  by_cases h : n ≤ cap
  · rw [Nat.min_eq_right h]
  · have hcap : cap ≤ Nat.ofDigitChars 10 cs cap := le_ofDigitChars cap cs
    have hn : n ≤ Nat.ofDigitChars 10 cs n := le_ofDigitChars n cs
    have hmin : min cap n = cap := Nat.min_eq_left (by omega)
    rw [hmin]
    omega

theorem digitsFrom_eq_some {cap : Nat} {cs : List Char} (h : ∀ c ∈ cs, c.isDigit = true) {n : Nat}
    (hn : n ≤ cap) : digitsFrom cap n cs = some (min cap (Nat.ofDigitChars 10 cs n)) := by
  induction cs generalizing n with
  | nil => simp [digitsFrom, hn]
  | cons c cs ih =>
    obtain ⟨hc, hcs⟩ := List.forall_mem_cons.mp h
    have hd : digit? c = some (c.toNat - '0'.toNat) := digit?_eq_some_iff.mpr ⟨hc, rfl⟩
    rw [digitsFrom, hd, Nat.ofDigitChars_cons]
    change digitsFrom cap (min cap (10 * n + (c.toNat - '0'.toNat))) cs = _
    rw [ih hcs (Nat.min_le_left _ _), min_ofDigitChars]

/-! ### Numerals -/

/-- The texts of a natural number: digits with any number of zeros in front, and one plus sign
before them or none. -/
inductive Numeral : Nat → List Char → Prop where
  | plain {ds : List Char} (hne : ds ≠ []) (hd : ∀ d ∈ ds, d.isDigit = true) :
      Numeral (Nat.ofDigitChars 10 ds 0) ds
  | plus {ds : List Char} (hne : ds ≠ []) (hd : ∀ d ∈ ds, d.isDigit = true) :
      Numeral (Nat.ofDigitChars 10 ds 0) ('+' :: ds)

def unsigned? (bound : Nat) (ds : List Char) : Option Nat :=
  if ds.isEmpty then none
  else match digitsFrom bound 0 ds with
    | some n => if n < bound then some n else none
    | none => none

theorem natural?_plus (bound : Nat) (ds : List Char) :
    natural? bound ('+' :: ds) = unsigned? bound ds := rfl

theorem natural?_plain {cs : List Char} (h : ∀ ds, cs ≠ '+' :: ds) (bound : Nat) :
    natural? bound cs = unsigned? bound cs := by
  unfold natural?
  split
  · next ds => exact absurd rfl (h ds)
  · rfl

theorem unsigned?_eq_some_iff {bound n : Nat} {ds : List Char} :
    unsigned? bound ds = some n ↔
      ds ≠ [] ∧ (∀ d ∈ ds, d.isDigit = true) ∧ Nat.ofDigitChars 10 ds 0 = n ∧ n < bound := by
  cases ds with
  | nil => simp [unsigned?]
  | cons d ds =>
    by_cases hd : ∀ c ∈ d :: ds, c.isDigit = true
    · rw [unsigned?, digitsFrom_eq_some hd (Nat.zero_le bound)]
      change (if _ < bound then some _ else none) = some n ↔ _
      rw [Option.ite_none_right_eq_some, Option.some.injEq]
      -- Below the bound the capped value is the value itself.
      constructor
      · rintro ⟨hlt, hmin⟩
        exact ⟨List.cons_ne_nil d ds, hd, by omega, by omega⟩
      · rintro ⟨-, -, hv, hlt⟩
        omega
    · rw [unsigned?, digitsFrom_eq_none hd]
      simp only [List.isEmpty_cons, Bool.false_eq_true, if_false, reduceCtorEq, false_iff]
      exact fun h => hd h.2.1

theorem natural?_eq_some_iff {bound n : Nat} {cs : List Char} :
    natural? bound cs = some n ↔ Numeral n cs ∧ n < bound := by
  constructor
  · intro h
    by_cases hp : ∃ ds, cs = '+' :: ds
    · obtain ⟨ds, rfl⟩ := hp
      obtain ⟨hne, hd, rfl, hn⟩ := unsigned?_eq_some_iff.mp (natural?_plus bound ds ▸ h)
      exact ⟨.plus hne hd, hn⟩
    · rw [natural?_plain fun ds hds => hp ⟨ds, hds⟩] at h
      obtain ⟨hne, hd, rfl, hn⟩ := unsigned?_eq_some_iff.mp h
      exact ⟨.plain hne hd, hn⟩
  · rintro ⟨h, hn⟩
    cases h with
    | plain hne hd =>
      have hplain : ∀ ds, cs ≠ '+' :: ds := by
        rintro ds rfl
        exact absurd (hd '+' List.mem_cons_self) (by decide)
      rw [natural?_plain hplain]
      exact unsigned?_eq_some_iff.mpr ⟨hne, hd, rfl, hn⟩
    | plus hne hd =>
      rw [natural?_plus]
      exact unsigned?_eq_some_iff.mpr ⟨hne, hd, rfl, hn⟩

theorem Numeral.unique {m n : Nat} {cs : List Char} (hm : Numeral m cs) (hn : Numeral n cs) :
    m = n := by
  -- Any bound above both numbers lets the text be read as each of them.
  have h := natural?_eq_some_iff.mpr ⟨hm, Nat.lt_succ_of_le (Nat.le_max_left m n)⟩
  rw [natural?_eq_some_iff.mpr ⟨hn, Nat.lt_succ_of_le (Nat.le_max_right m n)⟩] at h
  exact (Option.some.inj h).symm

theorem numeral_toString (n : Nat) : Numeral n (toString n).toList := by
  have hd : ∀ d ∈ Nat.toDigits 10 n, d.isDigit = true :=
    fun d h => Nat.isDigit_of_mem_toDigits (by decide) (by decide) h
  have h := Numeral.plain Nat.toDigits_ne_nil hd
  rwa [Nat.ofDigitChars_ten_toDigits, ← String.toList_ofList (l := Nat.toDigits 10 n),
    ← Nat.toString_eq_ofList_toDigits] at h

/-! ### Blanks around a text -/

def Blanks (cs : List Char) : Prop := ∀ c ∈ cs, isBlank c = true

theorem trimStart_append {left : List Char} (h : Blanks left) (cs : List Char) :
    trimStart (left ++ cs) = trimStart cs := List.dropWhile_append_of_pos h

theorem trimEnd_append {right : List Char} (h : Blanks right) (cs : List Char) :
    trimEnd (cs ++ right) = trimEnd cs := by
  have hr : Blanks right.reverse := fun c hc => h c (List.mem_reverse.mp hc)
  rw [trimEnd, List.reverse_append, List.dropWhile_append_of_pos hr]
  rfl

theorem trim_padded {left right : List Char} (hl : Blanks left) (hr : Blanks right)
    (cs : List Char) : trim (left ++ cs ++ right) = trim cs := by
  rw [List.append_assoc, trim, trim, trimStart_append hl]
  by_cases hcs : Blanks cs
  · -- Nothing is left then, with the blanks behind it or without.
    have hall : Blanks (cs ++ right) := fun c hc => (List.mem_append.mp hc).elim (hcs c) (hr c)
    rw [trimStart, trimStart, List.dropWhile_eq_nil_iff.mpr hall, List.dropWhile_eq_nil_iff.mpr hcs]
  · have hne : ¬ (cs.dropWhile isBlank).isEmpty = true := by
      rwa [List.isEmpty_iff, List.dropWhile_eq_nil_iff]
    have hstart : trimStart (cs ++ right) = trimStart cs ++ right :=
      (List.dropWhile_append).trans (if_neg hne)
    rw [hstart, trimEnd_append hr]

theorem exists_padded (cs : List Char) :
    ∃ left right, Blanks left ∧ Blanks right ∧ left ++ trim cs ++ right = cs := by
  have hblank (l : List Char) : Blanks (l.takeWhile isBlank) :=
    fun c hc => List.mem_takeWhile_imp hc
  have hstart := List.takeWhile_append_dropWhile (p := isBlank) (l := cs)
  have hend := congrArg List.reverse
    (List.takeWhile_append_dropWhile (p := isBlank) (l := (trimStart cs).reverse))
  rw [List.reverse_append, List.reverse_reverse] at hend
  refine ⟨cs.takeWhile isBlank, ((trimStart cs).reverse.takeWhile isBlank).reverse, hblank cs,
    fun c hc => hblank _ c (List.mem_reverse.mp hc), ?_⟩
  rw [List.append_assoc, trim, trimEnd, hend]
  exact hstart

theorem trim_eq_self {cs : List Char} (h : ∀ c ∈ cs, isBlank c = false) : trim cs = cs := by
  have hdrop {l : List Char} (hl : ∀ c ∈ l, isBlank c = false) : l.dropWhile isBlank = l := by
    cases l with
    | nil => rfl
    | cons c l => simp [hl c]
  have hr : ∀ c ∈ cs.reverse, isBlank c = false := fun c hc => h c (List.mem_reverse.mp hc)
  rw [trim, trimStart, hdrop h, trimEnd, hdrop hr, List.reverse_reverse]

theorem isBlank_of_isDigit {c : Char} (h : c.isDigit = true) : isBlank c = false := by
  obtain ⟨hlow, hhigh⟩ : 48 ≤ c.toNat ∧ c.toNat ≤ 57 := Char.isDigit_iff_toNat.mp h
  simp only [isBlank, blankRanges, List.any_cons, List.any_nil, Bool.or_false, Bool.or_eq_false_iff,
    Bool.and_eq_false_iff, decide_eq_false_iff_not]
  omega

theorem Numeral.trim_eq_self {n : Nat} {cs : List Char} (h : Numeral n cs) : trim cs = cs := by
  apply Text.trim_eq_self
  cases h with
  | plain _ hd => exact fun c hc => isBlank_of_isDigit (hd c hc)
  | plus _ hd =>
    exact List.forall_mem_cons.mpr ⟨by decide, fun c hc => isBlank_of_isDigit (hd c hc)⟩

end HelperHandoff.Text
