import HelperHandoff.Json.Printer
import HelperHandoff.Proofs.Json.Grammar

set_option autoImplicit false

namespace HelperHandoff.Json

open Reader

def NoDigit (cs : List Char) : Prop := ∀ c rest, cs = c :: rest → isDigit c = false

/-- No number goes on here. -/
def Stops (cs : List Char) : Prop :=
  ∀ c rest, cs = c :: rest → isDigit c = false ∧ c ≠ '.' ∧ c ≠ 'e' ∧ c ≠ 'E'

theorem Stops.noDigit {cs : List Char} (h : Stops cs) : NoDigit cs :=
  fun c rest hc => (h c rest hc).1

theorem digitsValue_eq (n : Nat) (ds : List Char) :
    digitsValue n ds = Nat.ofDigitChars 10 ds n := by
  rw [Nat.ofDigitChars_eq_foldl]
  rfl

/-! ### Runs of digits -/

theorem takeWhile_noDigit {rest : List Char} (h : NoDigit rest) : rest.takeWhile isDigit = [] := by
  cases rest with
  | nil => rfl
  | cons c rest => simp [h c rest rfl]

theorem dropWhile_noDigit {rest : List Char} (h : NoDigit rest) :
    rest.dropWhile isDigit = rest := by
  cases rest with
  | nil => rfl
  | cons c rest => simp [h c rest rfl]

theorem noDigit_dropWhile (cs : List Char) : NoDigit (cs.dropWhile isDigit) := by
  intro c rest h
  have hd := List.head?_dropWhile_not isDigit cs
  rw [h] at hd
  simpa using hd

theorem digits_append {ds rest : List Char} (hd : Digits ds) (hr : NoDigit rest) :
    digits (ds ++ rest) = some (ds, rest) := by
  obtain ⟨d, ds', rfl⟩ := List.exists_cons_of_ne_nil hd.1
  rw [digits, List.takeWhile_append_of_pos hd.2, List.dropWhile_append_of_pos hd.2,
    takeWhile_noDigit hr, dropWhile_noDigit hr, List.append_nil]

theorem Digits.append_ne {ds : List Char} (hd : Digits ds) {c : Char} (hc : isDigit c = false)
    (rest tail : List Char) : ds ++ rest ≠ c :: tail := by
  obtain ⟨d, ds', rfl⟩ := List.exists_cons_of_ne_nil hd.1
  rintro h
  have hdc : isDigit d = true := hd.2 d (by simp)
  rw [(List.cons.inj h).1, hc] at hdc
  cases hdc

theorem of_digits {cs ds rest : List Char} (h : digits cs = some (ds, rest)) :
    Digits ds ∧ NoDigit rest ∧ cs = ds ++ rest := by
  rw [digits] at h
  split at h
  · cases h
  · next hne =>
    obtain ⟨rfl, rfl⟩ := Prod.mk.inj (Option.some.inj h)
    refine ⟨⟨hne, ?_⟩, noDigit_dropWhile cs, (List.takeWhile_append_dropWhile).symm⟩
    intro d hd
    exact List.all_eq_true.mp List.all_takeWhile d hd

/-! ### The parts of a number -/

theorem wholePart_append {ds rest : List Char} (hw : Whole ds) (hr : NoDigit rest) :
    wholePart (ds ++ rest) = some (ds, rest) := by
  rw [wholePart, digits_append hw.1 hr]
  split
  · next h => exact absurd (Prod.mk.inj (Option.some.inj h)).1 (hw.2 _ _)
  · rfl

theorem of_wholePart {cs ds rest : List Char} (h : wholePart cs = some (ds, rest)) :
    Whole ds ∧ cs = ds ++ rest := by
  rw [wholePart] at h
  split at h
  · cases h
  · next hz =>
    obtain ⟨hd, -, hc⟩ := of_digits h
    refine ⟨⟨hd, ?_⟩, hc⟩
    rintro d ds' rfl
    exact hz _ _ _ h

theorem fraction_append {part f rest : List Char} (hf : Fraction part f) (hr : NoDigit rest)
    (hp : ∀ tail, rest ≠ '.' :: tail) : fraction (f ++ rest) = some (part, rest) := by
  cases hf with
  | absent =>
    unfold fraction
    split
    · next tail h => exact absurd h (hp tail)
    · rfl
  | present hd => exact digits_append hd hr

theorem of_fraction {cs part rest : List Char} (h : fraction cs = some (part, rest)) :
    ∃ f, Fraction part f ∧ cs = f ++ rest := by
  unfold fraction at h
  split at h
  · obtain ⟨hd, -, rfl⟩ := of_digits h
    exact ⟨_, .present hd, rfl⟩
  · obtain ⟨rfl, rfl⟩ := Prod.mk.inj (Option.some.inj h)
    exact ⟨[], .absent, rfl⟩

def signed (sign : Int) (cs : List Char) : Option (Int × List Char) :=
  (digits cs).map fun p => (sign * decimal p.1, p.2)

theorem signed_append {ds rest : List Char} (sign : Int) (hd : Digits ds) (hr : NoDigit rest) :
    signed sign (ds ++ rest) = some (sign * decimal ds, rest) := by
  rw [signed, digits_append hd hr, Option.map_some]

theorem of_signed {cs rest : List Char} {sign e : Int} (h : signed sign cs = some (e, rest)) :
    ∃ ds, Digits ds ∧ e = sign * decimal ds ∧ cs = ds ++ rest := by
  obtain ⟨⟨ds, rest'⟩, hp, he⟩ := Option.map_eq_some_iff.mp h
  obtain ⟨rfl, rfl⟩ := Prod.mk.inj he
  obtain ⟨hd, -, hc⟩ := of_digits hp
  exact ⟨ds, hd, rfl, hc⟩

theorem exponent_plus {e : Char} (he : e = 'e' ∨ e = 'E') (cs : List Char) :
    exponent (e :: '+' :: cs) = signed 1 cs := by
  obtain rfl | rfl := he <;> simp only [exponent, signed, digitsValue_eq, decimal]

theorem exponent_minus {e : Char} (he : e = 'e' ∨ e = 'E') (cs : List Char) :
    exponent (e :: '-' :: cs) = signed (-1) cs := by
  obtain rfl | rfl := he <;> simp only [exponent, signed, digitsValue_eq, decimal]

theorem exponent_bare {e : Char} (he : e = 'e' ∨ e = 'E') {cs : List Char}
    (hp : ∀ tail, cs ≠ '+' :: tail) (hm : ∀ tail, cs ≠ '-' :: tail) :
    exponent (e :: cs) = signed 1 cs := by
  obtain rfl | rfl := he <;> simp only [exponent, signed, digitsValue_eq, decimal]

theorem exponent_absent {cs : List Char} (h : ∀ e tail, cs = e :: tail → e ≠ 'e' ∧ e ≠ 'E') :
    exponent cs = some (0, cs) := by
  unfold exponent
  split
  · exact absurd rfl (h _ _ rfl).1
  · exact absurd rfl (h _ _ rfl).2
  · rfl

theorem exponent_append {e : Int} {x rest : List Char} (hx : Exponent e x) (hr : Stops rest) :
    exponent (x ++ rest) = some (e, rest) := by
  cases hx with
  | absent => exact exponent_absent fun c tail h => (hr c tail h).2.2
  | bare hc hd =>
    rw [List.cons_append, exponent_bare hc (hd.append_ne rfl rest) (hd.append_ne rfl rest),
      signed_append 1 hd hr.noDigit, Int.one_mul]
  | plus hc hd =>
    rw [List.cons_append, List.cons_append, exponent_plus hc, signed_append 1 hd hr.noDigit,
      Int.one_mul]
  | minus hc hd =>
    rw [List.cons_append, List.cons_append, exponent_minus hc, signed_append (-1) hd hr.noDigit,
      Int.neg_one_mul]

theorem of_exponent {cs rest : List Char} {e : Int} (h : exponent cs = some (e, rest)) :
    ∃ x, Exponent e x ∧ cs = x ++ rest := by
  by_cases hm : ∃ c tail, cs = c :: tail ∧ (c = 'e' ∨ c = 'E')
  · obtain ⟨c, tail, rfl, hc⟩ := hm
    by_cases hp : ∃ ds, tail = '+' :: ds
    · obtain ⟨ds, rfl⟩ := hp
      rw [exponent_plus hc] at h
      obtain ⟨ds, hd, rfl, rfl⟩ := of_signed h
      exact ⟨_, by rw [Int.one_mul]; exact .plus hc hd, rfl⟩
    · by_cases hn : ∃ ds, tail = '-' :: ds
      · obtain ⟨ds, rfl⟩ := hn
        rw [exponent_minus hc] at h
        obtain ⟨ds, hd, rfl, rfl⟩ := of_signed h
        exact ⟨_, by rw [Int.neg_one_mul]; exact .minus hc hd, rfl⟩
      · rw [exponent_bare hc (fun ds hd => hp ⟨ds, hd⟩) (fun ds hd => hn ⟨ds, hd⟩)] at h
        obtain ⟨ds, hd, rfl, rfl⟩ := of_signed h
        exact ⟨_, by rw [Int.one_mul]; exact .bare hc hd, rfl⟩
  · have ha : exponent cs = some (0, cs) := exponent_absent fun c tail ht => by
      refine ⟨fun he => hm ⟨c, tail, ht, .inl he⟩, fun he => hm ⟨c, tail, ht, .inr he⟩⟩
    rw [ha] at h
    obtain ⟨rfl, rfl⟩ := Prod.mk.inj (Option.some.inj h)
    exact ⟨[], .absent, rfl⟩

/-! ### Whole numbers of the grammar -/

def unsigned (sign : Int) (cs : List Char) : Option (Json × List Char) :=
  match wholePart cs with
  | none => none
  | some (whole, rest) =>
    match fraction rest with
    | none => none
    | some (part, rest) =>
      match exponent rest with
      | none => none
      | some (e, rest) =>
        some (.number (sign * digitsValue 0 (whole ++ part)) (e - part.length), rest)

theorem numeral_minus (cs : List Char) : numeral ('-' :: cs) = unsigned (-1) cs := rfl

theorem numeral_plain {cs : List Char} (h : ∀ tail, cs ≠ '-' :: tail) :
    numeral cs = unsigned 1 cs := by
  unfold numeral
  split
  next sign body hsign =>
    split at hsign
    · next tail => exact absurd rfl (h tail)
    · obtain ⟨rfl, rfl⟩ := Prod.mk.inj hsign
      rfl

theorem Fraction.noDigit {part f rest : List Char} (hf : Fraction part f) (hr : NoDigit rest) :
    NoDigit (f ++ rest) := by
  cases hf with
  | absent => exact hr
  | present hd =>
    rintro c tail h
    obtain rfl := (List.cons.inj h).1
    rfl

theorem Exponent.noDigit {e : Int} {x rest : List Char} (hx : Exponent e x) (hr : Stops rest) :
    NoDigit (x ++ rest) := by
  cases hx with
  | absent => exact hr.noDigit
  | bare hc _ | plus hc _ | minus hc _ =>
    rintro c tail h
    obtain rfl := (List.cons.inj h).1
    obtain rfl | rfl := hc <;> rfl

theorem Exponent.noPoint {e : Int} {x rest : List Char} (hx : Exponent e x) (hr : Stops rest) :
    ∀ tail, x ++ rest ≠ '.' :: tail := by
  cases hx with
  | absent => exact fun tail h => (hr _ tail h).2.1 rfl
  | bare hc _ | plus hc _ | minus hc _ =>
    rintro tail h
    obtain rfl := (List.cons.inj h).1
    simp at hc

theorem unsigned_append {ds part f x rest : List Char} {e : Int} (sign : Int) (hw : Whole ds)
    (hf : Fraction part f) (hx : Exponent e x) (hr : Stops rest) :
    unsigned sign (ds ++ (f ++ (x ++ rest))) =
      some (.number (sign * decimal (ds ++ part)) (e - part.length), rest) := by
  have hxd := hx.noDigit hr
  simp only [unsigned, wholePart_append hw (hf.noDigit hxd), fraction_append hf hxd (hx.noPoint hr),
    exponent_append hx hr, digitsValue_eq, decimal]

theorem of_unsigned {cs rest : List Char} {v : Json} {sign : Int}
    (h : unsigned sign cs = some (v, rest)) :
    ∃ ds part f x e, Whole ds ∧ Fraction part f ∧ Exponent e x ∧
      v = .number (sign * decimal (ds ++ part)) (e - part.length) ∧
      cs = ds ++ (f ++ (x ++ rest)) := by
  unfold unsigned at h
  split at h
  · cases h
  · next ds rest₁ hw =>
    split at h
    · cases h
    · next part rest₂ hf =>
      split at h
      · cases h
      · next e rest₃ hx =>
        obtain ⟨rfl, rfl⟩ := Prod.mk.inj (Option.some.inj h)
        obtain ⟨hds, rfl⟩ := of_wholePart hw
        obtain ⟨f, hpart, rfl⟩ := of_fraction hf
        obtain ⟨x, he, rfl⟩ := of_exponent hx
        exact ⟨ds, part, f, x, e, hds, hpart, he, by rw [digitsValue_eq, decimal], rfl⟩

theorem numeral_append {d e : Int} {t rest : List Char} (h : Numeral d e t) (hr : Stops rest) :
    numeral (t ++ rest) = some (.number d e, rest) := by
  cases h with
  | plain hw hf hx =>
    rw [List.append_assoc, List.append_assoc, numeral_plain (hw.1.append_ne rfl _),
      unsigned_append 1 hw hf hx hr, Int.one_mul]
  | minus hw hf hx =>
    rw [List.cons_append, List.append_assoc, List.append_assoc, numeral_minus,
      unsigned_append (-1) hw hf hx hr, Int.neg_one_mul]

theorem of_numeral {cs rest : List Char} {v : Json} (h : numeral cs = some (v, rest)) :
    ∃ d e t, Numeral d e t ∧ v = .number d e ∧ cs = t ++ rest := by
  by_cases hm : ∃ tail, cs = '-' :: tail
  · obtain ⟨tail, rfl⟩ := hm
    rw [numeral_minus] at h
    obtain ⟨ds, part, f, x, e, hw, hf, hx, rfl, rfl⟩ := of_unsigned h
    rw [Int.neg_one_mul]
    exact ⟨_, _, _, .minus hw hf hx, rfl, by simp⟩
  · rw [numeral_plain fun tail ht => hm ⟨tail, ht⟩] at h
    obtain ⟨ds, part, f, x, e, hw, hf, hx, rfl, rfl⟩ := of_unsigned h
    rw [Int.one_mul]
    exact ⟨_, _, _, .plain hw hf hx, rfl, by simp⟩

/-! ### Printed numbers -/

theorem toDigits_ne_zero_cons {n : Nat} (hn : 0 < n) (rest : List Char) :
    Nat.toDigits 10 n ≠ '0' :: rest := by
  induction n using Nat.strongRecOn generalizing rest with
  | ind n ih =>
    by_cases hlt : n < 10
    · rw [Nat.toDigits_of_lt_base hlt]
      rintro h
      have hz : n.digitChar = '0' := (List.cons.inj h).1
      have hne : ∀ m < 10, 0 < m → m.digitChar ≠ '0' := by decide
      exact hne n hlt hn hz
    · -- The leading digit is that of the quotient, which is smaller and not zero either.
      have hq : 0 < n / 10 := by omega
      rw [Nat.toDigits_of_base_le (by decide) (by omega)]
      obtain ⟨d, ds, hd⟩ := List.exists_cons_of_ne_nil (Nat.toDigits_ne_nil (n := n / 10) (b := 10))
      rw [hd]
      rintro h
      obtain rfl : d = '0' := (List.cons.inj h).1
      exact ih (n / 10) (by omega) hq ds hd

theorem digits_toDigits (n : Nat) : Digits (Nat.toDigits 10 n) := by
  refine ⟨Nat.toDigits_ne_nil, fun d hd => ?_⟩
  exact Nat.isDigit_of_mem_toDigits (by decide) (by decide) hd

theorem whole_toDigits (n : Nat) : Whole (Nat.toDigits 10 n) := by
  refine ⟨digits_toDigits n, fun d rest h => ?_⟩
  by_cases hn : n = 0
  · subst hn
    simp at h
  · exact toDigits_ne_zero_cons (by omega) _ h

theorem decimal_toDigits (n : Nat) : decimal (Nat.toDigits 10 n) = n :=
  Nat.ofDigitChars_ten_toDigits

theorem integerText_nonneg {n : Int} (h : 0 ≤ n) : integerText n = Nat.toDigits 10 n.toNat := by
  have hr : toString n = n.toNat.repr := (Int.repr_eq_if).trans (if_pos h)
  rw [integerText, hr, Nat.repr, String.toList_ofList]

theorem integerText_neg {n : Int} (h : n < 0) :
    integerText n = '-' :: Nat.toDigits 10 (-n).toNat := by
  have hr : toString n = "-" ++ (-n).toNat.repr := (Int.repr_eq_if).trans (if_neg (by omega))
  simp [integerText, hr, Nat.repr]

theorem exponent_integerText {e : Char} (he : e = 'e' ∨ e = 'E') (n : Int) :
    Exponent n (e :: integerText n) := by
  by_cases h : 0 ≤ n
  · have hx := Exponent.bare he (digits_toDigits n.toNat)
    rw [decimal_toDigits, Int.toNat_of_nonneg h] at hx
    rw [integerText_nonneg h]
    exact hx
  · have hn : n < 0 := by omega
    have hx := Exponent.minus he (digits_toDigits (-n).toNat)
    rw [decimal_toDigits, Int.toNat_of_nonneg (by omega), Int.neg_neg] at hx
    rw [integerText_neg hn]
    exact hx

theorem numeral_integerText (n : Int) {e : Int} {x : List Char} (hx : Exponent e x) :
    Numeral n e (integerText n ++ x) := by
  by_cases h : 0 ≤ n
  · have hnum := Numeral.plain (whole_toDigits n.toNat) .absent hx
    rw [List.append_nil, decimal_toDigits, Int.toNat_of_nonneg h] at hnum
    rw [integerText_nonneg h]
    simpa using hnum
  · have hn : n < 0 := by omega
    have hnum := Numeral.minus (whole_toDigits (-n).toNat) .absent hx
    rw [List.append_nil, decimal_toDigits, Int.toNat_of_nonneg (by omega), Int.neg_neg] at hnum
    rw [integerText_neg hn]
    simpa using hnum

theorem numeral_numberText (d e : Int) : Numeral d e (numberText d e) := by
  unfold numberText
  split
  · next he =>
    subst he
    simpa using numeral_integerText d .absent
  · exact numeral_integerText d (exponent_integerText (.inl rfl) e)

end HelperHandoff.Json
