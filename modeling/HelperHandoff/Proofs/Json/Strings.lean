import HelperHandoff.Json.Printer
import HelperHandoff.Proofs.Json.Grammar

set_option autoImplicit false

namespace HelperHandoff.Json

open Reader

/-! ### Code units -/

theorem of_hexDigit? {c : Char} {n : Nat} (h : hexDigit? c = some n) :
    (0x30 ≤ c.toNat ∧ c.toNat ≤ 0x39 ∧ n = c.toNat - 0x30) ∨
    (0x61 ≤ c.toNat ∧ c.toNat ≤ 0x66 ∧ n = c.toNat - 0x61 + 10) ∨
    (0x41 ≤ c.toNat ∧ c.toNat ≤ 0x46 ∧ n = c.toNat - 0x41 + 10) := by
  unfold hexDigit? at h
  split at h
  · next hc => exact .inl ⟨hc.1, hc.2, (Option.some.inj h).symm⟩
  · split at h
    · next hc => exact .inr (.inl ⟨hc.1, hc.2, (Option.some.inj h).symm⟩)
    · split at h
      · next hc => exact .inr (.inr ⟨hc.1, hc.2, (Option.some.inj h).symm⟩)
      · cases h

theorem hexDigit?_lt {c : Char} {n : Nat} (h : hexDigit? c = some n) : n < 16 := by
  have hc := of_hexDigit? h
  omega

theorem CodeUnit.lt {ds : List Char} {n : Nat} (h : CodeUnit ds n) : n < 0x10000 := by
  cases h with
  | mk ha hb hc hd =>
    have hi := hexDigit?_lt ha
    have hj := hexDigit?_lt hb
    have hk := hexDigit?_lt hc
    have hl := hexDigit?_lt hd
    omega

theorem hexFour_append {ds : List Char} {n : Nat} (h : CodeUnit ds n) (rest : List Char) :
    hexFour (ds ++ rest) = some (n, rest) := by
  cases h with
  | mk ha hb hc hd => simp [hexFour, ha, hb, hc, hd]

theorem of_hexFour {cs rest : List Char} {n : Nat} (h : hexFour cs = some (n, rest)) :
    ∃ ds, CodeUnit ds n ∧ cs = ds ++ rest := by
  unfold hexFour at h
  split at h
  · next a b c d tail =>
    split at h
    · next ha hb hc hd =>
      obtain ⟨rfl, rfl⟩ := Prod.mk.inj (Option.some.inj h)
      exact ⟨_, .mk ha hb hc hd, rfl⟩
    · cases h
  · cases h

theorem isHigh_iff {n : Nat} : isHigh n = true ↔ 0xD800 ≤ n ∧ n ≤ 0xDBFF := by
  rw [isHigh, Bool.and_eq_true, decide_eq_true_iff, decide_eq_true_iff]

theorem isLow_iff {n : Nat} : isLow n = true ↔ 0xDC00 ≤ n ∧ n ≤ 0xDFFF := by
  rw [isLow, Bool.and_eq_true, decide_eq_true_iff, decide_eq_true_iff]

theorem toNat_not_surrogate (c : Char) : ¬(0xD800 ≤ c.toNat ∧ c.toNat ≤ 0xDFFF) := by
  have hv : c.toNat < 0xD800 ∨ 0xDFFF < c.toNat ∧ c.toNat < 0x110000 := c.valid
  omega

theorem toNat_ofNat {n : Nat} (h : n < 0xD800 ∨ 0xDFFF < n ∧ n < 0x110000) :
    (Char.ofNat n).toNat = n := by
  have hv : n.isValidChar := h
  rw [Char.ofNat, dif_pos hv]
  rfl

theorem unitEscape_unit {c : Char} {ds : List Char} (h : CodeUnit ds c.toNat) (rest : List Char) :
    unitEscape (ds ++ rest) = some (c, rest) := by
  have hs := toNat_not_surrogate c
  have hl : ¬isLow c.toNat = true := by rw [isLow_iff]; omega
  have hh : ¬isHigh c.toNat = true := by rw [isHigh_iff]; omega
  simp only [unitEscape, hexFour_append h, if_neg hl, if_neg hh, Char.ofNat_toNat]

theorem unitEscape_pair {c : Char} {ds es : List Char} {m n : Nat} (hm : CodeUnit ds m)
    (hn : CodeUnit es n) (high : 0xD800 ≤ m ∧ m ≤ 0xDBFF) (low : 0xDC00 ≤ n ∧ n ≤ 0xDFFF)
    (hc : c.toNat = 0x10000 + (m - 0xD800) * 0x400 + (n - 0xDC00)) (rest : List Char) :
    unitEscape (ds ++ '\\' :: 'u' :: (es ++ rest)) = some (c, rest) := by
  have hl : ¬isLow m = true := by rw [isLow_iff]; omega
  simp only [unitEscape, hexFour_append hm, if_neg hl, if_pos (isHigh_iff.mpr high),
    hexFour_append hn, if_pos (isLow_iff.mpr low), ← hc, Char.ofNat_toNat]

theorem of_unitEscape {cs rest : List Char} {c : Char} (h : unitEscape cs = some (c, rest)) :
    ∃ g, Glyph c ('\\' :: 'u' :: g) ∧ cs = g ++ rest := by
  unfold unitEscape at h
  split at h
  · cases h
  · next m rest₁ hm =>
    obtain ⟨ds, hds, rfl⟩ := of_hexFour hm
    have hlt := hds.lt
    split at h
    · cases h
    · next hlow =>
      rw [isLow_iff] at hlow
      split at h
      · next hhigh =>
        rw [isHigh_iff] at hhigh
        split at h
        · next rest₂ =>
          split at h
          · next n rest₃ hn =>
            obtain ⟨es, hes, rfl⟩ := of_hexFour hn
            split at h
            · next hl =>
              rw [isLow_iff] at hl
              obtain ⟨rfl, rfl⟩ := Prod.mk.inj (Option.some.inj h)
              have hc := toNat_ofNat (n := 0x10000 + (m - 0xD800) * 0x400 + (n - 0xDC00)) (by omega)
              exact ⟨_, .pair hds hes hhigh hl hc, by simp⟩
            · cases h
          · cases h
        · cases h
      · next hhigh =>
        rw [isHigh_iff] at hhigh
        obtain ⟨rfl, rfl⟩ := Prod.mk.inj (Option.some.inj h)
        have hc := toNat_ofNat (n := m) (by omega)
        exact ⟨ds, .unit (by rw [hc]; exact hds), rfl⟩

/-! ### Characters -/

theorem escaped_short {letter c : Char} (h : (letter, c) ∈ shortEscapes) (rest : List Char) :
    escaped (letter :: rest) = some (c, rest) := by
  simp only [shortEscapes, List.mem_cons, Prod.mk.injEq, List.not_mem_nil, or_false] at h
  rcases h with ⟨rfl, rfl⟩ | ⟨rfl, rfl⟩ | ⟨rfl, rfl⟩ | ⟨rfl, rfl⟩ | ⟨rfl, rfl⟩ | ⟨rfl, rfl⟩ |
    ⟨rfl, rfl⟩ | ⟨rfl, rfl⟩ <;> rfl

theorem escaped_unit (cs : List Char) : escaped ('u' :: cs) = unitEscape cs := rfl

theorem of_escaped {cs rest : List Char} {c : Char} (h : escaped cs = some (c, rest)) :
    ∃ g, Glyph c ('\\' :: g) ∧ cs = g ++ rest := by
  unfold escaped at h
  split at h
  case h_9 =>
    obtain ⟨g, hg, rfl⟩ := of_unitEscape h
    exact ⟨_, hg, rfl⟩
  case h_10 => cases h
  all_goals
    obtain ⟨rfl, rfl⟩ := Prod.mk.inj (Option.some.inj h)
    exact ⟨_, .short (by decide), rfl⟩

theorem stringBody_quote (fuel : Nat) (found rest : List Char) :
    stringBody (fuel + 1) found ('"' :: rest) = some (String.ofList found.reverse, rest) := by
  rw [stringBody, if_pos rfl]

theorem stringBody_escaped {c : Char} {cs rest : List Char} (h : escaped cs = some (c, rest))
    (fuel : Nat) (found : List Char) :
    stringBody (fuel + 1) found ('\\' :: cs) = stringBody fuel (c :: found) rest := by
  rw [stringBody, if_neg (by decide), if_pos rfl, h]

theorem Glyph.stringBody {c : Char} {g : List Char} (h : Glyph c g) (fuel : Nat)
    (found rest : List Char) :
    stringBody (fuel + 1) found (g ++ rest) = Reader.stringBody fuel (c :: found) rest := by
  cases h with
  | plain hq hb hc =>
    have hlow : ¬c.toNat < 0x20 := by omega
    rw [List.singleton_append, Reader.stringBody, if_neg hq, if_neg hb, if_neg hlow]
  | short hm => exact stringBody_escaped (escaped_short hm rest) fuel found
  | unit hu =>
    exact stringBody_escaped ((escaped_unit _).trans (unitEscape_unit hu rest)) fuel found
  | pair hm hn high low hc =>
    simp only [List.cons_append, List.append_assoc]
    have hu := unitEscape_pair hm hn high low hc rest
    exact stringBody_escaped ((escaped_unit _).trans hu) fuel found

theorem Glyph.length_pos {c : Char} {g : List Char} (h : Glyph c g) : 0 < g.length := by
  cases h <;> simp

/-! ### Whole strings -/

theorem stringBody_append {s t : List Char} (h : Glyphs s t) {fuel : Nat} (hf : t.length < fuel)
    (found rest : List Char) :
    stringBody fuel found (t ++ '"' :: rest) = some (String.ofList (found.reverse ++ s), rest) := by
  induction h generalizing fuel found with
  | nil =>
    obtain ⟨fuel, rfl⟩ := Nat.exists_eq_add_one_of_ne_zero (Nat.ne_zero_of_lt hf)
    rw [List.nil_append, stringBody_quote, List.append_nil]
  | @cons c s g t hg ht ih =>
    obtain ⟨fuel, rfl⟩ := Nat.exists_eq_add_one_of_ne_zero (Nat.ne_zero_of_lt hf)
    have hpos := hg.length_pos
    rw [List.length_append] at hf
    rw [List.append_assoc, hg.stringBody, ih (by omega)]
    simp

theorem of_stringBody {fuel : Nat} {found cs rest : List Char} {s : String}
    (h : stringBody fuel found cs = some (s, rest)) :
    ∃ chars t, Glyphs chars t ∧ s = String.ofList (found.reverse ++ chars) ∧
      cs = t ++ '"' :: rest := by
  induction fuel generalizing found cs with
  | zero => simp [stringBody] at h
  | succ fuel ih =>
    cases cs with
    | nil => simp [stringBody] at h
    | cons c tail =>
      -- The first character is read as the text of some `d`, and the rest follows it.
      have step : ∀ {d : Char} {g after : List Char}, Glyph d g → c :: tail = g ++ after →
          stringBody fuel (d :: found) after = some (s, rest) →
          ∃ chars t, Glyphs chars t ∧ s = String.ofList (found.reverse ++ chars) ∧
            c :: tail = t ++ '"' :: rest := by
        intro d g after hg hc hrest
        obtain ⟨chars, t, ht, rfl, rfl⟩ := ih hrest
        refine ⟨d :: chars, g ++ t, .cons hg ht, by simp, by simp [hc]⟩
      rw [stringBody] at h
      split at h
      · next hq =>
        subst hq
        obtain ⟨rfl, rfl⟩ := Prod.mk.inj (Option.some.inj h)
        exact ⟨[], [], .nil, by simp, rfl⟩
      · next hq =>
        split at h
        · next hb =>
          subst hb
          split at h
          · next d after he =>
            obtain ⟨g, hg, rfl⟩ := of_escaped he
            exact step hg rfl h
          · cases h
        · next hb =>
          split at h
          · cases h
          · next hlow => exact step (.plain hq hb (by omega)) rfl h

/-! ### Printed strings -/

theorem hexDigit?_digitChar {n : Nat} (h : n < 16) : hexDigit? n.digitChar = some n := by
  have hall : ∀ m < 16, hexDigit? m.digitChar = some m := by decide
  exact hall n h

theorem codeUnit_hexPair {n : Nat} (h : n < 256) : CodeUnit ('0' :: '0' :: hexPair n) n := by
  have hu : CodeUnit ('0' :: '0' :: hexPair n) (((0 * 16 + 0) * 16 + n / 16) * 16 + n % 16) :=
    .mk rfl rfl (hexDigit?_digitChar (by omega)) (hexDigit?_digitChar (by omega))
  have hn : ((0 * 16 + 0) * 16 + n / 16) * 16 + n % 16 = n := by omega
  rw [hn] at hu
  exact hu

theorem glyph_escape (c : Char) : Glyph c (escape c) := by
  unfold escape
  iterate 7
    split
    · next h => subst h; exact .short (by decide)
  split
  · next hlow => exact .unit (codeUnit_hexPair (by omega))
  · next hq hb _ _ _ _ _ hlow => exact .plain hq hb (by omega)

theorem glyphs_escape (s : List Char) : Glyphs s (s.flatMap escape) := by
  induction s with
  | nil => exact .nil
  | cons c s ih => exact .cons (glyph_escape c) ih

end HelperHandoff.Json
