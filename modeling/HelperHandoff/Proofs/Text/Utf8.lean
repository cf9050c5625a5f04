import HelperHandoff.Text.Utf8
import Mathlib.Algebra.Group.Nat.Defs

set_option autoImplicit false

namespace HelperHandoff.Utf8

open String (utf8EncodeChar)

@[simp] theorem encode_nil : encode [] = [] := rfl

@[simp] theorem encode_cons (c : Char) (cs : List Char) :
    encode (c :: cs) = utf8EncodeChar c ++ encode cs := rfl

/-! ### One character -/

theorem scalar?_append (c : Char) (tail : Bytes) : scalar? (utf8EncodeChar c ++ tail) = some c := by
  have hc : (utf8EncodeChar c).length ≤ 4 := by
    rw [String.length_utf8EncodeChar]
    exact c.utf8Size_le_four
  simp only [scalar?, List.take_append, List.take_of_length_le hc, List.toByteArray_append]
  exact ByteArray.utf8DecodeChar?_utf8EncodeChar_append

theorem exists_of_scalar? {b : Bytes} {c : Char} (h : scalar? b = some c) :
    ∃ tail, b = utf8EncodeChar c ++ tail := by
  obtain ⟨l, hl⟩ := ByteArray.exists_of_utf8DecodeChar?_eq_some h
  have ht : b.take 4 = utf8EncodeChar c ++ l.data.toList := by
    have hd := congrArg (fun a => a.data.toList) hl
    simpa using hd
  refine ⟨l.data.toList ++ b.drop 4, ?_⟩
  rw [← List.append_assoc, ← ht, List.take_append_drop]

theorem next_of_eq_append {b : UInt8} {rest tail : Bytes} {c : Char}
    (h : b :: rest = utf8EncodeChar c ++ tail) : next b rest = (some c, tail) := by
  have hs : scalar? (b :: rest) = some c := by rw [h, scalar?_append]
  have hd := congrArg (List.drop c.utf8Size) h
  rw [← String.length_utf8EncodeChar, List.drop_left, String.length_utf8EncodeChar] at hd
  have hp := c.utf8Size_pos
  obtain ⟨n, hn⟩ : ∃ n, c.utf8Size = n + 1 := ⟨c.utf8Size - 1, by omega⟩
  rw [hn, List.drop_succ_cons] at hd
  simp [next, hs, hn, hd]

theorem eq_append_of_next {b : UInt8} {rest : Bytes} {c : Char} (h : (next b rest).1 = some c) :
    b :: rest = utf8EncodeChar c ++ (next b rest).2 := by
  cases hs : scalar? (b :: rest) with
  | none => simp [next, hs] at h
  | some d =>
    obtain rfl : d = c := by simpa [next, hs] using h
    obtain ⟨tail, ht⟩ := exists_of_scalar? hs
    rw [next_of_eq_append ht]
    exact ht

/-! ### Whole texts -/

theorem pieces_append (c : Char) (tail : Bytes) :
    pieces (utf8EncodeChar c ++ tail) = some c :: pieces tail := by
  cases h : utf8EncodeChar c ++ tail with
  | nil =>
    have hne : utf8EncodeChar c ≠ [] := String.utf8EncodeChar_ne_nil
    simp [hne] at h
  | cons b rest => rw [pieces_cons, next_of_eq_append h.symm]

theorem pieces_encode (cs : List Char) : pieces (encode cs) = cs.map some := by
  induction cs with
  | nil => simp
  | cons c cs ih => rw [encode_cons, pieces_append, ih, List.map_cons]

theorem encode_of_pieces {cs : List Char} {b : Bytes} (h : pieces b = cs.map some) :
    encode cs = b := by
  induction cs generalizing b with
  | nil =>
    cases b with
    | nil => rfl
    | cons x rest => simp [pieces_cons] at h
  | cons c cs ih =>
    cases b with
    | nil => simp at h
    | cons x rest =>
      rw [pieces_cons, List.map_cons, List.cons.injEq] at h
      rw [encode_cons, ih h.2, ← eq_append_of_next h.1]

theorem mapM_id_eq_some_iff {l : List (Option Char)} {cs : List Char} :
    l.mapM id = some cs ↔ l = cs.map some := by
  induction l generalizing cs with
  | nil => cases cs <;> simp
  | cons p l ih =>
    cases cs with
    | nil => cases p <;> cases hl : l.mapM id <;> simp [List.mapM_cons, hl]
    | cons c cs =>
      rw [List.map_cons, List.cons.injEq, ← ih]
      cases p <;> cases hl : l.mapM id <;> simp [List.mapM_cons, hl]

theorem decode?_eq_some_iff {b : Bytes} {s : String} :
    decode? b = some s ↔ encode s.toList = b := by
  rw [decode?, Option.map_eq_some_iff]
  constructor
  · rintro ⟨cs, hcs, rfl⟩
    rw [String.toList_ofList]
    exact encode_of_pieces (mapM_id_eq_some_iff.mp hcs)
  · rintro rfl
    exact ⟨s.toList, mapM_id_eq_some_iff.mpr (pieces_encode _), String.ofList_toList⟩

theorem decode?_encode (cs : List Char) : decode? (encode cs) = some (String.ofList cs) :=
  decode?_eq_some_iff.mpr (by rw [String.toList_ofList])

theorem encode_injective {cs ds : List Char} (h : encode cs = encode ds) : cs = ds := by
  have hd := decode?_encode cs
  rw [h, decode?_encode, Option.some.injEq, String.ofList_inj] at hd
  exact hd.symm

/-- Characters are never cut: what starts like a text at a whole character starts the text. -/
theorem isPrefix_of_encode {cs ds : List Char} (h : encode cs <+: encode ds) : cs <+: ds := by
  induction cs generalizing ds with
  | nil => exact List.nil_prefix
  | cons c cs ih =>
    obtain ⟨tail, ht⟩ := h
    rw [encode_cons, List.append_assoc] at ht
    cases ds with
    | nil => simp at ht
    | cons d ds =>
      have hp := congrArg pieces ht
      rw [encode_cons, pieces_append, pieces_append] at hp
      obtain rfl : c = d := Option.some.inj (List.cons.inj hp).1
      rw [encode_cons, List.append_cancel_left_eq] at ht
      exact List.cons_prefix_cons.mpr ⟨rfl, ih ⟨tail, ht⟩⟩

/-! ### Lossy reading -/

theorem lossy_ofString (s : String) : lossy (Bytes.ofString s) = s := by
  rw [lossy, Bytes.ofString, pieces_encode]
  simp [Function.comp_def]

theorem ofString_injective {s t : String} (h : Bytes.ofString s = Bytes.ofString t) : s = t :=
  String.toList_inj.mp (encode_injective h)

def IsText (b : Bytes) : Prop := ∃ s : String, Bytes.ofString s = b

theorem isText_iff {b : Bytes} : IsText b ↔ (decode? b).isSome := by
  rw [Option.isSome_iff_exists]
  exact exists_congr fun s => decode?_eq_some_iff.symm

instance (b : Bytes) : Decidable (IsText b) := decidable_of_iff _ isText_iff.symm

theorem decode?_eq_none_iff {b : Bytes} : decode? b = none ↔ ¬ IsText b := by
  rw [isText_iff, Option.not_isSome_iff_eq_none]

theorem isText_of_mem_map {b : Bytes} {texts : List String} (h : b ∈ texts.map Bytes.ofString) :
    IsText b := by
  obtain ⟨s, -, hs⟩ := List.mem_map.mp h
  exact ⟨s, hs⟩

theorem IsText.ofString_lossy {b : Bytes} (h : IsText b) : Bytes.ofString (lossy b) = b := by
  obtain ⟨s, rfl⟩ := h
  rw [lossy_ofString]

theorem IsText.lossy_eq_iff {b : Bytes} (h : IsText b) {s : String} :
    lossy b = s ↔ b = Bytes.ofString s := by
  constructor
  · rintro rfl
    exact h.ofString_lossy.symm
  · rintro rfl
    exact lossy_ofString s

theorem mapM_id_eq_none_iff {l : List (Option Char)} : l.mapM id = none ↔ none ∈ l := by
  induction l with
  | nil => simp
  | cons p l ih =>
    rw [List.mem_cons, ← ih]
    cases p <;> cases hl : l.mapM id <;> simp [List.mapM_cons, hl]

theorem replacement_mem_lossy {b : Bytes} (h : decode? b = none) :
    replacement ∈ (lossy b).toList := by
  rw [decode?, Option.map_eq_none_iff, mapM_id_eq_none_iff] at h
  rw [lossy, String.toList_ofList]
  exact List.mem_map.mpr ⟨none, h, rfl⟩

/-! ### The bytes of a text, and their order -/

def units (n : Nat) : List Nat :=
  if n < 0x80 then [n]
  else if n < 0x800 then [0xC0 + n / 64, 0x80 + n % 64]
  else if n < 0x10000 then [0xE0 + n / 4096, 0x80 + n / 64 % 64, 0x80 + n % 64]
  else [0xF0 + n / 262144, 0x80 + n / 4096 % 64, 0x80 + n / 64 % 64, 0x80 + n % 64]

theorem toNat_tagged {x mask tag : UInt8} (i a : Nat) (hm : mask.toNat = 2 ^ i - 1)
    (ht : tag.toNat = 2 ^ i * a) : (x &&& mask ||| tag).toNat = 2 ^ i * a + x.toNat % 2 ^ i := by
  rw [UInt8.toNat_or, UInt8.toNat_and, hm, ht, Nat.and_two_pow_sub_one_eq_mod, Nat.or_comm,
    Nat.two_pow_add_eq_or_of_lt (Nat.mod_lt _ (Nat.two_pow_pos i))]

theorem toNat_shifted (c : Char) {s : UInt32} (k : Nat) (hs : s.toNat % 32 = k) :
    (c.val >>> s).toUInt8.toNat = c.toNat / 2 ^ k % 256 := by
  rw [UInt32.toNat_toUInt8, UInt32.toNat_shiftRight, hs, Nat.shiftRight_eq_div_pow]
  rfl

theorem map_toNat_utf8EncodeChar (c : Char) :
    (utf8EncodeChar c).map UInt8.toNat = units c.toNat := by
  have hmax : c.toNat < 0x110000 := by
    obtain h | h := c.valid
    · exact Nat.lt_trans h (by decide)
    · exact h.2
  have s0 : c.val.toUInt8.toNat = c.toNat % 256 := UInt32.toNat_toUInt8 _
  have s6 : (c.val >>> 6).toUInt8.toNat = c.toNat / 64 % 256 := toNat_shifted c 6 rfl
  have s12 : (c.val >>> 12).toUInt8.toNat = c.toNat / 4096 % 256 := toNat_shifted c 12 rfl
  have s18 : (c.val >>> 18).toUInt8.toNat = c.toNat / 262144 % 256 := toNat_shifted c 18 rfl
  have tail (x : UInt8) : (x &&& 63 ||| 128).toNat = 128 + x.toNat % 64 := toNat_tagged 6 2 rfl rfl
  obtain h | h | h | h := c.utf8Size_eq
  · have hn : c.toNat ≤ 127 := Char.utf8Size_eq_one_iff.mp h
    rw [String.utf8EncodeChar_eq_singleton h, units, if_pos (by omega)]
    simp only [List.map_cons, List.map_nil, s0, List.cons.injEq, and_true]
    omega
  · have hn : 127 < c.toNat ∧ c.toNat ≤ 2047 := Char.utf8Size_eq_two_iff.mp h
    have lead (x : UInt8) : (x &&& 31 ||| 192).toNat = 192 + x.toNat % 32 :=
      toNat_tagged 5 6 rfl rfl
    rw [String.utf8EncodeChar_eq_cons_cons h, units, if_neg (by omega), if_pos (by omega)]
    simp only [List.map_cons, List.map_nil, lead, tail, s0, s6, List.cons.injEq, and_true]
    omega
  · have hn : 2047 < c.toNat ∧ c.toNat ≤ 65535 := Char.utf8Size_eq_three_iff.mp h
    have lead (x : UInt8) : (x &&& 15 ||| 224).toNat = 224 + x.toNat % 16 :=
      toNat_tagged 4 14 rfl rfl
    rw [String.utf8EncodeChar_eq_cons_cons_cons h, units, if_neg (by omega), if_neg (by omega),
      if_pos (by omega)]
    simp only [List.map_cons, List.map_nil, lead, tail, s0, s6, s12, List.cons.injEq, and_true]
    omega
  · have hn : 65535 < c.toNat := Char.utf8Size_eq_four_iff.mp h
    have lead (x : UInt8) : (x &&& 7 ||| 240).toNat = 240 + x.toNat % 8 :=
      toNat_tagged 3 30 rfl rfl
    rw [String.utf8EncodeChar_eq_cons_cons_cons_cons h, units, if_neg (by omega),
      if_neg (by omega), if_neg (by omega)]
    simp only [List.map_cons, List.map_nil, lead, tail, s0, s6, s12, s18, List.cons.injEq,
      and_true]
    omega

theorem le_of_mem_units {m n u : Nat} (hm : m ≤ 0x80) (hn : m ≤ n) (hu : u ∈ units n) : m ≤ u := by
  unfold units at hu
  split at hu
  · rw [List.mem_singleton] at hu
    omega
  · -- Every byte of a longer character is 128 at least.
    suffices h : 0x80 ≤ u by omega
    split at hu
    · simp only [List.mem_cons, List.not_mem_nil, or_false] at hu
      omega
    · split at hu <;> simp only [List.mem_cons, List.not_mem_nil, or_false] at hu <;> omega

/-- A byte below 128 is a character by itself, and no part of another. -/
theorem exists_of_mem_encode {cs : List Char} {b : UInt8} (hb : b.toNat < 0x80)
    (h : b ∈ encode cs) : ∃ c ∈ cs, c.toNat = b.toNat := by
  obtain ⟨c, hc, hbc⟩ := List.mem_flatMap.mp h
  have hu : b.toNat ∈ units c.toNat := by
    rw [← map_toNat_utf8EncodeChar]
    exact List.mem_map_of_mem hbc
  by_cases hn : c.toNat < 0x80
  · rw [units, if_pos hn, List.mem_singleton] at hu
    exact ⟨c, hc, hu.symm⟩
  · have hle := le_of_mem_units (Nat.le_refl 0x80) (Nat.le_of_not_lt hn) hu
    omega

theorem le_of_mem_encode {m : Nat} {cs : List Char} (hm : m ≤ 0x80) (h : ∀ c ∈ cs, m ≤ c.toNat) :
    ∀ b ∈ encode cs, m ≤ b.toNat := by
  intro b hb
  obtain ⟨c, hc, hbc⟩ := List.mem_flatMap.mp hb
  refine le_of_mem_units hm (h c hc) ?_
  rw [← map_toNat_utf8EncodeChar]
  exact List.mem_map_of_mem hbc

/-- A longer character starts with a greater byte, and of two of one length the bytes are digits
to the base 64. -/
theorem units_lt {m n : Nat} (h : m < n) (s t : List Nat) : units m ++ s < units n ++ t := by
  by_cases h1 : m < 0x80
  · by_cases k1 : n < 0x80
    · simp only [units, if_pos h1, if_pos k1, List.cons_append, List.cons_lt_cons_iff]
      exact .inl h
    · simp only [units, if_pos h1, if_neg k1]
      split <;> (try split) <;> simp only [List.cons_append, List.cons_lt_cons_iff] <;> omega
  · have k1 : ¬ n < 0x80 := by omega
    by_cases h2 : m < 0x800
    · simp only [units, if_neg h1, if_pos h2, if_neg k1]
      split <;> (try split) <;> simp only [List.cons_append, List.cons_lt_cons_iff] <;> omega
    · have k2 : ¬ n < 0x800 := by omega
      simp only [units, if_neg h1, if_neg h2, if_neg k1, if_neg k2]
      split <;> (try split) <;> simp only [List.cons_append, List.cons_lt_cons_iff] <;> omega

theorem lt_of_map_toNat {a b : Bytes} (h : a.map UInt8.toNat < b.map UInt8.toNat) : a < b := by
  induction a generalizing b with
  | nil =>
    cases b with
    | nil => simp at h
    | cons y b => exact List.nil_lt_cons y b
  | cons x a ih =>
    cases b with
    | nil => simp at h
    | cons y b =>
      rw [List.map_cons, List.map_cons, List.cons_lt_cons_iff] at h
      rw [List.cons_lt_cons_iff]
      obtain h | ⟨hxy, h⟩ := h
      · exact .inl (UInt8.lt_iff_toNat_lt.mpr h)
      · exact .inr ⟨UInt8.toNat_inj.mp hxy, ih h⟩

theorem encode_lt {cs ds : List Char} (h : cs < ds) : encode cs < encode ds := by
  induction cs generalizing ds with
  | nil =>
    cases ds with
    | nil => simp at h
    | cons d ds =>
      obtain ⟨x, rest, hx⟩ := List.exists_cons_of_ne_nil (String.utf8EncodeChar_ne_nil (c := d))
      rw [encode_cons, hx]
      exact List.nil_lt_cons x _
  | cons c cs ih =>
    cases ds with
    | nil => simp at h
    | cons d ds =>
      obtain hcd | ⟨rfl, hlt⟩ := List.cons_lt_cons_iff.mp h
      · apply lt_of_map_toNat
        simp only [encode_cons, List.map_append, map_toNat_utf8EncodeChar]
        exact units_lt (UInt32.lt_iff_toNat_lt.mp hcd) _ _
      · exact List.append_left_lt (ih hlt)

theorem ofString_lt {s t : String} (h : compare s t = .lt) :
    Bytes.ofString s < Bytes.ofString t := by
  have hc : compareOfLessAndEq s t = .lt := h
  rw [compareOfLessAndEq_eq_lt] at hc
  exact encode_lt hc

end HelperHandoff.Utf8
