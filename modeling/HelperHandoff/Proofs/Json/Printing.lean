import HelperHandoff.Proofs.Json.Reading

set_option autoImplicit false

namespace HelperHandoff.Json

open Reader (hexDigit? isDigit)

/-! ### Printed values are spelled -/

theorem Spelling.bare {v : Json} {t : List Char} (h : Spelling (.value v) t) :
    Spelling (.element v) t := by
  simpa using Spelling.element blanks_nil h blanks_nil

theorem name_quoted (k : String) : Name k (quoted k) :=
  .mk blanks_nil (glyphs_escape _) blanks_nil

mutual

theorem spelling_render : ∀ v : Json, Spelling (.value v) (render v)
  | .null => .null
  | .bool true => .yes
  | .bool false => .no
  | .number d e => .number (numeral_numberText d e)
  | .string s => .string (glyphs_escape s.toList)
  | .array [] => .emptyArray blanks_nil
  | .array (v :: vs) => .array (spelling_renderItems (v :: vs) (List.cons_ne_nil v vs))
  | .object [] => .emptyObject blanks_nil
  | .object (m :: ms) => .object (spelling_renderMembers (m :: ms) (List.cons_ne_nil m ms))

theorem spelling_renderItems : ∀ vs : List Json, vs ≠ [] → Spelling (.items vs) (renderItems vs)
  | [], h => absurd rfl h
  | [v], _ => .lastItem (spelling_render v).bare
  | v :: w :: vs, _ =>
    .item (spelling_render v).bare (spelling_renderItems (w :: vs) (List.cons_ne_nil w vs))

theorem spelling_renderMembers :
    ∀ ms : List (String × Json), ms ≠ [] → Spelling (.members ms) (renderMembers ms)
  | [], h => absurd rfl h
  | [(k, v)], _ => .lastMember (name_quoted k) (spelling_render v).bare
  | (k, v) :: m :: ms, _ =>
    .member (name_quoted k) (spelling_render v).bare
      (spelling_renderMembers (m :: ms) (List.cons_ne_nil m ms))

end

theorem isText_render (v : Json) : IsText v (render v) := (spelling_render v).bare

theorem read?_render (v : Json) : read? (render v) = some v := read?_of_isText (isText_render v)

/-! ### No character below the blank -/

def Printable (cs : List Char) : Prop := ∀ c ∈ cs, 0x20 ≤ c.toNat

@[simp] theorem printable_nil : Printable [] := fun _ h => absurd h List.not_mem_nil

@[simp] theorem printable_cons {c : Char} {cs : List Char} :
    Printable (c :: cs) ↔ 0x20 ≤ c.toNat ∧ Printable cs := List.forall_mem_cons

@[simp] theorem printable_append {cs ds : List Char} :
    Printable (cs ++ ds) ↔ Printable cs ∧ Printable ds := List.forall_mem_append

theorem Digits.printable {ds : List Char} (h : Digits ds) : Printable ds := by
  intro d hd
  have hdigit := h.2 d hd
  simp only [isDigit, Bool.and_eq_true, decide_eq_true_eq] at hdigit
  exact Nat.le_trans (by decide : 0x20 ≤ '0'.toNat) hdigit.1

theorem printable_integerText (n : Int) : Printable (integerText n) := by
  by_cases h : 0 ≤ n
  · rw [integerText_nonneg h]
    exact (digits_toDigits _).printable
  · rw [integerText_neg (by omega), printable_cons]
    exact ⟨by decide, (digits_toDigits _).printable⟩

theorem printable_numberText (d e : Int) : Printable (numberText d e) := by
  unfold numberText
  split
  · exact printable_integerText d
  · rw [printable_append, printable_cons]
    exact ⟨printable_integerText d, by decide, printable_integerText e⟩

theorem toNat_of_hexDigit? {c : Char} {n : Nat} (h : hexDigit? c = some n) : 0x20 ≤ c.toNat := by
  have hc := of_hexDigit? h
  omega

theorem CodeUnit.printable {ds : List Char} {n : Nat} (h : CodeUnit ds n) : Printable ds := by
  cases h with
  | mk ha hb hc hd =>
    simp only [printable_cons, printable_nil, and_true]
    exact ⟨toNat_of_hexDigit? ha, toNat_of_hexDigit? hb, toNat_of_hexDigit? hc,
      toNat_of_hexDigit? hd⟩

theorem Glyph.printable {c : Char} {g : List Char} (h : Glyph c g) : Printable g := by
  cases h with
  | plain _ _ hc => simp [hc]
  | short hm =>
    have hall : ∀ p ∈ shortEscapes, 0x20 ≤ p.1.toNat := by simp [shortEscapes]
    simp [hall _ hm]
  | unit hu => simp [hu.printable]
  | pair hm hn => simp [hm.printable, hn.printable]

theorem Glyphs.printable {s t : List Char} (h : Glyphs s t) : Printable t := by
  induction h with
  | nil => exact printable_nil
  | cons hg _ ih => exact printable_append.mpr ⟨hg.printable, ih⟩

theorem printable_quoted (s : String) : Printable (quoted s) := by
  simp [quoted, (glyphs_escape s.toList).printable]

mutual

theorem printable_render : ∀ v : Json, Printable (render v)
  | .null => by simp [render]
  | .bool true => by simp [render]
  | .bool false => by simp [render]
  | .number d e => printable_numberText d e
  | .string s => printable_quoted s
  | .array vs => by simp [render, printable_renderItems vs]
  | .object ms => by simp [render, printable_renderMembers ms]

theorem printable_renderItems : ∀ vs : List Json, Printable (renderItems vs)
  | [] => printable_nil
  | [v] => printable_render v
  | v :: w :: vs => by simp [renderItems, printable_render v, printable_renderItems (w :: vs)]

theorem printable_renderMembers : ∀ ms : List (String × Json), Printable (renderMembers ms)
  | [] => printable_nil
  | [(k, v)] => by simp [renderMembers, printable_quoted, printable_render v]
  | (k, v) :: m :: ms => by
    simp [renderMembers, printable_quoted, printable_render v, printable_renderMembers (m :: ms)]

end

end HelperHandoff.Json
