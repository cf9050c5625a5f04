import HelperHandoff.Proofs.Environment

/-!
Three readings of the same entries. Taking an entry apart is a cut at the first equals sign behind
byte 0 and is undone by joining; enumeration yields what is so written and passes over the rest; a
lookup takes the value of the first entry that starts with the name and an equals sign. A leading
equals sign is part of a name in all three, so they agree on which variables there are.
-/

set_option autoImplicit false

namespace HelperHandoff.Environment

open Bytes (equalsSign)

/-! ### What an entry is taken apart into -/

theorem length_split_le {entry : Bytes} (h : equalsSign ∈ entry.drop 1) {i : Nat} (hi : 1 ≤ i)
    (he : entry[i]? = some equalsSign) : (split entry).1.length ≤ i := by
  cases hs : separator? entry with
  | none => exact absurd h (separator?_eq_none_iff.mp hs)
  | some pos =>
    have hpos := (getElem?_separator hs).2 i hi he
    rw [split_of_separator? hs, List.length_take]
    omega

/-- Taking entries apart and putting pairs together undo each other. An entry is cut at the first
equals sign behind its first byte; one without such a sign is all name. -/
theorem split_inverts_join :
    (∀ entry name value : Bytes, split entry = (name, value) →
      equalsSign ∉ name.drop 1 ∧
        (equalsSign ∈ entry.drop 1 →
          name ≠ [] ∧ name ++ [equalsSign] ++ value = entry ∧
            ∀ i, 1 ≤ i → entry[i]? = some equalsSign → name.length ≤ i) ∧
        (equalsSign ∉ entry.drop 1 → name = entry ∧ value = [])) ∧
      ∀ name value : Bytes, name ≠ [] → equalsSign ∉ name.drop 1 →
        split (name ++ [equalsSign] ++ value) = (name, value) := by
  refine ⟨fun entry name value h => ?_, fun name value hne hn => ?_⟩
  · obtain rfl : (split entry).1 = name := congrArg Prod.fst h
    obtain rfl : (split entry).2 = value := congrArg Prod.snd h
    refine ⟨isName_split entry, fun hm => ?_, fun hm => ?_⟩
    · have hjoin := join_split hm
      rw [join, ← List.singleton_append, ← List.append_assoc] at hjoin
      exact ⟨split_name_ne_nil (hasSeparator_iff.mpr hm), hjoin,
        fun i hi he => length_split_le hm hi he⟩
    · rw [split_of_not_separated hm]
      exact ⟨rfl, rfl⟩
  · rw [List.append_assoc]
    exact split_join hne hn

-- `=C==` is the name `=C` with the value `=`.
example : split [61, 67, 61, 61] = ([61, 67], [61]) := by decide

/-! ### What is enumerated -/

/-- The pairs of a list of entries: one for each entry that is a name and a value with an equals
sign between them. -/
inductive Enumerates : List Bytes → List (Bytes × Bytes) → Prop where
  | nil : Enumerates [] []
  | pair {name value : Bytes} {entries : List Bytes} {ps : List (Bytes × Bytes)} (hne : name ≠ [])
      (hn : IsName name) (h : Enumerates entries ps) :
      Enumerates (join name value :: entries) ((name, value) :: ps)
  | skip {entry : Bytes} {entries : List Bytes} {ps : List (Bytes × Bytes)}
      (hs : equalsSign ∉ entry.drop 1) (h : Enumerates entries ps) :
      Enumerates (entry :: entries) ps

theorem enumerates_iff {entries : List Bytes} {ps : List (Bytes × Bytes)} :
    Enumerates entries ps ↔ pairs entries = ps := by
  constructor
  · intro h
    induction h with
    | nil => rfl
    | pair hne hn _ ih => rw [pairs_join hne hn, ih]
    | skip hs _ ih => rw [pairs_skip hs, ih]
  · rintro rfl
    induction entries with
    | nil => exact .nil
    | cons entry entries ih =>
      by_cases hs : equalsSign ∈ entry.drop 1
      · have hne := split_name_ne_nil (hasSeparator_iff.mpr hs)
        rw [← join_split hs, pairs_join hne (isName_split entry)]
        exact .pair hne (isName_split entry) ih
      · rw [pairs_skip hs]
        exact .skip hs ih

theorem pairs_eq_map_split (entries : List Bytes) :
    pairs entries = (entries.filter fun e => equalsSign ∈ e.drop 1).map split := by
  refine congrArg (List.map split) (List.filter_congr fun e _ => ?_)
  rw [hasSeparator, List.contains_eq_mem]

/-! ### What is looked up -/

/-- The first entry that starts with a name and an equals sign. -/
def entryOf (name : Bytes) (entries : List Bytes) : Option Bytes :=
  entries.find? fun e => name ++ [equalsSign] <+: e

theorem isPrefix_iff {name entry : Bytes} :
    name ++ [equalsSign] <+: entry ↔ ∃ value, entry = join name value := by
  constructor
  · rintro ⟨value, rfl⟩
    exact ⟨value, by rw [join, List.append_assoc, List.singleton_append]⟩
  · rintro ⟨value, rfl⟩
    exact ⟨value, by rw [join, List.append_assoc, List.singleton_append]⟩

theorem entryOf_eq_some_iff {name entry : Bytes} {entries : List Bytes} :
    entryOf name entries = some entry ↔ (∃ value, entry = join name value) ∧
      ∃ before after, entries = before ++ entry :: after ∧
        ∀ e ∈ before, ∀ other, e ≠ join name other := by
  simp only [entryOf, List.find?_eq_some_iff_append, decide_eq_true_eq, isPrefix_iff,
    Bool.not_eq_true', decide_eq_false_iff_not, not_exists, ne_eq]

/-- A lookup takes the value out of the first entry. -/
theorem lookup_eq_some_iff {name value : Bytes} {entries : List Bytes} :
    lookup name entries = some value ↔ entryOf name entries = some (join name value) := by
  simp only [lookup, List.findSome?_eq_some_iff, isPrefixOf?_eq_some_iff,
    isPrefixOf?_eq_none_iff, entryOf_eq_some_iff]
  constructor
  · rintro ⟨before, _, after, rfl, rfl, hb⟩
    exact ⟨⟨value, rfl⟩, before, after, rfl, hb⟩
  · rintro ⟨-, before, after, rfl, hb⟩
    exact ⟨before, _, after, rfl, rfl, hb⟩

theorem lookup_congr {name : Bytes} {entries others : List Bytes}
    (h : entryOf name entries = entryOf name others) : lookup name entries = lookup name others :=
  Option.ext fun value => by rw [lookup_eq_some_iff, lookup_eq_some_iff, h]

theorem lookup_eq_none_iff_entryOf {name : Bytes} {entries : List Bytes} :
    lookup name entries = none ↔ entryOf name entries = none := by
  rw [lookup_eq_none_iff, entryOf, List.find?_eq_none]
  simp only [decide_eq_true_eq, isPrefix_iff, not_exists, ne_eq]

theorem isSome_lookup_iff {name : Bytes} (hne : name ≠ []) (hn : IsName name)
    {entries : List Bytes} :
    (lookup name entries).isSome ↔ ∃ p ∈ pairs entries, p.1 = name := by
  rw [lookup_eq_head?, ← values_eq_pairs hne hn, List.head?_map, Option.isSome_map,
    List.isSome_head?, ne_eq, List.filter_eq_nil_iff]
  simp

theorem isSome_lookup_iff_mem {name : Bytes} {entries : List Bytes} :
    (lookup name entries).isSome ↔ ∃ value, join name value ∈ entries := by
  rw [← Option.ne_none_iff_isSome, ne_eq, lookup_eq_none_iff]
  simp

end HelperHandoff.Environment
