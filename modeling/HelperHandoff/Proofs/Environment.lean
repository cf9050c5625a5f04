import HelperHandoff.Environment
import Mathlib.Data.List.Basic
import Mathlib.Data.List.TakeWhile
import Mathlib.Tactic.ByContra

set_option autoImplicit false

namespace HelperHandoff.Environment

open Bytes (equalsSign)

/-- A name that an entry can be split into. -/
def IsName (name : Bytes) : Prop := equalsSign ∉ name.drop 1

instance (name : Bytes) : Decidable (IsName name) := inferInstanceAs (Decidable (_ ∉ _))

theorem hasSeparator_iff {entry : Bytes} :
    hasSeparator entry = true ↔ equalsSign ∈ entry.drop 1 := List.contains_iff_mem

/-! ### Where an entry is cut -/

def separator? (entry : Bytes) : Option Nat := (entry.drop 1).findIdx? (· = equalsSign)

theorem separator?_eq_none_iff {entry : Bytes} :
    separator? entry = none ↔ equalsSign ∉ entry.drop 1 := by
  rw [separator?, List.findIdx?_eq_none_iff]
  constructor
  · intro h hm
    simpa using h _ hm
  · intro h x hx
    exact decide_eq_false fun he => h (he ▸ hx)

theorem split_of_separator? {entry : Bytes} {pos : Nat} (h : separator? entry = some pos) :
    split entry = (entry.take (pos + 1), entry.drop (pos + 2)) := by
  cases entry with
  | nil => simp [separator?] at h
  | cons b rest =>
    have hpos : rest.findIdx (· = equalsSign) = pos := by
      have hi : rest.findIdx? (· = equalsSign) = some pos := h
      rw [List.findIdx?_eq_some_iff_findIdx_eq] at hi
      exact hi.2
    have htake : rest.takeWhile (· ≠ equalsSign) = rest.take pos := by
      rw [List.takeWhile_eq_take_findIdx_not]
      simp [hpos]
    have hdrop : rest.dropWhile (· ≠ equalsSign) = rest.drop pos := by
      rw [List.dropWhile_eq_drop_findIdx_not]
      simp [hpos]
    rw [split, htake, hdrop, List.drop_drop]
    rfl

theorem split_of_not_separated {entry : Bytes} (h : equalsSign ∉ entry.drop 1) :
    split entry = (entry, []) := by
  cases entry with
  | nil => rfl
  | cons b rest =>
    have hall : ∀ x ∈ rest, decide (x ≠ equalsSign) = true := fun x hx =>
      decide_eq_true fun he => h (he ▸ hx)
    rw [split, List.takeWhile_eq_self_iff.mpr hall, List.dropWhile_eq_nil_iff.mpr hall]
    rfl

theorem getElem?_separator {entry : Bytes} {pos : Nat} (h : separator? entry = some pos) :
    entry[pos + 1]? = some equalsSign ∧
      ∀ i, 1 ≤ i → entry[i]? = some equalsSign → pos + 1 ≤ i := by
  obtain ⟨hlt, hat, hbefore⟩ := List.findIdx?_eq_some_iff_getElem.mp h
  have hget (i : Nat) : (entry.drop 1)[i]? = entry[i + 1]? := by
    rw [List.getElem?_drop, Nat.add_comm]
  refine ⟨?_, fun i hi he => ?_⟩
  · rw [← hget, List.getElem?_eq_getElem hlt, of_decide_eq_true hat]
  · by_contra hn
    obtain ⟨j, rfl⟩ : ∃ j, i = j + 1 := ⟨i - 1, by omega⟩
    have hj : j < pos := by omega
    rw [← hget, List.getElem?_eq_getElem (Nat.lt_trans hj hlt)] at he
    exact hbefore j hj (decide_eq_true (Option.some.inj he))

/-! ### Splitting and joining -/

theorem isName_split (entry : Bytes) : IsName (split entry).1 := by
  cases entry with
  | nil => exact List.not_mem_nil
  | cons b rest =>
    intro h
    have hx := List.mem_takeWhile_imp (h : equalsSign ∈ rest.takeWhile (· ≠ equalsSign))
    simp at hx

theorem split_name_ne_nil {entry : Bytes} (h : hasSeparator entry = true) :
    (split entry).1 ≠ [] := by
  cases entry with
  | nil => simp [hasSeparator] at h
  | cons b rest => simp [split]

theorem join_split {entry : Bytes} (h : equalsSign ∈ entry.drop 1) :
    join (split entry).1 (split entry).2 = entry := by
  cases hs : separator? entry with
  | none => exact absurd h (separator?_eq_none_iff.mp hs)
  | some pos =>
    obtain ⟨hlt, hat⟩ := List.getElem?_eq_some_iff.mp (getElem?_separator hs).1
    have hdrop : entry.drop (pos + 1) = equalsSign :: entry.drop (pos + 2) := by
      rw [List.drop_eq_getElem_cons hlt, hat]
    rw [split_of_separator? hs, join, ← hdrop, List.take_append_drop]

theorem split_join {name value : Bytes} (hne : name ≠ []) (hn : IsName name) :
    split (join name value) = (name, value) := by
  obtain ⟨b, name, rfl⟩ := List.exists_cons_of_ne_nil hne
  have hall : ∀ x ∈ name, decide (x ≠ equalsSign) = true := fun x hx =>
    decide_eq_true fun he => hn (he ▸ hx)
  have htake : (name ++ equalsSign :: value).takeWhile (· ≠ equalsSign) = name := by
    rw [List.takeWhile_append_of_pos hall]
    simp
  have hdrop : (name ++ equalsSign :: value).dropWhile (· ≠ equalsSign) = equalsSign :: value := by
    rw [List.dropWhile_append_of_pos hall]
    simp
  rw [join, List.cons_append, split, htake, hdrop]
  rfl

theorem split_name_iff {entry name : Bytes} (hne : name ≠ []) (hsep : equalsSign ∉ name.drop 1) :
    (split entry).1 = name ↔ entry = name ∨ ∃ value, entry = join name value := by
  constructor
  · rintro rfl
    by_cases hs : equalsSign ∈ entry.drop 1
    · exact .inr ⟨_, (join_split hs).symm⟩
    · rw [split_of_not_separated hs]
      exact .inl rfl
  · rintro (rfl | ⟨value, rfl⟩)
    · rw [split_of_not_separated hsep]
    · rw [split_join hne hsep]

theorem hasSeparator_join {name : Bytes} (hne : name ≠ []) (value : Bytes) :
    hasSeparator (join name value) = true := by
  obtain ⟨b, name, rfl⟩ := List.exists_cons_of_ne_nil hne
  simp [hasSeparator, join]

theorem name_eq_of_join_eq {name other value rest : Bytes} (hn : IsName name) (ho : IsName other)
    (hne : other ≠ []) (hhead : other.head? ≠ some equalsSign)
    (h : join name value = join other rest) : name = other := by
  by_cases he : name = []
  · subst he
    obtain ⟨b, tail, rfl⟩ := List.exists_cons_of_ne_nil hne
    obtain ⟨rfl, -⟩ := List.cons.inj h
    exact absurd rfl hhead
  · have hs : split (join name value) = (name, value) := split_join he hn
    rw [h, split_join hne ho] at hs
    exact (congrArg Prod.fst hs).symm

theorem mem_of_mem_split {entry : Bytes} {x : UInt8}
    (h : x ∈ (split entry).1 ∨ x ∈ (split entry).2) : x ∈ entry := by
  by_cases hs : equalsSign ∈ entry.drop 1
  · rw [← join_split hs, join, List.mem_append, List.mem_cons]
    exact h.imp_right .inr
  · rw [split_of_not_separated hs] at h
    simpa using h

/-! ### Whole environments -/

theorem mem_pairs {p : Bytes × Bytes} {entries : List Bytes} (h : p ∈ pairs entries) :
    p.1 ≠ [] ∧ IsName p.1 ∧ ∃ entry ∈ entries, split entry = p := by
  obtain ⟨entry, he, rfl⟩ := List.mem_map.mp h
  obtain ⟨hm, hs⟩ := List.mem_filter.mp he
  exact ⟨split_name_ne_nil hs, isName_split entry, entry, hm, rfl⟩

theorem pairs_join {name : Bytes} (hne : name ≠ []) (hn : IsName name) (value : Bytes)
    (entries : List Bytes) :
    pairs (join name value :: entries) = (name, value) :: pairs entries := by
  rw [pairs, List.filter_cons_of_pos (hasSeparator_join hne value), List.map_cons,
    split_join hne hn]
  rfl

theorem pairs_skip {entry : Bytes} (h : equalsSign ∉ entry.drop 1) (entries : List Bytes) :
    pairs (entry :: entries) = pairs entries := by
  have hs : ¬ hasSeparator entry = true := fun hs => h (hasSeparator_iff.mp hs)
  rw [pairs, List.filter_cons_of_neg hs]
  rfl

theorem pairs_render {ps : List (Bytes × Bytes)} (h : ∀ p ∈ ps, p.1 ≠ [] ∧ IsName p.1) :
    pairs (render ps) = ps := by
  induction ps with
  | nil => rfl
  | cons p ps ih =>
    obtain ⟨⟨hne, hn⟩, hps⟩ := List.forall_mem_cons.mp h
    rw [render, List.map_cons, pairs_join hne hn]
    exact congrArg (p :: ·) (ih hps)

theorem isPrefixOf?_eq_some_iff {name value entry : Bytes} :
    (name ++ [equalsSign]).isPrefixOf? entry = some value ↔ entry = join name value := by
  simp only [List.isPrefixOf?_eq_some_iff_append_eq, join, List.append_assoc,
    List.singleton_append, eq_comm]

theorem isPrefixOf?_eq_none_iff {name entry : Bytes} :
    (name ++ [equalsSign]).isPrefixOf? entry = none ↔ ∀ value, entry ≠ join name value := by
  simp only [Option.eq_none_iff_forall_ne_some, ne_eq, isPrefixOf?_eq_some_iff]

theorem lookup_eq_none_iff {name : Bytes} {entries : List Bytes} :
    lookup name entries = none ↔ ∀ entry ∈ entries, ∀ value, entry ≠ join name value := by
  simp only [lookup, List.findSome?_eq_none_iff, isPrefixOf?_eq_none_iff]

/-! ### The entries with one name -/

/-- The values of a name, entry by entry. -/
def values (name : Bytes) (entries : List Bytes) : List Bytes :=
  entries.filterMap (List.isPrefixOf? (name ++ [equalsSign]))

theorem lookup_eq_head? (name : Bytes) (entries : List Bytes) :
    lookup name entries = (values name entries).head? := List.head?_filterMap.symm

/-- Those who enumerate the environment and then look for a name come upon the same values. -/
theorem values_eq_pairs {name : Bytes} (hne : name ≠ []) (hn : IsName name)
    (entries : List Bytes) :
    ((pairs entries).filter fun p => p.1 = name).map (·.2) = values name entries := by
  induction entries with
  | nil => rfl
  | cons entry entries ih =>
    rw [values] at ih ⊢
    cases hv : (name ++ [equalsSign]).isPrefixOf? entry with
    | some value =>
      obtain rfl := isPrefixOf?_eq_some_iff.mp hv
      rw [pairs_join hne hn, List.filter_cons_of_pos (by simp), List.map_cons, ih,
        List.filterMap_cons_some hv]
    | none =>
      rw [List.filterMap_cons_none hv, ← ih]
      by_cases hs : equalsSign ∈ entry.drop 1
      · -- The entry has a name of its own, or it would start with the one looked for.
        have hname := isName_split entry
        have hname_ne := split_name_ne_nil (hasSeparator_iff.mpr hs)
        have hother : ¬ (split entry).1 = name := by
          rintro rfl
          exact isPrefixOf?_eq_none_iff.mp hv _ (join_split hs).symm
        rw [← join_split hs, pairs_join hname_ne hname,
          List.filter_cons_of_neg (by simpa using hother)]
      · rw [pairs_skip hs]

theorem lookup_render_eq_none {name : Bytes} {ps : List (Bytes × Bytes)} (hne : name ≠ [])
    (hn : IsName name) (hhead : name.head? ≠ some equalsSign)
    (h : ∀ p ∈ ps, IsName p.1 ∧ p.1 ≠ name) : lookup name (render ps) = none := by
  rw [lookup_eq_none_iff]
  rintro entry he value rfl
  obtain ⟨p, hp, hj⟩ := List.mem_map.mp he
  obtain ⟨hpn, hpne⟩ := h p hp
  exact hpne (name_eq_of_join_eq hpn hn hne hhead hj)

end HelperHandoff.Environment
