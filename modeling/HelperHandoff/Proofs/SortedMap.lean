import HelperHandoff.SortedMap
import Mathlib.Data.List.Induction
import Mathlib.Data.List.Sort

set_option autoImplicit false

namespace HelperHandoff.SortedMap

variable {κ ν : Type} [Ord κ] [Std.LawfulEqOrd κ]

omit [Std.LawfulEqOrd κ] in
theorem lookup_cons (k : κ) (e : κ × ν) (es : List (κ × ν)) :
    lookup k (e :: es) = if compare k e.1 = .eq then some e.2 else lookup k es := rfl

theorem lookup_cons_self (k : κ) (v : ν) (es : List (κ × ν)) :
    lookup k ((k, v) :: es) = some v := by
  simp [lookup]

theorem lookup_cons_ne {k : κ} {e : κ × ν} (h : k ≠ e.1) (es : List (κ × ν)) :
    lookup k (e :: es) = lookup k es := by
  rw [lookup_cons, if_neg fun hc => h (Std.LawfulEqCmp.eq_of_compare hc)]

omit [Std.LawfulEqOrd κ] in
theorem lookup_append (k : κ) (ds es : List (κ × ν)) :
    lookup k (ds ++ es) = (lookup k ds).or (lookup k es) := by
  induction ds with
  | nil => rfl
  | cons d ds ih =>
    rw [List.cons_append, lookup_cons, lookup_cons, ih]
    split <;> rfl

theorem mem_of_lookup {k : κ} {v : ν} {es : List (κ × ν)} (h : lookup k es = some v) :
    (k, v) ∈ es := by
  induction es with
  | nil => cases h
  | cons e es ih =>
    by_cases hk : k = e.1
    · subst hk
      rw [lookup_cons_self] at h
      obtain rfl := Option.some.inj h
      exact List.mem_cons_self
    · rw [lookup_cons_ne hk] at h
      exact List.mem_cons_of_mem e (ih h)

theorem lookup_eq_none_iff {k : κ} {es : List (κ × ν)} :
    lookup k es = none ↔ k ∉ es.map (·.1) := by
  induction es with
  | nil => simp [lookup]
  | cons e es ih =>
    by_cases hk : k = e.1
    · subst hk
      rw [lookup_cons_self]
      simp
    · rw [lookup_cons_ne hk, ih]
      simp [hk]

theorem lookup_of_unique {k : κ} {v : ν} {es : List (κ × ν)} (h : (k, v) ∈ es)
    (hv : ∀ w, (k, w) ∈ es → w = v) : lookup k es = some v := by
  cases hl : lookup k es with
  | none => exact absurd (List.mem_map_of_mem h) (lookup_eq_none_iff.mp hl)
  | some w => rw [hv w (mem_of_lookup hl)]

theorem lookup_eq_some_iff {k : κ} {v : ν} {es : List (κ × ν)} :
    lookup k es = some v ↔ ∃ before after, es = before ++ (k, v) :: after ∧
      k ∉ before.map (·.1) := by
  constructor
  · intro h
    induction es with
    | nil => cases h
    | cons e es ih =>
      by_cases hk : k = e.1
      · subst hk
        rw [lookup_cons_self] at h
        obtain rfl := Option.some.inj h
        exact ⟨[], es, rfl, List.not_mem_nil⟩
      · rw [lookup_cons_ne hk] at h
        obtain ⟨before, after, rfl, hb⟩ := ih h
        exact ⟨e :: before, after, rfl, by simp [hk, hb]⟩
  · rintro ⟨before, after, rfl, hb⟩
    rw [lookup_append, lookup_eq_none_iff.mpr hb, Option.none_or, lookup_cons_self]

/-- Renaming the keys and changing the values commutes with a lookup, as long as no other key takes
the name of the one looked for. -/
theorem lookup_map {κ' ν' : Type} [Ord κ'] [Std.LawfulEqOrd κ'] (f : κ → κ') (g : ν → ν') {k : κ}
    {es : List (κ × ν)} (h : ∀ e ∈ es, f e.1 = f k → e.1 = k) :
    lookup (f k) (es.map fun e => (f e.1, g e.2)) = (lookup k es).map g := by
  induction es with
  | nil => rfl
  | cons e es ih =>
    have hrest := ih fun d hd => h d (List.mem_cons_of_mem e hd)
    by_cases hk : k = e.1
    · subst hk
      rw [List.map_cons, lookup_cons_self, lookup_cons_self, Option.map_some]
    · have hf : f k ≠ f e.1 := fun he => hk (h e List.mem_cons_self he.symm).symm
      rw [List.map_cons, lookup_cons_ne hf, lookup_cons_ne hk, hrest]

theorem mem_keys_iff {m : SortedMap κ ν} {k : κ} : k ∈ m.keys ↔ (m.get? k).isSome := by
  rw [Option.isSome_iff_ne_none, ne_eq, get?, lookup_eq_none_iff, not_not]
  rfl

theorem lookup_of_mem {es : List (κ × ν)} (h : Ascending es) {e : κ × ν} (he : e ∈ es) :
    lookup e.1 es = some e.2 := by
  induction es with
  | nil => cases he
  | cons d es ih =>
    obtain ⟨hd, hes⟩ := List.pairwise_cons.mp h
    obtain rfl | he := List.mem_cons.mp he
    · exact lookup_cons_self e.1 e.2 es
    · have hlt := hd e he
      have hne : e.1 ≠ d.1 := by
        intro hk
        simp [hk] at hlt
      rw [lookup_cons_ne hne, ih hes he]

theorem get?_eq_some_iff {m : SortedMap κ ν} {k : κ} {v : ν} :
    m.get? k = some v ↔ (k, v) ∈ m.entries :=
  ⟨mem_of_lookup, fun h => lookup_of_mem m.ascending h⟩

section Ordered

variable [Std.TransOrd κ]

theorem ext_get? {m n : SortedMap κ ν} (h : ∀ k, m.get? k = n.get? k) : m = n := by
  have hirrefl : Std.Irrefl fun a b : κ × ν => compare a.1 b.1 = .lt := ⟨fun a => by simp⟩
  have hasymm : Std.Asymm fun a b : κ × ν => compare a.1 b.1 = .lt :=
    ⟨fun a b h => by simp [Std.OrientedCmp.gt_of_lt h]⟩
  refine ext (List.Pairwise.eq_of_mem_iff m.ascending n.ascending fun e => ?_)
  rw [← get?_eq_some_iff, h, get?_eq_some_iff]

theorem get?_ofPairs (ps : List (κ × ν)) (k : κ) : (ofPairs ps).get? k = lookup k ps.reverse := by
  suffices hs : ∀ m : SortedMap κ ν,
      (ps.foldl (fun m p => m.insert p.1 p.2) m).get? k = (lookup k ps.reverse).or (m.get? k) by
    have he := hs empty
    rwa [show (empty : SortedMap κ ν).get? k = none from rfl, Option.or_none] at he
  induction ps with
  | nil => intro m; rfl
  | cons p ps ih =>
    intro m
    rw [List.foldl_cons, ih, List.reverse_cons, lookup_append, Option.or_assoc]
    by_cases hk : k = p.1
    · subst hk
      rw [get?_insert_self, lookup_cons_self, Option.some_or]
    · rw [get?_insert_ne m p.2 hk, lookup_cons_ne hk]
      rfl

theorem ofPairs_entries (m : SortedMap κ ν) : ofPairs m.entries = m := by
  apply ext_get?
  intro k
  rw [get?_ofPairs]
  cases hv : m.get? k with
  | none =>
    have hk : k ∉ m.entries.map (·.1) := lookup_eq_none_iff.mp hv
    rw [lookup_eq_none_iff]
    simpa using hk
  | some v =>
    have hmem : (k, v) ∈ m.entries := mem_of_lookup hv
    refine lookup_of_unique (List.mem_reverse.mpr hmem) fun w hw => ?_
    have hget := get?_eq_some_iff.mpr (List.mem_reverse.mp hw)
    exact Option.some.inj (hget.symm.trans hv)

/-- Of the pairs with one key the last one counts. -/
theorem get?_ofPairs_eq_some_iff {ps : List (κ × ν)} {k : κ} {v : ν} :
    (ofPairs ps).get? k = some v ↔ ∃ before after, ps = before ++ (k, v) :: after ∧
      k ∉ after.map (·.1) := by
  rw [get?_ofPairs, lookup_eq_some_iff]
  constructor
  · rintro ⟨before, after, hps, hb⟩
    exact ⟨after.reverse, before.reverse, by simpa using congrArg List.reverse hps,
      by simpa using hb⟩
  · rintro ⟨before, after, rfl, ha⟩
    exact ⟨after.reverse, before.reverse, by simp, by simpa using ha⟩

theorem get?_ofPairs_map {α : Type} [DecidableEq κ] (f : α → κ) (g : α → ν) (l : List α) (k : κ) :
    (ofPairs (l.map fun a => (f a, g a))).get? k =
      ((l.filter fun a => f a = k).getLast?).map g := by
  induction l using List.reverseRecOn with
  | nil => rfl
  | append_singleton l a ih =>
    have hstep : ofPairs ((l ++ [a]).map fun a => (f a, g a)) =
        (ofPairs (l.map fun a => (f a, g a))).insert (f a) (g a) := by
      simp [ofPairs]
    by_cases hk : f a = k
    · subst hk
      rw [hstep, get?_insert_self]
      simp
    · rw [hstep, get?_insert_ne _ _ (Ne.symm hk), ih]
      simp [hk]

theorem mem_of_mem_ofPairs {ps : List (κ × ν)} {e : κ × ν} (h : e ∈ (ofPairs ps).entries) :
    e ∈ ps := by
  have hget : (ofPairs ps).get? e.1 = some e.2 := get?_eq_some_iff.mpr h
  rw [get?_ofPairs] at hget
  exact List.mem_reverse.mp (mem_of_lookup hget)

end Ordered

end HelperHandoff.SortedMap
