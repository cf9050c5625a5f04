set_option autoImplicit false

namespace HelperHandoff

/-- The keys ascend strictly, hence none occurs twice. -/
def Ascending {κ ν : Type} [Ord κ] (entries : List (κ × ν)) : Prop :=
  entries.Pairwise fun a b => compare a.1 b.1 = .lt

structure SortedMap (κ ν : Type) [Ord κ] where
  entries : List (κ × ν)
  ascending : Ascending entries

namespace SortedMap

variable {κ ν : Type} [Ord κ]

@[ext] theorem ext {m n : SortedMap κ ν} (h : m.entries = n.entries) : m = n := by
  cases m; cases n; cases h; rfl

def empty : SortedMap κ ν := ⟨[], .nil⟩

def place (k : κ) (v : ν) : List (κ × ν) → List (κ × ν)
  | [] => [(k, v)]
  | e :: es =>
    match compare k e.1 with
    | .lt => (k, v) :: e :: es
    | .eq => (k, v) :: es
    | .gt => e :: place k v es

theorem mem_place {k : κ} {v : ν} {es : List (κ × ν)} {e : κ × ν} (h : e ∈ place k v es) :
    e = (k, v) ∨ e ∈ es := by
  induction es with
  | nil => simpa [place] using h
  | cons f es ih =>
    simp only [place] at h
    split at h
    · simpa using h
    · rcases List.mem_cons.1 h with h | h
      · exact .inl h
      · exact .inr (List.mem_cons_of_mem _ h)
    · rcases List.mem_cons.1 h with h | h
      · exact .inr (by simp [h])
      · exact (ih h).imp id (List.mem_cons_of_mem _)

section Ordered

variable [Std.TransOrd κ] [Std.LawfulEqOrd κ]

theorem ascending_place (k : κ) (v : ν) {es : List (κ × ν)} (h : Ascending es) :
    Ascending (place k v es) := by
  induction es with
  | nil => simp [place, Ascending]
  | cons f es ih =>
    obtain ⟨hf, hes⟩ := List.pairwise_cons.1 h
    simp only [place]
    split
    · next hc =>
      refine List.pairwise_cons.2 ⟨fun e he => ?_, h⟩
      rcases List.mem_cons.1 he with rfl | he
      · exact hc
      · exact Std.TransCmp.lt_trans hc (hf e he)
    · next hc =>
      have hk : k = f.1 := Std.LawfulEqCmp.eq_of_compare hc
      exact List.pairwise_cons.2 ⟨fun e he => by simpa [hk] using hf e he, hes⟩
    · next hc =>
      refine List.pairwise_cons.2 ⟨fun e he => ?_, ih hes⟩
      rcases mem_place he with rfl | he
      · exact Std.OrientedCmp.lt_of_gt hc
      · exact hf e he

def insert (m : SortedMap κ ν) (k : κ) (v : ν) : SortedMap κ ν :=
  ⟨place k v m.entries, ascending_place k v m.ascending⟩

/-- Binds the pairs one after the other, so the last pair with a key decides. -/
def ofPairs (ps : List (κ × ν)) : SortedMap κ ν :=
  ps.foldl (fun m p => m.insert p.1 p.2) empty

end Ordered

def lookup (k : κ) : List (κ × ν) → Option ν
  | [] => none
  | e :: es => if compare k e.1 = .eq then some e.2 else lookup k es

def get? (m : SortedMap κ ν) (k : κ) : Option ν := lookup k m.entries

def keys (m : SortedMap κ ν) : List κ := m.entries.map (·.1)

section Lookup

variable [Std.LawfulEqOrd κ]

theorem lookup_place_self (k : κ) (v : ν) (es : List (κ × ν)) :
    lookup k (place k v es) = some v := by
  induction es with
  | nil => simp [place, lookup]
  | cons f es ih =>
    simp only [place]
    split
    · simp [lookup]
    · simp [lookup]
    · next hc => simp [lookup, hc, ih]

theorem lookup_place_ne {k j : κ} (v : ν) (es : List (κ × ν)) (hj : j ≠ k) :
    lookup j (place k v es) = lookup j es := by
  have hne : compare j k ≠ .eq := fun h => hj (Std.LawfulEqCmp.eq_of_compare h)
  induction es with
  | nil => simp [place, lookup, hne]
  | cons f es ih =>
    simp only [place]
    split
    · simp [lookup, hne]
    · next hc =>
      have hk : k = f.1 := Std.LawfulEqCmp.eq_of_compare hc
      simp [lookup, hne, ← hk]
    · simp [lookup, ih]

theorem mem_keys_place {k j : κ} {v : ν} {es : List (κ × ν)} :
    j ∈ (place k v es).map (·.1) ↔ j = k ∨ j ∈ es.map (·.1) := by
  induction es with
  | nil => simp [place]
  | cons f es ih =>
    simp only [place]
    split
    · simp
    · next hc =>
      obtain rfl : k = f.1 := Std.LawfulEqCmp.eq_of_compare hc
      simp
    · simp only [List.map_cons, List.mem_cons, ih]
      exact or_left_comm

variable [Std.TransOrd κ]

theorem get?_insert_self (m : SortedMap κ ν) (k : κ) (v : ν) : (m.insert k v).get? k = some v :=
  lookup_place_self k v m.entries

theorem get?_insert_ne (m : SortedMap κ ν) {k j : κ} (v : ν) (hj : j ≠ k) :
    (m.insert k v).get? j = m.get? j :=
  lookup_place_ne v m.entries hj

theorem mem_keys_insert {m : SortedMap κ ν} {k j : κ} {v : ν} :
    j ∈ (m.insert k v).keys ↔ j = k ∨ j ∈ m.keys := mem_keys_place

theorem mem_keys_ofPairs {ps : List (κ × ν)} {j : κ} :
    j ∈ (ofPairs ps).keys ↔ j ∈ ps.map (·.1) := by
  suffices h : ∀ m : SortedMap κ ν,
      j ∈ (ps.foldl (fun m p => m.insert p.1 p.2) m).keys ↔ j ∈ m.keys ∨ j ∈ ps.map (·.1) by
    have he := h empty
    simpa [ofPairs, keys, empty] using he
  induction ps with
  | nil => simp
  | cons p ps ih =>
    intro m
    rw [List.foldl_cons, ih, mem_keys_insert, List.map_cons, List.mem_cons, or_assoc]
    exact or_left_comm

end Lookup

end SortedMap

end HelperHandoff
