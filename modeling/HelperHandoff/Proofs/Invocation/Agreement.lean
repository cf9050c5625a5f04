import HelperHandoff.Proofs.Invocation.Helper

/-!
The environment in the message and the environment of a started helper. They are made by two ways
from the same pairs, one as text and sorted, one byte for byte and in order, and each of them has to
choose among pairs with one name. Where all names are text they choose alike, and whoever captures
the helper's environment again gets the one in the message.
-/

set_option autoImplicit false

namespace HelperHandoff.Invocation

theorem get?_ofPairs_lossy {ps : List (Bytes × Bytes)}
    (h : ∀ v ∈ ps, (Utf8.decode? v.1).isSome) (k : String) :
    (SortedMap.ofPairs (ps.map fun v => (Utf8.lossy v.1, Utf8.lossy v.2))).get? k =
      ((SortedMap.ofPairs ps).get? (Bytes.ofString k)).map Utf8.lossy := by
  have hk : ∀ v ∈ ps.reverse,
      Utf8.lossy v.1 = Utf8.lossy (Bytes.ofString k) → v.1 = Bytes.ofString k := by
    intro v hv hl
    rw [Utf8.lossy_ofString] at hl
    exact (Utf8.isText_iff.mpr (h v (List.mem_reverse.mp hv))).lossy_eq_iff.mp hl
  have hmap := SortedMap.lookup_map Utf8.lossy Utf8.lossy hk
  rw [Utf8.lossy_ofString] at hmap
  rw [SortedMap.get?_ofPairs, SortedMap.get?_ofPairs, ← List.map_reverse, hmap]

theorem mem_keys_ofPairs_lossy {ps : List (Bytes × Bytes)}
    (h : ∀ v ∈ ps, (Utf8.decode? v.1).isSome) (name : Bytes) :
    name ∈ (SortedMap.ofPairs ps).keys ↔
      ∃ k ∈ (SortedMap.ofPairs (ps.map fun v => (Utf8.lossy v.1, Utf8.lossy v.2))).keys,
        name = Bytes.ofString k := by
  have hkeys (k : String) :
      k ∈ (SortedMap.ofPairs (ps.map fun v => (Utf8.lossy v.1, Utf8.lossy v.2))).keys ↔
        Bytes.ofString k ∈ (SortedMap.ofPairs ps).keys := by
    rw [SortedMap.mem_keys_iff, SortedMap.mem_keys_iff, get?_ofPairs_lossy h, Option.isSome_map]
  constructor
  · intro hm
    obtain ⟨v, hv, rfl⟩ := List.mem_map.mp (SortedMap.mem_keys_ofPairs.mp hm)
    obtain ⟨k, hk⟩ := Utf8.isText_iff.mpr (h v hv)
    exact ⟨k, (hkeys k).mpr (hk ▸ hm), hk.symm⟩
  · rintro ⟨k, hk, rfl⟩
    exact (hkeys k).mp hk

section Captured

variable {control : String} {p : ProcessView} {i : Invocation}

theorem environ_ofPairs (pid : UInt32) (vars : List (Bytes × Bytes)) (argv : List Bytes)
    (cwd : Bytes) :
    (ofPairs pid vars argv cwd control).environ = SortedMap.ofPairs
      ((keep control vars).map fun v => (Utf8.lossy v.1, Utf8.lossy v.2)) := rfl

theorem environ_of_capture (h : capture p control = .ok i) :
    i.environ =
      SortedMap.ofPairs (i.spawnEnv.map fun v => (Utf8.lossy v.1, Utf8.lossy v.2)) := by
  obtain ⟨cwd, -, rfl⟩ := capture_eq_ok_iff.mp h
  rfl

theorem mem_spawnEnv_of_capture (h : capture p control = .ok i) {v : Bytes × Bytes} :
    v ∈ i.spawnEnv ↔ v ∈ Environment.pairs p.env ∧ v.1 ≠ Bytes.ofString control := by
  rw [spawnEnv_of_capture h, mem_keep]

/-- The helper's environment, captured again, is what the helper was given. -/
theorem keep_pairs_render (h : capture p control = .ok i) :
    keep control (Environment.pairs
      (Environment.render (SortedMap.ofPairs i.spawnEnv).entries)) =
        (SortedMap.ofPairs i.spawnEnv).entries := by
  have hmem : ∀ v ∈ (SortedMap.ofPairs i.spawnEnv).entries,
      v ∈ Environment.pairs p.env ∧ v.1 ≠ Bytes.ofString control :=
    fun v hv => (mem_spawnEnv_of_capture h).mp (SortedMap.mem_of_mem_ofPairs hv)
  rw [Environment.pairs_render, keep, List.filter_eq_self]
  · exact fun v hv => decide_eq_true (hmem v hv).2
  · intro v hv
    obtain ⟨hne, hn, -⟩ := Environment.mem_pairs (hmem v hv).1
    exact ⟨hne, hn⟩

end Captured

/-- The helper's environment `H` and the one in the message have the same names, and the value in
the message is the text of the helper's value, which is that of the last pair with the name; nothing
else reaches the helper; and a capture in it gives the environment of the message once more. -/
theorem helper_environment_agrees (p : ProcessView) (control : String) (i : Invocation)
    (program socket : Bytes) (h : capture p control = .ok i)
    (hnames : ∀ v ∈ Environment.pairs p.env, (Utf8.decode? v.1).isSome) :
    ∃ H : SortedMap Bytes Bytes,
      (∀ own, (Command.helper program socket i.spawnEnv).entries own =
        Environment.render H.entries) ∧
      (∀ name value, H.get? name = some value ↔
        ∃ before after, i.spawnEnv = before ++ (name, value) :: after ∧
          name ∉ after.map (·.1)) ∧
      (∀ v ∈ H.entries, v ∈ Environment.pairs p.env ∧ v.1 ≠ Bytes.ofString control) ∧
      (∀ name, name ∈ H.keys ↔ ∃ k ∈ i.environ.keys, name = Bytes.ofString k) ∧
      (∀ k, i.environ.get? k = (H.get? (Bytes.ofString k)).map Utf8.lossy) ∧
      ∀ (q : ProcessView) (cwd : Bytes), ∃ j,
        capture { q with env := Environment.render H.entries, cwd := .ok cwd } control = .ok j ∧
          j.environ = i.environ ∧ j.spawnEnv = H.entries := by
  have hmem : ∀ v ∈ i.spawnEnv, v ∈ Environment.pairs p.env ∧ v.1 ≠ Bytes.ofString control :=
    fun v => (mem_spawnEnv_of_capture h).mp
  have htext : ∀ v ∈ i.spawnEnv, (Utf8.decode? v.1).isSome := fun v hv => hnames v (hmem v hv).1
  have henv := environ_of_capture h
  refine ⟨SortedMap.ofPairs i.spawnEnv, fun own => rfl,
    fun name value => SortedMap.get?_ofPairs_eq_some_iff,
    fun v hv => hmem v (SortedMap.mem_of_mem_ofPairs hv),
    fun name => henv ▸ mem_keys_ofPairs_lossy htext name,
    fun k => henv ▸ get?_ofPairs_lossy htext k,
    fun q cwd => ⟨_, rfl, ?_, keep_pairs_render h⟩⟩
  have hkept : ∀ v ∈ (SortedMap.ofPairs i.spawnEnv).entries, (Utf8.decode? v.1).isSome :=
    fun v hv => htext v (SortedMap.mem_of_mem_ofPairs hv)
  -- Both maps answer every lookup alike, the second by way of the helper's map.
  refine SortedMap.ext_get? fun k => ?_
  rw [environ_ofPairs, keep_pairs_render h, get?_ofPairs_lossy hkept, SortedMap.ofPairs_entries,
    henv, get?_ofPairs_lossy htext]

/-- One name twice, with bytes that are no text in its last value, and a name that starts with an
equals sign. -/
theorem helper_environment_agrees_duplicates :
    let p : ProcessView :=
      { pid := 1
        env := [Bytes.ofString "B=1", Bytes.ofString "=A=2", Bytes.ofString "B=" ++ [0xFF],
          Bytes.ofString "KART_USE_HELPER="]
        argv := []
        cwd := .ok []
        executable := none }
    let i := ofPairs 1 (Environment.pairs p.env) [] [] Protocol.controlVariable
    capture p Protocol.controlVariable = .ok i ∧
      (∀ v ∈ Environment.pairs p.env, (Utf8.decode? v.1).isSome) ∧
      ∃ H : SortedMap Bytes Bytes,
        (Command.helper [47] [47] i.spawnEnv).entries [] = Environment.render H.entries ∧
        H.get? (Bytes.ofString "B") = some [0xFF] ∧
        i.environ.get? "B" = (H.get? (Bytes.ofString "B")).map Utf8.lossy := by
  intro p i
  have hcapture : capture p Protocol.controlVariable = .ok i := rfl
  have hnames : ∀ v ∈ Environment.pairs p.env, (Utf8.decode? v.1).isSome := by
    have htext : ∀ v ∈ Environment.pairs p.env,
        v.1 ∈ ["B", "=A", "KART_USE_HELPER"].map Bytes.ofString := by decide
    intro v hv
    obtain ⟨s, -, hs⟩ := List.mem_map.mp (htext v hv)
    exact Option.isSome_of_eq_some (Utf8.decode?_eq_some_iff.mpr hs)
  obtain ⟨H, hentries, hlast, -, -, hvalue, -⟩ :=
    helper_environment_agrees p Protocol.controlVariable i [47] [47] hcapture hnames
  refine ⟨hcapture, hnames, H, hentries [], ?_, hvalue "B"⟩
  exact (hlast _ _).mpr ⟨i.spawnEnv.take 2, [], by decide, by decide⟩

end HelperHandoff.Invocation
