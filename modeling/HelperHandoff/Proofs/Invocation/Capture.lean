import HelperHandoff.Proofs.Environment.Readings
import HelperHandoff.Proofs.Invocation.Helper

set_option autoImplicit false

namespace HelperHandoff.Invocation

open Bytes (equalsSign)

variable {control : String} {vars : List (Bytes × Bytes)}

theorem not_mem_keep {v : Bytes × Bytes} (h : v ∈ vars) :
    v ∉ keep control vars ↔ v.1 = Bytes.ofString control := by
  rw [mem_keep, not_and, ne_eq, not_not]
  exact ⟨fun hv => hv h, fun hv _ => hv⟩

theorem length_keep_lt_iff :
    (keep control vars).length < vars.length ↔ ∃ v ∈ vars, v.1 = Bytes.ofString control := by
  rw [keep, List.length_filter_lt_length_iff_exists]
  simp

theorem requested_iff {env : List Bytes} : requested env = true ↔
    ∃ v ∈ Environment.pairs env, v.1 = Bytes.ofString Protocol.controlVariable :=
  Environment.isSome_lookup_iff (by decide) (by decide)

theorem ofPairs_pairs (pid : UInt32) (entries argv : List Bytes) (cwd : Bytes) (control : String) :
    ofPairs pid (Environment.pairs entries) argv cwd control =
      ofEntries pid (entries.filter fun e => equalsSign ∈ e.drop 1) argv cwd control := by
  rw [ofEntries, Environment.pairs_eq_map_split]

/-- Where the working directory can be told, the environment of a captured invocation, in both its
forms, is that of the entries with an equals sign behind their first byte. The handoff is asked for
exactly if one of the pairs that are enumerated does not get into it; and that is so exactly if some
entry sets the control variable. Where the directory cannot be told, nothing is captured. -/
theorem capture_reads_alike (p : ProcessView) :
    (∀ cwd, p.cwd = .ok cwd → ∃ i ps,
      capture p Protocol.controlVariable = .ok i ∧ Environment.Enumerates p.env ps ∧
        (∀ pid argv dir,
          let j := ofEntries pid (p.env.filter fun e => equalsSign ∈ e.drop 1) argv dir
            Protocol.controlVariable
          i.environ = j.environ ∧ i.spawnEnv = j.spawnEnv) ∧
        (i.spawnEnv = ps.filter fun v => v.1 ≠ Bytes.ofString Protocol.controlVariable) ∧
        (requested p.env = true ↔ ∃ v ∈ ps, v ∉ i.spawnEnv) ∧
        (requested p.env = true ↔ i.spawnEnv.length < ps.length)) ∧
      (requested p.env = true ↔
        ∃ value, Environment.join (Bytes.ofString Protocol.controlVariable) value ∈ p.env) ∧
      ∀ e, p.cwd = .error e →
        capture p Protocol.controlVariable = .error (.setup "resolve current directory" e) := by
  refine ⟨fun cwd hcwd => ?_, Environment.isSome_lookup_iff_mem, fun e he => ?_⟩
  · refine ⟨_, Environment.pairs p.env, capture_eq_ok_iff.mpr ⟨cwd, hcwd, rfl⟩,
      Environment.enumerates_iff.mpr rfl, fun pid argv dir => ?_, rfl, ?_, ?_⟩
    · rw [← ofPairs_pairs]
      exact ⟨rfl, rfl⟩
    · rw [requested_iff, spawnEnv_ofPairs]
      exact exists_congr fun v => and_congr_right fun hv => (not_mem_keep hv).symm
    · rw [requested_iff, spawnEnv_ofPairs, length_keep_lt_iff]
  · rw [capture, he]

/-- Entries that come near to the control variable's before one that is. -/
theorem capture_reads_alike_last :
    let p : ProcessView :=
      { pid := 1
        env := ["KART_USE_HELPER", "=KART_USE_HELPER=1", "", "=", "A==", "KART_USE_HELPER="].map
          Bytes.ofString
        argv := [[107]]
        cwd := .ok [47]
        executable := none }
    ∃ i ps, capture p Protocol.controlVariable = .ok i ∧ Environment.Enumerates p.env ps ∧
      requested p.env = true ∧ i.spawnEnv.length < ps.length := by
  intro p
  obtain ⟨i, ps, hcapture, hps, -, -, -, hshorter⟩ := (capture_reads_alike p).1 [47] rfl
  have hrequested : requested p.env = true := by decide
  exact ⟨i, ps, hcapture, hps, hrequested, hshorter.mp hrequested⟩

end HelperHandoff.Invocation
